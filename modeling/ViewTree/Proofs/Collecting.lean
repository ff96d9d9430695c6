import Mathlib.Data.List.Forall2

/-!
Collecting from lists. Main statements: a function that takes the elements of a list one by one is a
`flatMap` (`flatMap_of_cons`), a traversal succeeds if each of its steps does
(`exists_mapM_eq_pure`), and then it has collected what its steps gave, one after the other
(`exists_of_flatten_mapM_eq_ok`).
-/
namespace ViewTree

variable {α β γ δ ε : Type}

theorem flatMap_of_cons {each : List α → List β} {f : α → List β} (nil : each [] = [])
    (cons : ∀ x xs, each (x :: xs) = f x ++ each xs) (xs : List α) : each xs = xs.flatMap f := by
  induction xs with
  | nil => exact nil
  | cons x xs ih => rw [cons, ih, List.flatMap_cons]

/-- The same where the elements are counted. -/
theorem flatMap_zipIdx_of_cons {each : Nat → List α → List β} {f : α × Nat → List β}
    (nil : ∀ i, each i [] = []) (cons : ∀ i x xs, each i (x :: xs) = f (x, i) ++ each (i + 1) xs)
    (i : Nat) (xs : List α) : each i xs = (xs.zipIdx i).flatMap f := by
  induction xs generalizing i with
  | nil => exact nil i
  | cons x xs ih => rw [cons, ih, List.zipIdx_cons, List.flatMap_cons]

section
variable {m : Type → Type} [Monad m] [LawfulMonad m]

/-- A traversal succeeds if each of its steps does. -/
theorem exists_mapM_eq_pure {f : α → m β} {xs : List α} (h : ∀ x ∈ xs, ∃ y, f x = pure y) :
    ∃ ys, xs.mapM f = pure ys := by
  induction xs with
  | nil => exact ⟨[], List.mapM_nil⟩
  | cons x xs ih =>
    obtain ⟨y, hy⟩ := h x List.mem_cons_self
    obtain ⟨ys, hys⟩ := ih fun z hz => h z (List.mem_cons_of_mem x hz)
    exact ⟨y :: ys, by rw [List.mapM_cons, hy, hys, pure_bind, pure_bind]⟩

theorem mapM_map {f : α → m γ} {g : α → β} {f' : β → m δ} {h : γ → δ} {xs : List α}
    (hmap : ∀ x ∈ xs, f' (g x) = h <$> f x) : (xs.map g).mapM f' = List.map h <$> xs.mapM f := by
  induction xs with
  | nil => simp
  | cons x xs ih =>
    rw [List.map_cons, List.mapM_cons, List.mapM_cons, hmap x List.mem_cons_self,
      ih fun y hy => hmap y (List.mem_cons_of_mem x hy)]
    simp only [map_eq_pure_bind, bind_assoc, pure_bind, List.map_cons]

theorem flatten_mapM_cons (f : α → m (List β)) (x : α) (xs : List α) :
    (do return (← (x :: xs).mapM f).flatten : m (List β)) =
      f x >>= fun own => (do return (← xs.mapM f).flatten) >>= fun others => pure (own ++ others) := by
  rw [List.mapM_cons]
  simp only [bind_assoc, pure_bind, List.flatten_cons]

end

theorem exists_mem_of_mapM_eq_some {f : α → Option β} {xs : List α} {ys : List β}
    (h : xs.mapM f = some ys) : ∀ y ∈ ys, ∃ x ∈ xs, f x = some y := by
  induction xs generalizing ys with
  | nil =>
    obtain rfl := Option.some.inj h
    simp
  | cons x xs ih =>
    rw [List.mapM_cons] at h
    obtain ⟨y, hy, h⟩ := Option.bind_eq_some_iff.mp h
    obtain ⟨more, hmore, h⟩ := Option.bind_eq_some_iff.mp h
    obtain rfl := Option.some.inj h
    refine List.forall_mem_cons.mpr ⟨⟨x, List.mem_cons_self, hy⟩, fun z hz => ?_⟩
    obtain ⟨w, hw, hz⟩ := ih hmore z hz
    exact ⟨w, List.mem_cons_of_mem _ hw, hz⟩

/-- The results of a traversal are those of what was traversed, one by one. -/
theorem forall₂_of_mapM_eq_ok {f : α → Except ε β} {xs : List α} {ys : List β}
    (h : xs.mapM f = .ok ys) : List.Forall₂ (fun x y => f x = .ok y) xs ys := by
  induction xs generalizing ys with
  | nil =>
    obtain rfl : [] = ys := by simpa [pure, Except.pure] using h
    exact .nil
  | cons x xs ih =>
    rw [List.mapM_cons] at h
    cases hx : f x with
    | error e => simp [hx, bind, Except.bind] at h
    | ok y =>
      cases hxs : xs.mapM f with
      | error e => simp [hx, hxs, bind, Except.bind] at h
      | ok more =>
        obtain rfl : y :: more = ys := by
          simpa [hx, hxs, bind, Except.bind, pure, Except.pure] using h
        exact .cons hx (ih hxs)

theorem exists_of_mem_forall₂ {R : α → β → Prop} {xs : List α} {ys : List β}
    (h : List.Forall₂ R xs ys) :
    (∀ y ∈ ys, ∃ x ∈ xs, R x y) ∧ ∀ x ∈ xs, ∃ y ∈ ys, R x y := by
  induction h with
  | nil => simp
  | cons hx _ ih =>
    obtain ⟨hfrom, hto⟩ := ih
    refine ⟨List.forall_mem_cons.mpr ⟨⟨_, List.mem_cons_self, hx⟩, fun z hz => ?_⟩,
      List.forall_mem_cons.mpr ⟨⟨_, List.mem_cons_self, hx⟩, fun z hz => ?_⟩⟩
    · obtain ⟨w, hw, hwz⟩ := hfrom z hz
      exact ⟨w, List.mem_cons_of_mem _ hw, hwz⟩
    · obtain ⟨w, hw, hwz⟩ := hto z hz
      exact ⟨w, List.mem_cons_of_mem _ hw, hwz⟩

section
variable {f : α → Except ε (List β)} {xs : List α} {ys : List β}

/-- What a traversal collects are the results of its steps, one after the other. -/
theorem exists_of_flatten_mapM_eq_ok
    (h : (return (← xs.mapM f).flatten : Except ε (List β)) = .ok ys) :
    ∃ parts, parts.flatten = ys ∧ List.Forall₂ (fun x own => f x = .ok own) xs parts := by
  cases hxs : xs.mapM f with
  | error e => simp [hxs, bind, Except.bind] at h
  | ok parts =>
    exact ⟨parts, by simpa [hxs, bind, Except.bind, pure, Except.pure] using h,
      forall₂_of_mapM_eq_ok hxs⟩

theorem mem_of_flatten_mapM_eq_ok
    (h : (return (← xs.mapM f).flatten : Except ε (List β)) = .ok ys) :
    (∀ y ∈ ys, ∃ x ∈ xs, ∃ own, f x = .ok own ∧ y ∈ own) ∧
      ∀ x ∈ xs, ∃ own, f x = .ok own ∧ own ⊆ ys := by
  obtain ⟨parts, rfl, hparts⟩ := exists_of_flatten_mapM_eq_ok h
  obtain ⟨hfrom, hto⟩ := exists_of_mem_forall₂ hparts
  refine ⟨fun y hy => ?_, fun x hx => ?_⟩
  · obtain ⟨own, hown, hy⟩ := List.mem_flatten.mp hy
    obtain ⟨x, hx, hxown⟩ := hfrom own hown
    exact ⟨x, hx, own, hxown, hy⟩
  · obtain ⟨own, hown, hxown⟩ := hto x hx
    exact ⟨own, hxown, fun y hy => List.mem_flatten.mpr ⟨own, hown, hy⟩⟩

theorem flatMap_of_flatten_mapM_eq_ok {g : β → List γ} {k : α → List γ}
    (h : (return (← xs.mapM f).flatten : Except ε (List β)) = .ok ys)
    (hf : ∀ x ∈ xs, ∀ own, f x = .ok own → own.flatMap g = k x) : ys.flatMap g = xs.flatMap k := by
  obtain ⟨parts, rfl, hparts⟩ := exists_of_flatten_mapM_eq_ok h
  clear h
  induction hparts with
  | nil => rfl
  | @cons x own xs parts hx _ ih =>
    obtain ⟨hown, hf⟩ := List.forall_mem_cons.mp hf
    rw [List.flatten_cons, List.flatMap_append, hown own hx, ih hf, List.flatMap_cons]

theorem forall₂_of_flatten_mapM_eq_ok {R : γ → β → Prop} {k : α → List γ}
    (h : (return (← xs.mapM f).flatten : Except ε (List β)) = .ok ys)
    (hf : ∀ x ∈ xs, ∀ own, f x = .ok own → List.Forall₂ R (k x) own) :
    List.Forall₂ R (xs.flatMap k) ys := by
  obtain ⟨parts, rfl, hparts⟩ := exists_of_flatten_mapM_eq_ok h
  clear h
  induction hparts with
  | nil => exact .nil
  | @cons x own xs parts hx _ ih =>
    obtain ⟨hown, hf⟩ := List.forall_mem_cons.mp hf
    exact List.rel_append (hown own hx) (ih hf)

end

end ViewTree
