import ViewTree.Source.Section

/-!
How the tokens of a section are cut into chunks. Cutting counts the brackets that are open: each
closing one lowers the count, also the one that closes an attribute, whose opening does not raise it.
Main statements: the chunks hold all tokens in order (`Chunk.items_split`), and tokens among which
no `view` or `template` stands where the count is zero stay in one chunk (`Chunk.exists_of_keeps`).
-/
namespace ViewTree

/-- How many brackets are open behind a token. -/
def TreeReader.depthBehind (depth : Nat) (kind : TokenKind) : Nat :=
  if kind.isOpening then depth + 1 else if kind.isClosing then depth - 1 else depth

open TreeReader

namespace Chunk

/-- How many brackets cutting takes for open behind the tokens. -/
def depthAfter (depth : Nat) (ts : List Token) : Nat := ts.foldl (depthBehind · ·.kind) depth

/-- Outside the brackets that cutting takes for open, none of the tokens starts a component. -/
def keeps (depth : Nat) : List TokenKind → Bool
  | [] => true
  | kind :: kinds =>
    (0 < depth || !kind.startsComponent) && keeps (depthBehind depth kind) kinds

def Cut.items (cut : Cut) : List Token := cut.done.reverse.flatten ++ cut.current.reverse

theorem items_push (cut : Cut) (t : Token) : (cut.push t).items = cut.items ++ [t] := by
  unfold Cut.push
  dsimp only
  split
  · simp [Cut.items]
  · simp [Cut.items]

theorem items_foldl (cut : Cut) (ts : List Token) :
    (ts.foldl Cut.push cut).items = cut.items ++ ts := by
  induction ts generalizing cut with
  | nil => rw [List.foldl_nil, List.append_nil]
  | cons t ts ih => rw [List.foldl_cons, ih, items_push, List.append_assoc, List.singleton_append]

/-- Chunks hold all tokens, in order. -/
theorem items_split (tokens : Tokens) :
    (split tokens).flatMap (·.tokens.items) = tokens.items := by
  have hitems := items_foldl {} tokens.items
  rw [show Cut.items {} = [] from rfl, List.nil_append] at hitems
  unfold split
  generalize tokens.items.foldl Cut.push {} = cut at hitems
  dsimp only
  rw [List.flatMap_map]
  show List.flatMap id _ = _
  rw [List.flatMap_id, ← hitems, Cut.items]
  by_cases hcurrent : cut.current.isEmpty
  · rw [if_pos hcurrent, List.isEmpty_iff.mp hcurrent, List.reverse_nil, List.append_nil]
  · rw [if_neg hcurrent]
    simp

theorem exists_items_of_mem_split {tokens : Tokens} {chunk : Chunk} (h : chunk ∈ split tokens) :
    ∃ before others, tokens.items = before ++ (chunk.tokens.items ++ others) := by
  obtain ⟨chunks, more, hchunks⟩ := List.append_of_mem h
  have hitems := items_split tokens
  rw [hchunks, List.flatMap_append, List.flatMap_cons] at hitems
  exact ⟨_, _, hitems.symm⟩

theorem depth_push (cut : Cut) (t : Token) : (cut.push t).depth = depthBehind cut.depth t.kind := by
  unfold Cut.push
  dsimp only
  split <;> rfl

theorem depth_foldl (cut : Cut) (ts : List Token) :
    (ts.foldl Cut.push cut).depth = depthAfter cut.depth ts := by
  induction ts generalizing cut with
  | nil => rfl
  | cons t ts ih => rw [List.foldl_cons, ih, depth_push, depthAfter, depthAfter, List.foldl_cons]

theorem depthAfter_append (depth : Nat) (ts us : List Token) :
    depthAfter depth (ts ++ us) = depthAfter (depthAfter depth ts) us := List.foldl_append

def openings (ts : List Token) : Nat := ts.countP (·.kind.isOpening)

def closings (ts : List Token) : Nat := ts.countP (·.kind.isClosing)

/-- What is open is at least what has been opened and not closed; a bracket that closes none lowers
nothing. -/
theorem openings_le_depthAfter (depth : Nat) (ts : List Token) :
    depth + openings ts ≤ closings ts + depthAfter depth ts := by
  induction ts generalizing depth with
  | nil => exact Nat.le_of_eq (Nat.add_comm depth 0)
  | cons t ts ih =>
    have hbehind := ih (depthBehind depth t.kind)
    have hafter : depthAfter depth (t :: ts) = depthAfter (depthBehind depth t.kind) ts := rfl
    rw [hafter, openings, closings, List.countP_cons, List.countP_cons]
    rw [openings, closings] at hbehind
    unfold depthBehind at hbehind ⊢
    cases hopening : t.kind.isOpening with
    | true =>
      simp only [hopening, if_true] at hbehind ⊢
      omega
    | false =>
      cases hclosing : t.kind.isClosing with
      | true =>
        simp only [hopening, hclosing, if_true, Bool.false_eq_true, if_false] at hbehind ⊢
        omega
      | false =>
        simp only [hopening, hclosing, Bool.false_eq_true, if_false] at hbehind ⊢
        omega

/-- Behind an attribute no word starts a component, unless more brackets have been opened in front of
it than closed. -/
def Nested (ts : List Token) : Prop :=
  ∀ us t vs, ts = us ++ t :: vs → (∃ u ∈ us, u.kind = .attrOpen) → t.kind.startsComponent →
    closings us < openings us

theorem nested_iff (ts : List Token) : Nested ts ↔ ∀ i : Fin ts.length,
    (∃ u ∈ ts.take i, u.kind = .attrOpen) → (ts.get i).kind.startsComponent →
      closings (ts.take i) < openings (ts.take i) := by
  constructor
  · intro h i
    refine h (ts.take i) (ts.get i) (ts.drop (i + 1)) ?_
    rw [List.get_eq_getElem, ← List.drop_eq_getElem_cons, List.take_append_drop]
  · rintro h us t vs rfl
    have hat := h ⟨us.length, by simp⟩
    simpa using hat

instance (ts : List Token) : Decidable (Nested ts) := decidable_of_iff' _ (nested_iff ts)

theorem depthAfter_of_plain {depth : Nat} {ts : List Token}
    (h : ∀ t ∈ ts, t.kind.isOpening = false ∧ t.kind.isClosing = false) :
    depthAfter depth ts = depth := by
  induction ts with
  | nil => rfl
  | cons t ts ih =>
    obtain ⟨ht, hts⟩ := List.forall_mem_cons.mp h
    rw [depthAfter, List.foldl_cons, depthBehind, ht.1, ht.2]
    exact ih hts

/-- A token is cut off from those in front if it starts a component outside all brackets. -/
theorem push_of_keeps {cut : Cut} {t : Token} (h : 0 < cut.depth || !t.kind.startsComponent) :
    cut.push t = ⟨cut.done, t :: cut.current, depthBehind cut.depth t.kind⟩ := by
  have hstays : ¬(cut.depth = 0 && t.kind.startsComponent && !cut.current.isEmpty) = true := by
    rcases Bool.or_eq_true_iff.mp h with hpos | hplain
    · simp [Nat.ne_of_gt (of_decide_eq_true hpos)]
    · simp [(Bool.not_eq_true' _).mp hplain]
  unfold Cut.push
  dsimp only
  rw [if_neg hstays]
  rfl

theorem foldl_push_of_keeps {cut : Cut} {ts : List Token}
    (h : keeps cut.depth (ts.map (·.kind))) : ts.foldl Cut.push cut =
      ⟨cut.done, ts.reverse ++ cut.current, depthAfter cut.depth ts⟩ := by
  induction ts generalizing cut with
  | nil => rfl
  | cons t ts ih =>
    obtain ⟨ht, hts⟩ := Bool.and_eq_true_iff.mp h
    rw [List.foldl_cons, push_of_keeps ht, ih hts, List.reverse_cons, List.append_assoc]
    rfl

theorem keeps_append {depth : Nat} {ts us : List Token} :
    keeps depth ((ts ++ us).map (·.kind)) ↔
      keeps depth (ts.map (·.kind)) ∧ keeps (depthAfter depth ts) (us.map (·.kind)) := by
  induction ts generalizing depth with
  | nil => simp [keeps, depthAfter]
  | cons t ts ih =>
    rw [List.cons_append, List.map_cons, keeps, Bool.and_eq_true, ih, List.map_cons, keeps,
      Bool.and_eq_true, and_assoc]
    rfl

/-- Tokens that start no component are kept wherever they stand. -/
theorem keeps_of_plain {depth : Nat} {kinds : List TokenKind}
    (h : ∀ kind ∈ kinds, kind.startsComponent = false) : keeps depth kinds := by
  induction kinds generalizing depth with
  | nil => rfl
  | cons kind kinds ih =>
    obtain ⟨hkind, hkinds⟩ := List.forall_mem_cons.mp h
    rw [keeps, hkind, ih hkinds]
    simp

/-- The chunks that are there if cutting ends, the last one first. -/
def Cut.chunks (cut : Cut) : List (List Token) :=
  if cut.current.isEmpty then cut.done else cut.current.reverse :: cut.done

theorem split_eq (tokens : Tokens) : split tokens =
    (tokens.items.foldl Cut.push {}).chunks.reverse.map fun items => ⟨⟨items, tokens.eof⟩⟩ := rfl

theorem done_subset_chunks (cut : Cut) : cut.done ⊆ cut.chunks := by
  unfold Cut.chunks
  split
  · exact List.Subset.refl _
  · exact List.subset_cons_self _ _

theorem done_subset_foldl (cut : Cut) (ts : List Token) :
    cut.done ⊆ (ts.foldl Cut.push cut).done := by
  induction ts generalizing cut with
  | nil => exact List.Subset.refl _
  | cons t ts ih =>
    refine List.Subset.trans ?_ (ih (cut.push t))
    unfold Cut.push
    dsimp only
    split
    · exact List.subset_cons_self _ _
    · exact List.Subset.refl _

/-- What stands together so far is the start of a chunk in the end. -/
theorem exists_mem_chunks (cut : Cut) (h : cut.current ≠ []) (ts : List Token) :
    ∃ more, cut.current.reverse ++ more ∈ (ts.foldl Cut.push cut).chunks := by
  induction ts generalizing cut with
  | nil =>
    refine ⟨[], ?_⟩
    rw [List.append_nil, List.foldl_nil, Cut.chunks, if_neg (by simpa using h)]
    exact List.mem_cons_self
  | cons t ts ih =>
    have hpush : cut.current.reverse ∈ (cut.push t).done ∨
        (cut.push t).current = t :: cut.current := by
      unfold Cut.push
      dsimp only
      split
      · exact .inl List.mem_cons_self
      · exact .inr rfl
    rcases hpush with hdone | hcurrent
    · refine ⟨[], ?_⟩
      rw [List.append_nil]
      exact done_subset_chunks _ (done_subset_foldl (cut.push t) ts hdone)
    · obtain ⟨more, hmore⟩ := ih (cut.push t) (hcurrent ▸ List.cons_ne_nil _ _)
      rw [hcurrent, List.reverse_cons, List.append_assoc] at hmore
      exact ⟨_, hmore⟩

/-- Tokens that cutting keeps behind another one are in its chunk. -/
theorem exists_of_keeps {tokens : Tokens} {before ts behind : List Token} {t : Token}
    (hitems : tokens.items = before ++ t :: (ts ++ behind))
    (h : keeps (depthAfter 0 (before ++ [t])) (ts.map (·.kind))) :
    ∃ chunk ∈ split tokens, ∃ earlier later,
      chunk.tokens = ⟨earlier ++ t :: (ts ++ later), tokens.eof⟩ := by
  generalize hfront : (before ++ [t]).foldl Cut.push {} = cut
  have hdepth : cut.depth = depthAfter 0 (before ++ [t]) := hfront ▸ depth_foldl {} _
  obtain ⟨earlier, hcurrent⟩ : ∃ earlier, cut.current = t :: earlier := by
    rw [← hfront, List.foldl_append, List.foldl_cons, List.foldl_nil]
    unfold Cut.push
    dsimp only
    split
    · exact ⟨[], rfl⟩
    · exact ⟨_, rfl⟩
  have hkept := foldl_push_of_keeps (hdepth ▸ h)
  obtain ⟨later, hlater⟩ := exists_mem_chunks (ts.foldl Cut.push cut)
    (by rw [hkept, hcurrent]; simp) behind
  have hall : tokens.items.foldl Cut.push {} = behind.foldl Cut.push (ts.foldl Cut.push cut) := by
    rw [hitems, ← hfront, ← List.foldl_append, ← List.foldl_append]
    simp
  have hgroup : (ts.reverse ++ t :: earlier).reverse ++ later =
      earlier.reverse ++ t :: (ts ++ later) := by simp
  rw [← hall, hkept, hcurrent, hgroup] at hlater
  refine ⟨⟨⟨_, tokens.eof⟩⟩, ?_, earlier.reverse, later, rfl⟩
  rw [split_eq]
  exact List.mem_map_of_mem (List.mem_reverse.mpr hlater)

end Chunk
end ViewTree
