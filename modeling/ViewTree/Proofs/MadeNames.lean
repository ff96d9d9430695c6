import Mathlib.Data.List.Nodup
import Mathlib.Data.List.Perm.Subperm
import ViewTree.Proofs.Naming

/-!
The names that are made up. Each is the first one of its stem that nothing else has: its number is
the least one whose name is not taken when the node is reached (`Naming.Makes`). From this follow
the order of the numbers, that no made-up name is met twice, and that none is written anywhere in
the component. Naming a component that has all its names changes nothing.
-/
namespace ViewTree

/-- A made-up name. -/
structure MadeName where
  stem : String
  number : Nat
deriving DecidableEq, Repr

def MadeName.text (m : MadeName) : String := m.stem ++ "_" ++ toString m.number

def NodeName.fill : List NodeName → List MadeName → List NodeName
  | .absent :: names, m :: made => .synthesized m.text :: fill names made
  | name :: names, made => name :: fill names made
  | [], _ => []

theorem MadeName.text_injective (stem : String) :
    Function.Injective fun n => (⟨stem, n⟩ : MadeName).text := by
  intro a b h
  have digits : Nat.toDigits 10 a = Nat.toDigits 10 b := by
    have lists := congrArg String.toList h
    simp only [MadeName.text, String.toList_append] at lists
    simpa only [Nat.toString_eq_repr, Nat.toList_repr] using List.append_cancel_left lists
  have numbers := congrArg (Nat.ofDigitChars 10 · 0) digits
  simpa using numbers

namespace Naming

variable {taken : List String} {stem : String}

/-- The search passes over taken names only. -/
theorem taken_of_lt_freeNumber {count n k : Nat} (hn : n ≤ k)
    (hk : k < freeNumber taken stem count n) : (⟨stem, k⟩ : MadeName).text ∈ taken := by
  induction count generalizing n with
  | zero => exact absurd hk (Nat.not_lt.mpr hn)
  | succ count ih =>
    rw [freeNumber] at hk
    split at hk
    · next hit =>
      obtain rfl | after := Nat.eq_or_lt_of_le hn
      · exact List.contains_iff_mem.mp hit
      · exact ih after hk
    · exact absurd hk (Nat.not_lt.mpr hn)

/-- The search ends at a free name, or it has used up its bound. -/
theorem freeNumber_cases (taken : List String) (stem : String) (count n : Nat) :
    (⟨stem, freeNumber taken stem count n⟩ : MadeName).text ∉ taken ∨
      freeNumber taken stem count n = n + count := by
  induction count generalizing n with
  | zero => exact .inr rfl
  | succ count ih =>
    rw [freeNumber]
    split
    · simpa only [Nat.succ_add_eq_add_succ] using ih (n + 1)
    · next miss => exact .inl fun h => miss (List.contains_iff_mem.mpr h)

/-- With a bound above the number of taken names the search ends at a free name: it would have
passed over more names than are taken. -/
theorem freeNumber_not_taken {count : Nat} (h : taken.length < count) (n : Nat) :
    (⟨stem, freeNumber taken stem count n⟩ : MadeName).text ∉ taken := by
  refine (freeNumber_cases taken stem count n).resolve_right fun ranOut => ?_
  let passed := (List.range' n count).map fun k => (⟨stem, k⟩ : MadeName).text
  have distinct : passed.Nodup := (List.nodup_range' ..).map (MadeName.text_injective stem)
  have subset : passed ⊆ taken := by
    intro name hname
    obtain ⟨k, hk, rfl⟩ := List.mem_map.mp hname
    rw [List.mem_range'_1] at hk
    exact taken_of_lt_freeNumber hk.1 (ranOut ▸ hk.2)
  have short : passed.length ≤ taken.length := (distinct.subperm subset).length_le
  simp only [passed, List.length_map, List.length_range'] at short
  exact absurd h (Nat.not_lt.mpr short)

/-- The names `made` are made one after the other, each the first of its stem that is not taken. -/
inductive Makes : List String → List MadeName → Prop
  | nil (taken : List String) : Makes taken []
  | cons {taken : List String} {m : MadeName} {made : List MadeName}
      (free : m.text ∉ taken)
      (first : ∀ k < m.number, (⟨m.stem, k⟩ : MadeName).text ∈ taken)
      (others : Makes (m.text :: taken) made) : Makes taken (m :: made)

namespace Makes

variable {m : MadeName} {made : List MadeName}

theorem not_taken (h : Makes taken made) (hm : m ∈ made) : m.text ∉ taken := by
  induction h with
  | nil => simp at hm
  | cons free first others ih =>
    rcases List.mem_cons.mp hm with rfl | hm
    · exact free
    · exact fun member => ih hm (List.mem_cons_of_mem _ member)

theorem nodup (h : Makes taken made) : (made.map MadeName.text).Nodup := by
  induction h with
  | nil => exact List.nodup_nil
  | cons free first others ih =>
    rw [List.map_cons, List.nodup_cons]
    refine ⟨fun again => ?_, ih⟩
    obtain ⟨m', hm', same⟩ := List.mem_map.mp again
    exact others.not_taken hm' (same ▸ List.mem_cons_self)

/-- A later name of the stem has a greater number: it is not taken, and the names with smaller
numbers are. -/
theorem increasing (h : Makes taken made) :
    made.Pairwise fun a b => a.stem = b.stem → a.number < b.number := by
  induction h with
  | nil => exact .nil
  | @cons taken m made free first others ih =>
    refine .cons (fun later hlater same => ?_) ih
    have free' := others.not_taken hlater
    by_contra hle
    rcases Nat.eq_or_lt_of_le (Nat.le_of_not_lt hle) with hn | hn
    · have again : later.text = m.text := by simp only [MadeName.text, same, hn]
      exact free' (again ▸ List.mem_cons_self)
    · have passed := first _ hn
      rw [same] at passed
      exact free' (List.mem_cons_of_mem _ passed)

theorem passed_over {before after : List MadeName} (h : Makes taken (before ++ m :: after))
    {k : Nat} (hk : k < m.number) :
    (⟨m.stem, k⟩ : MadeName).text ∈ taken ∨
      (⟨m.stem, k⟩ : MadeName).text ∈ before.map MadeName.text := by
  induction before generalizing taken with
  | nil =>
    cases h with
    | cons _ first _ => exact .inl (first k hk)
  | cons b before ih =>
    cases h with
    | cons _ _ others =>
      rw [List.map_cons, List.mem_cons]
      rcases ih others with member | member
      · exact (List.mem_cons.mp member).elim (.inr ∘ .inl) .inl
      · exact .inr (.inr member)

end Makes

/-- The counters are right: a number below the one of its stem makes a taken name. -/
def Counted (s : Naming) : Prop :=
  ∀ stem, ∀ k < s.counter stem, (⟨stem, k⟩ : MadeName).text ∈ s.taken

theorem counted_start (taken : List String) : Counted ⟨taken, []⟩ :=
  fun _ _ h => absurd h (Nat.not_lt_zero _)

theorem counter_fresh (s : Naming) (stem other : String) :
    (s.fresh stem).1.counter other =
      if other = stem then freeNumber s.taken stem (s.taken.length + 1) (s.counter stem) + 1
      else s.counter other := by
  by_cases same : other = stem
  · subst same
    simp [fresh, counter]
  · have kept (entry : String × Nat) :
        (entry.1 ≠ stem ∧ entry.1 = other) = (entry.1 = other) := by
      refine propext ⟨And.right, fun here => ⟨fun h => same (here ▸ h), here⟩⟩
    simp only [fresh, counter, List.find?_cons, List.find?_filter, if_neg same,
      decide_eq_false (Ne.symm same), decide_eq_true_eq, kept]

/-- What one search makes: the first free name of the stem, which is taken from then on. -/
theorem fresh_spec {s : Naming} (hs : s.Counted) (stem : String) :
    ∃ n, (s.fresh stem).2 = (⟨stem, n⟩ : MadeName).text ∧
      (⟨stem, n⟩ : MadeName).text ∉ s.taken ∧
      (∀ k < n, (⟨stem, k⟩ : MadeName).text ∈ s.taken) ∧
      (s.fresh stem).1.taken = (⟨stem, n⟩ : MadeName).text :: s.taken ∧
      (s.fresh stem).1.Counted := by
  have passed : ∀ k < freeNumber s.taken stem (s.taken.length + 1) (s.counter stem),
      (⟨stem, k⟩ : MadeName).text ∈ s.taken := fun k hk => by
    rcases Nat.lt_or_ge k (s.counter stem) with below | above
    · exact hs stem k below
    · exact taken_of_lt_freeNumber above hk
  refine ⟨_, rfl, freeNumber_not_taken (Nat.lt_succ_self _) _, passed, rfl, ?_⟩
  intro other k hk
  rw [counter_fresh] at hk
  split at hk
  · next same =>
    subst same
    rcases Nat.eq_or_lt_of_le (Nat.le_of_lt_succ hk) with rfl | hk
    · exact List.mem_cons_self
    · exact List.mem_cons_of_mem _ (passed k hk)
  · exact List.mem_cons_of_mem _ (hs other k hk)

/-- Nodes that are named one after the other: the absent names are made and filled in. -/
theorem exists_made {s : Naming} (hs : s.Counted) (choiceStem : String) (ns : List Node) :
    ∃ made, Makes s.taken made ∧
      (s.nameAll choiceStem ns).2 = NodeName.fill (ns.map Node.nodeName) made ∧
      made.map MadeName.stem =
        (ns.filter fun n => n.nodeName = .absent).map (Node.stem choiceStem) := by
  induction ns generalizing s with
  | nil => exact ⟨[], .nil _, rfl, rfl⟩
  | cons n ns ih =>
    rw [nameAll, List.map_cons]
    cases name : n.nodeName with
    | absent =>
      obtain ⟨number, text, free, first, taken, counted⟩ := fresh_spec hs (n.stem choiceStem)
      obtain ⟨made, makes, filled, stems⟩ := ih counted
      refine ⟨⟨n.stem choiceStem, number⟩ :: made, .cons free first (taken ▸ makes), ?_, ?_⟩
      · simp only [assign, text, filled, NodeName.fill]
      · simp [name, stems]
    | given written isMutable =>
      obtain ⟨made, makes, filled, stems⟩ := ih hs
      exact ⟨made, makes, by simp only [assign, filled, NodeName.fill], by simp [name, stems]⟩
    | synthesized made? =>
      obtain ⟨made, makes, filled, stems⟩ := ih hs
      exact ⟨made, makes, by simp only [assign, filled, NodeName.fill], by simp [name, stems]⟩

theorem assign_of_named {s : Naming} {name : NodeName} (h : name.get?.isSome) :
    s.assign stem name = (s, name) := by
  cases name with
  | absent => simp [NodeName.get?] at h
  | given | synthesized => rfl

end Naming

section Named

variable (stem : String) (s : Naming)

mutual

theorem Widget.assignNames_of_named : {w : Widget} →
    (∀ n ∈ w.walk, n.name?.isSome) → w.assignNames stem s = (s, w)
  | ⟨name, construction, isRoot, doc, place, properties⟩, h => by
    rw [Widget.walk, List.forall_mem_cons] at h
    have named : name.get?.isSome := h.1
    simp only [Widget.assignNames, Naming.assign_of_named named, Property.assignAll_of_named h.2]

theorem Property.assignAll_of_named : {ps : List Property} →
    (∀ n ∈ Property.walkAll ps, n.name?.isSome) → Property.assignAll stem s ps = (s, ps)
  | [], _ => rfl
  | ⟨name, modifiers, place, payload⟩ :: more, h => by
    rw [Property.walkAll, List.forall_mem_append] at h
    simp only [Property.assignAll, Payload.assignNames_of_named h.1,
      Property.assignAll_of_named h.2]

theorem Payload.assignNames_of_named : {p : Payload} →
    (∀ n ∈ p.walk, n.name?.isSome) → p.assignNames stem s = (s, p)
  | .method _, _ | .binding _, _ | .connection _ _ _, _ => rfl
  | .child _ widget, h => by
    simp only [Payload.assignNames, Widget.assignNames_of_named (w := widget) h]
  | .choice _ choice, h => by
    simp only [Payload.assignNames, Choice.assignNames_of_named (c := choice) h]

theorem Choice.assignNames_of_named : {c : Choice} →
    (∀ n ∈ c.walk, n.name?.isSome) → c.assignNames stem s = (s, c)
  | ⟨name, transition, doc, place, branches⟩, h => by
    rw [Choice.walk, List.forall_mem_cons] at h
    have named : name.get?.isSome := h.1
    simp only [Choice.assignNames, Naming.assign_of_named named,
      Branches.assignNames_of_named h.2]

theorem Branches.assignNames_of_named : {b : Branches} →
    (∀ n ∈ b.walk, n.name?.isSome) → b.assignNames stem s = (s, b)
  | .chain ⟨condition, widget, place⟩ others last lastPlace, h => by
    rw [Branches.walk, List.forall_mem_append, List.forall_mem_append] at h
    simp only [Branches.assignNames, Widget.assignNames_of_named h.1.1,
      Branch.assignAll_of_named h.1.2, Widget.assignNames_of_named h.2]
  | .cases subject arms, h => by
    have harms : CaseArm.assignAll stem s arms = (s, arms) := CaseArm.assignAll_of_named h
    simp only [Branches.assignNames, harms]

theorem Branch.assignAll_of_named : {bs : List Branch} →
    (∀ n ∈ Branch.walkAll bs, n.name?.isSome) → Branch.assignAll stem s bs = (s, bs)
  | [], _ => rfl
  | ⟨condition, widget, place⟩ :: more, h => by
    rw [Branch.walkAll, List.forall_mem_append] at h
    simp only [Branch.assignAll, Widget.assignNames_of_named h.1, Branch.assignAll_of_named h.2]

theorem CaseArm.assignAll_of_named : {as : List CaseArm} →
    (∀ n ∈ CaseArm.walkAll as, n.name?.isSome) → CaseArm.assignAll stem s as = (s, as)
  | [], _ => rfl
  | ⟨pattern, widget⟩ :: more, h => by
    rw [CaseArm.walkAll, List.forall_mem_append] at h
    simp only [CaseArm.assignAll, Widget.assignNames_of_named h.1,
      CaseArm.assignAll_of_named h.2]

end

theorem Widget.assignEach_of_named {ws : List Widget}
    (h : ∀ n ∈ ws.flatMap Widget.walk, n.name?.isSome) :
    Widget.assignEach stem s ws = (s, ws) := by
  induction ws with
  | nil => rfl
  | cons w ws ih =>
    rw [List.flatMap_cons, List.forall_mem_append] at h
    simp only [Widget.assignEach, Widget.assignNames_of_named stem s h.1, ih h.2]

end Named

namespace Component

theorem assignNames_of_named (settings : Settings) {c : Component}
    (h : ∀ n ∈ c.walk, n.name?.isSome) : c.assignNames settings = c := by
  cases c with
  | view v =>
    rw [walk, trees, List.flatMap_cons, List.forall_mem_append] at h
    simp only [assignNames, Widget.assignNames_of_named _ _ h.1,
      Widget.assignEach_of_named _ _ h.2]
  | template t =>
    rw [walk, trees, List.flatMap_cons, List.forall_mem_append] at h
    simp only [assignNames, Widget.assignNames_of_named _ _ h.1]

/-- Naming the nodes of a component. The names that are set stay, and each absent one is filled in
with the stem of its node; the made-up names are distinct and none of them is written anywhere in
the component; the numbers of a stem grow in the order of the tree, and one is passed over only for
a name that is written or was made up before. Every node has a name then, and naming the component
again changes nothing. -/
theorem exists_made_assignNames (settings : Settings) (c : Component) :
    (∃ made : List MadeName,
      (c.assignNames settings).walk.map Node.nodeName =
        NodeName.fill (c.walk.map Node.nodeName) made ∧
      made.map MadeName.stem = (c.walk.filter fun n => n.nodeName = .absent).map
        (Node.stem (Text.snakeCase settings.switchContainer)) ∧
      (made.map MadeName.text).Nodup ∧
      (∀ m ∈ made, m.text ∉ c.writtenNames) ∧
      (made.Pairwise fun a b => a.stem = b.stem → a.number < b.number) ∧
      ∀ before m after, made = before ++ m :: after → ∀ k < m.number,
        (⟨m.stem, k⟩ : MadeName).text ∈ c.writtenNames ∨
          (⟨m.stem, k⟩ : MadeName).text ∈ before.map MadeName.text) ∧
    (∀ n ∈ (c.assignNames settings).walk, n.name?.isSome) ∧
    (c.assignNames settings).assignNames settings = c.assignNames settings := by
  have named : ∀ n ∈ (c.assignNames settings).walk, n.name?.isSome :=
    fun n => isNamed_assignNames settings c
  refine ⟨?_, named, assignNames_of_named settings named⟩
  obtain ⟨made, makes, filled, stems⟩ := Naming.exists_made (Naming.counted_start c.writtenNames)
    (Text.snakeCase settings.switchContainer) c.walk
  rw [nameAll_walk] at filled
  refine ⟨made, filled, stems, makes.nodup, fun m => makes.not_taken, makes.increasing, ?_⟩
  rintro before m after rfl k hk
  exact makes.passed_over hk

end Component
end ViewTree
