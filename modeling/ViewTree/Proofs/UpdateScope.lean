import ViewTree.Proofs.FreeNames
import ViewTree.Proofs.UpdateRoutine

/-!
What the update routine reads. Main statements: where the checks find no error in a view, no
expression and no pattern of its update routine has a free name that is a parameter behind the
sender, unless a prebound widget has that name (`View.exists_updates_in_scope`). This holds of
parameters in compatibility form, as which embedded names are read; in another spelling a parameter
gets past the checks (`View.reads_gaugeView`).
-/
namespace ViewTree
open Embedded

/-- The expressions of a step that is taken again, and their free names. -/
def Trigger.written? : Trigger → Option Expr
  | written condition => some condition
  | changed _ _ => none

def Branches.free : Branches → List String
  | chain first others _ _ => (first :: others).flatMap (·.condition.term.free [])
  | cases subject arms => subject.term.free [] ++ arms.flatMap (·.pattern.arm.free)

/-- The free names of the expressions and patterns in a statement of the update routine. -/
def Statement.free : Statement → List String
  | refresh trigger _ a =>
    ((trigger.bind Trigger.written?).toList ++ a.value :: a.chain).flatMap (·.term.free [])
  | switchPage _ _ branches => branches.free
  | _ => []

theorem Branches.free_subset (b : Branches) : b.free ⊆ Component.selectionNames b := by
  cases b with
  | chain first others last place =>
    intro name hname
    obtain ⟨branch, hbranch, hname⟩ := List.mem_flatMap.mp hname
    exact List.mem_flatMap.mpr ⟨branch, hbranch, Term.free_subset_names [] _ hname⟩
  | cases subject arms =>
    intro name hname
    rcases List.mem_append.mp hname with hname | hname
    · exact List.mem_append_left _ (Term.free_subset_names [] _ hname)
    · obtain ⟨arm, harm, hname⟩ := List.mem_flatMap.mp hname
      exact List.mem_append_right _
        (List.mem_flatMap.mpr ⟨arm, harm, Arm.free_subset_names _ hname⟩)

/-- A condition that is evaluated again is the written predicate. -/
theorem UpdateScope.predicate_of_trigger {s : UpdateScope} {property : String} {m : Modifiers}
    {value : Expr} {trigger : Option Trigger} (h : s.trigger property m value = .ok trigger)
    {condition : Expr} (hcondition : trigger.bind Trigger.written? = some condition) :
    m.predicate? = some condition := by
  unfold UpdateScope.trigger at h
  split at h
  · obtain rfl := Except.ok.inj h
    cases hcondition
  · split at h
    · rename_i written hwritten
      obtain rfl := Except.ok.inj h
      obtain rfl : written = condition := Option.some.inj hcondition
      exact hwritten
    · dsimp only at h
      split at h
      · cases h
      · obtain rfl := Except.ok.inj h
        cases hcondition

theorem mem_distinct {α : Type} [DecidableEq α] {xs : List α} {x : α} :
    x ∈ distinct xs ↔ x ∈ xs := by
  have hfold (xs seen : List α) :
      x ∈ xs.foldl (fun seen x => if seen.contains x then seen else seen ++ [x]) seen ↔
        x ∈ seen ∨ x ∈ xs := by
    induction xs generalizing seen with
    | nil => simp
    | cons y ys ih =>
      rw [List.foldl_cons, ih, List.mem_cons]
      split
      · rename_i hseen
        have hy : x = y → x ∈ seen := by rintro rfl; simpa using hseen
        tauto
      · simp only [List.mem_append, List.mem_singleton]
        tauto
  rw [distinct, hfold]
  simp

theorem mem_sortNames {names : List String} {name : String} :
    name ∈ sortNames names ↔ name ∈ names := by
  rw [sortNames, List.mem_mergeSort, mem_distinct]

namespace Component

theorem not_mem_of_readsOf {initOnly names : List String} (h : readsOf initOnly names = [])
    {name : String} (hread : name ∈ names) : name ∉ initOnly := by
  intro hname
  have hmem : name ∈ readsOf initOnly names :=
    mem_sortNames.mpr (List.mem_filter.mpr ⟨hread, by simpa using hname⟩)
  simp [h] at hmem

/-- In a component without errors, a name that is evaluated again is known to the update routine. -/
theorem not_initOnly_of_check {settings : Settings} {c : Component}
    (h : (c.check settings).errors = []) {n : Node} (hn : n ∈ c.walk) :
    (∀ choice, n = .choice choice → ∀ name ∈ selectionNames choice.branches,
      name ∉ c.initOnly) ∧
    ∀ p ∈ n.properties, p.modifiers.refreshes = true →
      ∀ e ∈ refreshedExprs p, ∀ name ∈ e.term.names, name ∉ c.initOnly := by
  obtain ⟨-, -, -, -, -, -, -, -, hscope⟩ := errors_check_eq_nil.mp h
  obtain ⟨v, hv, rfl⟩ := exists_visit hn
  have hscope := List.flatMap_eq_nil_iff.mp hscope v hv
  refine ⟨fun choice hchoice name hname => ?_, fun p hp hrefreshes e he name hname => ?_⟩
  · rw [hchoice] at hscope
    exact not_mem_of_readsOf (List.map_eq_nil_iff.mp hscope) hname
  · cases hw : v.node with
    | choice choice => simp [hw, Node.properties] at hp
    | widget w =>
      rw [hw] at hp hscope
      have hproperty := List.flatMap_eq_nil_iff.mp hscope p hp
      rw [if_pos hrefreshes] at hproperty
      exact not_mem_of_readsOf (List.map_eq_nil_iff.mp hproperty)
        (List.mem_flatMap.mpr ⟨e, he, hname⟩)

/-- A parameter behind the sender is known only while the widgets are built, or the name of a
prebound widget. -/
theorem mem_preboundNames_of_not_initOnly {c : Component} {p : String}
    (hp : p ∈ c.params.drop 2) (h : p ∉ c.initOnly) : p ∈ c.preboundNames := by
  have hbound : p ∈ (c.walk.filter Node.isPrebound).filterMap Node.name? := by
    by_contra hbound
    exact h (List.mem_filter.mpr ⟨hp, by simpa using hbound⟩)
  obtain ⟨n, hn, hname⟩ := List.mem_filterMap.mp hbound
  refine List.mem_map.mpr ⟨n, hn, ?_⟩
  exact congrArg (·.getD "None") hname

end Component

namespace View

theorem free_again_not_initOnly {settings : Settings} {v : View}
    (h : ((Component.view v).check settings).errors = []) {s : UpdateScope} {step : Step}
    (hstep : step ∈ (Component.view v).steps) (hrefreshes : step.refreshes = true) {t : Statement}
    (ht : Step.again s step = .ok t) : ∀ name ∈ t.free, name ∉ (Component.view v).initOnly := by
  obtain ⟨n, hn, hown⟩ := Component.exists_ownSteps_of_mem_steps hstep
  obtain ⟨hchoice, hproperty⟩ := Component.not_initOnly_of_check h hn
  cases step with
  | select c =>
    obtain rfl := Except.ok.inj ht
    exact fun name hname =>
      hchoice c (Node.node_of_mem_ownSteps hown).symm name (Branches.free_subset _ hname)
  | apply owner p a =>
    obtain ⟨rfl, hp, ha⟩ := Node.application_of_mem_ownSteps hown
    obtain ⟨trigger, blocked, htrigger, -, rfl⟩ := Step.again_apply_eq_ok ht
    have hvalue := payload_of_application? ha
    have hchain : a.chain = p.modifiers.chain := by
      rw [Property.application?, hvalue] at ha
      exact (Option.some.inj ha) ▸ rfl
    intro name hname
    obtain ⟨e, he, hname⟩ := List.mem_flatMap.mp hname
    refine hproperty p hp hrefreshes e ?_ name (Term.free_subset_names [] _ hname)
    rw [Component.refreshedExprs, Property.value?, hvalue, ← hchain, List.append_assoc]
    rcases List.mem_append.mp he with he | he
    · have hpredicate := UpdateScope.predicate_of_trigger htrigger (Option.mem_toList.mp he)
      exact List.mem_append_right _
        (List.mem_append_left _ (Option.mem_toList.mpr hpredicate))
    · rcases List.mem_cons.mp he with rfl | he
      · exact List.mem_append_left _ (List.mem_singleton_self _)
      · exact List.mem_append_right _ (List.mem_append_right _ he)

/-- The update routine of a view that passes the checks reads no parameter behind the sender that is
in compatibility form, unless a prebound widget has its name. -/
theorem exists_updates_in_scope (settings : Settings) (v : View)
    (h : ((Component.view v).check settings).errors = []) :
    ∃ updates, v.updateRoutine settings = .ok updates ∧
      ∀ s ∈ updates, ∀ p ∈ (Component.view v).params.drop 2, Text.compatible p = p →
        Text.compatible p ∈ s.free → p ∈ (Component.view v).preboundNames := by
  obtain ⟨symbols, body, -, hroutine, hagain⟩ := exists_updateRoutine h
  refine ⟨_, hroutine, fun s hs p hp hcompatible hfree => ?_⟩
  rw [hcompatible] at hfree
  obtain rfl | ⟨name, -, rfl⟩ | ⟨step, hstep, hs⟩ := cases_of_mem_updates hagain hs
  · simp [Statement.free] at hfree
  · simp [Statement.free] at hfree
  · obtain ⟨hstep, hrefreshes⟩ := List.mem_filter.mp hstep
    exact Component.mem_preboundNames_of_not_initOnly hp
      (free_again_not_initOnly h hstep hrefreshes hs p hfree)

theorem updates_in_scope_counterView : ∃ v, counterView.assignNames {} = .view v ∧
    ((Component.view v).check {}).errors = [] ∧
    ∃ updates, v.updateRoutine {} = .ok updates ∧
      ∀ s ∈ updates, ∀ p ∈ (Component.view v).params.drop 2, Text.compatible p = p →
        Text.compatible p ∈ s.free → p ∈ (Component.view v).preboundNames :=
  ⟨_, rfl, by decide +kernel, exists_updates_in_scope {} _ (by decide +kernel)⟩

end View

/-- A single character is put into the form that it decomposes to. -/
theorem Text.compatible_singleton {c : Char} {n : Nat} (hc : 128 ≤ c.toNat)
    (h : Text.decompose c.toNat = [n]) :
    Text.compatible (String.ofList [c]) = String.ofList [Char.ofNat n] := by
  have hlarge : ¬(String.ofList [c]).toList.all (·.toNat < 128) = true := by simpa using hc
  have horder : Text.orderMarks [] [n] = [n] := by
    unfold Text.orderMarks
    split <;> rfl
  have hcompose : Text.compose [n] = [n] := by
    unfold Text.compose
    split <;> rfl
  rw [Text.compatible, if_neg hlarge, String.toList_ofList]
  simp only [List.flatMap_singleton, h, horder, hcompose, List.map_singleton]

/-- The sign for micro is read as the Greek letter. -/
theorem Text.compatible_micro : Text.compatible "µ" = "μ" :=
  compatible_singleton (c := 'µ') (by decide) (by decide)

/-- A view that shows its third parameter. -/
def gaugeView (p : String) : View :=
  let value : Expr := ⟨p, ⟨4, 20⟩, .mk 1 (p.length + 1) (.name (Text.compatible p))⟩
  let label : Widget := ⟨.synthesized "label_0", .block "Gtk.Label", true, none, ⟨2, 5⟩,
    [⟨"set_label", { watch := true }, ⟨4, 9⟩, .method value⟩]⟩
  ⟨"Gauge", "model", ["sender", p], false, label, [], ⟨1, 1⟩⟩

/-- Where a parameter is not in compatibility form, the expression reads what the checks take for
another name, and the update routine has it without having the parameter. -/
theorem View.reads_of_compatible_ne (p : String) (h : Text.compatible p ≠ p) :
    ((Component.view (gaugeView p)).check {}).errors = [] ∧
    p ∈ (Component.view (gaugeView p)).params.drop 2 ∧
    (Component.view (gaugeView p)).preboundNames = [] ∧
    ∃ updates, (gaugeView p).updateRoutine {} = .ok updates ∧
      ∃ s ∈ updates, Text.compatible p ∈ s.free := by
  refine ⟨?_, List.mem_singleton_self p, rfl, _, rfl, _, List.mem_cons_of_mem _ List.mem_cons_self,
    List.mem_singleton_self _⟩
  have hreads : Component.readsOf [p] [Text.compatible p] = [] := by
    simp [Component.readsOf, h, sortNames, distinct]
  have hscope : (Component.view (gaugeView p)).checkUpdateScope.errors = [] := by
    show ((Component.readsOf [p] [Text.compatible p]).map _ ++ []) ++ [] = []
    rw [hreads]
    rfl
  exact Component.errors_check_eq_nil.mpr ⟨rfl, rfl, rfl, rfl, rfl, rfl, rfl, rfl, hscope⟩

theorem View.reads_gaugeView :
    ((Component.view (gaugeView "µ")).check {}).errors = [] ∧
    "µ" ∈ (Component.view (gaugeView "µ")).params.drop 2 ∧
    (Component.view (gaugeView "µ")).preboundNames = [] ∧
    ∃ updates, (gaugeView "µ").updateRoutine {} = .ok updates ∧
      ∃ s ∈ updates, Text.compatible "µ" ∈ s.free :=
  reads_of_compatible_ne "µ" (by rw [Text.compatible_micro]; decide)

end ViewTree
