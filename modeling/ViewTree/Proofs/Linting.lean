import Mathlib.Data.List.Forall2
import Mathlib.Data.Option.Defs
import ViewTree.Compilation

/-!
Compiling with and without the extended lint. Main statement: the extended lint adds warnings of two
kinds and changes nothing else (`Compilation.ofSource?_extended`).
-/
namespace ViewTree

def Finding.isExtended : Finding → Bool
  | looseBinding _ _ | idleWatch _ => true
  | _ => false

/-- The diagnostics that the lint reports without being extended. -/
def plainOnly (found : List Diagnostic) : List Diagnostic := found.filter (!·.finding.isExtended)

theorem plainOnly_append (found more : List Diagnostic) :
    plainOnly (found ++ more) = plainOnly found ++ plainOnly more := List.filter_append ..

theorem plainOnly_eq_self {found : List Diagnostic} :
    plainOnly found = found ↔ ∀ d ∈ found, !d.finding.isExtended := List.filter_eq_self

theorem plainOnly_flatMap {α : Type} (f : α → List Diagnostic) (xs : List α) :
    plainOnly (xs.flatMap f) = xs.flatMap fun x => plainOnly (f x) := List.filter_flatMap ..

namespace Component

theorem lintNode_plain (c : Component) (n : Node) :
    c.lintNode false n = plainOnly (c.lintNode true n) := by
  cases n with
  | choice choice =>
    obtain ⟨name, transition, doc, place, branches⟩ := choice
    rcases branches with _ | ⟨subject, _ | ⟨arm, _ | _⟩⟩ <;> rfl
  | widget w =>
    simp only [lintNode, Bool.false_and, Bool.true_and, Bool.false_eq_true, if_false]
    split <;> rfl

theorem plainOnly_lintProperty (c : Component) (p : Property) : plainOnly (c.lintProperty p) = [] := by
  unfold lintProperty
  split
  · split <;> rfl
  · rfl

/-- The plain lint reports what the extended one does, less what only that does. -/
theorem lint_plain (c : Component) : c.lint false = plainOnly (c.lint true) := by
  rw [lint, lint, plainOnly_append, plainOnly_flatMap, if_pos rfl, plainOnly_flatMap]
  simp [lintNode_plain, plainOnly_lintProperty]

theorem checkPropertyModifiers_warnings (p : Property) :
    ∀ d ∈ (checkPropertyModifiers p).warnings, !d.finding.isExtended := by
  unfold checkPropertyModifiers
  dsimp only
  split
  · simp
  · intro d hd
    rcases List.mem_append.mp hd with hd | hd <;> split at hd <;> simp_all [Finding.isExtended]

theorem checkModifiers_warnings (c : Component) :
    ∀ d ∈ c.checkModifiers.warnings, !d.finding.isExtended := by
  have hfold (visits : List (Visit × Property)) (found : Findings)
      (h : ∀ d ∈ found.warnings, !d.finding.isExtended) :
      ∀ d ∈ (visits.foldl (fun found v => found ++ checkPropertyModifiers v.2) found).warnings,
        !d.finding.isExtended := by
    induction visits generalizing found with
    | nil => exact h
    | cons v visits ih =>
      refine ih _ fun d hd => ?_
      rcases List.mem_append.mp hd with hd | hd
      · exact h d hd
      · exact checkPropertyModifiers_warnings v.2 d hd
  exact hfold _ _ (by simp)

theorem warnings_check (settings : Settings) (c : Component) :
    (c.check settings).warnings = c.checkModifiers.warnings := by
  have happend (a b : Findings) : (a ++ b).warnings = a.warnings ++ b.warnings := rfl
  simp [check, happend, checkNames, checkTracking, checkGuards, checkConnections, checkBindings,
    checkPrebound, checkUpdateScope]

end Component

namespace CompiledComponent

def plain (c : CompiledComponent) : CompiledComponent := { c with warnings := plainOnly c.warnings }

end CompiledComponent

theorem Component.compile_plain (settings : Settings) (c : Component) :
    c.compile settings false = (c.compile settings true).plain := by
  have hchecked := plainOnly_eq_self.mpr (checkModifiers_warnings (c.assignNames settings))
  rw [← warnings_check settings] at hchecked
  unfold Component.compile
  dsimp only
  split
  · rw [CompiledComponent.plain, hchecked]
  · rw [CompiledComponent.plain, plainOnly_append, hchecked, lint_plain]

theorem Outcome.compile_plain (settings : Settings) (o : Outcome) :
    o.compile settings false = (o.compile settings true).plain := by
  unfold Outcome.compile
  split
  · rfl
  · exact Component.compile_plain settings _

/-- Two results for one component that differ in warnings of the extended lint at most. -/
structure CompiledComponent.Extends (file : Path) (source : String)
    (extended plain : CompiledComponent) : Prop where
  name : extended.name = plain.name
  kind : extended.kind = plain.kind
  errors : extended.errors file.toString source = plain.errors file.toString source
  artifact : extended.artifact? = plain.artifact?
  warnings : plain.warnings = plainOnly extended.warnings
  messages : (plain.warnings.map (Diagnostic.render file.toString)).Sublist
    (extended.warnings.map (Diagnostic.render file.toString))

theorem CompiledComponent.extends_plain (file : Path) (source : String) (c : CompiledComponent) :
    c.Extends file source c.plain :=
  ⟨rfl, rfl, rfl, rfl, rfl, List.filter_sublist.map _⟩

namespace Compilation

/-- With the extended lint a view file compiles exactly if it does without, and then to the same
components with the same code and errors; each has the same warnings in the same order, among more
of the kinds that only the extended lint knows. -/
theorem ofSource?_extended (settings : Settings) (file : Path) (source : String) :
    Option.Rel (fun extended plain => extended.render = plain.render ∧
        extended.isSuccess = plain.isSuccess ∧
        List.Forall₂ (CompiledComponent.Extends file source) extended.components plain.components)
      (ofSource? settings file true source) (ofSource? settings file false source) := by
  unfold ofSource?
  cases readSource? settings source with
  | none => exact .none
  | some outcomes =>
    have hplain : outcomes.map (Outcome.compile settings false) =
        (outcomes.map (Outcome.compile settings true)).map CompiledComponent.plain := by
      rw [List.map_map]
      exact List.map_congr_left fun o _ => Outcome.compile_plain settings o
    rw [Option.map_some, Option.map_some, hplain]
    generalize outcomes.map (Outcome.compile settings true) = components
    refine .some ⟨?_, ?_, ?_⟩
    · simp only [render, List.filterMap_map]
      rfl
    · simp only [isSuccess, List.all_map]
      rfl
    · rw [List.forall₂_map_right_iff]
      exact List.forall₂_same.mpr fun c _ => c.extends_plain file source

end Compilation
end ViewTree
