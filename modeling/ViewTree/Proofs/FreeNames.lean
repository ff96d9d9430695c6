import Mathlib.Data.List.Basic
import ViewTree.Embedded.Names

/-!
Free names of embedded expressions and patterns, by scopes: a lambda binds its parameters in its
body, a comprehension binds its targets everywhere but in its first source, and an arm binds the
names that its pattern captures. Main statements: what is free is among the names that are read
(`Term.free_subset_names`, `Arm.free_subset_names`).
-/
namespace ViewTree.Embedded

mutual

/-- The names that the target of a comprehension binds. -/
def Term.targets : Term → List String
  | .mk _ _ form => form.targets

def Form.targets : Form → List String
  | .binder id => [id]
  | .tuple items | .list items => Term.allTargets items
  | .starred value => value.targets
  | _ => []

def Term.allTargets : List Term → List String
  | [] => []
  | t :: ts => t.targets ++ Term.allTargets ts

end

def Clause.target : Clause → Term
  | .mk _ target _ _ => target

/-- The names that the clauses of a comprehension bind. -/
def Clause.allTargets (clauses : List Clause) : List String :=
  clauses.flatMap (·.target.targets)

mutual

/-- The names that the term reads where neither `bound` nor the term itself binds them. A name that
`:=` gives a value is bound around the term, not by it. -/
def Term.free (bound : List String) : Term → List String
  | .mk _ _ form => form.free bound

def Form.free (bound : List String) : Form → List String
  | .name id => if id ∈ bound then [] else [id]
  | .binder _ | .literal _ => []
  | .format pieces => Piece.allFree bound pieces
  | .attribute value _ => value.free bound
  | .subscript value index => value.free bound ++ index.free bound
  | .call function plain keywords =>
    function.free bound ++ Term.allFree bound plain ++ Keyword.allFree bound keywords
  | .unary _ operand => operand.free bound
  | .binary _ left right => left.free bound ++ right.free bound
  | .bool _ operands => Term.allFree bound operands
  | .compare first _ others => first.free bound ++ Term.allFree bound others
  | .lambda params body =>
    Param.allFree bound params ++ body.free (params.map Param.name ++ bound)
  | .choice test body other => test.free bound ++ body.free bound ++ other.free bound
  | .tuple items | .list items | .set items => Term.allFree bound items
  | .dict entries => Entry.allFree bound entries
  | .listOf element clauses | .setOf element clauses | .generator element clauses =>
    element.free (Clause.allTargets clauses ++ bound) ++
      Clause.loopsFree bound (Clause.allTargets clauses ++ bound) clauses
  | .dictOf key value clauses =>
    key.free (Clause.allTargets clauses ++ bound) ++
      value.free (Clause.allTargets clauses ++ bound) ++
        Clause.loopsFree bound (Clause.allTargets clauses ++ bound) clauses
  | .await value | .yieldFrom value | .starred value | .named _ value => value.free bound
  | .yield value => Term.optionFree bound value
  | .slice lower upper step =>
    Term.optionFree bound lower ++ Term.optionFree bound upper ++ Term.optionFree bound step

def Term.optionFree (bound : List String) : Option Term → List String
  | none => []
  | some t => t.free bound

def Term.allFree (bound : List String) : List Term → List String
  | [] => []
  | t :: ts => t.free bound ++ Term.allFree bound ts

def Piece.allFree (bound : List String) : List Piece → List String
  | [] => []
  | .text _ :: more => Piece.allFree bound more
  | .field value _ none :: more => value.free bound ++ Piece.allFree bound more
  | .field value _ (some spec) :: more =>
    value.free bound ++ Piece.allFree bound spec ++ Piece.allFree bound more

def Keyword.allFree (bound : List String) : List Keyword → List String
  | [] => []
  | .mk _ value :: more => value.free bound ++ Keyword.allFree bound more

/-- Defaults are evaluated where the lambda stands. -/
def Param.allFree (bound : List String) : List Param → List String
  | [] => []
  | .mk _ _ default :: more => Term.optionFree bound default ++ Param.allFree bound more

def Entry.allFree (bound : List String) : List Entry → List String
  | [] => []
  | .mk key value :: more =>
    Term.optionFree bound key ++ value.free bound ++ Entry.allFree bound more

/-- The first source is evaluated where the comprehension stands, all else inside it. -/
def Clause.loopsFree (bound inner : List String) : List Clause → List String
  | [] => []
  | .mk _ target source conditions :: more =>
    target.free inner ++ source.free bound ++ Term.allFree inner conditions ++
      Clause.loopsFree inner inner more

end

/-- The names that an arm reads where its own pattern does not bind them. -/
def Arm.free (arm : Arm) : List String :=
  ((arm.pattern.terms ++ arm.guard.toList).flatMap (Term.free [])).filter
    (· ∉ arm.pattern.captures)

def Occurrence.reads (occurrences : List Occurrence) : List String :=
  occurrences.filterMap (·.term.readName?)

theorem Occurrence.append_subset_reads {a b : List String} {os qs : List Occurrence}
    (ha : a ⊆ reads os) (hb : b ⊆ reads qs) : a ++ b ⊆ reads (os ++ qs) := by
  rw [reads, List.filterMap_append]
  exact List.append_subset.mpr
    ⟨List.subset_append_of_subset_left _ ha, List.subset_append_of_subset_right _ hb⟩

open Occurrence (append_subset_reads)

mutual

theorem Term.free_subset_reads (bound : List String) (called : Bool) : (t : Term) →
    t.free bound ⊆ Occurrence.reads (t.occurrences called)
  | .mk s e form => Form.free_subset_reads bound called s e form

theorem Form.free_subset_reads (bound : List String) (called : Bool) (s e : Nat) : (form : Form) →
    form.free bound ⊆ Occurrence.reads (⟨.mk s e form, called⟩ :: form.occurrences)
  | .name id => by
    rw [Form.free]
    split
    · exact List.nil_subset _
    · exact List.Subset.refl _
  | .binder _ | .literal _ => List.nil_subset _
  | .format pieces => Piece.free_subset_reads bound pieces
  | .attribute value _ => Term.free_subset_reads bound false value
  | .subscript value index =>
    append_subset_reads (Term.free_subset_reads bound false value)
      (Term.free_subset_reads bound false index)
  | .call function plain keywords =>
    append_subset_reads (append_subset_reads (Term.free_subset_reads bound true function)
      (Term.allFree_subset_reads bound plain)) (Keyword.free_subset_reads bound keywords)
  | .unary _ operand => Term.free_subset_reads bound false operand
  | .binary _ left right =>
    append_subset_reads (Term.free_subset_reads bound false left)
      (Term.free_subset_reads bound false right)
  | .bool _ operands => Term.allFree_subset_reads bound operands
  | .compare first _ others =>
    append_subset_reads (Term.free_subset_reads bound false first)
      (Term.allFree_subset_reads bound others)
  | .lambda params body =>
    append_subset_reads (Param.free_subset_reads bound params)
      (Term.free_subset_reads (params.map Param.name ++ bound) false body)
  | .choice test body other =>
    append_subset_reads (append_subset_reads (Term.free_subset_reads bound false test)
      (Term.free_subset_reads bound false body)) (Term.free_subset_reads bound false other)
  | .tuple items | .list items | .set items => Term.allFree_subset_reads bound items
  | .dict entries => Entry.free_subset_reads bound entries
  | .listOf element clauses | .setOf element clauses | .generator element clauses =>
    append_subset_reads (Term.free_subset_reads (Clause.allTargets clauses ++ bound) false element)
      (Clause.free_subset_reads bound (Clause.allTargets clauses ++ bound) clauses)
  | .dictOf key value clauses =>
    append_subset_reads (append_subset_reads
      (Term.free_subset_reads (Clause.allTargets clauses ++ bound) false key)
      (Term.free_subset_reads (Clause.allTargets clauses ++ bound) false value))
      (Clause.free_subset_reads bound (Clause.allTargets clauses ++ bound) clauses)
  | .await value | .yieldFrom value | .starred value | .named _ value =>
    Term.free_subset_reads bound false value
  | .yield value => Term.optionFree_subset_reads bound value
  | .slice lower upper step =>
    append_subset_reads (append_subset_reads (Term.optionFree_subset_reads bound lower)
      (Term.optionFree_subset_reads bound upper)) (Term.optionFree_subset_reads bound step)

theorem Term.optionFree_subset_reads (bound : List String) : (t : Option Term) →
    Term.optionFree bound t ⊆ Occurrence.reads (Term.optionOccurrences t)
  | none => List.nil_subset _
  | some t => Term.free_subset_reads bound false t

theorem Term.allFree_subset_reads (bound : List String) : (ts : List Term) →
    Term.allFree bound ts ⊆ Occurrence.reads (Term.allOccurrences ts)
  | [] => List.nil_subset _
  | t :: ts =>
    append_subset_reads (Term.free_subset_reads bound false t) (Term.allFree_subset_reads bound ts)

theorem Piece.free_subset_reads (bound : List String) : (pieces : List Piece) →
    Piece.allFree bound pieces ⊆ Occurrence.reads (Piece.allOccurrences pieces)
  | [] => List.nil_subset _
  | .text _ :: more => Piece.free_subset_reads bound more
  | .field value _ none :: more =>
    append_subset_reads (Term.free_subset_reads bound false value)
      (Piece.free_subset_reads bound more)
  | .field value _ (some spec) :: more =>
    append_subset_reads (append_subset_reads (Term.free_subset_reads bound false value)
      (Piece.free_subset_reads bound spec)) (Piece.free_subset_reads bound more)

theorem Keyword.free_subset_reads (bound : List String) : (keywords : List Keyword) →
    Keyword.allFree bound keywords ⊆ Occurrence.reads (Keyword.allOccurrences keywords)
  | [] => List.nil_subset _
  | .mk _ value :: more =>
    append_subset_reads (Term.free_subset_reads bound false value)
      (Keyword.free_subset_reads bound more)

theorem Param.free_subset_reads (bound : List String) : (params : List Param) →
    Param.allFree bound params ⊆ Occurrence.reads (Param.allOccurrences params)
  | [] => List.nil_subset _
  | .mk _ _ default :: more =>
    append_subset_reads (Term.optionFree_subset_reads bound default)
      (Param.free_subset_reads bound more)

theorem Entry.free_subset_reads (bound : List String) : (entries : List Entry) →
    Entry.allFree bound entries ⊆ Occurrence.reads (Entry.allOccurrences entries)
  | [] => List.nil_subset _
  | .mk key value :: more =>
    append_subset_reads (append_subset_reads (Term.optionFree_subset_reads bound key)
      (Term.free_subset_reads bound false value)) (Entry.free_subset_reads bound more)

theorem Clause.free_subset_reads (bound inner : List String) : (clauses : List Clause) →
    Clause.loopsFree bound inner clauses ⊆ Occurrence.reads (Clause.allOccurrences clauses)
  | [] => List.nil_subset _
  | .mk _ target source conditions :: more =>
    append_subset_reads (append_subset_reads (append_subset_reads
      (Term.free_subset_reads inner false target) (Term.free_subset_reads bound false source))
      (Term.allFree_subset_reads inner conditions)) (Clause.free_subset_reads inner inner more)

end

theorem Term.free_subset_names (bound : List String) (t : Term) : t.free bound ⊆ t.names :=
  t.free_subset_reads bound false

theorem Arm.free_subset_names (arm : Arm) : arm.free ⊆ arm.names := by
  intro name hname
  obtain ⟨hread, hcaptured⟩ := List.mem_filter.mp hname
  obtain ⟨t, ht, hread⟩ := List.mem_flatMap.mp hread
  refine List.mem_filter.mpr ⟨List.mem_flatMap.mpr ⟨t, ht, t.free_subset_names [] hread⟩, ?_⟩
  simpa using hcaptured

/-- Parameters and targets bind, but not in defaults and not in the first source. -/
example : Term.free [] (.mk 0 0 (.lambda
    [.mk .ordinary "x" (some (.mk 0 0 (.name "x")))]
    (.mk 0 0 (.listOf (.mk 0 0 (.tuple [.mk 0 0 (.name "x"), .mk 0 0 (.name "y")]))
      [.mk false (.mk 0 0 (.binder "y")) (.mk 0 0 (.name "y")) []])))) = ["x", "y"] := by
  decide

end ViewTree.Embedded
