import ViewTree.Embedded.Cases

/-!
Which names an expression reads, and which fields of the model. Both look at every subterm, at any
depth: fields of texts, bodies of lambdas and parts of comprehensions are no exception.
-/
namespace ViewTree.Embedded

/-- A subterm, and whether it is there as the function of a call. -/
structure Occurrence where
  term : Term
  called : Bool

mutual

def Term.occurrences (called : Bool) : Term → List Occurrence
  | .mk s e form => ⟨.mk s e form, called⟩ :: form.occurrences

def Form.occurrences : Form → List Occurrence
  | .name _ | .binder _ | .literal _ => []
  | .format pieces => Piece.allOccurrences pieces
  | .attribute value _ => value.occurrences false
  | .subscript value index => value.occurrences false ++ index.occurrences false
  | .call function plain keywords =>
    function.occurrences true ++ Term.allOccurrences plain ++ Keyword.allOccurrences keywords
  | .unary _ operand => operand.occurrences false
  | .binary _ left right => left.occurrences false ++ right.occurrences false
  | .bool _ operands => Term.allOccurrences operands
  | .compare first _ others => first.occurrences false ++ Term.allOccurrences others
  | .lambda params body => Param.allOccurrences params ++ body.occurrences false
  | .choice test body other =>
    test.occurrences false ++ body.occurrences false ++ other.occurrences false
  | .tuple items | .list items | .set items => Term.allOccurrences items
  | .dict entries => Entry.allOccurrences entries
  | .listOf element clauses | .setOf element clauses | .generator element clauses =>
    element.occurrences false ++ Clause.allOccurrences clauses
  | .dictOf key value clauses =>
    key.occurrences false ++ value.occurrences false ++ Clause.allOccurrences clauses
  | .await value | .yieldFrom value | .starred value | .named _ value => value.occurrences false
  | .yield value => Term.optionOccurrences value
  | .slice lower upper step =>
    Term.optionOccurrences lower ++ Term.optionOccurrences upper ++ Term.optionOccurrences step

def Term.optionOccurrences : Option Term → List Occurrence
  | none => []
  | some t => t.occurrences false

def Term.allOccurrences : List Term → List Occurrence
  | [] => []
  | t :: ts => t.occurrences false ++ Term.allOccurrences ts

def Piece.allOccurrences : List Piece → List Occurrence
  | [] => []
  | .text _ :: more => Piece.allOccurrences more
  | .field value _ none :: more => value.occurrences false ++ Piece.allOccurrences more
  | .field value _ (some spec) :: more =>
    value.occurrences false ++ Piece.allOccurrences spec ++ Piece.allOccurrences more

def Keyword.allOccurrences : List Keyword → List Occurrence
  | [] => []
  | .mk _ value :: more => value.occurrences false ++ Keyword.allOccurrences more

def Param.allOccurrences : List Param → List Occurrence
  | [] => []
  | .mk _ _ default :: more => Term.optionOccurrences default ++ Param.allOccurrences more

def Entry.allOccurrences : List Entry → List Occurrence
  | [] => []
  | .mk key value :: more =>
    Term.optionOccurrences key ++ value.occurrences false ++ Entry.allOccurrences more

def Clause.allOccurrences : List Clause → List Occurrence
  | [] => []
  | .mk _ target source conditions :: more =>
    target.occurrences false ++ source.occurrences false ++ Term.allOccurrences conditions ++
      Clause.allOccurrences more

end

def Term.readName? : Term → Option String
  | .mk _ _ (.name id) => some id
  | _ => none

/-- The attribute and place of an access to `model`. -/
def Term.fieldOf? (model : String) : Term → Option (Nat × String)
  | .mk start _ (.attribute value attr) =>
    if value.readName? = some model then some (start, attr) else none
  | _ => none

/-- Every name that the term reads, once for each place. -/
def Term.names (t : Term) : List String :=
  (t.occurrences false).filterMap (·.term.readName?)

/-- Keeps the first of several equal elements. -/
def distinct {α : Type} [DecidableEq α] (xs : List α) : List α :=
  xs.foldl (fun seen x => if seen.contains x then seen else seen ++ [x]) []

/-- Earlier places first; at one place, the smaller name. -/
def placedBefore (a b : Nat × String) : Bool :=
  a.1 < b.1 || (a.1 = b.1 && decide (a.2 ≤ b.2))

/-- The fields of `model` that the term reads, in order of first use. A method of the model that is
called is no field. -/
def Term.fieldsOf (model : String) (t : Term) : List String :=
  let found := (t.occurrences false).filterMap fun o =>
    if o.called then none else o.term.fieldOf? model
  distinct ((found.mergeSort placedBefore).map (·.2))

/-- Names in alphabetical order, each once. -/
def sortNames (names : List String) : List String :=
  (distinct names).mergeSort fun a b => decide (a ≤ b)

namespace Pattern

mutual

def terms : Pattern → List Term
  | value term => [term]
  | singleton _ | capture _ | star _ => []
  | bound pattern _ => pattern.terms
  | sequence items | alternatives items => allTerms items
  | mapping keys values _ => keys ++ allTerms values
  | object type positional _ named => type :: allTerms positional ++ allTerms named

def allTerms : List Pattern → List Term
  | [] => []
  | p :: ps => p.terms ++ allTerms ps

end

mutual

/-- The names that a pattern binds. -/
def captures : Pattern → List String
  | value _ | singleton _ => []
  | capture name | star name => name.toList
  | bound pattern name => name :: pattern.captures
  | sequence items | alternatives items => allCaptures items
  | mapping _ values others => others.toList ++ allCaptures values
  | object _ positional _ named => allCaptures positional ++ allCaptures named

def allCaptures : List Pattern → List String
  | [] => []
  | p :: ps => p.captures ++ allCaptures ps

end
end Pattern

/-- The names that an arm reads from outside: those its pattern binds are left out, in the guard
too. -/
def Arm.names (arm : Arm) : List String :=
  let read := (arm.pattern.terms ++ arm.guard.toList).flatMap Term.names
  let bound := arm.pattern.captures
  read.filter (!bound.contains ·)

end ViewTree.Embedded
