import ViewTree.Embedded.Grammar
import ViewTree.Text.Fields

/-!
Embedded expressions as texts. A text is an expression if it is one between parentheses, so line
ends in it do not matter; offsets of terms count from the opening parenthesis.
-/
namespace ViewTree.Embedded
open Text Reader

/-- Reads lexemes to the end with a reader over the whole grammar. -/
def readAll? {α : Type} (inner : FieldReader) (reader : Grammar → Reader Term → Reader α)
    (lexemes : List Lexeme) : Option (α × Input) :=
  let (g, primary) := grammarAt inner (lexemes.length + 1)
  reader g primary ⟨lexemes, 0⟩

/-- The contents of a replacement field: a group that starts one character in front of them.
`depth` bounds how deep texts with fields nest. -/
def readField : (depth : Nat) → FieldReader
  | 0 => fun _ _ => none
  | depth + 1 => fun offset cs => do
    let lexemes ← scan ('(' :: cs ++ [')'])
    let moved := lexemes.map fun t => { t with
      kind := match t.kind with
        | .string s => .string { s with offset := s.offset + offset - 1 }
        | kind => kind
      start := t.start + offset - 1
      stop := t.stop + offset - 1 }
    let (value, _) ← readAll? (readField depth) (fun g _ => itemsTerm g) moved
    pure value
where
  itemsTerm (g : Grammar) : Reader Term := Grammar.itemsTerm g.plainItem

/-- Whether nothing but line ends is left. -/
def atEnd (input : Input) : Bool := input.rest.all (·.kind = .lineEnd)

def readText? {α : Type} (reader : Grammar → Reader Term → Reader α) (cs : List Char) : Option α := do
  let lexemes ← scan cs
  let (found, left) ← readAll? (readField cs.length) reader lexemes
  if atEnd left then pure found else none

/-- The text between parentheses, which terms' offsets refer to. -/
def grouped (text : String) : List Char := '(' :: text.toList ++ [')']

def readTerm? (text : String) : Option Term :=
  readText? (fun g _ => Grammar.itemsTerm g.expression) (grouped text)

def sourceOf (text : String) (t : Term) : String :=
  String.ofList (slice (grouped text) t.start t.stop)

/-- The source texts of a tuple's elements; none for anything that is no tuple. -/
def elementTexts? (text : String) (t : Term) : Option (List String) :=
  t.elements?.map fun items => items.map (sourceOf text)

/-- The text in a form that may stand on a line: between parentheses if it has several lines. -/
def inlineText (text : String) : String :=
  if isMultiline text then String.ofList (grouped text) else text

/-- The text as the arguments of a call: the elements of a tuple each by itself. -/
def argumentsText (text : String) (t : Term) : String :=
  match elementTexts? text t with
  | some elements => ", ".intercalate elements
  | none => inlineText text

end ViewTree.Embedded
