import ViewTree.Text.Blank
import ViewTree.Tree.Embed

/-!
Attributes and documentation in front of nodes and properties, and the modifiers that attributes
make up.
-/
namespace ViewTree
open Text

/-- An attribute with its arguments; `token` is its word, for messages. -/
structure Attribute where
  kind : AttributeKind
  token : Token
  names : List String := []
  expr : Option Expr := none
  isMutable : Bool := false

/-- What stands in front of an item: attributes that describe a node, attributes that modify the
property it hangs on, and documentation. -/
structure Lead where
  node : List Attribute
  property : List Attribute
  doc : Option String

namespace Attribute
open TreeReader

/-- Names between parentheses; a last comma may stand behind them. -/
def nameArguments (a : Attribute) : TreeReader Attribute := do
  let (a, _) ← repeating (fun (a, more) => do
    if !more then pure none
    else
      let marked := a.kind = .name && (← isNext .mutWord) && (← ahead).kind = .identifier
      if marked then
        let _ ← advance
      let a := { a with
        names := a.names ++ [← TreeReader.name], isMutable := a.isMutable || marked }
      if ← accept .comma then pure (some (a, !(← isNext .rparen)))
      else pure (some (a, false))) (a, true)
  pure a

/-- The parts of a text of names without the blanks around them. -/
def nameParts (kind : AttributeKind) (value : String) : List String :=
  let parts := if kind = .blockSignal then fields ',' value.toList else [value.toList]
  parts.map fun cs => String.ofList (trim cs)

def stringArgument (a : Attribute) : TreeReader Attribute := do
  let t ← expect .string
  match ← stringValue t with
  | none => failAt (.notText a.kind) t
  | some value =>
    if a.kind.takesExpression then pure { a with expr := some (← expression value t) }
    else
      let parts := nameParts a.kind value
      match parts.find? (!isIdentifier ·) with
      | some part => failAt (.invalidName part a.kind) t
      | none => pure { a with names := parts }

def arguments (a : Attribute) : TreeReader Attribute := do
  if ← accept .lparen then
    if ← isNext .rparen then fail (.missingArgument a.kind true)
    let a ←
      if a.kind.takesNames then a.nameArguments
      else if a.kind.takesExpression then
        pure { a with expr := some (← captureExpression [] ("#[" ++ a.kind.word ++ "] argument")) }
      else failAt (.excessArgument a.kind) a.token
    let _ ← expect .rparen
    pure a
  else if ← accept .equals then
    if a.kind.takesNames || a.kind.takesExpression then a.stringArgument
    else failAt (.excessArgument a.kind) a.token
  else if a.kind.needsArgument then failAt (.missingArgument a.kind false) a.token
  else pure a

def read : TreeReader Attribute := do
  let _ ← expect .attrOpen
  let t ← current
  let word ← TreeReader.name
  match AttributeKind.ofWord? word with
  | none => failAt (.unknownAttribute word) t
  | some kind =>
    let a ← arguments { kind, token := t }
    let _ ← expect .rbracket
    if (kind = .name || kind = .transition) && a.names.length ≠ 1 then
      failAt (.severalNames kind) t
    pure a

/-- The text of a documentation comment without its mark and one blank behind it. -/
def docText (t : Token) : List Char :=
  match t.text.toList.drop 2 with
  | ' ' :: cs => cs
  | cs => cs

/-- Several documentation comments as one text, without blanks at its end. -/
def joinDocs (docs : List (List Char)) : Option String :=
  let joined := trimRight (joinFields '\n' docs)
  if joined.isEmpty then none else some (String.ofList joined)

/-- Everything in front of an item. -/
def lead : TreeReader Lead := do
  let (found, docs) ← repeating (fun (found, docs) => do
    if ← isNext .docComment then pure (some (found, docText (← advance) :: docs))
    else if ← isNext .attrOpen then pure (some ((← read) :: found, docs))
    else pure none) (([] : List Attribute), ([] : List (List Char)))
  let found := found.reverse
  pure
    { node := found.filter (·.kind.describesNode)
      property := found.filter (!·.kind.describesNode)
      doc := joinDocs docs.reverse }

def find? (kind : AttributeKind) (attributes : List Attribute) : TreeReader (Option Attribute) := do
  match attributes.filter (·.kind = kind) with
  | [] => pure none
  | [a] => pure (some a)
  | _ :: b :: _ => failAt (.repeatedAttribute kind) b.token

def addTo (m : Modifiers) (a : Attribute) : Modifiers :=
  match a.kind with
  | .watch => { m with watch := true }
  | .track => { m with tracking := a.expr.elim .derived .explicit }
  | .blockSignal => { m with blockSignals := m.blockSignals ++ a.names }
  | .chain => { m with chain := m.chain ++ a.expr.toList }
  | .iterate => { m with iterate := true }
  | .transition => { m with transition := a.names.head? }
  | _ => m

/-- The modifiers that attributes make up. Only those that hold lists may come more than once. -/
def modifiers (attributes : List Attribute) (optional : Bool := false) : TreeReader Modifiers := do
  let (m, _) ← attributes.foldlM (fun (m, seen) a => do
    if seen.contains a.kind && a.kind ≠ .blockSignal && a.kind ≠ .chain then
      failAt (.repeatedAttribute a.kind) a.token
    pure (addTo m a, a.kind :: seen)) (({ optional } : Modifiers), ([] : List AttributeKind))
  pure m

end Attribute
end ViewTree
