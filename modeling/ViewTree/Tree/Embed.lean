import ViewTree.Embedded.Printer
import ViewTree.Tree.Cursor

/-!
Embedded expressions and patterns cut out of the tokens. Where one ends is decided by brackets and
separators alone; then its exact source text has to read as an expression or a pattern.
-/
namespace ViewTree
open Embedded

namespace TreeReader

/-- The character that no embedded text may hold. -/
def endsTexts (c : Char) : Bool := c.toNat = 0

def expression (text : String) (start : Token) (hint : Option String := none) :
    TreeReader Expr := do
  if text.toList.any endsTexts then throw .unusable
  match readTerm? text with
  | some term => pure ⟨text, start.place, term⟩
  | none => throw (.problem (.noExpression text start.place hint))

/-- The last token of an expression and what is behind it. Outside all brackets it ends at a closing
bracket or at one of `stops`; a comma belongs to it while the parameters of a lambda are open. -/
def expressionEnd (stops : TokenKind → Bool) (depth lambdas : Nat) (last : Option Token) :
    List Token → Option Token × List Token
  | [] => (last, [])
  | t :: rest =>
    let ends := depth = 0 &&
      (t.kind.isClosing || (stops t.kind && !(t.kind = .comma && 0 < lambdas)))
    if ends then (last, t :: rest)
    else
      let lambdas :=
        if depth ≠ 0 then lambdas
        else if t.kind = .identifier && t.text = "lambda" then lambdas + 1
        else if t.kind = .colon then lambdas - 1
        else lambdas
      let depth :=
        if t.kind.isOpening then depth + 1 else if t.kind.isClosing then depth - 1 else depth
      expressionEnd stops depth lambdas (some t) rest

/-- An expression up to one of `stops`. -/
def captureExpression (stops : List TokenKind) (what : String := "expression")
    (hint : Option String := none) : TreeReader Expr := do
  let cursor ← get
  let start := cursor.token
  match expressionEnd stops.contains 0 0 none cursor.rest with
  | (some last, rest) =>
    set { cursor with previous := some last, rest }
    expression (← textBetween start last) start hint
  | (none, _) => failAt (.expected what start.describe) start

/-- The last token of a pattern, which ends outside all brackets at an arrow or a closing
bracket. -/
def patternEnd (depth : Nat) (last : Option Token) : List Token → Option Token × List Token
  | [] => (last, [])
  | t :: rest =>
    if depth = 0 && (t.kind = .fatArrow || t.kind.isClosing) then (last, t :: rest)
    else
      let depth :=
        if t.kind.isOpening then depth + 1 else if t.kind.isClosing then depth - 1 else depth
      patternEnd depth (some t) rest

def flatten (text : String) : String :=
  String.ofList (text.toList.map fun c => if c = '\n' then ' ' else c)

/-- A text that reads as a pattern with its guard; one of several lines is written anew on one. -/
def pattern (text : String) (start : Token) : TreeReader ArmPattern := do
  if text.toList.any endsTexts then throw .unusable
  match readArm? (flatten text) with
  | none => throw (.problem (.noPattern (flatten text) start.place))
  | some arm =>
    if Text.isMultiline text then
      match arm.render? with
      | some written => pure ⟨written, start.place, arm⟩
      | none => throw .unusable
    else pure ⟨text, start.place, arm⟩

def capturePattern : TreeReader ArmPattern := do
  let cursor ← get
  let start := cursor.token
  match patternEnd 0 none cursor.rest with
  | (some last, rest) =>
    set { cursor with previous := some last, rest }
    pattern (← textBetween start last) start
  | (none, _) => failAt (.expected "a match pattern" start.describe) start

/-- The text that a string token stands for; none if it stands for bytes. -/
def stringValue (t : Token) : TreeReader (Option String) := do
  match readText? (fun g _ => g.expression) t.text.toList with
  | some (.mk _ _ (.literal (.text codes _))) => pure (some (textOf codes))
  | some (.mk _ _ (.literal (.bytes _))) => pure none
  | _ => failAt (.invalidString t.text) t

end TreeReader
end ViewTree
