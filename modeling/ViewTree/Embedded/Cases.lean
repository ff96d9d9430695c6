import ViewTree.Embedded.Expression

/-!
The grammar of patterns, and arms of a match read from the text between `case` and its colon.
-/
namespace ViewTree.Embedded
open Text Reader

namespace Cases

def closes : LexemeKind → Bool
  | .keyword word => word = "if"
  | .symbol s => isCloser s || s = ":"
  | _ => false

/-- A name that binds: any but `_`, which is the wildcard. -/
def binds (id : String) : Bool := id ≠ "_"

/-- Lexemes that may not follow a name that stands for itself. -/
def continuesName (k : Option LexemeKind) : Bool :=
  k = some (.symbol ".") || k = some (.symbol "(") || k = some (.symbol "=")

def bindingName : Reader String := do
  let id ← name
  if !binds id || continuesName (← peek) then failure
  pure id

def signedNumber : Reader Term := do
  let start ← here
  let minus ← accept (.symbol "-")
  let inner ← here
  match ← next with
  | .number value =>
    let number ← close inner (.literal value)
    if minus then close start (.unary .negative number) else pure number
  | _ => failure

def isImaginary : Term → Bool
  | .mk _ _ (.literal (.imaginary _)) => true
  | .mk _ _ (.unary _ (.mk _ _ (.literal (.imaginary _)))) => true
  | _ => false

/-- A number, or a real and an imaginary one with a sign between them. -/
def number : Reader Term := do
  let start ← here
  let first ← signedNumber
  let join (op : BinaryOp) : Reader Term := do
    let _ ← next
    let inner ← here
    match ← next with
    | .number (.imaginary value) =>
      let second ← close inner (.literal (.imaginary value))
      if isImaginary first then failure
      close start (.binary op first second)
    | _ => failure
  match ← peek with
  | some (.symbol "+") => join .add
  | some (.symbol "-") => join .sub
  | _ => pure first

def strings (inner : FieldReader) : Reader Term := do
  let start ← here
  match stringsForm? inner (← Grammar.stringLiterals) with
  | some form => close start form
  | none => failure

def singleton? : LexemeKind → Option Literal
  | .keyword "None" => some .none
  | .keyword "True" => some (.bool true)
  | .keyword "False" => some (.bool false)
  | _ => none

/-- A name with the attributes behind it. -/
def dotted : Reader Term := do
  let start ← here
  let first ← close start (.name (← name))
  repeating (fun value => do
    if ← accept (.symbol ".") then
      let attr ← name
      pure (some (← close start (.attribute value attr)))
    else pure none) first

def isName : Term → Bool
  | .mk _ _ (.name _) => true
  | _ => false

def maybeStar (pattern : Reader Pattern) : Reader Pattern := do
  if ← accept (.symbol "*") then
    match ← peek with
    | some (.name "_") =>
      let _ ← next
      pure (.star none)
    | _ => pure (.star (some (← bindingName)))
  else pattern

def isStar : Pattern → Bool
  | .star _ => true
  | _ => false

/-- Patterns with commas between them, as a sequence; a single one without a comma is itself. -/
def openSequence (pattern : Reader Pattern) : Reader Pattern := do
  let (found, commas) ← items (maybeStar pattern) closes
  match found, commas with
  | [one], false => if isStar one then failure else pure one
  | _, _ => pure (.sequence found)

def bracketed (pattern : Reader Pattern) : Reader Pattern := do
  if ← accept (.symbol "]") then pure (.sequence [])
  else
    let (found, _) ← items (maybeStar pattern) closes
    symbol "]"
    pure (.sequence found)

/-- The key of a mapping pattern. -/
def key (inner : FieldReader) : Reader Term := do
  let start ← here
  match ← peek with
  | some (.string _) => strings inner
  | some (.name _) =>
    let found ← dotted
    if isName found then failure
    pure found
  | some kind =>
    match singleton? kind with
    | some value =>
      let _ ← next
      close start (.literal value)
    | none => number
  | none => failure

/-- An entry of a mapping pattern: a key with a pattern, or the name that binds the others. -/
def entry (inner : FieldReader) (pattern : Reader Pattern) :
    Reader ((Term × Pattern) ⊕ String) := do
  if ← accept (.symbol "**") then pure (.inr (← bindingName))
  else
    let found ← key inner
    symbol ":"
    pure (.inl (found, ← pattern))

def braced (inner : FieldReader) (pattern : Reader Pattern) : Reader Pattern := do
  if ← accept (.symbol "\x7d") then pure (.mapping [] [] none)
  else
    let (found, _) ← items (entry inner pattern) closes
    symbol "\x7d"
    let entries := found.filterMap fun
      | .inl entry => some entry
      | .inr _ => none
    match found.getLast? with
    | some (.inr rest) =>
      if entries.length + 1 ≠ found.length then failure
      pure (.mapping (entries.map (·.1)) (entries.map (·.2)) (some rest))
    | _ =>
      if entries.length ≠ found.length then failure
      pure (.mapping (entries.map (·.1)) (entries.map (·.2)) none)

/-- An argument of a class pattern. The wildcard is taken for a pattern unless only named arguments
stand in front of it. -/
def argument (pattern : Reader Pattern) (plain : Bool) : Reader (Option String × Pattern) := do
  match ← peek, ← peekSecond with
  | some (.name id), some (.symbol "=") =>
    if plain && !binds id then failure
    let _ ← next
    let _ ← next
    pure (some id, ← pattern)
  | _, _ => pure (none, ← pattern)

/-- The arguments of a class pattern behind the opening parenthesis. -/
def object (pattern : Reader Pattern) (type : Term) : Reader Pattern := do
  if ← accept (.symbol ")") then pure (.object type [] [] [])
  else
    let found ← repeating (fun (found : List (Option String × Pattern) × Bool) => do
      let (found, more) := found
      if !more || (← peek) = some (.symbol ")") then pure none
      else
        let plain := found.head?.any (·.1.isNone)
        let one ← argument pattern plain
        if one.1.isNone && found.any (·.1.isSome) then failure
        pure (some (one :: found, ← accept (.symbol ",")))) ([], true)
    symbol ")"
    let found := found.1.reverse
    if found.isEmpty then failure
    let named := found.filter (·.1.isSome)
    pure (.object type ((found.filter (·.1.isNone)).map (·.2)) (named.filterMap (·.1))
      (named.map (·.2)))

/-- A pattern that starts with a name. -/
def named (pattern : Reader Pattern) : Reader Pattern := do
  if (← peek) = some (.name "_") then
    let _ ← next
    pure (.capture none)
  else
    let found ← dotted
    if ← accept (.symbol "(") then object pattern found
    else if (← peek) = some (.symbol "=") then failure
    else
      match found with
      | .mk _ _ (.name id) => pure (.capture (some id))
      | _ => pure (.value found)

def closed (inner : FieldReader) (pattern : Reader Pattern) : Reader Pattern := do
  match ← peek with
  | some (.name _) => named pattern
  | some (.string _) => pure (.value (← strings inner))
  | some (.symbol "[") =>
    let _ ← next
    bracketed pattern
  | some (.symbol "\x7b") =>
    let _ ← next
    braced inner pattern
  | some (.symbol "(") =>
    let _ ← next
    if ← accept (.symbol ")") then pure (.sequence [])
    else
      let found ← openSequence pattern
      symbol ")"
      pure found
  | some kind =>
    match singleton? kind with
    | some value =>
      let _ ← next
      pure (.singleton value)
    | none => pure (.value (← number))
  | none => failure

def patternOf (inner : FieldReader) (pattern : Reader Pattern) : Reader Pattern := do
  let first ← closed inner pattern
  let more ← many do
    if ← accept (.symbol "|") then pure (some (← closed inner pattern)) else pure none
  let found := if more.isEmpty then first else .alternatives (first :: more)
  if ← accept (.keyword "as") then pure (.bound found (← bindingName)) else pure found

/-- The grammar of patterns with at most `depth` nested ones. -/
def patternAt (inner : FieldReader) : Nat → Reader Pattern
  | 0 => failure
  | depth + 1 => patternOf inner (patternAt inner depth)

end Cases

/-- One arm: patterns and a guard between `case` and the colon, with a body behind it. -/
def armReader (inner : FieldReader) (g : Grammar) : Reader Arm := do
  expect (.name "case")
  let depth := (← get).rest.length + 1
  let pattern ← Cases.openSequence (Cases.patternAt inner depth)
  let guard ← if ← accept (.keyword "if") then pure (some (← g.named)) else pure none
  symbol ":"
  expect .lineEnd
  keyword "pass"
  expect .lineEnd
  pure ⟨pattern, guard⟩

/-- The arm that a text is the pattern and guard of. Lines end in line feeds, as in every text of a
file: a text that goes on with statements and further arms behind a lone carriage return is not read. -/
def readArm? (text : String) : Option Arm :=
  let cs := "case ".toList ++ text.toList ++ ":\n  pass\n".toList
  readText? (fun g _ => armReader (readField cs.length) g) cs

end ViewTree.Embedded
