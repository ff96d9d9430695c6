import ViewTree.Embedded.Lexeme
import ViewTree.Embedded.Term
import ViewTree.Text.Quoted

/-!
Terms and patterns as texts on one line. Parentheses stand where a term binds looser than its place
asks for. Texts are printed as code points; a term has no printed form if a replacement field would
need a backslash, or a whole number more digits than a literal may have.
-/
namespace ViewTree.Embedded
open Text

/-- How tightly a place holds its term, from `x := y` up to atoms. -/
abbrev Level := Nat

namespace Level
def named : Level := 1
def tuple : Level := 2
def yield : Level := 3
def test : Level := 4
def or : Level := 5
def and : Level := 6
def not : Level := 7
def comparison : Level := 8
def operand : Level := 9
def xor : Level := 10
def bitAnd : Level := 11
def shift : Level := 12
def sum : Level := 13
def product : Level := 14
def factor : Level := 15
def power : Level := 16
def await : Level := 17
def atom : Level := 18
/-- The next level; nothing is above atoms. -/
def next (l : Level) : Level := min (l + 1) atom
end Level

abbrev Codes := List Nat

def codesOf (text : String) : Codes := text.toList.map Char.toNat

def textOf (codes : Codes) : String := String.ofList (codes.map Char.ofNat)

def UnaryOp.sign : UnaryOp → String
  | .negative => "-" | .positive => "+" | .invert => "~" | .not => "not "

def UnaryOp.level : UnaryOp → Level
  | .not => .not
  | _ => .factor

def BinaryOp.sign : BinaryOp → String
  | .add => "+" | .sub => "-" | .mul => "*" | .matMul => "@" | .div => "/" | .mod => "%"
  | .floorDiv => "//" | .power => "**" | .shiftLeft => "<<" | .shiftRight => ">>"
  | .bitOr => "|" | .bitXor => "^" | .bitAnd => "&"

def BinaryOp.level : BinaryOp → Level
  | .add | .sub => .sum
  | .mul | .matMul | .div | .mod | .floorDiv => .product
  | .power => .power
  | .shiftLeft | .shiftRight => .shift
  | .bitOr => .operand
  | .bitXor => .xor
  | .bitAnd => .bitAnd

def CompareOp.sign : CompareOp → String
  | .eq => "==" | .ne => "!=" | .lt => "<" | .le => "<=" | .gt => ">" | .ge => ">="
  | .is => "is" | .isNot => "is not" | .isIn => "in" | .notIn => "not in"

def BoolOp.sign : BoolOp → String
  | .and => "and" | .or => "or"

def BoolOp.level : BoolOp → Level
  | .and => .and | .or => .or

def quotes : List String := ["'", "\"", "\"\"\"", "'''"]

def isLongQuote (quote : String) : Bool := quote.length = 3

/-- Whether `part` occurs in a list. -/
def occursIn (part : Codes) : Codes → Bool
  | [] => part.isEmpty
  | c :: cs => part.isPrefixOf (c :: cs) || occursIn part cs

/-- A character as it stands between quotes that need not be known: line ends and tabs stay unless
`escapeBlanks`. -/
def plainCode (escapeBlanks : Bool) (n : Nat) : Codes :=
  if !escapeBlanks && (n = 10 || n = 9) then [n]
  else if n = 92 then [92, 92]
  else if isPrintableCode n then [n]
  else (escapeCode n).map Char.toNat

/-- A text between quotes with the fewest escapes, and the quotes of `allowed` that it may stand in,
the best one first. If none of them will do, the text is quoted as a constant is. -/
def frugal (allowed : List String) (escapeBlanks : Bool) (text : Codes) : Codes × List String :=
  let escaped := text.flatMap (plainCode escapeBlanks)
  let fitting := if escaped.contains 10 then allowed.filter isLongQuote else allowed
  let fitting := fitting.filter fun q => !occursIn (codesOf q) escaped
  match fitting with
  | [] =>
    let constant := (quoted text).toList
    let quote := constant.headD '\''
    let chosen := (allowed.find? fun q => q.toList.contains quote).getD (String.singleton quote)
    ((constant.drop 1).dropLast.map Char.toNat, [chosen])
  | _ =>
    match escaped.getLast? with
    | none => (escaped, fitting)
    | some final =>
      let starts (q : String) : Bool := (codesOf q).head? = some final
      let sorted := fitting.filter (!starts ·) ++ fitting.filter starts
      if sorted.head?.any starts then (escaped.dropLast ++ [92, final], sorted)
      else (escaped, sorted)

def enclose (quote : String) (text : Codes) : Codes := codesOf quote ++ text ++ codesOf quote

def frugalText (text : Codes) : Codes :=
  let (inside, allowed) := frugal quotes false text
  enclose (allowed.headD "'") inside

/-- The inside of a text with fields: its characters, or the printed field. -/
structure Part where
  codes : Codes
  constant : Bool

/-- The parts of a text with fields, each between quotes that will do for all of them. -/
def frugalParts (allowed : List String) : List Part → Option (Codes × List String)
  | [] => some ([], allowed)
  | part :: more =>
    let (inside, fitting) := frugal allowed part.constant part.codes
    if fitting.any allowed.contains then
      (frugalParts fitting more).map fun (later, best) => (inside ++ later, best)
    else none

/-- What stands for a part between triple quotes whatever it holds. -/
def quotedPart (part : Part) : Codes :=
  (((quoted (34 :: part.codes)).toList.drop 2).dropLast).map Char.toNat

def encloseParts (parts : List Part) : Codes :=
  match frugalParts quotes parts with
  | some (inside, allowed) => enclose (allowed.headD "'") inside
  | none => enclose "'''" (parts.flatMap quotedPart)

def renderNumber (x : Double) (pointed : Bool) : String :=
  match x with
  | .infinite => "1e309"
  | _ => x.render pointed

abbrev Printed := Option Codes

/-- A whole number in decimal digits, which are at most as many as a literal may have; in another
base it may be written with more. -/
def printNumber (n : Nat) : Printed :=
  let digits := codesOf (toString n)
  if digits.length ≤ maxDecimalDigits then some digits else none

/-- A constant; inside a field texts avoid backslashes. -/
def Literal.print (inField : Bool) : Literal → Printed
  | .none => some (codesOf "None")
  | .bool b => some (codesOf (if b then "True" else "False"))
  | .ellipsis => some (codesOf "...")
  | .int n => printNumber n
  | .float x => some (codesOf (renderNumber x true))
  | .imaginary x => some (codesOf (renderNumber x false ++ "j"))
  | .text codes marked =>
    some (codesOf (if marked then "u" else "") ++
      (if inField then frugalText codes else codesOf (quoted codes)))
  | .bytes values => some (codesOf (quotedBytes values))

def parenthesizeIf (condition : Bool) (inside : Codes) : Codes :=
  if condition then codesOf "(" ++ inside ++ codesOf ")" else inside

def joinCodes (sep : String) (parts : List Codes) : Codes := (codesOf sep).intercalate parts

/-- Items with commas; a single one has a comma too. -/
def tupleItems (parts : List Codes) : Codes :=
  match parts with
  | [one] => one ++ codesOf ","
  | _ => joinCodes ", " parts

/-- A brace between texts is written twice. -/
def doubleBraces (codes : Codes) : Codes :=
  codes.flatMap fun n => if n = 123 || n = 125 then [n, n] else [n]

/-- A whole number needs a space between itself and a dot. -/
def dotGap : Term → String
  | .mk _ _ (.literal (.int _)) | .mk _ _ (.literal (.bool _)) => " "
  | _ => ""

/-- The printed value of a field, unless it holds a backslash; a brace at its start is kept apart
from the field's own one. -/
def fieldBody (value : Codes) : Printed :=
  if value.contains 92 then none
  else some (if value.head? = some 123 then 32 :: value else value)

def joinParams (params : List (ParamKind × Codes)) : Codes :=
  let ofKind (kind : ParamKind) : List Codes := (params.filter (·.1 = kind)).map (·.2)
  let positional := ofKind .positionalOnly
  let named := ofKind .keywordOnly
  let rest := (ofKind .rest).map (codesOf "*" ++ ·)
  let star := if rest.isEmpty && !named.isEmpty then [codesOf "*"] else rest
  joinCodes ", " <|
    positional ++ (if positional.isEmpty then [] else [codesOf "/"]) ++ ofKind .ordinary ++ star ++
      named ++ (ofKind .keywords).map (codesOf "**" ++ ·)

mutual

/-- The term in a place of the given level; `inField` says whether it is inside a field. -/
def Term.print (inField : Bool) (place : Level) : Term → Printed
  | .mk _ _ form => form.print inField place

def Form.print (inField : Bool) (place : Level) : Form → Printed
  | .name id | .binder id => some (codesOf id)
  | .literal value => value.print inField
  | .format pieces => do
    let parts ← Piece.printAll inField pieces
    pure <| codesOf "f" ++
      if inField then frugalText (parts.flatMap (·.codes)) else encloseParts parts
  | .attribute value attr => do
    let inside ← value.print inField .atom
    pure (inside ++ codesOf (dotGap value ++ "." ++ attr))
  | .subscript value (.mk _ _ (.tuple (item :: items))) => do
    let inside ← value.print inField .atom
    let parts ← Term.printAll inField .test (item :: items)
    pure (inside ++ codesOf "[" ++ tupleItems parts ++ codesOf "]")
  | .subscript value index => do
    let inside ← value.print inField .atom
    let at? ← index.print inField .test
    pure (inside ++ codesOf "[" ++ at? ++ codesOf "]")
  | .call function plain keywords => do
    let called ← function.print inField .atom
    let first ← Term.printAll inField .test plain
    let second ← Keyword.printAll inField keywords
    pure (called ++ codesOf "(" ++ joinCodes ", " (first ++ second) ++ codesOf ")")
  | .unary op operand => do
    let inside ← operand.print inField op.level
    pure (parenthesizeIf (op.level < place) (codesOf op.sign ++ inside))
  | .binary op left right => do
    let level := op.level
    let tight := level.next
    let first ← left.print inField (if op = .power then tight else level)
    let second ← right.print inField (if op = .power then level else tight)
    pure (parenthesizeIf (level < place) (first ++ codesOf (" " ++ op.sign ++ " ") ++ second))
  | .bool op operands => do
    let parts ← Term.printRising inField op.level operands
    pure (parenthesizeIf (op.level < place) (joinCodes (" " ++ op.sign ++ " ") parts))
  | .compare first ops others => do
    let head ← first.print inField Level.comparison.next
    let parts ← Term.printAll inField Level.comparison.next others
    let tail := (ops.zip parts).flatMap fun (op, part) => codesOf (" " ++ op.sign ++ " ") ++ part
    pure (parenthesizeIf (Level.comparison < place) (head ++ tail))
  | .lambda params body => do
    let written ← Param.printAll inField params
    let inside ← body.print inField .test
    let gap := if written.isEmpty then "" else " "
    pure (parenthesizeIf (Level.test < place)
      (codesOf ("lambda" ++ gap) ++ joinParams written ++ codesOf ": " ++ inside))
  | .choice test body other => do
    let first ← body.print inField Level.test.next
    let second ← test.print inField Level.test.next
    let third ← other.print inField .test
    pure (parenthesizeIf (Level.test < place)
      (first ++ codesOf " if " ++ second ++ codesOf " else " ++ third))
  | .tuple items => do
    let parts ← Term.printAll inField .test items
    pure (parenthesizeIf (items.isEmpty || Level.tuple < place) (tupleItems parts))
  | .list items => do
    let parts ← Term.printAll inField .test items
    pure (codesOf "[" ++ joinCodes ", " parts ++ codesOf "]")
  | .set items => do
    let parts ← Term.printAll inField .test items
    pure (codesOf "\x7b" ++ joinCodes ", " parts ++ codesOf "\x7d")
  | .dict entries => do
    let parts ← Entry.printAll inField entries
    pure (codesOf "\x7b" ++ joinCodes ", " parts ++ codesOf "\x7d")
  | .listOf element clauses => do
    let head ← element.print inField .test
    let tail ← Clause.printAll inField clauses
    pure (codesOf "[" ++ head ++ tail ++ codesOf "]")
  | .setOf element clauses => do
    let head ← element.print inField .test
    let tail ← Clause.printAll inField clauses
    pure (codesOf "\x7b" ++ head ++ tail ++ codesOf "\x7d")
  | .generator element clauses => do
    let head ← element.print inField .test
    let tail ← Clause.printAll inField clauses
    pure (codesOf "(" ++ head ++ tail ++ codesOf ")")
  | .dictOf key value clauses => do
    let first ← key.print inField .test
    let second ← value.print inField .test
    let tail ← Clause.printAll inField clauses
    pure (codesOf "\x7b" ++ first ++ codesOf ": " ++ second ++ tail ++ codesOf "\x7d")
  | .await value => do
    let inside ← value.print inField .atom
    pure (parenthesizeIf (Level.await < place) (codesOf "await " ++ inside))
  | .yield none => some (parenthesizeIf (Level.yield < place) (codesOf "yield"))
  | .yield (some value) => do
    let inside ← value.print inField .atom
    pure (parenthesizeIf (Level.yield < place) (codesOf "yield " ++ inside))
  | .yieldFrom value => do
    let inside ← value.print inField .atom
    pure (parenthesizeIf (Level.yield < place) (codesOf "yield from " ++ inside))
  | .starred value => do
    let inside ← value.print inField .operand
    pure (codesOf "*" ++ inside)
  | .named target value => do
    let inside ← value.print inField .atom
    pure (parenthesizeIf (Level.named < place) (codesOf (target ++ " := ") ++ inside))
  | .slice lower upper step => do
    let first ← Term.printOption inField "" lower
    let second ← Term.printOption inField "" upper
    let third ← Term.printOption inField ":" step
    pure (first ++ codesOf ":" ++ second ++ third)

def Term.printOption (inField : Bool) (mark : String) : Option Term → Printed
  | none => some []
  | some t => (t.print inField .test).map (codesOf mark ++ ·)

def Term.printAll (inField : Bool) (place : Level) : List Term → Option (List Codes)
  | [] => some []
  | t :: ts => do pure ((← t.print inField place) :: (← Term.printAll inField place ts))

/-- Operands that each stand one level tighter than the one before. -/
def Term.printRising (inField : Bool) (level : Level) : List Term → Option (List Codes)
  | [] => some []
  | t :: ts => do
    pure ((← t.print inField level.next) :: (← Term.printRising inField level.next ts))

def Piece.printAll (inField : Bool) : List Piece → Option (List Part)
  | [] => some []
  | .text codes :: more => do
    pure (⟨doubleBraces codes, true⟩ :: (← Piece.printAll inField more))
  | .field value conversion none :: more => do
    let inside ← fieldBody (← value.print true Level.test.next)
    pure (⟨Piece.fieldCodes inside conversion [], false⟩ :: (← Piece.printAll inField more))
  | .field value conversion (some spec) :: more => do
    let inside ← fieldBody (← value.print true Level.test.next)
    let parts ← Piece.printAll inField spec
    let format := codesOf ":" ++ parts.flatMap (·.codes)
    pure (⟨Piece.fieldCodes inside conversion format, false⟩ :: (← Piece.printAll inField more))

def Piece.fieldCodes (inside : Codes) (conversion : Option Char) (format : Codes) : Codes :=
  codesOf "\x7b" ++ inside ++ (conversion.elim [] fun c => [33, c.toNat]) ++ format ++
    codesOf "\x7d"

def Keyword.printAll (inField : Bool) : List Keyword → Option (List Codes)
  | [] => some []
  | .mk name value :: more => do
    let mark := name.elim "**" (· ++ "=")
    pure ((codesOf mark ++ (← value.print inField .test)) :: (← Keyword.printAll inField more))

def Param.printAll (inField : Bool) : List Param → Option (List (ParamKind × Codes))
  | [] => some []
  | .mk kind name default :: more => do
    let value ← Term.printOption inField "=" default
    pure ((kind, codesOf name ++ value) :: (← Param.printAll inField more))

def Entry.printAll (inField : Bool) : List Entry → Option (List Codes)
  | [] => some []
  | .mk none value :: more => do
    pure ((codesOf "**" ++ (← value.print inField .operand)) :: (← Entry.printAll inField more))
  | .mk (some key) value :: more => do
    let first ← key.print inField .test
    let second ← value.print inField .test
    pure ((first ++ codesOf ": " ++ second) :: (← Entry.printAll inField more))

def Clause.printAll (inField : Bool) : List Clause → Printed
  | [] => some []
  | .mk isAsync target source conditions :: more => do
    let head ← target.print inField .tuple
    let from? ← source.print inField Level.test.next
    let tests ← Term.printAll inField Level.test.next conditions
    let later ← Clause.printAll inField more
    pure (codesOf (if isAsync then " async for " else " for ") ++ head ++ codesOf " in " ++ from? ++
      tests.flatMap (codesOf " if " ++ ·) ++ later)

end

namespace Pattern

mutual

def print (place : Level) : Pattern → Printed
  | value term => term.print false .test
  | singleton constant => constant.print false
  | capture name => some (codesOf (name.getD "_"))
  | bound pattern name => do
    let inside ← pattern.print .operand
    pure (parenthesizeIf (Level.test < place) (inside ++ codesOf (" as " ++ name)))
  | star name => some (codesOf ("*" ++ name.getD "_"))
  | sequence items => do
    let parts ← printAll .test items
    pure (codesOf "[" ++ joinCodes ", " parts ++ codesOf "]")
  | mapping keys values others => do
    let first ← Term.printAll false .test keys
    let second ← printAll .test values
    let parts := (first.zip second).map fun (k, v) => k ++ codesOf ": " ++ v
    let rest := others.toList.map fun name => codesOf ("**" ++ name)
    pure (codesOf "\x7b" ++ joinCodes ", " (parts ++ rest) ++ codesOf "\x7d")
  | object type positional names named => do
    let head ← type.print false .atom
    let first ← printAll .test positional
    let second ← printAll .test named
    let attributes := (names.zip second).map fun (name, v) => codesOf (name ++ "=") ++ v
    pure (head ++ codesOf "(" ++ joinCodes ", " (first ++ attributes) ++ codesOf ")")
  | alternatives options => do
    let parts ← printAll Level.operand.next options
    pure (parenthesizeIf (Level.operand < place) (joinCodes " | " parts))

def printAll (place : Level) : List Pattern → Option (List Codes)
  | [] => some []
  | p :: ps => do pure ((← p.print place) :: (← printAll place ps))

end
end Pattern

/-- The text of an arm's pattern and guard. -/
def Arm.render? (arm : Arm) : Option String := do
  let pattern ← arm.pattern.print .test
  match arm.guard with
  | none => pure (textOf pattern)
  | some guard => pure (textOf (pattern ++ codesOf " if " ++ (← guard.print false .test)))

end ViewTree.Embedded
