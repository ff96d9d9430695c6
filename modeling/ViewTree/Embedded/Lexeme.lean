import ViewTree.Embedded.Literal
import ViewTree.Text.Blank
import ViewTree.Text.Compatibility
import ViewTree.Text.Identifier

/-!
Lexemes of embedded expressions. Inside brackets line ends are blank; outside they end the
expression. A text that holds anything else than lexemes, blanks and comments has none.
-/
namespace ViewTree.Embedded
open Text

inductive LexemeKind where
  | name (id : String)
  | keyword (word : String)
  | number (value : Literal)
  | string (literal : StringLiteral)
  | symbol (text : String)
  | lineEnd
deriving DecidableEq, Repr

/-- A lexeme and the offsets where it starts and stops. -/
structure Lexeme where
  kind : LexemeKind
  start : Nat
  stop : Nat
deriving DecidableEq, Repr

/-- Words that are never names. -/
def keywords : List String :=
  ["False", "None", "True", "and", "as", "assert", "async", "await", "break", "class", "continue",
   "def", "del", "elif", "else", "except", "finally", "for", "from", "global", "if", "import",
   "in", "is", "lambda", "nonlocal", "not", "or", "pass", "raise", "return", "try", "while",
   "with", "yield"]

def isKeyword (word : String) : Bool := keywords.contains word

/-- A character that belongs to a word whatever the word turns out to be. -/
def isWordByte (c : Char) : Bool := c.isAlphanum || c = '_' || 128 ≤ c.toNat

/-- Digits of the class `ok` with single underscores between them: how many characters, or nothing
if an underscore is not followed by a digit. -/
def digitRun? (ok : Char → Bool) : List Char → Option Nat
  | [] => some 0
  | '_' :: c :: cs => if ok c then (digitRun? ok (c :: cs)).map (· + 1) else none
  | c :: cs =>
    if c = '_' then none else if ok c then (digitRun? ok cs).map (· + 1) else some 0

/-- Words that may stand directly behind a number. -/
def followers : List String := ["and", "else", "for", "if", "in", "is", "or", "not"]

/-- Whether a number may end before this text. -/
def endsNumber (rest : List Char) : Bool :=
  match rest with
  | [] => true
  | c :: _ => !isWordByte c || followers.any fun w => w.toList.isPrefixOf rest

def digitsOf (cs : List Char) : List Char := cs.filter (· ≠ '_')

def decimalValue (cs : List Char) : Nat :=
  (digitsOf cs).foldl (fun n c => 10 * n + (c.toNat - 48)) 0

/-- The most decimal digits that a whole number may be written with. -/
def maxDecimalDigits : Nat := 4300

/-- A number in another base behind its two-character mark. -/
def basedNumber? (ok : Char → Bool) (base : Nat) (cs : List Char) : Option (Literal × Nat) :=
  let body := if cs.head? = some '_' then cs.drop 1 else cs
  let skipped := cs.length - body.length
  match digitRun? ok body with
  | some (n + 1) =>
    let rest := body.drop (n + 1)
    if endsNumber rest && !(rest.head?.any (·.isDigit)) then
      let value := (digitsOf (body.take (n + 1))).foldl (fun v c => base * v + hexValue [c]) 0
      some (.int value, skipped + n + 1)
    else none
  | _ => none

/-- The exponent part: its value and length, where `some none` is none at all. -/
def exponent? (cs : List Char) : Option (Option (Int × Nat)) :=
  match cs with
  | e :: rest =>
    if e = 'e' || e = 'E' then
      let sign := rest.head?.filter fun s => s = '+' || s = '-'
      let body := if sign.isSome then rest.drop 1 else rest
      match body.head?.filter (·.isDigit), sign with
      | some _, _ =>
        (digitRun? Char.isDigit body).map fun n =>
          let v : Int := decimalValue (body.take n)
          some (if sign = some '-' then -v else v, n + 1 + sign.toList.length)
      | none, some _ => none
      | none, none => some none
    else some none
  | [] => some none

def decimalNumber? (cs : List Char) : Option (Literal × Nat) := do
  let whole ← digitRun? Char.isDigit cs
  let intPart := cs.take whole
  let rest := cs.drop whole
  let (fraction, pointed, rest) ← match rest with
    | '.' :: more =>
      if more.head?.any (·.isDigit) then do
        let n ← digitRun? Char.isDigit more
        pure (more.take n, true, more.drop n)
      else pure ([], true, more)
    | _ => pure ([], false, rest)
  let exponent ← exponent? rest
  let (power, expLength) := exponent.getD (0, 0)
  let rest := rest.drop expLength
  let real := Double.ofDecimal (decimalValue (intPart ++ fraction))
    (power - (digitsOf fraction).length)
  let isFloat := pointed || exponent.isSome
  let body := whole + (if pointed then fraction.length + 1 else 0) + expLength
  match rest with
  | j :: more =>
    if j = 'j' || j = 'J' then
      if endsNumber more then pure (.imaginary real, body + 1) else none
    else finish isFloat real intPart rest body
  | [] => finish isFloat real intPart rest body
where
  finish (isFloat : Bool) (real : Double) (intPart rest : List Char) (body : Nat) :
      Option (Literal × Nat) :=
    if !endsNumber rest then none
    else if isFloat then some (.float real, body)
    else
      let ds := digitsOf intPart
      if (ds.head? = some '0' && ds.any (· ≠ '0')) || maxDecimalDigits < ds.length then none
      else some (.int (decimalValue intPart), body)

def number? (cs : List Char) : Option (Literal × Nat) :=
  match cs with
  | '0' :: c :: rest =>
    if c = 'x' || c = 'X' then (basedNumber? isHexChar 16 rest).map fun (l, n) => (l, n + 2)
    else if c = 'o' || c = 'O' then (basedNumber? isOctal 8 rest).map fun (l, n) => (l, n + 2)
    else if c = 'b' || c = 'B' then
      (basedNumber? (fun d => d = '0' || d = '1') 2 rest).map fun (l, n) => (l, n + 2)
    else decimalNumber? cs
  | _ => decimalNumber? cs

/-- How many characters the body of a string takes before its closing quote. A string between
single quotes ends on its line. -/
def bodyLength? (quote : Char) : List Char → Option Nat
  | [] => none
  | ['\\'] => none
  | '\\' :: _ :: cs => (bodyLength? quote cs).map (· + 2)
  | c :: cs =>
    if c = '\n' || c = '\r' then none
    else if c = quote then some 0
    else (bodyLength? quote cs).map (· + 1)

def longBodyLength? (quote : Char) : List Char → Option Nat
  | [] => none
  | ['\\'] => none
  | '\\' :: _ :: cs => (longBodyLength? quote cs).map (· + 2)
  | c :: cs =>
    if [quote, quote, quote].isPrefixOf (c :: cs) then some 0
    else (longBodyLength? quote cs).map (· + 1)

/-- The letters that may stand in front of a string, in any case. -/
def stringLetters : List String := ["", "r", "u", "b", "f", "br", "rb", "fr", "rf"]

/-- A string at `offset` whose letters have been read; the rest starts with its quote. -/
def string? (letters : List Char) (offset : Nat) (cs : List Char) :
    Option (StringLiteral × Nat) :=
  match cs with
  | quote :: rest =>
    let long := [quote, quote].isPrefixOf rest
    let opening := if long then 3 else 1
    let body := cs.drop opening
    let length := if long then longBodyLength? quote body else bodyLength? quote body
    length.map fun n =>
      (⟨.ofLetters letters, unifyLineEnds (body.take n), offset + opening⟩, n + 2 * opening)
  | [] => none

def symbols : List String :=
  ["**=", "//=", ">>=", "<<=", "...",
   "!=", "%=", "&=", "**", "*=", "+=", "-=", "->", "//", "/=", ":=", "<<", "<=", "<>", "==", ">=",
   ">>", "@=", "^=", "|=",
   "(", ")", "[", "]", "\x7b", "\x7d", ",", ":", ";", ".", "=", "+", "-", "*", "/", "%", "<", ">",
   "&", "|", "^", "~", "@"]

/-- The longest symbol that the text starts with. -/
def symbol? (cs : List Char) : Option String :=
  symbols.find? fun s => s.toList.isPrefixOf cs

/-- The lexeme that a text without blanks in front starts with, and its length. -/
def lexeme? (offset : Nat) (cs : List Char) : Option (LexemeKind × Nat) :=
  match cs with
  | [] => none
  | c :: rest =>
    if c.isDigit || (c = '.' && rest.head?.any (·.isDigit)) then
      (number? cs).map fun (l, n) => (.number l, n)
    else if isWordByte c then
      let word := cs.takeWhile isWordByte
      let behind := cs.drop word.length
      let text := String.ofList word
      let quoted := behind.head?.any fun q => q = '"' || q = '\''
      if quoted && stringLetters.contains (String.ofList (word.map Char.toLower)) then
        (string? word (offset + word.length) behind).map fun (s, n) => (.string s, word.length + n)
      else if isKeyword text then some (.keyword text, word.length)
      else if isIdentifier text then some (.name (compatible text), word.length)
      else none
    else if c = '"' || c = '\'' then
      (string? [] offset cs).map fun (s, n) => (.string s, n)
    else (symbol? cs).map fun s => (.symbol s, s.length)

def closerOf? : String → Option String
  | "(" => some ")" | "[" => some "]" | "\x7b" => some "\x7d"
  | _ => none

def isCloser (s : String) : Bool := s = ")" || s = "]" || s = "\x7d"

/-- Brackets nested deeper than this are refused. -/
def maxNesting : Nat := 200

/-- The closing brackets still to come after a lexeme, the next one first. -/
def nest? (pending : List String) : LexemeKind → Option (List String)
  | .symbol s =>
    match closerOf? s with
    | some c => if pending.length < maxNesting then some (c :: pending) else none
    | none =>
      if isCloser s then
        match pending with
        | c :: more => if c = s then some more else none
        | [] => none
      else some pending
  | _ => some pending

def lineEndLength (cs : List Char) : Nat :=
  match cs with
  | '\r' :: '\n' :: _ => 2
  | '\r' :: _ => 1
  | '\n' :: _ => 1
  | _ => 0

/-- The lexemes of a text from `offset` on. `pending` are the closing brackets still to come;
`fresh` says whether no lexeme stands on the line yet. -/
def scanFrom (offset : Nat) (pending : List String) (fresh : Bool) :
    List Char → Option (List Lexeme)
  | [] =>
    if pending.isEmpty then some (if fresh then [] else [⟨.lineEnd, offset, offset⟩]) else none
  | c :: rest =>
    if c = ' ' || c = '\t' || c = '\x0c' then scanFrom (offset + 1) pending fresh rest
    else if c = '\n' || c = '\r' then
      let extra := if c = '\r' && rest.head? = some '\n' then 1 else 0
      let later := scanFrom (offset + 1 + extra) pending (pending.isEmpty || fresh)
        (rest.drop extra)
      if pending.isEmpty && !fresh then
        later.map (⟨.lineEnd, offset, offset + 1 + extra⟩ :: ·)
      else later
    else if c = '#' then
      let skipped := rest.takeWhile fun d => d ≠ '\n' && d ≠ '\r'
      scanFrom (offset + 1 + skipped.length) pending fresh (rest.drop skipped.length)
    else if c = '\\' then
      let n := lineEndLength rest
      if 0 < n && n < rest.length then scanFrom (offset + 1 + n) pending fresh (rest.drop n)
      else none
    else
      match lexeme? offset (c :: rest) with
      | none => none
      | some (kind, n) =>
        match nest? pending kind with
        | none => none
        | some still =>
          (scanFrom (offset + max 1 n) still false (rest.drop (n - 1))).map
            (⟨kind, offset, offset + n⟩ :: ·)
termination_by cs => cs.length
decreasing_by
  all_goals (simp only [List.length_cons, List.length_drop]; omega)

def scan (cs : List Char) : Option (List Lexeme) := scanFrom 0 [] true cs

end ViewTree.Embedded
