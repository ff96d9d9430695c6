import ViewTree.Text.Letter
import ViewTree.Text.Quoted
import ViewTree.Token

/-!
Cutting a piece of source into tokens. Each step looks at the rest of the piece and takes at least
one character, so lexing ends; nothing behind the end of the piece is ever seen.
-/
namespace ViewTree
open Text

inductive LexicalProblem where
  | unterminatedString
  | unexpectedChar (c : Char)
deriving DecidableEq, Repr

/-- A lexical problem and the place of the token it spoils. -/
structure LexicalError where
  problem : LexicalProblem
  place : Place
deriving DecidableEq, Repr

namespace LexicalProblem

def message : LexicalProblem → String
  | unterminatedString => "Unterminated string literal"
  | unexpectedChar c => "Unexpected character: " ++ quotedChar c

end LexicalProblem

def LexicalError.report (e : LexicalError) (file source : String) : Report where
  message := e.problem.message
  site := some
    { file, line := e.place.line, column := e.place.column
      excerpt := some (excerpt source e.place.line) }

/-- A place in the whole source while a piece of it is read. -/
structure Position where
  offset : Nat
  line : Nat
  column : Nat
deriving DecidableEq, Repr

namespace Position

def place (p : Position) : Place := ⟨p.line, p.column⟩

/-- The place after one more character. -/
def next (p : Position) (c : Char) : Position :=
  if c = '\n' then ⟨p.offset + 1, p.line + 1, 1⟩ else ⟨p.offset + 1, p.line, p.column + 1⟩

def after (p : Position) (cs : List Char) : Position := cs.foldl next p

@[simp] theorem after_nil (p : Position) : p.after [] = p := rfl

@[simp] theorem after_cons (p : Position) (c : Char) (cs : List Char) :
    p.after (c :: cs) = (p.next c).after cs := rfl

theorem after_append (p : Position) (cs ds : List Char) :
    p.after (cs ++ ds) = (p.after cs).after ds := by
  simp [after, List.foldl_append]

theorem offset_next (p : Position) (c : Char) : (p.next c).offset = p.offset + 1 := by
  simp only [next]; split <;> rfl

theorem offset_after (p : Position) (cs : List Char) :
    (p.after cs).offset = p.offset + cs.length := by
  induction cs generalizing p with
  | nil => simp
  | cons c cs ih => simp [ih, offset_next]; omega

/-- The place of the first character of a piece that starts at `start`, which is where a line
begins. -/
def ofOffset (text : List Char) (start : Nat) : Position :=
  ⟨start, (text.take start).count '\n' + 1, 1⟩

end Position

namespace Lexer

def isSkipped (c : Char) : Bool :=
  c = ' ' || c = '\t' || c = '\r' || c = '\n' || c = '\x0c'

/-- How many characters a string takes up to and with its closing quote, counted behind the
opening one; a string with single quotes ends on its line. -/
def closingQuote? (quote : Char) : List Char → Option Nat
  | [] => none
  | ['\\'] => none
  | '\\' :: _ :: cs => (closingQuote? quote cs).map (· + 2)
  | c :: cs =>
    if c = '\n' then none
    else if c = quote then some 1
    else (closingQuote? quote cs).map (· + 1)

/-- The same for a string between triple quotes. -/
def closingQuotes? (quote : Char) : List Char → Option Nat
  | [] => none
  | ['\\'] => none
  | '\\' :: _ :: cs => (closingQuotes? quote cs).map (· + 2)
  | c :: cs =>
    if [quote, quote, quote].isPrefixOf (c :: cs) then some 3
    else (closingQuotes? quote cs).map (· + 1)

def stringLength? (quote : Char) (rest : List Char) : Option Nat :=
  match rest with
  | a :: b :: cs =>
    if a = quote && b = quote then (closingQuotes? quote cs).map (· + 2)
    else closingQuote? quote rest
  | _ => closingQuote? quote rest

def isExponentMark (c : Char) : Bool := c = 'e' || c = 'E'

def isSign (c : Char) : Bool := c = '+' || c = '-'

/-- The length of a number: word characters, dots, and a sign behind each `e`. -/
def numberLength : List Char → Nat
  | [] => 0
  | [c] => if isWordChar c || c = '.' then 1 else 0
  | c :: d :: cs =>
    if isWordChar c || c = '.' then
      if isExponentMark c && isSign d then numberLength cs + 2 else numberLength (d :: cs) + 1
    else 0

/-- The letters that may stand before a string, in any case. -/
def stringMarks : List String := ["r", "u", "b", "f", "br", "rb", "fr", "rf"]

def isStringMark (word : List Char) : Bool :=
  stringMarks.contains (String.ofList (word.map Char.toLower))

def commentLength (rest : List Char) : Nat := (rest.takeWhile (· ≠ '\n')).length

/-- What starts with `c` before `rest`: the kind of token, or none for what is skipped, and how many
characters of `rest` belong to it. -/
def step (c : Char) (rest : List Char) : Except LexicalProblem (Option TokenKind × Nat) :=
  if isSkipped c then .ok (none, 0)
  else if c = '#' then
    match rest.head? with
    | some '[' => .ok (some .attrOpen, 1)
    | some ':' => .ok (some .docComment, commentLength rest)
    | _ => .ok (none, commentLength rest)
  else if c = '"' || c = '\'' then
    match stringLength? c rest with
    | some n => .ok (some .string, n)
    | none => .error .unterminatedString
  else if isDigit c || (c = '.' && rest.head?.any isDigit) then
    .ok (some .number, numberLength (c :: rest) - 1)
  else if isLetter c || c = '_' then
    let tail := rest.takeWhile isWordChar
    let behind := rest.drop tail.length
    match behind.head?.filter fun q => (q = '"' || q = '\'') && isStringMark (c :: tail) with
    | some quote =>
      match stringLength? quote behind.tail with
      | some n => .ok (some .string, tail.length + 1 + n)
      | none => .error .unterminatedString
    | none => .ok (some (.ofWord (String.ofList (c :: tail))), tail.length)
  else
    match rest.head?.bind (TokenKind.ofPair? c) with
    | some kind => .ok (some kind, 1)
    | none =>
      match TokenKind.ofChar? c with
      | some kind => .ok (some kind, 0)
      | none => .error (.unexpectedChar c)

/-- The tokens of a piece of source whose first character is at `p`. -/
def run (p : Position) : List Char → Except LexicalError Tokens
  | [] => .ok ⟨[], ⟨.eof, "", p.line, p.column, p.offset, p.offset⟩⟩
  | c :: rest =>
    match step c rest with
    | .error problem => .error ⟨problem, p.place⟩
    | .ok (kind?, n) =>
      let text := c :: rest.take n
      let q := p.after text
      match run q (rest.drop n) with
      | .error e => .error e
      | .ok tokens =>
        match kind? with
        | none => .ok tokens
        | some kind =>
          .ok { tokens with
            items := ⟨kind, String.ofList text, p.line, p.column, p.offset, q.offset⟩ ::
              tokens.items }
termination_by cs => cs.length
decreasing_by simp only [List.length_drop, List.length_cons]; omega

end Lexer

/-- The tokens of `text` from offset `start`, where a line begins, up to `stop`. -/
def lex (text : List Char) (start stop : Nat) : Except LexicalError Tokens :=
  Lexer.run (.ofOffset text start) (slice text start stop)

end ViewTree
