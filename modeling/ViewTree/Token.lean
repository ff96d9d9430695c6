import ViewTree.Source.Excerpt

/-!
Tokens of the view language. Embedded expressions are cut into the same tokens, so a token says
only where it starts and ends; the exact text of an expression is read from the source.
-/
namespace ViewTree

inductive TokenKind where
  | identifier | string | number
  | view | template | tracked | ifWord | elifWord | elseWord | matchWord | mutWord
  | lbrace | rbrace | lparen | rparen | lbracket | rbracket
  | comma | colon | dot | equals | fatArrow | arrow | question | atSign
  | attrOpen | docComment
  | operator
  | eof
deriving DecidableEq, Repr, Inhabited

namespace TokenKind

/-- The kind as messages name it: its only spelling if it has one. -/
def label : TokenKind → String
  | identifier => "IDENTIFIER" | string => "STRING" | number => "NUMBER"
  | view => "view" | template => "template" | tracked => "tracked"
  | ifWord => "if" | elifWord => "elif" | elseWord => "else" | matchWord => "match"
  | mutWord => "mut"
  | lbrace => "\x7b" | rbrace => "\x7d" | lparen => "(" | rparen => ")"
  | lbracket => "[" | rbracket => "]"
  | comma => "," | colon => ":" | dot => "." | equals => "=" | fatArrow => "=>" | arrow => "->"
  | question => "?" | atSign => "@" | attrOpen => "#[" | docComment => "#:"
  | operator => "OPERATOR" | eof => "EOF"

def isOpening : TokenKind → Bool
  | lbrace | lparen | lbracket => true
  | _ => false

def isClosing : TokenKind → Bool
  | rbrace | rparen | rbracket => true
  | _ => false

/-- Words with a meaning in a few fixed positions, which are names everywhere else. -/
def isSoftWord : TokenKind → Bool
  | view | template | tracked | matchWord | mutWord => true
  | _ => false

def isName (k : TokenKind) : Bool := k = identifier || k.isSoftWord

def startsComponent : TokenKind → Bool
  | view | template => true
  | _ => false

def ofWord (word : String) : TokenKind :=
  match word with
  | "view" => view | "template" => template | "tracked" => tracked
  | "if" => ifWord | "elif" => elifWord | "else" => elseWord | "match" => matchWord
  | "mut" => mutWord
  | _ => identifier

def ofChar? : Char → Option TokenKind
  | '\x7b' => some lbrace | '\x7d' => some rbrace | '(' => some lparen | ')' => some rparen
  | '[' => some lbracket | ']' => some rbracket
  | ',' => some comma | ':' => some colon | '.' => some dot | '=' => some equals
  | '?' => some question | '@' => some atSign
  | '+' | '-' | '*' | '/' | '%' | '<' | '>' | '!' | '&' | '|' | '^' | '~' | ';' => some operator
  | _ => none

def ofPair? : Char → Char → Option TokenKind
  | '=', '>' => some fatArrow
  | '-', '>' => some arrow
  | '=', '=' | '!', '=' | '<', '=' | '>', '=' | ':', '=' => some operator
  | '*', '*' | '/', '/' | '<', '<' | '>', '>' => some operator
  | _, _ => none

end TokenKind

/-- A token; strings keep their quotes and their letters in front. -/
structure Token where
  kind : TokenKind
  text : String
  line : Nat
  column : Nat
  offset : Nat
  stop : Nat
deriving DecidableEq, Repr, Inhabited

namespace Token

def place (t : Token) : Place := ⟨t.line, t.column⟩

def describe (t : Token) : String :=
  match t.kind with
  | .eof => "end of input"
  | .identifier => "identifier '" ++ t.text ++ "'"
  | .string => "string '" ++ t.text ++ "'"
  | .number => "number '" ++ t.text ++ "'"
  | _ => "'" ++ t.text ++ "'"

def firstLineWidth (t : Token) : Nat := max 1 ((Text.lines t.text).headD "").length

end Token

/-- The tokens of a piece of source, and the token that marks its end. -/
structure Tokens where
  items : List Token
  eof : Token
deriving Repr

end ViewTree
