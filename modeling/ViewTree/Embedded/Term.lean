import ViewTree.Embedded.Literal

/-!
Embedded expressions as trees. Every term knows the span of source it was read from, and every
name whether it is read or bound there.
-/
namespace ViewTree.Embedded

inductive UnaryOp where
  | negative | positive | invert | not
deriving DecidableEq, Repr

inductive BinaryOp where
  | add | sub | mul | matMul | div | mod | floorDiv | power
  | shiftLeft | shiftRight | bitOr | bitXor | bitAnd
deriving DecidableEq, Repr

inductive CompareOp where
  | eq | ne | lt | le | gt | ge | is | isNot | isIn | notIn
deriving DecidableEq, Repr

inductive BoolOp where
  | and | or
deriving DecidableEq, Repr

/-- How a parameter of a lambda takes its argument. -/
inductive ParamKind where
  | positionalOnly | ordinary | rest | keywordOnly | keywords
deriving DecidableEq, Repr

mutual

inductive Term where
  | mk (start stop : Nat) (form : Form)

inductive Form where
  | name (id : String)
  /-- A name that is bound here, as a target of a comprehension. -/
  | binder (id : String)
  | literal (value : Literal)
  /-- A text with replacement fields. -/
  | format (pieces : List Piece)
  | attribute (value : Term) (attr : String)
  | subscript (value index : Term)
  | call (function : Term) (arguments : List Term) (keywords : List Keyword)
  | unary (op : UnaryOp) (operand : Term)
  | binary (op : BinaryOp) (left right : Term)
  | bool (op : BoolOp) (operands : List Term)
  | compare (first : Term) (ops : List CompareOp) (others : List Term)
  | lambda (params : List Param) (body : Term)
  | choice (test body other : Term)
  | tuple (items : List Term)
  | list (items : List Term)
  | set (items : List Term)
  | dict (entries : List Entry)
  | listOf (element : Term) (clauses : List Clause)
  | setOf (element : Term) (clauses : List Clause)
  | generator (element : Term) (clauses : List Clause)
  | dictOf (key value : Term) (clauses : List Clause)
  | await (value : Term)
  | yield (value : Option Term)
  | yieldFrom (value : Term)
  | starred (value : Term)
  | named (target : String) (value : Term)
  | slice (lower upper step : Option Term)

/-- A part of a text with replacement fields: characters, or a value with its conversion and its
format, which is again such a text. -/
inductive Piece where
  | text (codes : List Nat)
  | field (value : Term) (conversion : Option Char) (format : Option (List Piece))

/-- A keyword argument; without a name it spreads a mapping. -/
inductive Keyword where
  | mk (name : Option String) (value : Term)

inductive Param where
  | mk (kind : ParamKind) (name : String) (default : Option Term)

/-- An entry of a dictionary; without a key it spreads a mapping. -/
inductive Entry where
  | mk (key : Option Term) (value : Term)

/-- One `for` of a comprehension with the conditions behind it. -/
inductive Clause where
  | mk (isAsync : Bool) (target source : Term) (conditions : List Term)

end

namespace Term

def start : Term → Nat | mk s _ _ => s
def stop : Term → Nat | mk _ s _ => s
def form : Term → Form | mk _ _ f => f

def isLambda : Term → Bool
  | mk _ _ (.lambda _ _) => true
  | _ => false

def isStarred : Term → Bool
  | mk _ _ (.starred _) => true
  | _ => false

def elements? : Term → Option (List Term)
  | mk _ _ (.tuple items) => some items
  | _ => none

end Term

namespace Param
def kind : Param → ParamKind | mk k _ _ => k
def name : Param → String | mk _ n _ => n
def default : Param → Option Term | mk _ _ d => d
end Param

/-- Patterns of match arms. -/
inductive Pattern where
  | value (term : Term)
  | singleton (value : Literal)
  /-- Binds whatever it meets; without a name it is the wildcard. -/
  | capture (name : Option String)
  /-- Binds what matches the pattern. -/
  | bound (pattern : Pattern) (name : String)
  | star (name : Option String)
  | sequence (items : List Pattern)
  | mapping (keys : List Term) (values : List Pattern) (others : Option String)
  | object (type : Term) (positional : List Pattern) (names : List String)
      (named : List Pattern)
  | alternatives (options : List Pattern)

/-- A pattern with the condition behind it. -/
structure Arm where
  pattern : Pattern
  guard : Option Term

end ViewTree.Embedded
