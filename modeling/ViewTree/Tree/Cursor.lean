import ViewTree.Embedded.Arms
import ViewTree.Loop
import ViewTree.Settings
import ViewTree.Tree

/-!
Reading trees from tokens: what can be wrong, and the cursor that readers move. Past the last token
the cursor stays at the token that marks the end.
-/
namespace ViewTree

/-- The attributes that may stand in front of a node or property. -/
inductive AttributeKind where
  | root | name | localValue | localReference | template
  | watch | track | blockSignal | chain | iterate | transition
deriving DecidableEq, Repr

namespace AttributeKind

def word : AttributeKind → String
  | root => "root" | name => "name" | localValue => "local" | localReference => "local_ref"
  | template => "template" | watch => "watch" | track => "track" | blockSignal => "block_signal"
  | chain => "chain" | iterate => "iterate" | transition => "transition"

/-- All attributes by the order of their words. -/
def all : List AttributeKind :=
  [blockSignal, chain, iterate, localValue, localReference, name, root, template, track,
   transition, watch]

def ofWord? (w : String) : Option AttributeKind := all.find? (·.word = w)

/-- Whether it describes the widget or choice behind it, and not the property. -/
def describesNode : AttributeKind → Bool
  | root | name | localValue | localReference | template => true
  | _ => false

def takesNames : AttributeKind → Bool
  | name | blockSignal | transition => true
  | _ => false

def takesExpression : AttributeKind → Bool
  | track | chain => true
  | _ => false

def needsArgument : AttributeKind → Bool
  | name | blockSignal | chain | transition => true
  | _ => false

end AttributeKind

/-- What is said about a text that does not read: the reason, and a line and a column of the text
where they are known. -/
structure Fault where
  reason : String
  line : Option Int := none
  column : Option Int := none

/-- What the embedded language says about the texts that it does not read. An expression is read in
parentheses, a pattern as the only case of a match, which starts on the line above it. -/
structure Faults where
  expression : String → Fault
  pattern : String → Fault
  literal : String → String

/-- Says no more than that a text does not read. -/
def Faults.plain : Faults where
  expression _ := { reason := "invalid syntax" }
  pattern _ := { reason := "invalid syntax" }
  literal _ := "malformed literal"

/-- What can be wrong with a component. `found` is a token as messages describe it. -/
inductive Problem where
  | expected (what found : String)
  | unclosed (bracket : String)
  | invalidExpression (reason : String) (hint : Option String)
  | invalidPattern (reason : String)
  | invalidArms (problem : Embedded.ArmProblem)
  | unfinishedChain (found : String)
  | noArms
  | branchNotSingle
  | chainInPlaceOfWidget
  | unknownAttribute (word : String)
  | missingArgument (kind : AttributeKind) (brackets : Bool)
  | excessArgument (kind : AttributeKind)
  | severalNames (kind : AttributeKind)
  | invalidString (text : String)
  | notText (kind : AttributeKind)
  | invalidName (text : String) (kind : AttributeKind)
  | repeatedAttribute (kind : AttributeKind)
  | attributeOnChoice (kind : AttributeKind)
  | attributeOnProperty (kind : AttributeKind) (property : String)
  | attributeWithoutProperty (kind : AttributeKind)
  | namedTwice (isChoice : Bool) (name : String)
  | bothLocal
  | unmarkedBinding (name : String)
  | renamedBinding
  | bindingAsTemplate
  | misplacedBinding (kind : AttributeKind)
  | calledTemplate
  | optionalBinding
  | misplacedArguments
  | misnamedConnection (name : String)
  | misplacedRoot
  | noModel (view : String)
  | noWidgets (view : String)
  | excessTree (template found : String)
  | trailing (found : String) (kind : ComponentKind) (name : String)
  | nested
deriving Repr

namespace Problem

def article (isChoice : Bool) : String := if isChoice then "Conditional" else "Widget"

def message (problem : Problem) (faults : Faults := .plain) : String :=
  match problem with
  | expected what found => "Expected " ++ what ++ ", got " ++ found
  | unclosed bracket => "Unclosed '" ++ bracket ++ "'"
  | invalidExpression reason hint =>
    "Invalid Python expression: " ++ reason ++ hint.elim "" fun h => " (" ++ h ++ ")"
  | invalidPattern reason => "Invalid match pattern: " ++ reason
  | invalidArms problem => "Invalid match arms: " ++ problem.message
  | unfinishedChain found => "An if chain must end with an 'else' branch, got " ++ found
  | noArms => "A match needs at least one arm"
  | branchNotSingle => "A branch holds exactly one widget; wrap several in a container"
  | chainInPlaceOfWidget => "Expected a widget here; conditionals must be attached to a parent"
  | unknownAttribute word =>
    "Unknown attribute '#[" ++ word ++ "]'. Known attributes: " ++
      ", ".intercalate (AttributeKind.all.map (·.word))
  | missingArgument kind brackets =>
    "Attribute '#[" ++ kind.word ++ (if brackets then "()" else "") ++ "]' needs an argument"
  | excessArgument kind => "Attribute '#[" ++ kind.word ++ "]' takes no arguments"
  | severalNames kind => "Attribute '#[" ++ kind.word ++ "]' takes exactly one name"
  | invalidString text => "Invalid string literal: " ++ faults.literal text
  | notText kind => "Attribute '#[" ++ kind.word ++ "]' needs a text string"
  | invalidName text kind => "'" ++ text ++ "' is not a valid name for #[" ++ kind.word ++ "]"
  | repeatedAttribute kind => "Duplicate attribute '#[" ++ kind.word ++ "]'"
  | attributeOnChoice kind =>
    "Attribute '#[" ++ kind.word ++ "]' cannot be applied to a conditional"
  | attributeOnProperty kind property =>
    "Attribute '#[" ++ kind.word ++ "]' applies to widgets, not to property '" ++ property ++ "'"
  | attributeWithoutProperty kind =>
    "Attribute '#[" ++ kind.word ++
      "]' applies to a property, but this widget is not attached through one"
  | namedTwice isChoice name => article isChoice ++ " '" ++ name ++ "' is named twice"
  | bothLocal => "A widget cannot be both #[local] and #[local_ref]"
  | unmarkedBinding name =>
    "Pre-bound widget '" ++ name ++ " -> ...' needs #[local] or #[local_ref]"
  | renamedBinding => "A pre-bound widget is named by its binding and cannot be renamed"
  | bindingAsTemplate => "A pre-bound widget cannot be a template"
  | misplacedBinding kind =>
    "Attribute '#[" ++ kind.word ++ "]' needs the pre-bound form 'name -> Type'"
  | calledTemplate =>
    "A template widget is written in block form: 'TemplateName \x7b ... \x7d'"
  | optionalBinding => "A property binding cannot be optional"
  | misplacedArguments =>
    "Bracket arguments are only allowed on widget-valued properties and signal connections"
  | misnamedConnection name =>
    "Signal connections are written 'connect_<signal> => ...', got '" ++ name ++ "'"
  | misplacedRoot => "#[root] may only mark the first top-level widget"
  | noModel view => "View '" ++ view ++ "' needs at least a model parameter"
  | noWidgets view => "View '" ++ view ++ "' declares no widgets"
  | excessTree template found =>
    "Template '" ++ template ++ "' holds exactly one widget tree, got " ++ found
  | trailing found kind name =>
    "Unexpected " ++ found ++ " after " ++ kind.word ++ " '" ++ name ++ "'"
  | nested => "The component is nested too deeply"

end Problem

/-- Why a component could not be read: a problem with its place, and the width of the token it is
about if it is about one; or a text behind a place that is no expression or no pattern. -/
inductive ParseError where
  | found (problem : Problem) (place : Place) (width : Option Nat)
  | noExpression (text : String) (start : Place) (hint : Option String)
  | noPattern (text : String) (start : Place)
deriving Repr

namespace ParseError

def atToken (problem : Problem) (t : Token) : ParseError :=
  .found problem t.place (some t.firstLineWidth)

/-- Where a problem inside an embedded expression is, if the expression starts at `start` and the
problem was found at a line and column of its text; on the first line the text was shifted by
`shift`. Places before the start are taken for the start. -/
def ofInner (reason : String) (line column : Option Int) (start : Place) (shift : Int)
    (hint : Option String) : Problem × Int × Int :=
  let known (n : Option Int) : Int := match n with
    | some n => if n = 0 then 1 else n
    | none => 1
  let line := known line
  let column := known column
  (.invalidExpression reason hint, start.line + line - 1,
    if line = 1 then max (start.column : Int) (start.column + column - 1 - shift) else column)

/-- What stands in front of the pattern of a case. -/
def caseText : String := " case "

/-- Where a problem inside a pattern is, which is read on one line behind `caseText`. -/
def ofCase (fault : Fault) (start : Place) : Problem × Int × Int :=
  let inside : Int := match fault.column with
    | some column => if fault.line = some 2 then max 0 (column - 1 - caseText.length) else 0
    | none => 0
  (.invalidPattern fault.reason, start.line, start.column + inside)

def told (faults : Faults) : ParseError → Problem × Int × Int
  | found problem place _ => (problem, place.line, place.column)
  | noExpression text start hint =>
    let fault := faults.expression text
    ofInner fault.reason fault.line fault.column start 1 hint
  | noPattern text start => ofCase (faults.pattern text) start

def problem (e : ParseError) (faults : Faults := .plain) : Problem := (e.told faults).1

def width? : ParseError → Option Nat
  | found _ _ width => width
  | noExpression .. | noPattern .. => none

def site (e : ParseError) (file source : String) (faults : Faults := .plain) : Site :=
  let (_, line, column) := e.told faults
  { file, line, column
    endLine := e.width?.map fun _ => line
    endColumn := e.width?.map fun width => column + width
    excerpt := some (excerpt source line) }

def report (e : ParseError) (file source : String) (faults : Faults := .plain) : Report :=
  ⟨(e.problem faults).message faults, some (e.site file source faults)⟩

end ParseError

/-- Why reading ends: a problem, or an embedded text that has no meaning at all, which holds the
character that ends texts or has no printed form. -/
inductive Failure where
  | problem (error : ParseError)
  | unusable
deriving Repr

/-- What readers look at besides the tokens. -/
structure Context where
  text : List Char
  settings : Settings

structure Cursor where
  previous : Option Token
  rest : List Token
  eof : Token

abbrev TreeReader := ReaderT Context (StateT Cursor (Except Failure))

namespace Cursor

def token (c : Cursor) : Token := c.rest.headD c.eof

/-- The token `n` places behind the current one. -/
def ahead (c : Cursor) (n : Nat) : Token := c.rest.getD n c.eof

def advance (c : Cursor) : Cursor :=
  match c.rest with
  | [] => c
  | t :: rest => { c with previous := some t, rest }

theorem rest_advance (c : Cursor) : c.advance.rest = c.rest.tail := by
  unfold advance
  split <;> simp_all

end Cursor

namespace TreeReader

def failAt {α : Type} (problem : Problem) (t : Token) : TreeReader α :=
  throw (.problem (.atToken problem t))

def current : TreeReader Token := do pure (← get).token

def fail {α : Type} (problem : Problem) : TreeReader α := do failAt problem (← current)

def ahead (n : Nat := 1) : TreeReader Token := do pure ((← get).ahead n)

def isNext (kind : TokenKind) : TreeReader Bool := do pure ((← current).kind = kind)

def advance : TreeReader Token := do
  let t ← current
  modify Cursor.advance
  pure t

/-- Takes the token if it is of the kind, and says whether it was. -/
def accept (kind : TokenKind) : TreeReader Bool := do
  if ← isNext kind then
    let _ ← advance
    pure true
  else pure false

def expect (kind : TokenKind) : TreeReader Token := do
  let t ← current
  if t.kind = kind then advance
  else failAt (.expected ("'" ++ kind.label ++ "'") t.describe) t

def name : TreeReader String := do
  let t ← current
  if t.kind.isName then pure (← advance).text
  else failAt (.expected "a name" t.describe) t

/-- Rounds of a step that takes a token each time it goes on. -/
def repeating {σ : Type} (step : σ → TreeReader (Option σ)) (s : σ) : TreeReader σ := do
  rounds (fail .nested) step ((← get).rest.length + 1) s

/-- Items up to the closing brace of `opening`, with commas between them; the comma after an item
that ends in a closing brace may be left out. -/
def block {α : Type} (opening : Token) (item : TreeReader α) : TreeReader (List α) := do
  let found ← repeating (fun found => do
    if found.2 || (← isNext .rbrace) then pure none
    else if ← isNext .eof then failAt (.unclosed "\x7b") opening
    else
      let found := (← item) :: found.1
      if ← accept .comma then pure (some (found, false))
      else if ← isNext .rbrace then pure (some (found, true))
      else if (← get).previous.any (·.kind = .rbrace) then pure (some (found, false))
      else fail (.expected "',' or '\x7d'" (← current).describe)) ([], false)
  let _ ← expect .rbrace
  pure found.1.reverse

/-- The closing bracket of a group of which `depth` brackets are open, and what is behind it. -/
def closing? (depth : Nat) : List Token → Option (Token × List Token)
  | [] => none
  | t :: rest =>
    if t.kind.isOpening then closing? (depth + 1) rest
    else if t.kind.isClosing then
      if depth ≤ 1 then some (t, rest) else closing? (depth - 1) rest
    else closing? depth rest

/-- Takes the bracketed group whose opening bracket comes next; answers its closing bracket. -/
def balanced : TreeReader Token := do
  let cursor ← get
  match closing? 0 cursor.rest with
  | some (t, rest) =>
    set { cursor with previous := some t, rest }
    pure t
  | none => failAt (.unclosed cursor.token.text) cursor.token

/-- Runs a reader from an earlier point, then goes on where the cursor was. -/
def rereading {α : Type} (from? : Cursor) (reader : TreeReader α) : TreeReader α := do
  let resume ← get
  set from?
  let found ← reader
  set resume
  pure found

/-- The source text from the start of one token to the end of another. -/
def textBetween (first last : Token) : TreeReader String := do
  pure (String.ofList (Text.slice (← read).text first.offset last.stop))

end TreeReader
end ViewTree
