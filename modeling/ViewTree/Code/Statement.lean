import ViewTree.Code
import ViewTree.Settings
import ViewTree.Tree

/-!
The statements of generated routines, and the code of each.
-/
namespace ViewTree

/-- Locals that only the routines use. -/
def valueLocal : String := "_value"
def itemLocal : String := "_item"
def pageLocal : String := "_page"

def recordLocal : String := "widgets"

/-- The toolkit's widget of a node: what its local holds, or the root of what it holds. -/
structure Handle where
  name : String
  viaRoot : Bool
deriving DecidableEq, Repr

def Handle.code (h : Handle) : String := if h.viaRoot then h.name ++ ".root" else h.name

def Widget.handle (w : Widget) : Handle := ⟨w.name.text, w.construction.isTemplate⟩

def Node.handle : Node → Handle
  | .widget w => w.handle
  | .choice c => ⟨c.name.text, false⟩

def methodCall (target : Handle) (method arguments : String) (chain : List Expr) : String :=
  target.code ++ "." ++ method ++ "(" ++ arguments ++ ")" ++
    String.join (chain.map fun e => "." ++ e.code)

/-- A method that is given a value: at once, only if there is a value, once for each item, or both. -/
structure Application where
  target : Handle
  method : String
  value : Expr
  chain : List Expr
  optional : Bool
  iterate : Bool

namespace Application

def call (a : Application) (arguments : String) : Code :=
  Code.line (methodCall a.target a.method arguments a.chain)

/-- Applies each item of `items`. -/
def callEach (a : Application) (items : String) : Code :=
  Code.block ("for " ++ itemLocal ++ " in " ++ items ++ ":") (a.call itemLocal)

/-- A value that may be missing is evaluated once; a tuple gives several arguments. -/
def code (a : Application) : Code :=
  if a.optional then
    Code.line (valueLocal ++ " = " ++ a.value.code) ++
    Code.block ("if " ++ valueLocal ++ " is not None:")
      (if a.iterate then a.callEach valueLocal
       else a.call (if a.value.isTuple then "*" ++ valueLocal else valueLocal))
  else if a.iterate then a.callEach a.value.code
  else a.call a.value.arguments

end Application

/-- What a signal runs: a function that is written out, or a message to the sender. -/
inductive Reaction where
  | function (value : Expr)
  | message (sender : String) (value : Expr)

/-- A reaction with what it takes along when it is registered. -/
structure Callback where
  captures : List Capture
  reaction : Reaction

namespace Callback

/-- A message takes the sender along, in front of the captures unless it is among them. -/
def ofConnection? (sender? : Option String) (value : Expr) (captures : List Capture) :
    Option Callback :=
  if value.term.isLambda then some ⟨captures, .function value⟩
  else sender?.map fun sender =>
    let captured := captures.any (·.name = sender)
    ⟨if captured then captures else ⟨sender, none⟩ :: captures, .message sender value⟩

def Reaction.code (settings : Settings) : Reaction → String
  | .function value => value.code
  | .message sender value =>
    "lambda *_args: " ++ sender ++ "." ++ settings.senderMethod ++ "(" ++ value.code ++ ")"

/-- Captured values are bound by a function around the reaction that is called on the spot. -/
def code (settings : Settings) (c : Callback) : String :=
  let body := Reaction.code settings c.reaction
  if c.captures.isEmpty then body
  else "(lambda " ++ ", ".intercalate (c.captures.map (·.name)) ++ ": " ++ body ++ ")(" ++
    ", ".intercalate (c.captures.map Capture.code) ++ ")"

end Callback

/-- The label of the branch with a number, as a literal. -/
def pageLabel (index : Nat) : String := "\"" ++ toString index ++ "\""

namespace Branches

/-- A conditional expression that gives the label of the first branch whose condition holds. -/
def pageExpression (conditions : List Expr) : String :=
  " ".intercalate
    (conditions.zipIdx.map (fun (c, i) => pageLabel i ++ " if (" ++ c.text ++ ") else") ++
      [pageLabel conditions.length])

/-- Assigns the label of the branch to show; nothing if no arm of a match fits. -/
def selection : Branches → Code
  | chain first others _ _ =>
    Code.line (pageLocal ++ " = " ++ pageExpression ((first :: others).map (·.condition)))
  | cases subject arms =>
    Code.block ("match " ++ subject.code ++ ":")
      (arms.zipIdx.flatMap fun (a, i) =>
        Code.block ("case " ++ a.pattern.text ++ ":")
          (Code.line (pageLocal ++ " = " ++ pageLabel i)))

/-- The selection with the label that stays when no arm fits. -/
def selectionOr (fallback : String) (b : Branches) : Code :=
  match b with
  | chain .. => b.selection
  | cases .. => Code.line (pageLocal ++ " = " ++ fallback) ++ b.selection

end Branches

/-- When a tracked property is applied again. -/
inductive Trigger where
  | written (condition : Expr)
  | changed (model : String) (fields : List String)

def Trigger.code (settings : Settings) : Trigger → String
  | written condition => condition.code
  | changed model fields =>
    model ++ "." ++ settings.trackerMethod ++ "(" ++
      ", ".intercalate (fields.map fun f => "\"" ++ f ++ "\"") ++ ")"

/-- A signal that is blocked while a property is applied: its guard and the widget that has it. -/
structure BlockedSignal where
  guard : String
  owner : Handle
deriving DecidableEq, Repr

inductive Statement where
  /-- Builds a widget. -/
  | build (name : String) (construction : Construction)
  /-- Builds the container of a choice. -/
  | container (name : String) (transition : Option String)
  /-- Adds a branch of a choice under its number. -/
  | addPage (choice : String) (page : Handle) (index : Nat)
  | attach (target : Handle) (method : String) (child : Handle) (arguments : Option Expr)
  | apply (application : Application)
  /-- Shows the first page of a choice. -/
  | choosePage (choice : String) (branches : Branches)
  | connect (target : Handle) (signal : String) (callback : Callback) (guard : Option String)
  | bind (target : Handle) (method : String) (value : Expr) (chain : List Expr)
  /-- Takes a widget or guard out of the record. -/
  | load (name : String)
  /-- Applies a property again, always or when the trigger says so. -/
  | refresh (trigger : Option Trigger) (blocked : List BlockedSignal) (application : Application)
  /-- Shows another page of a choice if another one is to be shown. -/
  | switchPage (choice : String) (transition : Option String) (branches : Branches)
  | nothing

namespace Statement

def callOf (target method arguments : String) : String :=
  target ++ "." ++ method ++ "(" ++ arguments ++ ")"

/-- What builds a widget; a prebound one is there. -/
def buildCode (name : String) : Construction → Code
  | .block path => Code.line (name ++ " = " ++ path ++ "()")
  | .template path => Code.line (name ++ " = " ++ path ++ ".init()")
  | .call _ call _ => Code.line (name ++ " = " ++ call.code)
  | .prebound _ _ => []

def attachedArguments (child : Handle) (arguments : Option Expr) : String :=
  match arguments.map Expr.arguments with
  | none | some "" => child.code
  | some more => child.code ++ ", " ++ more

def refreshCode (settings : Settings) (blocked : List BlockedSignal) (a : Application) : Code :=
  blocked.flatMap (fun b => Code.line (callOf b.owner.code settings.blockMethod b.guard)) ++
  a.code ++
  blocked.reverse.flatMap fun b => Code.line (callOf b.owner.code settings.unblockMethod b.guard)

def code (settings : Settings) : Statement → Code
  | build name construction => buildCode name construction
  | container name transition =>
    Code.line (name ++ " = " ++ settings.switchType ++ "()") ++
    (transition.elim [] fun kind =>
      Code.line (callOf name settings.transitionMethod (settings.transitionValue kind)))
  | addPage choice page index =>
    Code.line (callOf choice settings.addPageMethod (page.code ++ ", " ++ pageLabel index))
  | attach target method child arguments =>
    Code.line (callOf target.code method (attachedArguments child arguments))
  | apply application => application.code
  | choosePage choice branches =>
    branches.selectionOr (pageLabel 0) ++
    Code.line (callOf choice settings.setPageMethod pageLocal)
  | connect target signal callback guard =>
    let registration := callOf target.code settings.connectMethod
      ("\"" ++ signal ++ "\", " ++ callback.code settings)
    Code.line (guard.elim registration (· ++ " = " ++ registration))
  | bind target method value chain => Code.line (methodCall target method value.arguments chain)
  | load name => Code.line (name ++ " = " ++ recordLocal ++ "." ++ name)
  | refresh none blocked application => refreshCode settings blocked application
  | refresh (some trigger) blocked application =>
    Code.block ("if " ++ trigger.code settings ++ ":") (refreshCode settings blocked application)
  | switchPage choice transition branches =>
    let current := callOf choice settings.getPageMethod ""
    branches.selectionOr current ++
    Code.block ("if " ++ current ++ " != " ++ pageLocal ++ ":")
      (Code.line (match transition with
        | some kind => callOf choice settings.setPageFullMethod
            (pageLocal ++ ", " ++ settings.transitionValue kind)
        | none => callOf choice settings.setPageMethod pageLocal))
  | nothing => Code.line "pass"

end Statement

def statementsCode (settings : Settings) (statements : List Statement) : Code :=
  statements.flatMap (Statement.code settings)

end ViewTree
