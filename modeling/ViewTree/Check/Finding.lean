import ViewTree.Tree.Symbols

/-!
What checks find in a component: errors, which keep code from being written, and warnings.
-/
namespace ViewTree

/-- Why a name cannot be used in the generated code. -/
inductive NameProblem where
  | notIdentifier | keyword | leadingUnderscore | reserved | toolkitModule
deriving DecidableEq, Repr

def NameProblem.text : NameProblem → String
  | notIdentifier => "is not a valid Python identifier"
  | keyword => "is a Python keyword"
  | leadingUnderscore => "starts with '_', which is reserved for generated names"
  | reserved => "is reserved by the generated update routine"
  | toolkitModule => "shadows the toolkit module"

/-- What is found. `label` is a property as messages name it. -/
inductive Finding where
  | unnamedWidget
  | duplicateSibling (name parent : String)
  | symbol (component : String) (problem : SymbolProblem)
  | nodeName (name : String) (problem : NameProblem)
  | nodeShadowsParameter (name component : String)
  | rootName
  | guardName (name : String) (problem : NameProblem)
  | guardShadowsParameter (name : String)
  | illegalModifiers (names : List String) (kind : PropertyKind) (label : String)
  | watchWins (label : String)
  | idleBlock (label : String)
  | refreshInTemplate (template label : String)
  | untrackedView (label view : String)
  | noPredicate (label model : String)
  | unknownGuard (guard : String)
  | foreignGuard (guard : String)
  | messageInTemplate (template property : String)
  | noSender (property view : String)
  | guardInTemplate (template guard : String)
  | repeatedCaptures (property : String) (names : List String)
  | malformedBinding (method : String)
  | unknownTarget (target component : String)
  | unnamedBinding
  | bindingInTemplate (template name : String)
  | choiceReads (choice parameter : String)
  | refreshReads (label parameter : String)
  | singleArm (choice : String)
  | looseBinding (name component : String)
  | idleWatch (label : String)
deriving DecidableEq, Repr

namespace PropertyKind

def description : PropertyKind → String
  | method => "method"
  | binding => "property binding"
  | widget => "widget-valued"
  | conditional => "conditional"
  | connection => "signal connection"

/-- The modifiers that a property of the kind may carry. -/
def allowed : PropertyKind → List String
  | method => ["watch", "track", "block_signal", "chain", "?", "iterate"]
  | binding => ["chain"]
  | conditional => ["transition"]
  | widget | connection => []

end PropertyKind

def Property.label (p : Property) : String := if p.name = "" then "child" else "'" ++ p.name ++ "'"

namespace Finding

def modifierText (name : String) : String := if name = "?" then "'?'" else "#[" ++ name ++ "]"

def message : Finding → String
  | unnamedWidget => "Widget has no name"
  | duplicateSibling name parent =>
    "Duplicate widget name '" ++ name ++ "' in the properties of '" ++ parent ++ "'"
  | symbol component problem => component ++ ": " ++ problem.message
  | nodeName name problem => "Widget name '" ++ name ++ "' " ++ problem.text
  | nodeShadowsParameter name component =>
    "Widget name '" ++ name ++ "' shadows a parameter of '" ++ component ++ "'"
  | rootName => "Widget name 'root' is reserved for the template root"
  | guardName name problem => "Guard name '" ++ name ++ "' " ++ problem.text
  | guardShadowsParameter name => "Guard name '" ++ name ++ "' shadows a parameter"
  | illegalModifiers names kind label =>
    ", ".intercalate (names.map modifierText) ++ " cannot be applied to " ++ kind.description ++
      " property " ++ label
  | watchWins label =>
    "Property " ++ label ++
      " has both #[watch] and #[track]; #[watch] wins and the property is re-applied on every update"
  | idleBlock label =>
    "#[block_signal] on " ++ label ++ " has no effect without #[watch] or #[track]"
  | refreshInTemplate template label =>
    "Template '" ++ template ++ "' has no update routine; remove #[watch]/#[track] from " ++ label
  | untrackedView label view =>
    "#[track] on " ++ label ++ " needs change tracking; declare the view as 'view " ++ view ++
      "(...) tracked'"
  | noPredicate label model =>
    "Cannot derive a #[track] predicate for " ++ label ++ ": the value reads no field of '" ++
      model ++ "'. Write the predicate explicitly: #[track(...)]"
  | unknownGuard guard =>
    "#[block_signal(" ++ guard ++
      ")] does not match any connection guard; declare one with 'connect_<signal> => ... @" ++
      guard ++ "'"
  | foreignGuard guard =>
    "#[block_signal(" ++ guard ++ ")] refers to a guard declared in another top-level tree"
  | messageInTemplate template property =>
    "Template '" ++ template ++ "' has no sender; '" ++ property ++
      "' must be given a lambda callback"
  | noSender property view =>
    "'" ++ property ++ "' dispatches a message, but view '" ++ view ++ "' has no sender parameter"
  | guardInTemplate template guard =>
    "Template '" ++ template ++ "' has no update routine to use guard '@" ++ guard ++ "'"
  | repeatedCaptures property names =>
    "'" ++ property ++ "' captures " ++ ", ".intercalate names ++ " twice"
  | malformedBinding method =>
    "'" ++ method ++ "' takes a tuple (source_property, target, target_property[, flags])"
  | unknownTarget target component =>
    "Binding target '" ++ target ++ "' is not a widget of '" ++ component ++ "'"
  | unnamedBinding => "Pre-bound widget has no name"
  | bindingInTemplate template name =>
    "Template '" ++ template ++ "' cannot use pre-bound widget '" ++ name ++ "'"
  | choiceReads choice parameter =>
    "Conditional '" ++ choice ++ "' reads init-only parameter '" ++ parameter ++
      "', which the update routine does not receive"
  | refreshReads label parameter =>
    "Refreshed property " ++ label ++ " reads init-only parameter '" ++ parameter ++
      "', which the update routine does not receive"
  | singleArm choice => "Match '" ++ choice ++ "' has a single arm and never switches"
  | looseBinding name component =>
    "Pre-bound widget '" ++ name ++ "' is not a parameter of '" ++ component ++
      "'; it must be in scope where the generated code runs"
  | idleWatch label => "#[watch] on " ++ label ++ " re-applies a value that reads no parameter"

end Finding

/-- A finding with its place. -/
structure Diagnostic where
  place : Place
  finding : Finding
deriving DecidableEq, Repr

def Diagnostic.render (file : String) (d : Diagnostic) : String :=
  file ++ ":" ++ toString d.place.line ++ ":" ++ toString d.place.column ++ ": " ++
    d.finding.message

/-- What a check reports. -/
structure Findings where
  errors : List Diagnostic := []
  warnings : List Diagnostic := []

instance : Append Findings where
  append a b := ⟨a.errors ++ b.errors, a.warnings ++ b.warnings⟩

end ViewTree
