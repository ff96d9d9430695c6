import ViewTree.Code.Statement
import ViewTree.Tree.Symbols

/-!
The statements that bring the widgets of a component into being: every widget is built, then the
properties are applied, then the signals are connected. Each of the three walks the trees in the
same order.
-/
namespace ViewTree

def Widget.buildSelf (w : Widget) : List Statement :=
  if w.construction.isPrebound then [] else [.build w.name.text w.construction]

mutual

def Widget.build : Widget → List Statement
  | ⟨name, construction, isRoot, doc, place, properties⟩ =>
    Widget.buildSelf ⟨name, construction, isRoot, doc, place, properties⟩ ++
      Property.buildAll properties

def Property.buildAll : List Property → List Statement
  | [] => []
  | ⟨_, _, _, payload⟩ :: more => payload.build ++ Property.buildAll more

def Payload.build : Payload → List Statement
  | .method _ | .binding _ | .connection _ _ _ => []
  | .child _ widget => widget.build
  | .choice _ choice => choice.build

def Choice.build : Choice → List Statement
  | ⟨name, transition, _, _, branches⟩ =>
    .container name.text transition :: branches.build name.text

def Branches.build (choice : String) : Branches → List Statement
  | .chain ⟨_, widget, _⟩ others last _ =>
    widget.build ++ .addPage choice widget.handle 0 :: (Branch.buildAll choice 1 others ++
      (last.build ++ [.addPage choice last.handle (others.length + 1)]))
  | .cases _ arms => CaseArm.buildAll choice 0 arms

def Branch.buildAll (choice : String) (index : Nat) : List Branch → List Statement
  | [] => []
  | ⟨_, widget, _⟩ :: more =>
    widget.build ++ .addPage choice widget.handle index :: Branch.buildAll choice (index + 1) more

def CaseArm.buildAll (choice : String) (index : Nat) : List CaseArm → List Statement
  | [] => []
  | ⟨_, widget⟩ :: more =>
    widget.build ++ .addPage choice widget.handle index :: CaseArm.buildAll choice (index + 1) more

end

namespace Component

def rootBuilds (c : Component) : List Statement := c.root.buildSelf

/-- Builds what is below the root, then the other trees. -/
def otherBuilds (c : Component) : List Statement :=
  Property.buildAll c.root.properties ++ c.trees.tail.flatMap Widget.build

end Component

namespace Property

def application? (target : Handle) (p : Property) : Option Application :=
  match p.payload with
  | .method value =>
    some ⟨target, p.name, value, p.modifiers.chain, p.modifiers.optional, p.modifiers.iterate⟩
  | _ => none

/-- The method that attaches the child of a property: its name, or what the type of the owner has
for children. -/
def attachMethod (settings : Settings) (owner : Construction) (name : String) : String :=
  if name = "" then settings.childMethod owner.type? else name

end Property

mutual

/-- Applies the properties of the widget, each child's own right after it is attached. -/
def Widget.assign (settings : Settings) : Widget → List Statement
  | ⟨name, construction, _, _, _, properties⟩ =>
    Property.assignEach settings ⟨name.text, construction.isTemplate⟩ construction properties

def Property.assignEach (settings : Settings) (target : Handle) (owner : Construction) :
    List Property → List Statement
  | [] => []
  | ⟨name, modifiers, place, payload⟩ :: more =>
    ((Property.application? target ⟨name, modifiers, place, payload⟩).toList.map .apply) ++
    payload.assign settings target (Property.attachMethod settings owner name) ++
      Property.assignEach settings target owner more

def Payload.assign (settings : Settings) (target : Handle) (method : String) :
    Payload → List Statement
  | .method _ | .binding _ | .connection _ _ _ => []
  | .child arguments widget =>
    .attach target method widget.handle arguments :: widget.assign settings
  | .choice arguments choice =>
    .attach target method ⟨choice.name.text, false⟩ arguments :: choice.assign settings

/-- Shows a branch, then applies the properties of all of them. -/
def Choice.assign (settings : Settings) : Choice → List Statement
  | ⟨name, _, _, _, branches⟩ => .choosePage name.text branches :: branches.assign settings

def Branches.assign (settings : Settings) : Branches → List Statement
  | .chain ⟨_, widget, _⟩ others last _ =>
    widget.assign settings ++ Branch.assignEach settings others ++ last.assign settings
  | .cases _ arms => CaseArm.assignEach settings arms

def Branch.assignEach (settings : Settings) : List Branch → List Statement
  | [] => []
  | ⟨_, widget, _⟩ :: more => widget.assign settings ++ Branch.assignEach settings more

def CaseArm.assignEach (settings : Settings) : List CaseArm → List Statement
  | [] => []
  | ⟨_, widget⟩ :: more => widget.assign settings ++ CaseArm.assignEach settings more

end

/-- Applies the properties of all trees. -/
def Component.assigns (settings : Settings) (c : Component) : List Statement :=
  c.trees.flatMap (Widget.assign settings)

/-- Why no code can be written for a component. -/
inductive CodeProblem where
  | symbol (problem : SymbolProblem)
  /-- A message without anyone to receive it. -/
  | noSender (property : String)
  | noPredicate (property model : String)
  | unknownGuard (guard : String)
deriving DecidableEq, Repr

def CodeProblem.message : CodeProblem → String
  | symbol problem => problem.message
  | noSender property => "'" ++ property ++ "' dispatches a message, but there is no sender"
  | noPredicate property model =>
    "Cannot derive a tracking predicate for '" ++ property ++ "': its value reads no field of '" ++
      model ++ "'"
  | unknownGuard guard => "Unknown signal guard '" ++ guard ++ "'"

def Property.connects (sender? : Option String) (target : Handle) (p : Property) :
    Except CodeProblem (List Statement) :=
  match p.payload with
  | .connection value captures guard =>
    match Callback.ofConnection? sender? value captures with
    | some callback => pure [.connect target (Text.signalName p.name) callback guard]
    | none => throw (.noSender p.name)
  | .binding value => pure [.bind target p.name value p.modifiers.chain]
  | _ => pure []

def Node.connects (sender? : Option String) : Node → Except CodeProblem (List Statement)
  | .widget w => do return (← w.properties.mapM (Property.connects sender? w.handle)).flatten
  | .choice _ => pure []

/-- The connections and bindings of all widgets. -/
def Component.connects (c : Component) : Except CodeProblem (List Statement) := do
  return (← c.walk.mapM (Node.connects c.sender?)).flatten

end ViewTree
