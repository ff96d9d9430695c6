import ViewTree.Embedded.Names
import ViewTree.Source.Excerpt
import ViewTree.Source.Section
import ViewTree.Text.Spelling

/-!
Components and their trees. A view or template holds widgets; a widget holds properties in order,
and some properties hold another widget or a choice between several. What a form cannot have it has
no field for.
-/
namespace ViewTree

/-- An embedded expression: its exact text, where it starts, and what it reads as. -/
structure Expr where
  text : String
  place : Place
  term : Embedded.Term

/-- The text in a form that may stand on a line. -/
def Expr.code (e : Expr) : String := Embedded.inlineText e.text

def Expr.arguments (e : Expr) : String := Embedded.argumentsText e.text e.term

def Expr.isTuple (e : Expr) : Bool := (Embedded.elementTexts? e.text e.term).isSome

/-- An embedded pattern with its guard. -/
structure ArmPattern where
  text : String
  place : Place
  arm : Embedded.Arm

/-- The name of a node: none yet, one that is written, or one that was made up for it. -/
inductive NodeName where
  | absent
  | given (name : String) (isMutable : Bool)
  | synthesized (name : String)
deriving DecidableEq, Repr

namespace NodeName

def get? : NodeName → Option String
  | absent => none
  | given name _ | synthesized name => some name

/-- The name as code and messages write it. -/
def text (n : NodeName) : String := n.get?.getD "None"

def isGiven : NodeName → Bool
  | given _ _ => true
  | _ => false

def isMutable : NodeName → Bool
  | given _ m => m
  | _ => false

end NodeName

/-- How a widget comes into being. -/
inductive Construction where
  /-- The type is called without arguments. -/
  | block (path : String)
  /-- The class of a template is asked for an instance. -/
  | template (path : String)
  /-- A call as it is written, or a chain of several. -/
  | call (path : String) (call : Expr) (chained : Bool)
  /-- The caller supplies it, as a value or as a reference. -/
  | prebound (path : String) (reference : Bool)

namespace Construction

def path : Construction → String
  | block path | template path | call path _ _ | prebound path _ => path

def type? : Construction → Option String
  | prebound path _ => some path
  | block path | template path | call path _ _ => Text.typePath? path

def call? : Construction → Option Expr
  | call _ written _ => some written
  | _ => none

def isPrebound : Construction → Bool
  | prebound _ _ => true
  | _ => false

def isTemplate : Construction → Bool
  | template _ => true
  | _ => false

end Construction

/-- When a tracked property is applied again. -/
inductive Tracking where
  | none
  /-- When one of the model fields that its value reads has changed. -/
  | derived
  | explicit (predicate : Expr)

structure Modifiers where
  watch : Bool := false
  tracking : Tracking := .none
  blockSignals : List String := []
  chain : List Expr := []
  optional : Bool := false
  iterate : Bool := false
  transition : Option String := none

namespace Modifiers

def tracks (m : Modifiers) : Bool :=
  match m.tracking with
  | .none => false
  | _ => true

def predicate? (m : Modifiers) : Option Expr :=
  match m.tracking with
  | .explicit e => some e
  | _ => none

/-- Whether the property is ever applied again. -/
def refreshes (m : Modifiers) : Bool := m.watch || m.tracks

/-- The modifiers that are set, by the names that messages use. -/
def names (m : Modifiers) : List String :=
  (if m.watch then ["watch"] else []) ++ (if m.tracks then ["track"] else []) ++
  (if m.blockSignals.isEmpty then [] else ["block_signal"]) ++
  (if m.chain.isEmpty then [] else ["chain"]) ++ (if m.optional then ["?"] else []) ++
  (if m.iterate then ["iterate"] else []) ++
  (if m.transition.isSome then ["transition"] else [])

end Modifiers

/-- A value that a callback takes along when it is registered. -/
structure Capture where
  name : String
  value : Option Expr

def Capture.code (c : Capture) : String := c.value.elim c.name Expr.code

mutual

structure Widget where
  name : NodeName
  construction : Construction
  isRoot : Bool
  doc : Option String
  place : Place
  properties : List Property

/-- A property; a child that is attached without one has an empty name. -/
structure Property where
  name : String
  modifiers : Modifiers
  place : Place
  payload : Payload

inductive Payload where
  | method (value : Expr)
  | binding (value : Expr)
  | connection (value : Expr) (captures : List Capture) (guard : Option String)
  | child (arguments : Option Expr) (widget : Widget)
  | choice (arguments : Option Expr) (choice : Choice)

/-- A choice between widgets, of which one is shown. -/
structure Choice where
  name : NodeName
  transition : Option String
  doc : Option String
  place : Place
  branches : Branches

inductive Branches where
  | chain (first : Branch) (others : List Branch) (last : Widget) (lastPlace : Place)
  | cases (subject : Expr) (arms : List CaseArm)

/-- A widget that is shown under a condition. -/
structure Branch where
  condition : Expr
  widget : Widget
  place : Place

structure CaseArm where
  pattern : ArmPattern
  widget : Widget

end

inductive PropertyKind where
  | method | binding | connection | widget | conditional
deriving DecidableEq, Repr

namespace Payload

def kind : Payload → PropertyKind
  | method _ => .method
  | binding _ => .binding
  | connection _ _ _ => .connection
  | child _ _ => .widget
  | choice _ _ => .conditional

def value? : Payload → Option Expr
  | method value | binding value | connection value _ _ => some value
  | child _ _ | choice _ _ => none

def arguments? : Payload → Option Expr
  | child arguments _ | choice arguments _ => arguments
  | _ => none

def captures : Payload → List Capture
  | connection _ captures _ => captures
  | _ => []

def guard? : Payload → Option String
  | connection _ _ guard => guard
  | _ => none

end Payload

namespace Property

def kind (p : Property) : PropertyKind := p.payload.kind
def value? (p : Property) : Option Expr := p.payload.value?
def guard? (p : Property) : Option String := p.payload.guard?
def isDefaultChild (p : Property) : Bool := p.name = ""

end Property

namespace Branches

def widgets : Branches → List Widget
  | chain first others last _ => first.widget :: others.map (·.widget) ++ [last]
  | cases _ arms => arms.map (·.widget)

end Branches

/-- A node of a tree. -/
inductive Node where
  | widget (w : Widget)
  | choice (c : Choice)

namespace Node

def nodeName : Node → NodeName
  | widget w => w.name
  | choice c => c.name

def name? (n : Node) : Option String := n.nodeName.get?

def place : Node → Place
  | widget w => w.place
  | choice c => c.place

def widget? : Node → Option Widget
  | widget w => some w
  | choice _ => none

def isPrebound : Node → Bool
  | widget w => w.construction.isPrebound
  | choice _ => false

def properties : Node → List Property
  | widget w => w.properties
  | choice _ => []

end Node

mutual

/-- All nodes of the tree, each before those below it. -/
def Widget.walk : Widget → List Node
  | ⟨name, construction, isRoot, doc, place, properties⟩ =>
    .widget ⟨name, construction, isRoot, doc, place, properties⟩ :: Property.walkAll properties

def Property.walkAll : List Property → List Node
  | [] => []
  | ⟨_, _, _, payload⟩ :: more => payload.walk ++ Property.walkAll more

def Payload.walk : Payload → List Node
  | .method _ | .binding _ | .connection _ _ _ => []
  | .child _ widget => widget.walk
  | .choice _ choice => choice.walk

def Choice.walk : Choice → List Node
  | ⟨name, transition, doc, place, branches⟩ =>
    .choice ⟨name, transition, doc, place, branches⟩ :: branches.walk

def Branches.walk : Branches → List Node
  | .chain ⟨_, widget, _⟩ others last _ => widget.walk ++ Branch.walkAll others ++ last.walk
  | .cases _ arms => CaseArm.walkAll arms

def Branch.walkAll : List Branch → List Node
  | [] => []
  | ⟨_, widget, _⟩ :: more => widget.walk ++ Branch.walkAll more

def CaseArm.walkAll : List CaseArm → List Node
  | [] => []
  | ⟨_, widget⟩ :: more => widget.walk ++ CaseArm.walkAll more

end

/-- A view: its first parameter is the model, the second one sends messages, the others are known
only while the widgets are built. -/
structure View where
  name : String
  model : String
  others : List String
  tracked : Bool
  root : Widget
  trees : List Widget
  place : Place

structure Template where
  name : String
  tree : Widget
  place : Place

inductive Component where
  | view (v : View)
  | template (t : Template)

namespace Component

def kind : Component → ComponentKind
  | view _ => .view
  | template _ => .template

def name : Component → String
  | view v => v.name
  | template t => t.name

def place : Component → Place
  | view v => v.place
  | template t => t.place

def params : Component → List String
  | view v => v.model :: v.others
  | template _ => []

def isTracked : Component → Bool
  | view v => v.tracked
  | template _ => false

def sender? : Component → Option String
  | view v => v.others.head?
  | template _ => none

def model? : Component → Option String
  | view v => some v.model
  | template _ => none

def root : Component → Widget
  | view v => v.root
  | template t => t.tree

def trees : Component → List Widget
  | view v => v.root :: v.trees
  | template t => [t.tree]

/-- Every node of every tree. -/
def walk (c : Component) : List Node := c.trees.flatMap Widget.walk

end Component

/-- A node with what it hangs in: the number of its tree, the name of the node around it, and the
property it is attached through, which a branch of a choice has not. -/
structure Visit where
  node : Node
  tree : Nat
  parent : Option String
  property : Option Property

mutual

def Widget.visits (tree : Nat) (parent : Option String) (property : Option Property) :
    Widget → List Visit
  | ⟨name, construction, isRoot, doc, place, properties⟩ =>
    ⟨.widget ⟨name, construction, isRoot, doc, place, properties⟩, tree, parent, property⟩ ::
      Property.visitsAll tree name.get? properties

def Property.visitsAll (tree : Nat) (parent : Option String) : List Property → List Visit
  | [] => []
  | ⟨name, modifiers, place, payload⟩ :: more =>
    payload.visits tree parent ⟨name, modifiers, place, payload⟩ ++
      Property.visitsAll tree parent more

def Payload.visits (tree : Nat) (parent : Option String) (property : Property) :
    Payload → List Visit
  | .method _ | .binding _ | .connection _ _ _ => []
  | .child _ widget => widget.visits tree parent (some property)
  | .choice _ choice => choice.visits tree parent (some property)

def Choice.visits (tree : Nat) (parent : Option String) (property : Option Property) :
    Choice → List Visit
  | ⟨name, transition, doc, place, branches⟩ =>
    ⟨.choice ⟨name, transition, doc, place, branches⟩, tree, parent, property⟩ ::
      branches.visits tree name.get?

def Branches.visits (tree : Nat) (parent : Option String) : Branches → List Visit
  | .chain ⟨_, widget, _⟩ others last _ =>
    widget.visits tree parent none ++ Branch.visitsAll tree parent others ++
      last.visits tree parent none
  | .cases _ arms => CaseArm.visitsAll tree parent arms

def Branch.visitsAll (tree : Nat) (parent : Option String) : List Branch → List Visit
  | [] => []
  | ⟨_, widget, _⟩ :: more => widget.visits tree parent none ++ Branch.visitsAll tree parent more

def CaseArm.visitsAll (tree : Nat) (parent : Option String) : List CaseArm → List Visit
  | [] => []
  | ⟨_, widget⟩ :: more => widget.visits tree parent none ++ CaseArm.visitsAll tree parent more

end

/-- Every node of every tree with what it hangs in. -/
def Component.visits (c : Component) : List Visit :=
  c.trees.zipIdx.flatMap fun (tree, i) => tree.visits i none none

/-- Every property of every widget with the visit of the widget. -/
def Component.propertyVisits (c : Component) : List (Visit × Property) :=
  c.visits.flatMap fun v => v.node.properties.map (v, ·)

end ViewTree
