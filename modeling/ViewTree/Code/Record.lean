import ViewTree.Code.Statement

/-!
The classes that hold widgets: the record of a view and the class of a template.
-/
namespace ViewTree

/-- A field with its type; one that is not mutable is declared final. -/
structure RecordField where
  name : String
  typeText : String
  isMutable : Bool := false
  doc : Option String := none
deriving DecidableEq, Repr

namespace RecordField

def declaredType (f : RecordField) : String :=
  if f.isMutable then f.typeText else "Final[" ++ f.typeText ++ "]"

def docLine (line : List Char) : String := String.ofList (Text.trimRight ("#: ".toList ++ line))

/-- The field under the lines of its documentation. -/
def code (f : RecordField) : Code :=
  (f.doc.elim [] fun doc => (Text.runningLines doc.toList).flatMap fun l => Code.line (docLine l)) ++
    Code.line (f.name ++ ": " ++ f.declaredType)

def argument (f : RecordField) : String := f.name ++ "=" ++ f.name

end RecordField

def anyType : String := "Any"

namespace Node

def typeText (settings : Settings) : Node → String
  | widget w => match w.construction.type? with
    | none | some "" => anyType
    | some type => type
  | choice _ => settings.switchType

def field (settings : Settings) (n : Node) : RecordField where
  name := n.nodeName.text
  typeText := n.typeText settings
  isMutable := n.nodeName.isMutable
  doc := match n with
    | widget w => w.doc
    | choice c => c.doc

/-- Whether the update routine may need the node, or someone asked for it by giving a name. -/
def isRecorded (topLevel : Bool) (n : Node) : Bool :=
  topLevel || n.nodeName.isGiven || match n with
    | choice _ => true
    | widget w => w.construction.isPrebound ||
        w.properties.any fun p => p.modifiers.refreshes || p.guard?.isSome

end Node

/-- The type of the toolkit's widget at the root. A template's instance does not tell its own. -/
def Widget.rootType (settings : Settings) (w : Widget) : String :=
  if w.construction.isTemplate then anyType else (Node.widget w).typeText settings

def guardField (name : String) : RecordField := { name, typeText := "int", isMutable := true }

namespace Component

/-- The fields of the record: nodes in the order of the trees, then the guards. -/
def recordFields (settings : Settings) (c : Component) : List RecordField :=
  (c.visits.filter fun v => v.node.isRecorded v.parent.isNone).map (·.node.field settings) ++
    (c.propertyVisits.filterMap fun (_, p) => p.guard?).map guardField

/-- The root, which a template's instance always has, then the nodes with names of their own. -/
def templateFields (settings : Settings) (c : Component) : List RecordField :=
  let root := c.root
  { name := "root", typeText := root.rootType settings, isMutable := root.name.isMutable,
    doc := root.doc } ::
    (c.walk.filter (·.nodeName.isGiven)).map (Node.field settings)

end Component

/-- A quoted line that says what a definition is for. -/
def docLiteral (text : String) : Code := Code.line ("\"\"\"" ++ text ++ "\"\"\"")

def recordCode (name : String) (fields : List RecordField) : Code :=
  Code.line "@dataclass" ++
  Code.block ("class " ++ name ++ ":")
    (docLiteral ("Widgets of the " ++ name ++ " view.") ++ Code.line "" ++
      fields.flatMap RecordField.code)

/-- What makes the record at the end of the init routine. -/
def recordBuild (name : String) (fields : List RecordField) : Code :=
  Code.line (recordLocal ++ " = " ++ name ++ "(" ++
    ", ".intercalate (fields.map RecordField.argument) ++ ")")

/-- The class of a template, with a method that builds an instance by the code `body`; `root` is
what its first field gets. -/
def templateCode (name : String) (fields : List RecordField) (root : Handle) (body : Code) : Code :=
  Code.line "@dataclass" ++
  Code.block ("class " ++ name ++ "(WidgetTemplate):")
    (docLiteral ("Widget template " ++ name ++ ".") ++ Code.line "" ++
      fields.flatMap RecordField.code ++ Code.line "" ++ Code.line "@classmethod" ++
      Code.block ("def init(cls) -> " ++ name ++ ":")
        (body ++ Code.line ("return cls(" ++ ", ".intercalate
          (("root=" ++ root.code) :: fields.tail.map RecordField.argument) ++ ")")))

end ViewTree
