import ViewTree.Code.Record
import ViewTree.Code.UpdateRoutine
import ViewTree.Text.Spelling

/-!
The code of components: a record class with an init and an update routine for a view, a class for a
template. A module holds the code of a view file.
-/
namespace ViewTree

inductive Artifact where
  | view (name record init update : String)
  | template (name source : String)
deriving DecidableEq, Repr

/-- Blank rows between two parts of a module. -/
def partGap : String := "\n\n\n"

namespace Artifact

def source : Artifact → String
  | view _ record init update => partGap.intercalate [record, init, update]
  | template _ source => source

def isTemplate : Artifact → Bool
  | template _ _ => true
  | view .. => false

end Artifact

/-- The statements that bring a component into being, in the order in which they run. -/
structure InitRoutine where
  rootBuilds : List Statement
  builds : List Statement
  assigns : List Statement
  connects : List Statement

def InitRoutine.statements (r : InitRoutine) : List Statement :=
  r.rootBuilds ++ r.builds ++ r.assigns ++ r.connects

namespace Component

def initRoutine (settings : Settings) (c : Component) : Except CodeProblem InitRoutine := do
  return ⟨c.rootBuilds, c.otherBuilds, c.assigns settings, ← c.connects⟩

end Component

namespace View

def initName (v : View) : String := "init_" ++ Text.snakeCase v.name

def updateName (v : View) : String := "update_" ++ Text.snakeCase v.name

/-- The routine that builds the widgets and returns the root and the record. -/
def initCode (settings : Settings) (v : View) (fields : List RecordField) (routine : InitRoutine) :
    Code :=
  Code.block ("def " ++ v.initName ++ "(" ++ ", ".intercalate (v.model :: v.others) ++
      ") -> tuple[" ++ v.root.rootType settings ++ ", " ++ v.name ++ "]:")
    (docLiteral ("Build the " ++ v.name ++ " widget tree.") ++
      statementsCode settings routine.statements ++ recordBuild v.name fields ++
      Code.line ("return " ++ v.root.handle.code ++ ", " ++ recordLocal))

/-- The routine that is called when the model has changed. -/
def updateCode (settings : Settings) (v : View) (updates : List Statement) : Code :=
  Code.block ("def " ++ v.updateName ++ "(" ++ ", ".intercalate
      ((recordLocal ++ ": " ++ v.name) :: v.model :: v.others.head?.toList) ++ ") -> None:")
    (docLiteral ("Apply model changes to the " ++ v.name ++ " widgets.") ++
      statementsCode settings updates)

end View

namespace Component

def artifact (settings : Settings) (c : Component) : Except CodeProblem Artifact := do
  let symbols ← c.symbols.mapError .symbol
  let routine ← c.initRoutine settings
  let render (code : Code) : String := code.render settings.indentWidth 0
  match c with
  | template t =>
    let body := statementsCode settings routine.statements
    return .template t.name
      (render (templateCode t.name (c.templateFields settings) t.tree.handle body))
  | view v =>
    let fields := c.recordFields settings
    let updates ← v.updates symbols (fields.map (·.name))
    return .view v.name (render (recordCode v.name fields))
      (render (v.initCode settings fields routine)) (render (v.updateCode settings updates))

end Component

/-- What stands on top of a module: where it comes from, and imports. -/
def moduleHeader (settings : Settings) (sourceName : String) (hasTemplates : Bool) : String :=
  let toolkit := match settings.toolkitImport with
    | none | some "" => []
    | some line => [line]
  let imports := toolkit ++ settings.imports ++
    if hasTemplates then ["from viewforge.contract import WidgetTemplate"] else []
  "\n".intercalate <|
    ["\"\"\"Generated by viewforge from " ++ sourceName ++ ". Do not edit.\"\"\"", "",
      "from __future__ import annotations", "", "from dataclasses import dataclass",
      "from typing import Any, Final"] ++
    if imports.isEmpty then [] else "" :: imports

/-- The module with all artifacts; templates come first because views use them. -/
def moduleText (settings : Settings) (sourceName : String) (artifacts : List Artifact) : String :=
  let templates := artifacts.filter (·.isTemplate)
  let views := artifacts.filter (!·.isTemplate)
  let header := if settings.emitHeader then
      [moduleHeader settings sourceName (!templates.isEmpty)]
    else []
  partGap.intercalate (header ++ (templates ++ views).map Artifact.source) ++ "\n"

end ViewTree
