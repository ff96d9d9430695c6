import ViewTree.Check.Component
import ViewTree.Code.Artifact
import ViewTree.Source.Path
import ViewTree.Tree.Naming
import ViewTree.ViewFile

/-!
Compiling view files. Each component is read, named, checked and turned into code; where that fails,
the reasons are reported and the other components are compiled all the same.
-/
namespace ViewTree

/-- Why a component has no code. -/
inductive Rejection where
  | source (error : SourceError)
  | invalid (first : Diagnostic) (more : List Diagnostic)
  | code (problem : CodeProblem)
deriving Repr

/-- The reasons as messages; there is at least one. -/
def Rejection.messages (file source : String) (r : Rejection) (faults : Faults := .plain) :
    List String :=
  match r with
  | .source error => [(error.report file source faults).render]
  | invalid first more => (first :: more).map (·.render file)
  | code problem => [problem.message]

/-- What became of one component. -/
structure CompiledComponent where
  name : Option String
  kind : Option ComponentKind
  result : Except Rejection Artifact
  warnings : List Diagnostic

namespace CompiledComponent

def isSuccess (c : CompiledComponent) : Bool :=
  match c.result with
  | .ok _ => true
  | .error _ => false

def artifact? (c : CompiledComponent) : Option Artifact := c.result.toOption

/-- The component as messages name it. -/
def label (c : CompiledComponent) : String :=
  match c.name with
  | none => "<unnamed component>"
  | some name => (c.kind.elim "component" ComponentKind.word) ++ " " ++ name

def errors (file source : String) (c : CompiledComponent) (faults : Faults := .plain) :
    List String :=
  match c.result with
  | .ok _ => []
  | .error rejection => rejection.messages file source faults

end CompiledComponent

/-- Names, checks and generates a component. One that fails the checks is not linted. -/
def Component.compile (settings : Settings) (extended : Bool) (c : Component) :
    CompiledComponent :=
  let c := c.assignNames settings
  let found := c.check settings
  match found.errors with
  | first :: more => ⟨some c.name, some c.kind, .error (.invalid first more), found.warnings⟩
  | [] => ⟨some c.name, some c.kind, (c.artifact settings).mapError .code,
      found.warnings ++ c.lint extended⟩

def Outcome.compile (settings : Settings) (extended : Bool) (o : Outcome) : CompiledComponent :=
  match o.result with
  | .error e => ⟨o.name, o.kind, .error (.source e), []⟩
  | .ok c => c.compile settings extended

/-- A compiled view file. -/
structure Compilation where
  file : Path
  source : String
  settings : Settings
  components : List CompiledComponent

namespace Compilation

def isSuccess (c : Compilation) : Bool := c.components.all (·.isSuccess)

def component? (c : Compilation) (name : String) : Option CompiledComponent :=
  c.components.find? (·.name = some name)

/-- The module with the code of every component that has some. -/
def render (c : Compilation) : String :=
  moduleText c.settings c.file.name (c.components.filterMap (·.artifact?))

/-- Compiles the text of a view file; none if an embedded text is unusable. -/
def ofSource? (settings : Settings) (file : Path) (extended : Bool) (source : String) :
    Option Compilation :=
  (readSource? settings source).map fun outcomes =>
    ⟨file, source, settings, outcomes.map (Outcome.compile settings extended)⟩

end Compilation
end ViewTree
