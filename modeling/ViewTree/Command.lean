import ViewTree.CommandLine
import ViewTree.Compilation
import ViewTree.Console
import ViewTree.Settings.Loading

/-!
The command line: `check` reports on view files, `compile` writes the code of one. A run is a
function of the command and the files; it answers what is printed, the exit code and the files
afterwards.
-/
namespace ViewTree

/-- What a run depends on besides the files: how settings are loaded, what is said about embedded
texts that do not read, how texts go to the console, and what arguments ask for. -/
structure Platform where
  loader : Settings.Loader := {}
  faults : Faults := .plain
  console : Console := .plain
  command? : List String → Option Command := Command.ofArguments?

/-- What a run, or a part of one, prints, and how it ends. -/
structure Printed where
  stdout : String := ""
  stderr : String := ""
  failed : Bool := false
  /-- The run cannot go on. -/
  stopped : Bool := false
  /-- What ended the run without a report. -/
  abort : Option Abort := none
deriving DecidableEq, Repr

instance : Append Printed where
  append a b :=
    ⟨a.stdout ++ b.stdout, a.stderr ++ b.stderr, a.failed || b.failed, a.stopped || b.stopped,
      a.abort.or b.abort⟩

/-- An end without a report. -/
def Printed.ofAbort (reason : Abort) : Printed :=
  { failed := true, stopped := true, abort := some reason }

/-- What came out of a run. -/
structure Finished where
  exit : Nat
  stdout : String
  stderr : String
  files : Files
  /-- What ended the run without a report. -/
  abort : Option Abort := none

section
variable (p : Platform)

/-- An error that ends the run. -/
def Printed.stop (message : String) : Printed :=
  { stderr := p.console.row ("Error: " ++ message), failed := true, stopped := true }

namespace Compilation

def componentRows (c : Compilation) (component : CompiledComponent) : Printed where
  stderr := String.join <| (component.errors c.file.toString c.source p.faults).map fun e =>
    p.console.row ("ERROR: " ++ component.label ++ ": " ++ e)
  stdout := String.join <| component.warnings.map fun w =>
    p.console.row ("WARNING: " ++ component.label ++ ": " ++ w.render c.file.toString)

def diagnostics (c : Compilation) : Printed :=
  c.components.foldl (fun printed component => printed ++ c.componentRows p component) {}

def summary (c : Compilation) : Printed where
  stdout := p.console.row (c.file.toString ++ ": " ++
    toString (c.components.countP (·.isSuccess)) ++ "/" ++ toString c.components.length ++
    " components OK")

def hasWarnings (c : Compilation) : Bool := c.components.any (!·.warnings.isEmpty)

end Compilation

namespace Command

/-- The settings that the options name; none if each file has its own. -/
def givenSettings (files : Files) (o : CompileOptions) : Except LoadError (Option Settings) :=
  match o.config with
  | some path => (Settings.load files path p.loader).map some
  | none => .ok none

/-- How a run ends that has no settings; `label` stands in front of what is said about it. -/
def withoutSettings (label : String) : LoadError → Printed
  | .abort reason => .ofAbort reason
  | e => .stop p (label ++ e.message)

/-- Compiles a file, or tells how the run ends there. -/
def compileFile (files : Files) (given : Option Settings) (extended : Bool) (source : Path) :
    Except Printed Compilation :=
  let label := source.toString ++ ": "
  match given.elim (Settings.discover files source p.loader) .ok with
  | .error e => .error (withoutSettings p label e)
  | .ok settings =>
    match files.readText source with
    | .error (.notText path) => .error (.ofAbort (.notText path))
    | .error e => .error (.stop p (label ++ e.message))
    | .ok text =>
      match Compilation.ofSource? settings source extended text with
      | some c => .ok c
      | none => .error (.ofAbort .unusable)

def checkFile (files : Files) (given : Option Settings) (strict extended : Bool) (source : Path) :
    Printed :=
  match compileFile p files given extended source with
  | .error printed => printed
  | .ok c =>
    let failed := !c.isSuccess || (strict && c.hasWarnings)
    c.diagnostics p ++ c.summary p ++ { failed }

/-- Checks files one after the other, up to the first that cannot be read. -/
def checkFiles (files : Files) (given : Option Settings) (strict extended : Bool) :
    List Path → Printed
  | [] => {}
  | source :: others =>
    let printed := checkFile p files given strict extended source
    if printed.stopped then printed
    else printed ++ checkFiles files given strict extended others

def finish (files : Files) (printed : Printed) : Finished :=
  ⟨if printed.failed then 1 else 0, printed.stdout, printed.stderr, files, printed.abort⟩

/-- Compiles a file and writes its code, to a file or behind the diagnostics. -/
def compileTo (files : Files) (given : Option Settings) (extended : Bool) (source : Path)
    (output : Option Path) : Finished :=
  match compileFile p files given extended source with
  | .error printed => finish files printed
  | .ok c =>
    let printed := c.diagnostics p ++ ({ failed := !c.isSuccess } : Printed)
    match output with
    | none => finish files (printed ++ ({ stdout := p.console.code c.render } : Printed))
    | some path =>
      match files.write? path c.render with
      | some files => finish files (printed ++ c.summary p)
      | none => finish files (printed ++ .ofAbort (.unwritable path))

def versionText : String := "viewforge version 0.3.0\nPython 3.11 grammar\n"

/-- Settings that are named are loaded before anything else is done. -/
def withSettings (files : Files) (o : CompileOptions) (run : Option Settings → Finished) :
    Finished :=
  match givenSettings p files o with
  | .error e => finish files (withoutSettings p "" e)
  | .ok given => run given

def run (files : Files) : Command → Finished
  | version => { exit := 0, stdout := versionText, stderr := "", files }
  | check sources strict o => withSettings p files o fun given =>
    finish files (checkFiles p files given strict o.extended sources)
  | compile source output o => withSettings p files o fun given =>
    compileTo p files given o.extended source output

end Command
end

def usageText : String := "Usage: check SOURCES | compile SOURCE\n"

/-- Runs the program, unless a run is aborted. Arguments that are not understood end it with code 2. -/
def runProgram (files : Files) (arguments : List String) (p : Platform := {}) :
    Except Abort Finished :=
  match p.command? arguments with
  | some command =>
    let finished := command.run p files
    match finished.abort with
    | some reason => .error reason
    | none => .ok finished
  | none =>
    .ok { exit := 2, stdout := "", stderr := usageText, files }

end ViewTree
