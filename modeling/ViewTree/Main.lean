import ViewTree.Command

/-!
The program. It reads the files that a run can look at, runs, and writes what the run has written.
-/
namespace ViewTree

/-- What the file system has at a place. -/
def storedAt (place : List String) : IO (Option Stored) := do
  let path := (← IO.currentDir) / ("/" ++ "/".intercalate place)
  if ← path.isDir then pure (some .folder)
  else if ← path.pathExists then
    pure (some ((String.fromUTF8? (← IO.FS.readBinFile path)).elim .binary .text))
  else pure none

/-- The files with what is at further paths, and at the directories on the way. -/
def withPaths (files : Files) (paths : List Path) : IO Files := do
  let places := paths.flatMap fun p =>
    let place := p.resolve files.here
    (List.range (place.length + 1)).map place.take
  let mut files := files
  for place in places do
    if (files.stored? place).isNone then
      if let some stored ← storedAt place then
        files := { files with stored := (place, stored) :: files.stored }
  pure files

namespace Command

/-- The paths that the arguments name. -/
def paths : Command → List Path
  | version => []
  | check sources _ o => o.config.toList ++ sources
  | compile source output o => o.config.toList ++ source :: output.toList

end Command

def settingsPaths (files : Files) (start : Path) : List Path :=
  (files.directories start).flatMap fun d =>
    [d.child Settings.settingsFile, d.child Settings.projectFile]

def writeOutput (before after : Files) : Option Path → IO Unit
  | none => pure ()
  | some path => do
    if after.stored ≠ before.stored then
      if let .file (some content) := after.find path then
        IO.FS.createDirAll path.parent.toString
        IO.FS.writeFile path.toString content

end ViewTree

open ViewTree in
def main (arguments : List String) : IO UInt32 := do
  let here := (Path.ofString (← IO.currentDir).toString).segments
  let command := Command.ofArguments? arguments
  let named := command.elim [] Command.paths
  let files ← withPaths ⟨here, []⟩ named
  let files ← withPaths files (named.flatMap (settingsPaths files))
  match command with
  | none =>
    IO.eprint usageText
    pure 2
  | some command =>
    let finished := command.run {} files
    IO.print finished.stdout
    IO.eprint finished.stderr
    if let some reason := finished.abort then
      IO.eprintln ("Error: " ++ reason.message)
    if let .compile _ output _ := command then
      writeOutput files finished.files output
    pure finished.exit.toUInt32
