import ViewTree.Files
import ViewTree.Settings.Reading
import ViewTree.Toml.Document

/-!
Settings from files. The settings of a project are a table of a TOML document; the nearest file that
has one counts.
-/
namespace ViewTree

/-- What ends a run without a report. -/
inductive Abort where
  /-- A key is looked up in a value that is no table. -/
  | noTable
  /-- A value that should hold entries, or a name, can hold nothing. -/
  | notEntries
  /-- An entry is no pair of a key and a value. -/
  | notPair
  /-- A document has too much of something. -/
  | oversized {e : Toml.Excess}
  | notText (path : Path)
  /-- An embedded text of a view file has no meaning. -/
  | unusable
  | unwritable (path : Path)
deriving DecidableEq, Repr

def Abort.message : Abort → String
  | .noTable => "A configuration key is looked up in a value that is no table"
  | .notEntries => "A configuration value holds no entries"
  | .notPair => "A configuration entry is no pair of a key and a value"
  | .oversized (e := .digits) => "A number in the configuration has too many digits"
  | .oversized (e := .nesting) => "The values of the configuration are nested too deeply"
  | .notText path => "Not a text in UTF-8: " ++ path.toString
  | .unusable => "An embedded text has no meaning"
  | .unwritable path => "Cannot write " ++ path.toString

/-- Why no settings can be had from a file. -/
inductive LoadError where
  | access (error : ReadError)
  | malformed (path : Path)
  | notTable (path : Path)
  | rejected (path : Path) (problems : List SettingsProblem)
  | abort (reason : Abort)
deriving DecidableEq, Repr

namespace Mismatch

def text : Mismatch → String
  | unknownKey => "unknown key"
  | notText => "not a text"
  | notWhole => "not a whole number"
  | unreadableWhole => "not the text of a whole number"
  | fractional => "a number with a fraction"
  | infinite => "not a finite number"
  | beyondWords => "too large a number"
  | notTruth => "not a truth value"
  | unreadableTruth => "not the text of a truth value"
  | notList => "not a list"
  | notTable => "not a table"
  | tooSmall => "too small"
  | tooLarge => "too large"

end Mismatch

def SettingsProblem.message (p : SettingsProblem) : String :=
  ".".intercalate p.path ++ ": " ++ p.mismatch.text

namespace LoadError

def message : LoadError → String
  | access error => error.message
  | malformed path => "Invalid TOML in " ++ path.toString ++ ": not a TOML document"
  | notTable path => "Compiler configuration in " ++ path.toString ++ " must be a table"
  | rejected path problems =>
    "Invalid compiler configuration in " ++ path.toString ++ ":\n" ++
      "\n".intercalate (problems.map SettingsProblem.message)
  | abort reason => reason.message

end LoadError

namespace Datum

def sameKey (a b : Datum) : Bool :=
  match a, b with
  | .text s, .text t => s = t
  | .real m x, .real n y => x = y && (m = n || x = .finite 0 0)
  | a, b => match a.keyNumber?, b.keyNumber? with
    | some m, some n => m = n
    | _, _ => false

/-- The key and value that an item of a list is: two characters, two items or two keys. -/
def pair : Datum → Except Abort (Datum × Datum)
  | .text s => match s.toList with
    | [a, b] => .ok (.text a.toString, .text b.toString)
    | _ => .error .notPair
  | .list [.table _, _] | .list [.list _, _] => .error .notEntries
  | .list [key, value] => .ok (key, value)
  | .list _ => .error .notPair
  | .table [(a, _), (b, _)] => .ok (.text a, .text b)
  | .table _ => .error .notPair
  | _ => .error .notEntries

def pairs : Datum → Except Abort (List (Datum × Datum))
  | .table entries => .ok (entries.map fun (k, v) => (.text k, v))
  | .list items => items.mapM pair
  | .text "" => .ok []
  | .text _ => .error .notPair
  | _ => .error .notEntries

/-- Replaces the value of a key where it stands, or adds the key at the end. -/
def putPair (entries : List (Datum × Datum)) (entry : Datum × Datum) : List (Datum × Datum) :=
  if entries.any fun e => e.1.sameKey entry.1 then
    entries.map fun e => if e.1.sameKey entry.1 then (e.1, entry.2) else e
  else entries ++ [entry]

end Datum

namespace Settings

/-- The default methods of containers with further entries over them. -/
def overDefaults (entries : List (Datum × Datum)) : List (Datum × Datum) :=
  entries.foldl Datum.putPair
    (({} : Settings).containerMethods.map fun (k, v) => (.text k, .text v))

/-- What loading settings depends on: how values convert, and how many calls in one another are left
for reading a document. -/
structure Loader where
  conversions : Conversions := .lax
  room : Nat := 980

/-- The settings that a table of a file describes. Its methods of containers go over the default
ones, everything else replaces its default. -/
def ofTable (c : Conversions) (path : Path) (table : List (String × Datum)) :
    Except LoadError Settings := do
  let given := (Datum.find? "container_methods" table).getD (.table [])
  let methods ← (given.pairs.map overDefaults).mapError .abort
  match c.entries ["container_methods"] methods,
    ofEntries (table.filter (·.1 ≠ "container_methods")) c with
  | .ok methods, .ok settings => .ok { settings with containerMethods := methods }
  | .ok _, .error problems => .error (.rejected path problems)
  | .error problems, .ok _ => .error (.rejected path problems)
  | .error problems, .error more => .error (.rejected path (problems ++ more))

def settingsFile : String := "viewforge.toml"
def projectFile : String := "pyproject.toml"

def readDocument (l : Loader) (files : Files) (path : Path) : Except LoadError (List (String × Datum)) :=
  match files.readText path with
  | .error (.notText path) => .error (.abort (.notText path))
  | .error e => .error (.access e)
  | .ok text =>
    match Toml.Document.read text l.room with
    | .ok table => .ok table
    | .error .malformed => .error (.malformed path)
    | .error (.oversized e) => .error (.abort (.oversized (e := e)))

/-- The value that holds the settings: a project file has them among those of other tools. -/
def settingsValue (path : Path) (root : List (String × Datum)) : Except LoadError Datum :=
  if path.name = projectFile then
    match (Datum.find? "tool" root).getD (.table []) with
    | .table tools => .ok ((Datum.find? "viewforge" tools).getD (.table []))
    | _ => .error (.abort .noTable)
  else .ok ((Datum.find? "compiler" root).getD (.table []))

def load (files : Files) (path : Path) (l : Loader := {}) : Except LoadError Settings := do
  match ← settingsValue path (← readDocument l files path) with
  | .table table => ofTable l.conversions path table
  | _ => .error (.notTable path)

/-- Whether a value holds a name: as a key, an item or a part. -/
def mentions (name : String) : Datum → Except Abort Bool
  | .table entries => .ok (entries.any (·.1 = name))
  | .list items => .ok (items.any fun d => d.sameKey (.text name))
  | .text t => .ok ((t.splitOn name).length ≠ 1)
  | _ => .error .notEntries

/-- Whether a project file says anything about settings. One that is malformed does not. -/
def hasSettings (l : Loader) (files : Files) (path : Path) : Except LoadError Bool :=
  match readDocument l files path with
  | .error (.malformed _) => .ok false
  | .error e => .error e
  | .ok root =>
    (mentions "viewforge" ((Datum.find? "tool" root).getD (.table []))).mapError .abort

/-- The settings of the first directory that has some; the defaults if none has. -/
def firstOf (l : Loader) (files : Files) : List Path → Except LoadError Settings
  | [] => .ok {}
  | directory :: others => do
    let own := directory.child settingsFile
    let project := directory.child projectFile
    if files.isFile own then load files own l
    else if files.isFile project then
      if ← hasSettings l files project then load files project l else firstOf l files others
    else firstOf l files others

def discover (files : Files) (start : Path) (l : Loader := {}) : Except LoadError Settings :=
  firstOf l files (files.directories start)

end Settings
end ViewTree
