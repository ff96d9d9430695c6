import ViewTree.Source.Path
import ViewTree.Text.Blank
import ViewTree.Text.Quoted

/-!
Files in folders, as far as a run of the program looks at them. Files are known by the segments of
their paths from the root on; a folder is there if it is stored, if something stored is in it, or if
it is the working directory or around it.
-/
namespace ViewTree

inductive Stored where
  | text (content : String)
  /-- Bytes that are no text. -/
  | binary
  | folder
deriving DecidableEq, Repr

structure Files where
  /-- The working directory. -/
  here : List String
  stored : List (List String × Stored)
deriving Repr

/-- What is at a path. -/
inductive Found where
  | file (content : Option String)
  | folder
  | missing
  /-- A file stands where the path needs a folder. -/
  | blocked
deriving DecidableEq, Repr

/-- Why a file cannot be read as a text. -/
inductive ReadError where
  | missing (path : Path)
  | folder (path : Path)
  | blocked (path : Path)
  | notText (path : Path)
deriving DecidableEq, Repr

def ReadError.message : ReadError → String
  | missing path => "[Errno 2] No such file or directory: " ++ quotedPath path
  | folder path => "[Errno 21] Is a directory: " ++ quotedPath path
  | blocked path => "[Errno 20] Not a directory: " ++ quotedPath path
  | notText path => "Not a text in UTF-8: " ++ quotedPath path
where
  quotedPath (path : Path) : String := Text.quoted (path.toString.toList.map Char.toNat)

namespace Files

def stored? (f : Files) (place : List String) : Option Stored :=
  (f.stored.find? fun s => s.1 = place).map (·.2)

/-- What is at a place, which is given from the root on. -/
def entry (f : Files) (place : List String) : Found :=
  match f.stored? place with
  | some (.text content) => .file (some content)
  | some .binary => .file none
  | some .folder => .folder
  | none =>
    if place.isPrefixOf f.here || f.stored.any fun s => place.isPrefixOf s.1 then .folder
    else .missing

/-- What is found on the way from a place along segments. -/
def walk (f : Files) (place : List String) : List String → Found
  | [] => f.entry place
  | s :: more =>
    match f.entry place with
    | .folder => f.walk (if s = ".." then place.dropLast else place ++ [s]) more
    | .file _ => .blocked
    | other => other

def find (f : Files) (p : Path) : Found := f.walk (if p.root = "" then f.here else []) p.segments

def isFile (f : Files) (p : Path) : Bool :=
  match f.find p with
  | .file _ => true
  | _ => false

def isFolder (f : Files) (p : Path) : Bool := f.find p = .folder

/-- The text of a file, in which every line end is a line feed. -/
def readText (f : Files) (p : Path) : Except ReadError String :=
  match f.find p with
  | .file (some content) => .ok (String.ofList (Text.unifyLineEnds content.toList))
  | .file none => .error (.notText p)
  | .folder => .error (.folder p)
  | .missing => .error (.missing p)
  | .blocked => .error (.blocked p)

/-- The files with a text at a place, whatever was there before. -/
def put (f : Files) (place : List String) (content : String) : Files :=
  { f with stored := (place, .text content) :: f.stored.filter (·.1 ≠ place) }

/-- The files with a folder at a place; none if a file is there. -/
def enter? (f : Files) (place : List String) : Option Files :=
  match f.entry place with
  | .folder => some f
  | .missing => some { f with stored := (place, .folder) :: f.stored }
  | _ => none

/-- The files with a folder at each place on the way from a place along segments. -/
def makeFolders? (f : Files) (place : List String) : List String → Option Files
  | [] => f.enter? place
  | s :: more => do
    let f ← f.enter? place
    f.makeFolders? (if s = ".." then place.dropLast else place ++ [s]) more

/-- The files with a text at a path; none if a folder is there, or a file where the path needs a
folder. Folders on the way are made. -/
def write? (f : Files) (p : Path) (content : String) : Option Files := do
  let after ← f.makeFolders? (if p.root = "" then f.here else []) p.parent.segments
  let place := p.resolve f.here
  if after.entry place = .folder then none else some (after.put place content)

/-- A place as a path: seen from the working directory if it is inside, else from the root. -/
def pathTo (f : Files) (place : List String) : Path :=
  if f.here.isPrefixOf place then ⟨"", place.drop f.here.length⟩ else ⟨"/", place⟩

/-- The directory that the path is or is in, then all directories around that. -/
def directories (f : Files) (start : Path) : List Path :=
  let directory := if f.isFolder start then start else start.parent
  let place := directory.resolve f.here
  directory :: ((List.range place.length).reverse.map fun n => f.pathTo (place.take n))

end Files
end ViewTree
