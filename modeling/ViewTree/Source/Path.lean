import ViewTree.Text.Fields

/-!
Paths with forward slashes. A path is its root, which is empty for a relative path, and its
segments; empty and single-dot segments are dropped when a path is read, double dots stay.
-/
namespace ViewTree

structure Path where
  root : String
  segments : List String
deriving DecidableEq, Repr

namespace Path
open Text

/-- Exactly two slashes in front are a root of their own; one, and three or more, are the same. -/
def rootOf : List Char → String
  | '/' :: '/' :: '/' :: _ => "/"
  | '/' :: '/' :: _ => "//"
  | '/' :: _ => "/"
  | _ => ""

def ofString (text : String) : Path where
  root := rootOf text.toList
  segments := ((fields '/' text.toList).filter fun s => s ≠ [] && s ≠ ['.']).map String.ofList

def toString (p : Path) : String :=
  if p.root = "" && p.segments.isEmpty then "." else p.root ++ "/".intercalate p.segments

/-- The last segment; empty for a root and for the current directory. -/
def name (p : Path) : String := p.segments.getLastD ""

def parent (p : Path) : Path := { p with segments := p.segments.dropLast }

def child (p : Path) (segment : String) : Path :=
  { p with segments := p.segments ++ [segment] }

/-- The segments from the root on, if the path is looked at from the directory with the segments
`here`: each pair of dots takes away the segment before it. -/
def resolve (here : List String) (p : Path) : List String :=
  p.segments.foldl (fun acc s => if s = ".." then acc.dropLast else acc ++ [s])
    (if p.root = "" then here else [])

end Path
end ViewTree
