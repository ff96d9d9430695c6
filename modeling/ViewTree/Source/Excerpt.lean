import ViewTree.Text.Fields

/-!
Places in a source and the excerpts shown with a problem: numbered lines around the place, with
carets under the offending characters.
-/
namespace ViewTree
open Text

/-- A position in a text; lines and columns start at one, offsets at zero. -/
structure Place where
  line : Nat
  column : Nat
deriving DecidableEq, Repr, Inhabited

/-- The elements from index `start` up to `stop`; a negative `stop` counts from the end. -/
def sliceTo {α : Type} (xs : List α) (start : Nat) (stop : Int) : List α :=
  let last := if stop < 0 then (stop + xs.length).toNat else stop.toNat
  (xs.take last).drop start

/-- The lines of `source` that are at most `reach` lines away from `line`. -/
def excerpt (source : String) (line : Int) (reach : Int := 2) : String :=
  let all := lines source
  let first := max 1 (line - reach)
  let last := min (all.length : Int) (line + reach)
  "\n".intercalate (sliceTo all (first - 1).toNat last)

/-- Where a problem is, and what is shown of the source there. -/
structure Site where
  file : String
  line : Int
  column : Int
  endLine : Option Int := none
  endColumn : Option Int := none
  excerpt : Option String := none
  component : Option String := none
deriving DecidableEq, Repr

/-- A text moved to the right end of `width` characters. -/
def padLeft (width : Nat) (text : String) : String :=
  String.ofList (List.replicate (width - text.length) ' ') ++ text

def repeatChar (c : Char) (n : Int) : String := String.ofList (List.replicate n.toNat c)

namespace Site

/-- The number of carets: the width of the offending span if it ends on the line it starts on. -/
def caretCount (s : Site) : Int :=
  match s.endLine, s.endColumn with
  | some line, some column => if line = s.line && column ≠ 0 then max 1 (column - s.column) else 3
  | _, _ => 3

/-- The rows of an excerpt: each line behind its number, and a row of carets under the line of the
problem. Excerpts start two lines above that line. -/
def rows (s : Site) (shown : List String) : List String :=
  (shown.zipIdx (max 1 (s.line - 2)).toNat).flatMap fun (text, number) =>
    let margin := padLeft 4 (toString number) ++ " | "
    let row := margin ++ text
    if (number : Int) = s.line then
      [row, repeatChar ' ' (margin.length + s.column - 1) ++ repeatChar '^' s.caretCount]
    else [row]

def render (s : Site) : String :=
  let place := s.file ++ ":" ++ toString s.line ++ ":" ++ toString s.column
  let place := match s.component with
    | some c => if c = "" then place else place ++ " in " ++ c
    | none => place
  match s.excerpt with
  | some shown =>
    if shown = "" then place else place ++ "\n" ++ "\n".intercalate (s.rows (lines shown))
  | none => place

end Site

/-- A message with the place it is about, if it is about one. -/
structure Report where
  message : String
  site : Option Site := none
deriving DecidableEq, Repr

/-- A report about a place, if file, line and column are known; zero is no line and no column. -/
def Report.ofPlace (message : String) (file : Option String) (line column : Option Int)
    (component : Option String) : Report :=
  match file, line, column with
  | some file, some line, some column =>
    ⟨message, if line = 0 || column = 0 then none else some { file, line, column, component }⟩
  | _, _, _ => ⟨message, none⟩

/-- The place and its excerpt, then the message. -/
def Report.render (r : Report) : String :=
  match r.site with
  | some s => s.render ++ "\n" ++ r.message
  | none => r.message

end ViewTree
