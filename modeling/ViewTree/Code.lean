import ViewTree.Text.Fields

/-!
Code as rows. A row is indented by levels, or taken over as it is when it goes on with a text that
began on an earlier row. Main statements: indenting rows and rendering them further in come to the
same, and code is rendered row by row.
-/
namespace ViewTree

inductive Row where
  | placed (level : Nat) (text : String)
  | verbatim (text : String)
deriving DecidableEq, Repr

namespace Row

def indent (levels : Nat) : Row → Row
  | placed level text => placed (level + levels) text
  | verbatim text => verbatim text

/-- The row at so many levels further in, with `width` blanks for a level. A row without text has
no blanks either, and there are no negative ones. -/
def render (width level : Int) : Row → String
  | placed own text =>
    if text = "" then "" else "".pushn ' ' (width * (own + level)).toNat ++ text
  | verbatim text => text

theorem render_indent (width level : Int) (levels : Nat) (row : Row) :
    (row.indent levels).render width level = row.render width (level + levels) := by
  cases row with
  | placed own text =>
    have h : ((own + levels : Nat) : Int) + level = own + (level + levels) := by omega
    simp only [indent, render, h]
  | verbatim text => rfl

end Row

abbrev Code := List Row

namespace Code

/-- A text on a row of its own. Where it has several lines, the first is placed and the others are
taken over. -/
def line (text : String) : Code :=
  match Text.lines text with
  | [] => []
  | first :: more => .placed 0 first :: more.map .verbatim

def indent (levels : Nat) (code : Code) : Code := code.map (Row.indent levels)

/-- A header and what stands under it. -/
def block (header : String) (body : Code) : Code := line header ++ body.indent 1

def render (width level : Int) (code : Code) : String :=
  "\n".intercalate (code.map (Row.render width level))

end Code

/-- Code that is written row by row at a current level. -/
structure CodeWriter where
  width : Int := 4
  level : Nat := 0
  rows : Code := []

namespace CodeWriter

def line (w : CodeWriter) (text : String) : CodeWriter :=
  { w with rows := w.rows ++ (Code.line text).indent w.level }

def enter (w : CodeWriter) (header : String) : CodeWriter :=
  { w.line header with level := w.level + 1 }

def leave (w : CodeWriter) : CodeWriter := { w with level := w.level - 1 }

/-- Takes over the rows of another writer at the current level. -/
def extend (w other : CodeWriter) : CodeWriter :=
  { w with rows := w.rows ++ other.rows.indent w.level }

def render (w : CodeWriter) (level : Int) : String := Code.render w.width level w.rows

end CodeWriter
end ViewTree
