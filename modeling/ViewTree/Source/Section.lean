import ViewTree.Text.Letter
import ViewTree.Token

/-!
Cutting a view file into sections, one for each header at the start of a line, and the tokens of a
section into components. A section is read on its own, so an unclosed bracket or string stays
inside it. Main statement: the sections follow each other without gap from the start of the text to
its end.
-/
namespace ViewTree
open Text

inductive ComponentKind where
  | view | template
deriving DecidableEq, Repr

namespace ComponentKind

def word : ComponentKind → String
  | view => "view"
  | template => "template"

def ofToken? (k : TokenKind) : Option ComponentKind :=
  match k with
  | .view => some view
  | .template => some template
  | _ => none

end ComponentKind

/-- What a header declares. -/
structure Header where
  kind : ComponentKind
  name : String
deriving DecidableEq, Repr

namespace Header

/-- The text behind a word that stands in front. -/
def dropWord? (word : String) (cs : List Char) : Option (List Char) :=
  if word.toList.isPrefixOf cs then some (cs.drop word.length) else none

def isGap (c : Char) : Bool := c = ' ' || c = '\t'

/-- Behind the word of a header: a gap, a name, an opening bracket after another gap or none. -/
def nameOf? (cs : List Char) : Option String :=
  match cs.takeWhile isGap, cs.dropWhile isGap with
  | _ :: _, c :: rest =>
    if c.isAlpha || c = '_' then
      let tail := rest.takeWhile isWordChar
      match (rest.drop tail.length).dropWhile isGap with
      | b :: _ => if b = '(' || b = '\x7b' then some (String.ofList (c :: tail)) else none
      | [] => none
    else none
  | _, _ => none

/-- The header that the text starts with. -/
def read? (cs : List Char) : Option Header :=
  match dropWord? "view" cs with
  | some rest => (nameOf? rest).map (⟨.view, ·⟩)
  | none =>
    match dropWord? "template" cs with
    | some rest => (nameOf? rest).map (⟨.template, ·⟩)
    | none => none

/-- All headers with their offsets, in a text whose first character is at `offset`; `fresh` says
whether a line starts there. -/
def findFrom (offset : Nat) (fresh : Bool) : List Char → List (Nat × Header)
  | [] => []
  | c :: cs =>
    let later := findFrom (offset + 1) (c = '\n') cs
    match (if fresh then read? (c :: cs) else none) with
    | some header => (offset, header) :: later
    | none => later

end Header

/-- A part of a view file from one header up to the next. -/
structure Section where
  start : Nat
  stop : Nat
  header : Option Header
deriving DecidableEq, Repr

namespace Section

/-- Sections from the given starts, each up to the next one and the last up to `stop`. -/
def fromStarts (stop : Nat) : List (Nat × Option Header) → List Section
  | [] => []
  | [(start, header)] => [⟨start, stop, header⟩]
  | (start, header) :: (next, other) :: more =>
    ⟨start, next, header⟩ :: fromStarts stop ((next, other) :: more)

/-- The sections of a text; what stands before the first header is a section of its own. -/
def ofText (text : List Char) : List Section :=
  let headers := (Header.findFrom 0 true text).map fun (start, header) => (start, some header)
  fromStarts text.length <|
    match headers with
    | (0, header) :: more => (0, header) :: more
    | _ => (0, none) :: headers

/-- Whether sections follow each other without gap from `start` to `stop`. -/
def Chained (start stop : Nat) : List Section → Prop
  | [] => start = stop
  | s :: more => s.start = start ∧ Chained s.stop stop more

theorem chained_fromStarts (stop start : Nat) (header : Option Header)
    (more : List (Nat × Option Header)) :
    Chained start stop (fromStarts stop ((start, header) :: more)) := by
  induction more generalizing start header with
  | nil => simp [fromStarts, Chained]
  | cons entry more ih => simpa [fromStarts, Chained] using ih entry.1 entry.2

theorem chained_ofText (text : List Char) : Chained 0 text.length (ofText text) := by
  unfold ofText
  dsimp only
  split
  · exact chained_fromStarts _ _ _ _
  · exact chained_fromStarts _ _ _ _

end Section

/-- The tokens of one component and the name and kind that its first tokens give. -/
structure Chunk where
  tokens : Tokens

namespace Chunk

/-- State while tokens are cut: the chunks done and the open one, both the last first, and how many
brackets are open. -/
structure Cut where
  done : List (List Token) := []
  current : List Token := []
  depth : Nat := 0

def Cut.push (cut : Cut) (t : Token) : Cut :=
  let depth :=
    if t.kind.isOpening then cut.depth + 1
    else if t.kind.isClosing then cut.depth - 1
    else cut.depth
  if cut.depth = 0 && t.kind.startsComponent && !cut.current.isEmpty then
    ⟨cut.current.reverse :: cut.done, [t], depth⟩
  else ⟨cut.done, t :: cut.current, depth⟩

/-- One chunk for each `view` or `template` outside all brackets; each ends where the section
does. -/
def split (tokens : Tokens) : List Chunk :=
  let cut := tokens.items.foldl Cut.push {}
  let chunks := if cut.current.isEmpty then cut.done else cut.current.reverse :: cut.done
  chunks.reverse.map fun items => ⟨⟨items, tokens.eof⟩⟩

def kind? (c : Chunk) : Option ComponentKind :=
  c.tokens.items.head?.bind (ComponentKind.ofToken? ·.kind)

def name? (c : Chunk) : Option String :=
  match c.kind?, c.tokens.items with
  | some _, _ :: t :: _ => if t.kind = .identifier then some t.text else none
  | _, _ => none

end Chunk
end ViewTree
