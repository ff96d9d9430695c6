import ViewTree.Text.Fields

/-!
Texts on a console. How they go out is not settled here: a run writes to any `Console`. The plain one
writes diagnostics for reading, with blanks up to the next stop for tabs and without characters that
move the cursor, and code without the sequences that colour a terminal.
-/
namespace ViewTree
open Text

/-- How texts go out: a diagnostic on rows of its own, and code. -/
structure Console where
  row : String → String
  code : String → String

namespace Console

/-- A row is never empty, for it ends a line; code in which no sequence starts that colours a terminal
goes out as it is. -/
structure Lawful (console : Console) : Prop where
  row_ne : ∀ text, console.row text ≠ ""
  code_eq : ∀ text, '\x1b' ∉ text.toList → console.code text = text

/-- Bell, backspace, vertical tab, form feed and carriage return. -/
def movesCursor (c : Char) : Bool :=
  let n := c.toNat
  n = 7 || n = 8 || n = 11 || n = 12 || n = 13

def tabWidth : Nat := 8

/-- A line from a column on, with blanks for its tabs. -/
def expandTabs (column : Nat) : List Char → List Char
  | [] => []
  | c :: cs =>
    if c = '\t' then
      let count := tabWidth - column % tabWidth
      List.replicate count ' ' ++ expandTabs (column + count) cs
    else c :: expandTabs (column + 1) cs

def plainRow (text : String) : String :=
  let shown := text.toList.filter (!movesCursor ·)
  String.ofList (joinFields '\n' ((fields '\n' shown).map (expandTabs 0))) ++ "\n"

/-- What follows a colour sequence behind its first two characters, if that is what they start. -/
def afterColour? (cs : List Char) : Option (List Char) :=
  match cs.dropWhile fun c => c.isDigit || c = ';' || c = '?' with
  | c :: rest => if c.isAlpha then some rest else none
  | [] => none

/-- The text without colour sequences; `count` bounds their number with that of the characters. -/
def uncoloured : (count : Nat) → List Char → List Char
  | 0, cs => cs
  | _, [] => []
  | count + 1, '\x1b' :: '[' :: cs =>
    match afterColour? cs with
    | some rest => uncoloured count rest
    | none => '\x1b' :: uncoloured count ('[' :: cs)
  | count + 1, c :: cs => c :: uncoloured count cs

def plain : Console where
  row := plainRow
  code text := String.ofList (uncoloured text.length text.toList)

end Console
end ViewTree
