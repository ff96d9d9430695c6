/-!
Blank characters and line ends of every script, and texts without the blanks at their ends.
-/
namespace ViewTree.Text

/-- Spaces, tabs, line ends and separators. -/
def isBlank (c : Char) : Bool :=
  let n := c.toNat
  (9 ≤ n && n ≤ 13) || (28 ≤ n && n ≤ 32) || n == 0x85 || n == 0xa0 || n == 0x1680 ||
  (0x2000 ≤ n && n ≤ 0x200a) || n == 0x2028 || n == 0x2029 || n == 0x202f || n == 0x205f ||
  n == 0x3000

/-- The text without the blanks at its end. -/
def trimRight (cs : List Char) : List Char := (cs.reverse.dropWhile isBlank).reverse

/-- The text without the blanks at both ends. -/
def trim (cs : List Char) : List Char := trimRight (cs.dropWhile isBlank)

def isLineEnd (c : Char) : Bool :=
  let n := c.toNat
  (10 ≤ n && n ≤ 13) || (28 ≤ n && n ≤ 30) || n == 0x85 || n == 0x2028 || n == 0x2029

/-- The lines of running text after the characters `line` (the last first) of the current one. -/
def runningLinesFrom (line : List Char) : List Char → List (List Char)
  | [] => if line.isEmpty then [] else [line.reverse]
  | '\r' :: '\n' :: cs => line.reverse :: runningLinesFrom [] cs
  | c :: cs =>
    if isLineEnd c then line.reverse :: runningLinesFrom [] cs
    else runningLinesFrom (c :: line) cs

/-- The lines of running text, without their ends; a carriage return and a line feed together end
one line, and a text that stops at a line end has no empty line after it. -/
def runningLines (cs : List Char) : List (List Char) := runningLinesFrom [] cs

/-- A text with every carriage return, alone or before a line feed, read as a line feed. -/
def unifyLineEnds : List Char → List Char
  | [] => []
  | '\r' :: '\n' :: cs => '\n' :: unifyLineEnds cs
  | c :: cs => (if c = '\r' then '\n' else c) :: unifyLineEnds cs

end ViewTree.Text
