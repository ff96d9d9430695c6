import ViewTree.Text.Blank
import ViewTree.Text.Case
import ViewTree.Text.Identifier

/-!
Spellings of names: words joined by underscores, constants, dotted paths. Word boundaries look at
ASCII letters and digits only; the change of case covers every script.
-/
namespace ViewTree.Text

/-- A word starts at a capital behind a small letter or digit, and at the last capital of several
if a small letter follows. -/
def startsWord (before : Option Char) (c : Char) (after : List Char) : Bool :=
  c.isUpper && match before with
    | none => false
    | some b => b.isLower || b.isDigit || (b.isUpper && (after.head?.any (·.isLower)))

def underscoredFrom (before : Option Char) : List Char → List Char
  | [] => []
  | c :: cs =>
    if startsWord before c cs then '_' :: c :: underscoredFrom (some c) cs
    else c :: underscoredFrom (some c) cs

/-- `CounterWidgets` gives `counter_widgets`, `GLArea` gives `gl_area`. -/
def snakeCase (name : String) : String :=
  String.ofList (lowerText (underscoredFrom none name.toList))

def constantFrom (before : Option Char) : List Char → List Char
  | [] => []
  | c :: cs =>
    let gap := isUpper c && (before.any fun b => !isUpper b)
    (if gap then ['_'] else []) ++ upperChar c ++ constantFrom (some c) cs

/-- `SlideLeft` and `slide_left` both give `SLIDE_LEFT`: a text that is all capitals or holds an
underscore only changes case, any other one is cut before each capital. -/
def constantCase (kind : String) : String :=
  let cs := kind.toList
  String.ofList
    (if isUpperText cs || cs.contains '_' then upperText cs else constantFrom none cs)

def segments (path : String) : List String := (fields '.' path.toList).map String.ofList

def lastSegment (path : String) : String := (segments path).getLastD ""

/-- The path up to its last segment that starts with a capital: `Gtk.Label.new` gives `Gtk.Label`. -/
def typePath? (path : String) : Option String :=
  let kept := (segments path).reverse.dropWhile fun s => !(s.toList.head?.any isUpper)
  if kept.isEmpty then none else some (".".intercalate kept.reverse)

/-- The text without blanks around it, if that is an identifier. -/
def plainName? (text : String) : Option String :=
  let name := String.ofList (trim text.toList)
  if isIdentifier name then some name else none

/-- How many characters `connect_` takes at the start of a connection's name. -/
def connectionMark : String := "connect_"

/-- The signal of a connection: `connect_size_changed` gives `size-changed`. -/
def signalName (name : String) : String :=
  String.ofList ((name.toList.drop connectionMark.length).map fun c => if c = '_' then '-' else c)

end ViewTree.Text
