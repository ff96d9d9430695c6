import ViewTree.Text.Fields

/-!
Sets and maps of code points in a compact notation. A set is a list of hexadecimal ranges
(`41-5a b5 c0-d6`). A map is a list of runs: `61-7a>41` sends the range onto the characters from
`41` on, `100-12e/2>101` does so for every second character, and `df>73,73` sends one character to
two.
-/
namespace ViewTree.Text

/-- The value of hexadecimal digits, the most significant first. -/
def hexValue (cs : List Char) : Nat :=
  cs.foldl (fun n c =>
    16 * n + (if c.isDigit then c.toNat - 48 else if 'a' ≤ c then c.toNat - 87 else c.toNat - 55)) 0

abbrev CodeRanges := List (Nat × Nat)

def CodeRanges.contains (ranges : CodeRanges) (n : Nat) : Bool :=
  ranges.any fun (first, last) => first ≤ n && n ≤ last

def CodeRanges.read (written : List String) : CodeRanges :=
  (written.flatMap fun row => fields ' ' row.toList).map fun item =>
    match fields '-' item with
    | first :: last :: _ => (hexValue first, hexValue last)
    | first :: _ => (hexValue first, hexValue first)
    | [] => (1, 0)

/-- Every `step`-th code point from `first` to `last`, sent to the characters from `image` on. -/
structure CodeRun where
  first : Nat
  last : Nat
  step : Nat
  image : List Nat

/-- The image of `n` under a run that reaches it. -/
def CodeRun.image? (run : CodeRun) (n : Nat) : Option (List Nat) :=
  if run.first ≤ n && n ≤ run.last && (n - run.first) % run.step == 0 then
    match run.image with
    | [m] => some [m + (n - run.first)]
    | image => some image
  else none

abbrev CodeMap := List CodeRun

def CodeMap.image? (map : CodeMap) (n : Nat) : Option (List Nat) :=
  map.findSome? (·.image? n)

def CodeRun.read (item : List Char) : CodeRun :=
  match fields '>' item with
  | source :: target :: _ =>
    let image := (fields ',' target).map hexValue
    match fields '/' source with
    | range :: step :: _ => ofRange range (hexValue step) image
    | range :: _ => ofRange range 1 image
    | [] => ⟨1, 0, 1, image⟩
  | _ => ⟨1, 0, 1, []⟩
where
  ofRange (range : List Char) (step : Nat) (image : List Nat) : CodeRun :=
    match fields '-' range with
    | first :: last :: _ => ⟨hexValue first, hexValue last, step, image⟩
    | first :: _ => ⟨hexValue first, hexValue first, step, image⟩
    | [] => ⟨1, 0, step, image⟩

def CodeMap.read (written : List String) : CodeMap :=
  (written.flatMap fun row => fields ' ' row.toList).map CodeRun.read

end ViewTree.Text
