import ViewTree.Datum
import ViewTree.Loop
import ViewTree.Text.Fields

/-!
Texts, numbers, dates and times of TOML documents. Line ends are line feeds. Dates and times are
checked, but what they say is not kept.
-/
namespace ViewTree.Toml

/-- What a text may have too many of: decimal digits of a whole number, or values in one another. -/
inductive Excess where
  | digits
  | nesting
deriving DecidableEq, Repr

/-- Why a text is no document, or cannot be read as one. -/
inductive Problem where
  | malformed
  | oversized (excess : Excess)
deriving DecidableEq, Repr

/-- Reads from the front of a text. -/
abbrev Reader := StateT (List Char) (Except Problem)

namespace Reader

def fail {α : Type} : Reader α := throw .malformed

/-- Takes the text if it comes next, and says whether it did. -/
def accept (text : String) : Reader Bool := do
  let cs ← get
  if text.toList.isPrefixOf cs then
    set (cs.drop text.length)
    pure true
  else pure false

def require (text : String) : Reader Unit := do
  if !(← accept text) then fail

def skip (ok : Char → Bool) : Reader Unit := modify (·.dropWhile ok)

/-- Takes what a scan finds at the front of the text. -/
def scanned {α : Type} (scan : List Char → Option (α × List Char)) : Reader (Option α) := do
  match scan (← get) with
  | some (found, rest) =>
    set rest
    pure (some found)
  | none => pure none

/-- Rounds of a step that takes a character each time it goes on. -/
def repeating {σ : Type} (step : σ → Reader (Option σ)) (s : σ) : Reader σ := do
  rounds fail step ((← get).length + 2) s

end Reader
open Reader

def isGap (c : Char) : Bool := c = ' ' || c = '\t'
def isGapOrLineEnd (c : Char) : Bool := isGap c || c = '\n'
def isControl (c : Char) : Bool := c.toNat < 32 || c.toNat = 127

/-- A character that may stand in a text as it is. -/
def isPlain (multiline : Bool) (c : Char) : Bool :=
  !isControl c || c = '\t' || (multiline && c = '\n')

def isHex (c : Char) : Bool :=
  c.isDigit || ('a' ≤ c && c ≤ 'f') || ('A' ≤ c && c ≤ 'F')

def digitValue (c : Char) : Nat :=
  if c.isDigit then c.toNat - 48 else if 'a' ≤ c then c.toNat - 87 else c.toNat - 55

def digitsValue (base : Nat) (ds : List Char) : Nat :=
  ds.foldl (fun n d => base * n + digitValue d) 0

/-- The character with a hexadecimal number of `width` digits. -/
def numbered (width : Nat) : Reader (List Char) := do
  let cs ← get
  let ds := cs.take width
  let n := digitsValue 16 ds
  if ds.length = width && ds.all isHex && (n < 0xd800 || (0xe000 ≤ n && n < 0x110000)) then
    set (cs.drop width)
    pure [Char.ofNat n]
  else fail

/-- What an escape behind its backslash stands for. In a text of several lines, a backslash at the
end of a line takes away all blanks up to the next other character. -/
def escape (multiline : Bool) : Reader (List Char) := do
  match ← get with
  | [] => fail
  | c :: cs =>
    if multiline && isGapOrLineEnd c then
      match (c :: cs).dropWhile isGap with
      | [] => set ([] : List Char); pure []
      | '\n' :: more => set (more.dropWhile isGapOrLineEnd); pure []
      | _ => fail
    else
      set cs
      match c with
      | 'b' => pure ['\x08']
      | 't' => pure ['\t']
      | 'n' => pure ['\n']
      | 'f' => pure ['\x0c']
      | 'r' => pure ['\r']
      | '"' => pure ['"']
      | '\\' => pure ['\\']
      | 'u' => numbered 4
      | 'U' => numbered 8
      | _ => fail

/-- One character or escape of a text behind those found, the last first; none at the closing
quotes. -/
def basicPiece (multiline : Bool) (found : List Char) : Reader (Option (List Char)) := do
  if ← accept (if multiline then "\"\"\"" else "\"") then pure none
  else match ← get with
    | [] => fail
    | '\\' :: cs =>
      set cs
      return some ((← escape multiline) ++ found)
    | c :: cs =>
      if isPlain multiline c then
        set cs
        pure (some (c :: found))
      else fail

/-- A text with escapes behind its opening quotes. -/
def basicText (multiline : Bool) : Reader String := do
  return String.ofList (← repeating (basicPiece multiline) []).reverse

def literalPiece (multiline : Bool) (found : List Char) : Reader (Option (List Char)) := do
  if ← accept (if multiline then "'''" else "'") then pure none
  else match ← get with
    | c :: cs =>
      if isPlain multiline c then
        set cs
        pure (some (c :: found))
      else fail
    | [] => fail

/-- A text without escapes behind its opening quotes. -/
def literalText (multiline : Bool) : Reader String := do
  return String.ofList (← repeating (literalPiece multiline) []).reverse

/-- A text of several lines: a line end right behind the opening quotes does not belong to it, and
up to two more quotes behind the closing ones do. -/
def longText (quote : String) (body : Reader String) : Reader String := do
  let _ ← accept "\n"
  let found ← body
  if ← accept (quote ++ quote) then pure (found ++ quote ++ quote)
  else if ← accept quote then pure (found ++ quote)
  else pure found

/-- A text of either kind, if one comes next. -/
def anyText? : Reader (Option String) := do
  if ← accept "\"\"\"" then some <$> longText "\"" (basicText true)
  else if ← accept "\"" then some <$> basicText false
  else if ← accept "'''" then some <$> longText "'" (literalText true)
  else if ← accept "'" then some <$> literalText false
  else pure none

/-- The digits of the class at the front, with at most one underscore before each, and the rest. -/
def moreDigits (ok : Char → Bool) : List Char → List Char × List Char
  | '_' :: c :: cs =>
    if ok c then ((c :: (moreDigits ok cs).1), (moreDigits ok cs).2) else ([], '_' :: c :: cs)
  | c :: cs =>
    if ok c then ((c :: (moreDigits ok cs).1), (moreDigits ok cs).2) else ([], c :: cs)
  | [] => ([], [])

/-- Digits without their underscores; the first one has none before it. -/
def digits? (ok : Char → Bool) : List Char → Option (List Char × List Char)
  | c :: cs => if ok c then some (c :: (moreDigits ok cs).1, (moreDigits ok cs).2) else none
  | [] => none

/-- A whole number in base 16, 8 or 2. -/
def basedNumber? (cs : List Char) : Option (Datum × List Char) :=
  let read (base : Nat) (ok : Char → Bool) (rest : List Char) : Option (Datum × List Char) :=
    (digits? ok rest).map fun (ds, rest) => (.whole (digitsValue base ds), rest)
  match cs with
  | '0' :: 'x' :: rest => read 16 isHex rest
  | '0' :: 'o' :: rest => read 8 (fun c => '0' ≤ c && c ≤ '7') rest
  | '0' :: 'b' :: rest => read 2 (fun c => c = '0' || c = '1') rest
  | _ => none

/-- The parts of a decimal number. -/
structure Decimal where
  negative : Bool
  whole : List Char
  fraction : Option (List Char)
  exponent : Option Int

/-- The digits behind a point, if there are some. -/
def fraction (cs : List Char) : Option (List Char) × List Char :=
  match cs with
  | '.' :: more =>
    match digits? Char.isDigit more with
    | some (ds, rest) => (some ds, rest)
    | none => (none, cs)
  | _ => (none, cs)

def exponent (cs : List Char) : Option Int × List Char :=
  match cs with
  | e :: more =>
    if e = 'e' || e = 'E' then
      let negative := more.head? = some '-'
      let body := if negative || more.head? = some '+' then more.drop 1 else more
      match digits? Char.isDigit body with
      | some (ds, rest) =>
        let n : Int := digitsValue 10 ds
        (some (if negative then -n else n), rest)
      | none => (none, cs)
    else (none, cs)
  | [] => (none, [])

def decimal? (cs : List Char) : Option (Decimal × List Char) := do
  let negative := cs.head? = some '-'
  let body := if negative || cs.head? = some '+' then cs.drop 1 else cs
  let (whole, rest) ← match body with
    | '0' :: rest => some (['0'], rest)
    | _ => digits? Char.isDigit body
  let (fraction, rest) := fraction rest
  let (exponent, rest) := exponent rest
  pure (⟨negative, whole, fraction, exponent⟩, rest)

/-- The most decimal digits that a whole number may be written with. -/
def maxDigits : Nat := 4300

def Decimal.value (d : Decimal) : Except Problem Datum :=
  if d.fraction.isNone && d.exponent.isNone then
    if maxDigits < d.whole.length then .error (.oversized .digits)
    else
      let n : Int := digitsValue 10 d.whole
      .ok (.whole (if d.negative then -n else n))
  else
    let behind := d.fraction.getD []
    .ok (.real d.negative (Double.ofDecimal (digitsValue 10 (d.whole ++ behind))
      (d.exponent.getD 0 - behind.length)))

def numberWord? : Reader (Option Datum) := do
  if (← accept "inf") || (← accept "+inf") then pure (some (.real false .infinite))
  else if ← accept "-inf" then pure (some (.real true .infinite))
  else if (← accept "nan") || (← accept "+nan") || (← accept "-nan") then
    pure (some .notANumber)
  else pure none

/-- So many digits that make a number in the range. -/
def field? (count low high : Nat) (cs : List Char) : Option (Nat × List Char) :=
  let ds := cs.take count
  let n := digitsValue 10 ds
  if ds.length = count && ds.all (·.isDigit) && low ≤ n && n ≤ high then
    some (n, cs.drop count)
  else none

def behind? (mark : Char) : List Char → Option (List Char)
  | c :: cs => if c = mark then some cs else none
  | [] => none

/-- What follows hours and minutes. -/
def afterMinutes? (cs : List Char) : Option (List Char) := do
  let (_, cs) ← field? 2 0 23 cs
  let (_, cs) ← field? 2 0 59 (← behind? ':' cs)
  pure cs

/-- What follows a time with seconds, and a fraction of them if there is one. -/
def afterTime? (cs : List Char) : Option (List Char) := do
  let (_, cs) ← field? 2 0 59 (← behind? ':' (← afterMinutes? cs))
  match cs with
  | '.' :: d :: more => pure (if d.isDigit then more.dropWhile (·.isDigit) else cs)
  | _ => pure cs

/-- What follows the distance from universal time, if there is one. -/
def afterOffset (cs : List Char) : List Char :=
  match cs with
  | 'Z' :: rest | 'z' :: rest => rest
  | '+' :: rest | '-' :: rest => (afterMinutes? rest).getD cs
  | _ => cs

/-- A day by its year, month and number. -/
structure Day where
  year : Nat
  month : Nat
  number : Nat

def isLeapYear (year : Nat) : Bool := year % 4 = 0 && (year % 100 ≠ 0 || year % 400 = 0)

def daysIn (year month : Nat) : Nat :=
  if month = 2 then (if isLeapYear year then 29 else 28)
  else if month = 4 || month = 6 || month = 9 || month = 11 then 30 else 31

def Day.exists (d : Day) : Bool := 1 ≤ d.year && d.number ≤ daysIn d.year d.month

def date? (cs : List Char) : Option (Day × List Char) := do
  let (year, cs) ← field? 4 0 9999 cs
  let (month, cs) ← field? 2 1 12 (← behind? '-' cs)
  let (number, cs) ← field? 2 1 31 (← behind? '-' cs)
  let rest := match cs with
    | c :: more =>
      if c = 'T' || c = 't' || c = ' ' then ((afterTime? more).map afterOffset).getD cs else cs
    | [] => []
  pure (⟨year, month, number⟩, rest)

def time? (cs : List Char) : Option (Unit × List Char) := (afterTime? cs).map ((), ·)

/-- A date, time or number. -/
def measure : Reader Datum := do
  if let some day ← scanned date? then
    if day.exists then return .moment else fail
  if (← scanned time?).isSome then return .moment
  if let some n ← scanned basedNumber? then return n
  if let some d ← scanned decimal? then
    match d.value with
    | .ok value => return value
    | .error problem => throw problem
  match ← numberWord? with
  | some n => pure n
  | none => fail

end ViewTree.Toml
