import ViewTree.Datum
import ViewTree.Settings
import ViewTree.Text.Blank

/-!
Configuration values as what fields hold. How they convert is not settled here: settings are read with
any `Conversions`. The program runs with generous ones: a number may be written as a text or stand for
a truth value, but no text is made from anything else.
-/
namespace ViewTree
open Text

/-- What is wrong with a configuration value. -/
inductive Mismatch where
  | unknownKey
  | notText | notWhole | unreadableWhole | fractional | infinite | beyondWords
  | notTruth | unreadableTruth | notList | notTable
  | tooSmall | tooLarge
deriving DecidableEq, Repr

/-- A mismatch and the path to the value that has it. -/
structure SettingsProblem where
  path : List String
  mismatch : Mismatch
deriving DecidableEq, Repr

namespace Datum

def isText : Datum → Bool
  | .text _ => true
  | _ => false

/-- A value as the key of an entry is compared: equal numbers are one key. -/
def keyNumber? : Datum → Option Int
  | .truth b => some (if b then 1 else 0)
  | .whole n => some n
  | .real negative size => wholeOf? negative size
  | _ => none

/-- A key as paths write it. -/
def keyText : Datum → String
  | .text s => s
  | .real negative size => (if negative then "-" else "") ++ size.render
  | .notANumber => "nan"
  | d => (d.keyNumber?.map toString).getD "date"

end Datum

namespace Settings

/-- An entry of a table of texts as an entry of values. -/
def pairOf (e : String × String) : Datum × Datum := (.text e.1, .text e.2)

/-- How values become what fields hold: a text, a text or nothing, a whole number, a truth value,
texts, or texts by texts. Values with parts are reported with the paths to those that do not convert. -/
structure Conversions where
  text : Datum → Except Mismatch String
  textOrNone : Datum → Except Mismatch (Option String)
  whole : Datum → Except Mismatch Int
  truth : Datum → Except Mismatch Bool
  texts : List String → Datum → Except (List SettingsProblem) (List String)
  entries : List String → List (Datum × Datum) → Except (List SettingsProblem) Entries

namespace Conversions

/-- Texts by texts are taken as they are, and nothing else is; a value that does not convert is
reported. -/
structure Lawful (c : Conversions) : Prop where
  entries_eq_ok_iff : ∀ path found own, c.entries path found = .ok own ↔ found = own.map pairOf
  entries_ne_error_nil : ∀ path found, c.entries path found ≠ .error []
  texts_ne_error_nil : ∀ path d, c.texts path d ≠ .error []

/-- Digits in which single underscores may stand. -/
def digitsValue? : List Char → Option Nat
  | [] => none
  | cs =>
    let spaced := cs.head? = some '_' || cs.getLast? = some '_' ||
      (cs.zip cs.tail).any fun (a, b) => a = '_' && b = '_'
    let digits := cs.filter (· ≠ '_')
    if !spaced && digits.all (·.isDigit) then
      some (digits.foldl (fun n c => 10 * n + (c.toNat - 48)) 0)
    else none

/-- A whole number from its text: blanks around it, a sign, and zeros behind a point do not
matter. -/
def wholeOfText? (text : String) : Option Int :=
  let cs := trim text.toList
  let negative := cs.head? = some '-'
  let body := if negative || cs.head? = some '+' then cs.drop 1 else cs
  let digits := body.takeWhile (· ≠ '.')
  let behind := body.drop (digits.length + 1)
  if behind.all (· = '0') then
    (digitsValue? digits).map fun n => if negative then -(n : Int) else n
  else none

def isWord (n : Int) : Bool := -(Double.twoTo 63) ≤ n && n < Double.twoTo 63

def laxWhole (d : Datum) : Except Mismatch Int :=
  match d with
  | .whole n => .ok n
  | .truth b => .ok (if b then 1 else 0)
  | .text t => match wholeOfText? t with
    | some n => .ok n
    | none => .error .unreadableWhole
  | .real negative size =>
    match size with
    | .infinite => .error .infinite
    | _ => match Datum.wholeOf? negative size with
      | some n => if isWord n then .ok n else .error .beyondWords
      | none => .error .fractional
  | .notANumber => .error .infinite
  | .null | .moment | .list _ | .table _ => .error .notWhole

def trueWords : List String := ["1", "t", "y", "on", "yes", "true"]
def falseWords : List String := ["0", "f", "n", "no", "off", "false"]

def truthOfWhole (n : Int) : Except Mismatch Bool :=
  if n = 0 then .ok false else if n = 1 then .ok true else .error .unreadableTruth

def laxTruth (d : Datum) : Except Mismatch Bool :=
  match d with
  | .truth b => .ok b
  | .whole n => if isWord n then truthOfWhole n else .error .notTruth
  | .real negative size =>
    match (Datum.wholeOf? negative size).filter isWord with
    | some n => truthOfWhole n
    | none => .error .notTruth
  | .text t =>
    let word := String.ofList (t.toList.map Char.toLower)
    if trueWords.contains word then .ok true
    else if falseWords.contains word then .ok false
    else .error .unreadableTruth
  | _ => .error .notTruth

def laxText (d : Datum) : Except Mismatch String :=
  match d with
  | .text t => .ok t
  | _ => .error .notText

/-- What parts give if none of them is reported. -/
def orReport {α : Type} (problems : List SettingsProblem) (found : α) :
    Except (List SettingsProblem) α :=
  if problems.isEmpty then .ok found else .error problems

def textOf? : Datum → Option String
  | .text t => some t
  | _ => none

def laxTexts (path : List String) (d : Datum) : Except (List SettingsProblem) (List String) :=
  match d with
  | .list items =>
    orReport (items.zipIdx.flatMap fun (d, i) =>
      if d.isText then [] else [⟨path ++ [toString i], .notText⟩]) (items.filterMap textOf?)
  | _ => .error [⟨path, .notList⟩]

def entryOf? (entry : Datum × Datum) : Option (String × String) := do
  return (← textOf? entry.1, ← textOf? entry.2)

/-- The problems of an entry: its key and its value should be texts. -/
def entryProblems (path : List String) (entry : Datum × Datum) : List SettingsProblem :=
  let path := path ++ [entry.1.keyText]
  (if entry.1.isText then [] else [⟨path ++ ["[key]"], .notText⟩]) ++
    if entry.2.isText then [] else [⟨path, .notText⟩]

def laxEntries (path : List String) (found : List (Datum × Datum)) :
    Except (List SettingsProblem) Entries :=
  orReport (found.flatMap (entryProblems path)) (found.filterMap entryOf?)

def lax : Conversions where
  text := laxText
  textOrNone d := match d with
    | .null => .ok none
    | d => (laxText d).map some
  whole := laxWhole
  truth := laxTruth
  texts := laxTexts
  entries := laxEntries

end Conversions
end Settings
end ViewTree
