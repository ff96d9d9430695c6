import ViewTree.Number.Double
import ViewTree.Text.Quoted

/-!
Constants of embedded expressions and the bodies of string literals.
-/
namespace ViewTree.Embedded
open Text

/-- A constant. Texts are kept as code points, since an escape can name one that is no character by
itself; `marked` says whether the first literal of a text carries a `u`. -/
inductive Literal where
  | none
  | bool (value : Bool)
  | ellipsis
  | int (value : Nat)
  | float (value : Double)
  | imaginary (value : Double)
  | text (codes : List Nat) (marked : Bool)
  | bytes (values : List Nat)
deriving DecidableEq, Repr

/-- The letters in front of a string literal. -/
structure StringMarks where
  raw : Bool
  bytes : Bool
  format : Bool
  unicode : Bool
deriving DecidableEq, Repr

namespace StringMarks

def ofLetters (letters : List Char) : StringMarks where
  raw := letters.any fun c => c = 'r' || c = 'R'
  bytes := letters.any fun c => c = 'b' || c = 'B'
  format := letters.any fun c => c = 'f' || c = 'F'
  unicode := letters = ['u']

end StringMarks

/-- A string literal without its quotes; `offset` is where its body starts in the source. -/
structure StringLiteral where
  marks : StringMarks
  body : List Char
  offset : Nat
deriving DecidableEq, Repr

def isOctal (c : Char) : Bool := '0' ≤ c && c ≤ '7'

def isHexChar (c : Char) : Bool :=
  c.isDigit || ('a' ≤ c && c ≤ 'f') || ('A' ≤ c && c ≤ 'F')

/-- Exactly `count` hexadecimal digits. -/
def fixedHex? (count : Nat) (cs : List Char) : Option (Nat × List Char) :=
  let ds := cs.take count
  if ds.length = count && ds.all isHexChar then some (hexValue ds, cs.drop count) else none

def octalDigits (cs : List Char) : List Char := (cs.take 3).takeWhile isOctal

def octalValue (ds : List Char) : Nat := ds.foldl (fun n d => 8 * n + (d.toNat - 48)) 0

/-- The character that a one-letter escape stands for. -/
def simpleEscape? : Char → Option Nat
  | '\\' => some 92 | '\'' => some 39 | '"' => some 34
  | 'a' => some 7 | 'b' => some 8 | 'f' => some 12 | 'n' => some 10 | 'r' => some 13
  | 't' => some 9 | 'v' => some 11
  | _ => Option.none

/-- What an escape stands for: the code points, and how many characters behind the backslash it
takes. An escape without a meaning stands for itself. -/
def escape? (named : String → Option Nat) (cs : List Char) : Option (List Nat × Nat) :=
  match cs with
  | [] => some ([92], 0)
  | '\n' :: _ => some ([], 1)
  | c :: rest =>
    match simpleEscape? c with
    | some n => some ([n], 1)
    | Option.none =>
      if isOctal c then
        let ds := octalDigits cs
        some ([octalValue ds], ds.length)
      else match c with
        | 'x' => (fixedHex? 2 rest).map fun (n, _) => ([n], 3)
        | 'u' => (fixedHex? 4 rest).map fun (n, _) => ([n], 5)
        | 'U' => (fixedHex? 8 rest).bind fun (n, _) =>
            if n < 0x110000 then some ([n], 9) else Option.none
        | 'N' =>
          match rest with
          | '\x7b' :: more =>
            let name := more.takeWhile (· ≠ '\x7d')
            if name.length < more.length then
              (named (String.ofList name)).map fun n => ([n], name.length + 3)
            else Option.none
          | _ => Option.none
        | _ => some ([92, c.toNat], 1)

/-- The code points of a text body with its escapes replaced. -/
def decodeText? (named : String → Option Nat) : List Char → Option (List Nat)
  | [] => some []
  | '\\' :: cs =>
    match escape? named cs with
    | some (codes, n) => (decodeText? named (cs.drop n)).map (codes ++ ·)
    | Option.none => Option.none
  | c :: cs => (decodeText? named cs).map (c.toNat :: ·)
termination_by cs => cs.length
decreasing_by all_goals (simp only [List.length_cons, List.length_drop]; omega)

/-- What an escape stands for between the quotes of bytes. -/
def byteEscape? (cs : List Char) : Option (List Nat × Nat) :=
  match cs with
  | [] => Option.none
  | '\n' :: _ => some ([], 1)
  | c :: rest =>
    match simpleEscape? c with
    | some n => some ([n], 1)
    | Option.none =>
      if isOctal c then
        let ds := octalDigits cs
        some ([octalValue ds % 256], ds.length)
      else if c = 'x' then (fixedHex? 2 rest).map fun (n, _) => ([n], 3)
      else some ([92, c.toNat], 1)

def decodeBytes? : List Char → Option (List Nat)
  | [] => some []
  | '\\' :: cs =>
    match byteEscape? cs with
    | some (codes, n) => (decodeBytes? (cs.drop n)).map (codes ++ ·)
    | Option.none => Option.none
  | c :: cs => (decodeBytes? cs).map (c.toNat :: ·)
termination_by cs => cs.length
decreasing_by all_goals (simp only [List.length_cons, List.length_drop]; omega)

end ViewTree.Embedded
