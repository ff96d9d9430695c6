/-!
Non-negative numbers in binary with 53 digits, read from decimal notation and written with the
fewest decimal digits that read back. Everything is exact arithmetic on natural numbers.
-/
namespace ViewTree

/-- `digits · 2 ^ scale`, or a number beyond the largest of these. -/
inductive Double where
  | finite (digits : Nat) (scale : Int)
  | infinite
deriving DecidableEq, Repr

namespace Double

def twoTo (n : Nat) : Nat := Nat.pow 2 n
def tenTo (n : Nat) : Nat := Nat.pow 10 n

/-- `num / den` times a power of two, as a quotient. -/
def scaleRatio (num den : Nat) (power : Int) : Nat × Nat :=
  if 0 ≤ power then (num * twoTo power.toNat, den) else (num, den * twoTo (-power).toNat)

/-- The nearest whole number, the even one of two equally near. -/
def roundHalfEven (num den : Nat) : Nat :=
  let q := num / den
  let r := num % den
  if 2 * r < den then q
  else if den < 2 * r then q + 1
  else if q % 2 = 0 then q else q + 1

/-- The number nearest to a positive quotient. -/
def ofRatio (num den : Nat) : Double :=
  if num = 0 || den = 0 then finite 0 0
  else
    let guess : Int := (num.log2 : Int) - den.log2 - 52
    let low := scaleRatio num den (-guess)
    let scale := if low.1 / low.2 < twoTo 52 then guess - 1 else guess
    let scale := max scale (-1074)
    let exact := scaleRatio num den (-scale)
    let digits := roundHalfEven exact.1 exact.2
    let (digits, scale) := if digits = twoTo 53 then (twoTo 52, scale + 1) else (digits, scale)
    if scale > 971 then infinite else if digits = 0 then finite 0 0 else finite digits scale

/-- The number nearest to `digits · 10 ^ exponent`. Exponents far outside the range are decided
without computing the power. -/
def ofDecimal (digits : Nat) (exponent : Int) : Double :=
  let width : Int := (Nat.toDigits 10 digits).length
  if digits = 0 then finite 0 0
  else if width + exponent > 320 then infinite
  else if width + exponent < -340 then finite 0 0
  else if 0 ≤ exponent then ofRatio (digits * tenTo exponent.toNat) 1
  else ofRatio digits (tenTo (-exponent).toNat)

def ofNat (n : Nat) : Double := ofRatio n 1

/-- The value times `2 ^ 1074`, which is whole for every finite number. -/
def wholeUnits? : Double → Option Nat
  | finite digits scale => some (digits * twoTo (scale + 1074).toNat)
  | infinite => none

/-- The quotient that a finite number is. -/
def ratio (digits : Nat) (scale : Int) : Nat × Nat := scaleRatio digits 1 scale

/-- The power of ten of the leading decimal digit of a positive quotient, from a guess on. -/
def leadingPower (num den : Nat) : Int :=
  let guess : Int := ((num.log2 : Int) - den.log2) * 30103 / 100000
  let reaches (p : Int) : Bool :=
    if 0 ≤ p then den * tenTo p.toNat ≤ num else den ≤ num * tenTo (-p).toNat
  if reaches (guess + 1) then guess + 1 else if reaches guess then guess else guess - 1

/-- The decimal with `count` digits nearest to the number among those that read back as it, with
the power of ten of its last digit. -/
def decimalWith? (value : Double) (num den : Nat) (power : Int) (count : Nat) :
    Option (Nat × Int) :=
  let unit : Int := power - count + 1
  let (n, d) :=
    if 0 ≤ unit then (num, den * tenTo unit.toNat) else (num * tenTo (-unit).toNat, den)
  let low := n / d
  let reads (m : Nat) : Bool := ofDecimal m unit = value
  match reads low, reads (low + 1) with
  | true, true => some (if 2 * (n % d) ≤ d then low else low + 1, unit)
  | true, false => some (low, unit)
  | false, true => some (low + 1, unit)
  | false, false => none

/-- The fewest decimal digits that read back, with the power of ten of the last one. -/
def shortest (value : Double) (digits : Nat) (scale : Int) : Nat × Int :=
  let (num, den) := ratio digits scale
  let power := leadingPower num den
  ((List.range 17).findSome? fun k => decimalWith? value num den power (k + 1)).getD (0, 0)

/-- Digits without the zeros at their end, which move into the power. -/
def stripZeros : List Char → Int → List Char × Int
  | digits, power =>
    let kept := (digits.reverse.dropWhile (· = '0')).reverse
    (kept, power + (digits.length - kept.length))

/-- Decimal notation: positional from `0.0001` up to below `10 ^ 16`, else with an exponent of at
least two digits. `pointed` adds `.0` to a whole number. -/
def render (value : Double) (pointed : Bool := true) : String :=
  match value with
  | infinite => "inf"
  | finite digits scale =>
    if digits = 0 then (if pointed then "0.0" else "0")
    else
      let (m, unit) := value.shortest digits scale
      let (ds, unit) := stripZeros (Nat.toDigits 10 m) unit
      let lead : Int := unit + ds.length - 1
      let whole := if pointed then ".0" else ""
      if -4 ≤ lead && lead < 16 then
        if unit ≥ 0 then String.ofList (ds ++ List.replicate unit.toNat '0') ++ whole
        else if lead ≥ 0 then
          String.ofList (ds.take (lead.toNat + 1) ++ '.' :: ds.drop (lead.toNat + 1))
        else String.ofList ('0' :: '.' :: List.replicate (-lead - 1).toNat '0' ++ ds)
      else
        let mantissa := match ds with
          | d :: e :: more => d :: '.' :: e :: more
          | short => short
        let size := toString lead.natAbs
        String.ofList mantissa ++ "e" ++ (if lead < 0 then "-" else "+") ++
          (if size.length < 2 then "0" ++ size else size)

end Double
end ViewTree
