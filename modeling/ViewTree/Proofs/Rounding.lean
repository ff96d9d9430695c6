import Mathlib.Algebra.Order.Field.Power
import Mathlib.Algebra.Order.Floor.Semifield
import Mathlib.Data.Int.Log
import Mathlib.Data.Nat.Digits.Defs
import Mathlib.Data.Rat.Floor
import Mathlib.Tactic.FieldSimp
import Mathlib.Tactic.LinearCombination
import Mathlib.Tactic.Linarith
import Mathlib.Tactic.Positivity
import Mathlib.Tactic.Ring
import ViewTree.Number.Double

/-!
Decimals and the numbers in binary that they are read as. Main statements: a decimal is read as the
number nearest to the quotient that it is (`ofDecimal_eq`), what is read has all its digits or is
counted in units of the smallest number (`isRead_ofDecimal`), and the shortest decimal of such a number
is read as the number (`ofDecimal_shortest`): seventeen digits are always enough.
-/
namespace ViewTree.Double

/-- A quotient rounded to a whole number as `roundHalfEven` rounds it. -/
def roundEven (q : ℚ) : Nat :=
  let n := ⌊q⌋₊
  if 2 * (q - n) < 1 then n else if 1 < 2 * (q - n) then n + 1 else if n % 2 = 0 then n else n + 1

theorem roundHalfEven_eq (num : Nat) {den : Nat} (hden : 0 < den) :
    roundHalfEven num den = roundEven (num / den) := by
  have hpos : (0 : ℚ) < den := Nat.cast_pos.mpr hden
  have hfloor : ⌊(num / den : ℚ)⌋₊ = num / den := Nat.floor_div_eq_div num den
  have hsplit : (num : ℚ) = den * (num / den : Nat) + (num % den : Nat) := by
    exact_mod_cast (Nat.div_add_mod num den).symm
  have hrest : 2 * ((num / den : ℚ) - (num / den : Nat)) = (2 * (num % den) : Nat) / den := by
    have hquotient : (num / den : ℚ) * den = num := div_mul_cancel₀ _ hpos.ne'
    rw [eq_div_iff hpos.ne', Nat.cast_mul]
    push_cast
    linear_combination 2 * hquotient + 2 * hsplit
  unfold roundEven roundHalfEven
  dsimp only
  rw [hfloor, hrest]
  simp only [div_lt_one hpos, one_lt_div hpos, Nat.cast_lt]

theorem le_roundEven {q : ℚ} {n : Nat} (h : n ≤ q) : n ≤ roundEven q := by
  have hfloor : n ≤ ⌊q⌋₊ := Nat.le_floor h
  unfold roundEven
  dsimp only
  split_ifs <;> omega

theorem roundEven_le {q : ℚ} {n : Nat} (h : q ≤ n) : roundEven q ≤ n := by
  have hfloor : ⌊q⌋₊ ≤ n := Nat.floor_le_of_le h
  unfold roundEven
  dsimp only
  rcases hfloor.lt_or_eq with hless | heq
  · split_ifs <;> omega
  · rw [heq, if_pos (by linarith)]

theorem roundEven_eq {q : ℚ} {n : Nat} (h : |q - n| < 1 / 2) : roundEven q = n := by
  obtain ⟨hlow, hhigh⟩ := abs_lt.mp h
  unfold roundEven
  dsimp only
  by_cases hq : (n : ℚ) ≤ q
  · have hfloor : ⌊q⌋₊ = n := (Nat.floor_eq_iff (le_trans (Nat.cast_nonneg n) hq)).mpr ⟨hq, by linarith⟩
    rw [hfloor, if_pos (by linarith)]
  · cases n with
    | zero =>
      have hfloor : ⌊q⌋₊ = 0 := Nat.floor_of_nonpos (by push_cast at hq; linarith)
      rw [hfloor, if_pos (by linarith)]
    | succ n =>
      push_cast at hlow hhigh hq
      have hnonneg : (0 : ℚ) ≤ n := Nat.cast_nonneg n
      have hfloor : ⌊q⌋₊ = n := (Nat.floor_eq_iff (by linarith)).mpr ⟨by linarith, by linarith⟩
      rw [hfloor, if_neg (by linarith), if_pos (by linarith)]

/-- A rounded number: one digit too many moves into the scale. -/
def pack (digits : Nat) (scale : Int) : Double :=
  let (digits, scale) := if digits = twoTo 53 then (twoTo 52, scale + 1) else (digits, scale)
  if scale > 971 then infinite else if digits = 0 then finite 0 0 else finite digits scale

theorem pack_eq {digits : Nat} {scale : Int} (hpos : 0 < digits) (hdigits : digits < 2 ^ 53)
    (hscale : scale ≤ 971) : pack digits scale = finite digits scale := by
  have hcarry : digits ≠ twoTo 53 := fun h => absurd hdigits (h ▸ Nat.lt_irrefl _)
  unfold pack
  rw [if_neg hcarry]
  exact (if_neg (by omega)).trans (if_neg hpos.ne')

theorem pack_carry {scale : Int} (hscale : scale < 971) :
    pack (2 ^ 53) scale = finite (2 ^ 52) (scale + 1) := by
  unfold pack
  rw [if_pos (show 2 ^ 53 = twoTo 53 from rfl)]
  exact (if_neg (by omega)).trans (if_neg (by decide))

def scaleOf (q : ℚ) : Int := max (Int.log 2 q - 52) (-1074)

/-- The number nearest to a positive quotient, whichever numbers it is the quotient of. -/
def ofRat (q : ℚ) : Double := pack (roundEven (q / 2 ^ scaleOf q)) (scaleOf q)

section
variable {q : ℚ} {x : Int} (hq : 0 < q)
include hq

theorem zpow_le_iff : (2 : ℚ) ^ x ≤ q ↔ x ≤ Int.log 2 q := by
  exact_mod_cast Int.zpow_le_iff_le_log (by decide) hq

theorem lt_zpow_iff : q < 2 ^ x ↔ Int.log 2 q < x := by
  exact_mod_cast Int.lt_zpow_iff_log_lt (by decide) hq

theorem log_mul_zpow : Int.log 2 (q * 2 ^ x) = Int.log 2 q + x := by
  have hunit : (0 : ℚ) < 2 ^ x := by positivity
  have hlow : (2 : ℚ) ^ Int.log 2 q ≤ q := (zpow_le_iff hq).mpr (Int.le_refl _)
  have hhigh : q < 2 ^ (Int.log 2 q + 1) := (lt_zpow_iff hq).mpr (by omega)
  have hle : Int.log 2 q + x ≤ Int.log 2 (q * 2 ^ x) := by
    rw [← zpow_le_iff (by positivity), zpow_add₀ (by norm_num)]
    exact mul_le_mul_of_nonneg_right hlow hunit.le
  have hlt : Int.log 2 (q * 2 ^ x) < Int.log 2 q + 1 + x := by
    rw [← lt_zpow_iff (by positivity), zpow_add₀ (by norm_num)]
    exact mul_lt_mul_of_pos_right hhigh hunit
  omega

end

section
variable {num den : Nat} (hnum : 0 < num) (hden : 0 < den)
include hden

theorem scaleRatio_div (num : Nat) (power : Int) : 0 < (scaleRatio num den power).2 ∧
    ((scaleRatio num den power).1 / (scaleRatio num den power).2 : ℚ) = num / den * 2 ^ power := by
  have hpos : (0 : ℚ) < den := Nat.cast_pos.mpr hden
  unfold scaleRatio twoTo
  split
  · next hpower =>
    obtain ⟨p, rfl⟩ := Int.eq_ofNat_of_zero_le hpower
    refine ⟨hden, ?_⟩
    simp only [Int.toNat_natCast, Nat.pow_eq, Nat.cast_mul, Nat.cast_pow, Nat.cast_ofNat, zpow_natCast]
    ring
  · next hpower =>
    obtain ⟨p, rfl⟩ : ∃ p : Nat, power = -p := ⟨(-power).toNat, by omega⟩
    refine ⟨Nat.mul_pos hden (Nat.pow_pos (by decide)), ?_⟩
    simp only [neg_neg, Int.toNat_natCast, Nat.pow_eq, Nat.cast_mul, Nat.cast_pow, Nat.cast_ofNat, zpow_neg,
      zpow_natCast]
    field_simp

include hnum

theorem div_bounds : (2 : ℚ) ^ ((num.log2 : Int) - den.log2 - 1) < num / den ∧
    (num / den : ℚ) < 2 ^ ((num.log2 : Int) - den.log2 + 1) := by
  have hpos : (0 : ℚ) < den := Nat.cast_pos.mpr hden
  have hbounds {n : Nat} (hn : 0 < n) :
      (2 : ℚ) ^ (n.log2 : Int) ≤ n ∧ (n : ℚ) < 2 ^ ((n.log2 : Int) + 1) := by
    refine ⟨?_, ?_⟩
    · rw [zpow_natCast]
      exact_mod_cast Nat.log2_self_le hn.ne'
    · rw [show ((n.log2 : Int) + 1) = ((n.log2 + 1 : Nat) : Int) by push_cast; rfl, zpow_natCast]
      exact_mod_cast Nat.lt_log2_self
  obtain ⟨hnumLow, hnumHigh⟩ := hbounds hnum
  obtain ⟨hdenLow, hdenHigh⟩ := hbounds hden
  constructor
  · rw [lt_div_iff₀ hpos]
    calc (2 : ℚ) ^ ((num.log2 : Int) - den.log2 - 1) * den
        < 2 ^ ((num.log2 : Int) - den.log2 - 1) * 2 ^ ((den.log2 : Int) + 1) := by gcongr
      _ = 2 ^ (num.log2 : Int) := by
        rw [← zpow_add₀ (by norm_num)]
        congr 1
        ring
      _ ≤ num := hnumLow
  · rw [div_lt_iff₀ hpos]
    calc (num : ℚ) < 2 ^ ((num.log2 : Int) + 1) := hnumHigh
      _ = 2 ^ ((num.log2 : Int) - den.log2 + 1) * 2 ^ (den.log2 : Int) := by
        rw [← zpow_add₀ (by norm_num)]
        congr 1
        ring
      _ ≤ 2 ^ ((num.log2 : Int) - den.log2 + 1) * den := by gcongr

theorem log_div : Int.log 2 (num / den : ℚ) =
    if (num / den : ℚ) < 2 ^ ((num.log2 : Int) - den.log2) then (num.log2 : Int) - den.log2 - 1
    else (num.log2 : Int) - den.log2 := by
  have hpos : (0 : ℚ) < num / den := div_pos (Nat.cast_pos.mpr hnum) (Nat.cast_pos.mpr hden)
  obtain ⟨hlow, hhigh⟩ := div_bounds hnum hden
  have hlow := (zpow_le_iff hpos).mp hlow.le
  have hhigh := (lt_zpow_iff hpos).mp hhigh
  split
  · next h =>
    have := (lt_zpow_iff hpos).mp h
    omega
  · next h =>
    have := (zpow_le_iff hpos).mp (not_lt.mp h)
    omega

theorem ofRatio_eq : ofRatio num den = ofRat (num / den) := by
  obtain ⟨hlow, hdiv⟩ := scaleRatio_div hden num (-((num.log2 : Int) - den.log2 - 52))
  have htest : (scaleRatio num den (-((num.log2 : Int) - den.log2 - 52))).1 /
      (scaleRatio num den (-((num.log2 : Int) - den.log2 - 52))).2 < twoTo 52 ↔
      (num / den : ℚ) < 2 ^ ((num.log2 : Int) - den.log2) := by
    have hpower : ((twoTo 52 : Nat) : ℚ) * 2 ^ ((num.log2 : Int) - den.log2 - 52) =
        2 ^ ((num.log2 : Int) - den.log2) := by
      rw [show ((twoTo 52 : Nat) : ℚ) = 2 ^ (52 : Int) by norm_num [twoTo], ← zpow_add₀ (by norm_num)]
      congr 1
      ring
    rw [Nat.div_lt_iff_lt_mul hlow, ← Nat.cast_lt (α := ℚ), Nat.cast_mul,
      ← div_lt_iff₀ (Nat.cast_pos.mpr hlow), hdiv, zpow_neg, ← div_eq_mul_inv, div_lt_iff₀ (by positivity),
      hpower]
  -- the guess from the lengths of the numbers is the scale or one too large
  have hscale : (if (scaleRatio num den (-((num.log2 : Int) - den.log2 - 52))).1 /
      (scaleRatio num den (-((num.log2 : Int) - den.log2 - 52))).2 < twoTo 52
      then (num.log2 : Int) - den.log2 - 52 - 1 else (num.log2 : Int) - den.log2 - 52) =
      Int.log 2 (num / den : ℚ) - 52 := by
    rw [log_div hnum hden]
    by_cases h : (num / den : ℚ) < 2 ^ ((num.log2 : Int) - den.log2)
    · rw [if_pos h, if_pos (htest.mpr h)]
      ring
    · rw [if_neg h, if_neg (mt htest.mp h)]
  unfold ofRatio
  rw [if_neg (by simp [hnum.ne', hden.ne'])]
  dsimp only
  rw [hscale]
  obtain ⟨hexact, hdiv⟩ := scaleRatio_div hden num (-scaleOf (num / den))
  have hdigits := roundHalfEven_eq (scaleRatio num den (-scaleOf (num / den))).1 hexact
  rw [hdiv, zpow_neg, ← div_eq_mul_inv] at hdigits
  exact congrArg (pack · (scaleOf (num / den))) hdigits

end

theorem ofRat_of_le {q : ℚ} (h : 2 ^ (1024 : Int) ≤ q) : ofRat q = infinite := by
  have hlog : 1024 ≤ Int.log 2 q := (zpow_le_iff (lt_of_lt_of_le (by positivity) h)).mp h
  have hscale : 971 < scaleOf q := by
    unfold scaleOf
    omega
  unfold ofRat pack
  by_cases hcarry : roundEven (q / 2 ^ scaleOf q) = twoTo 53
  · rw [if_pos hcarry]
    exact if_pos (show (971 : Int) < scaleOf q + 1 by omega)
  · rw [if_neg hcarry]
    exact if_pos hscale

theorem ofRat_of_lt {q : ℚ} (hpos : 0 < q) (h : q < 2 ^ (-1076 : Int)) : ofRat q = finite 0 0 := by
  have hlog : Int.log 2 q < -1076 := (lt_zpow_iff hpos).mp h
  have hscale : scaleOf q = -1074 := by
    unfold scaleOf
    omega
  have hquarter : q / 2 ^ (-1074 : Int) < 1 / 2 := by
    rw [div_lt_iff₀ (by positivity)]
    calc q < 2 ^ (-1076 : Int) := h
      _ = 2 ^ (-2 : Int) * 2 ^ (-1074 : Int) := by rw [← zpow_add₀ (by norm_num)]; rfl
      _ < 1 / 2 * 2 ^ (-1074 : Int) := by gcongr; norm_num
  have hdigits : roundEven (q / 2 ^ scaleOf q) = 0 := by
    refine roundEven_eq ?_
    rw [hscale, Nat.cast_zero, sub_zero, abs_of_pos (by positivity)]
    exact hquarter
  rw [ofRat, hdigits, hscale]
  rfl

/-- A whole number lies between the powers of ten that its digits tell. -/
theorem toDigits_bounds {m : Nat} (hm : 0 < m) :
    (10 : ℚ) ^ (((Nat.toDigits 10 m).length : Int) - 1) ≤ m ∧
      (m : ℚ) < 10 ^ ((Nat.toDigits 10 m).length : Int) := by
  obtain ⟨k, hk⟩ : ∃ k, (Nat.toDigits 10 m).length = k + 1 :=
    Nat.exists_eq_add_one.mpr Nat.length_toDigits_pos
  have hle (n : Nat) (hn : 0 < n) : (Nat.toDigits 10 m).length ≤ n ↔ m < 10 ^ n :=
    Nat.length_toDigits_le_iff (by decide) hn
  have hhigh : m < 10 ^ (k + 1) := (hle (k + 1) (by omega)).mp hk.le
  have hlow : 10 ^ k ≤ m := by
    cases k with
    | zero => exact hm
    | succ k =>
      refine not_lt.mp fun hless => ?_
      have := (hle (k + 1) (by omega)).mpr hless
      omega
  rw [hk, Nat.cast_add, Nat.cast_one, add_sub_cancel_right, zpow_natCast, ← Nat.cast_one, ← Nat.cast_add,
    zpow_natCast]
  exact ⟨by exact_mod_cast hlow, by exact_mod_cast hhigh⟩

theorem ofDecimal_zero (e : Int) : ofDecimal 0 e = finite 0 0 := by
  unfold ofDecimal
  exact if_pos rfl

/-- A decimal is read as the number nearest to it, also where its power is not computed. -/
theorem ofDecimal_eq {m : Nat} (hm : 0 < m) (e : Int) : ofDecimal m e = ofRat (m * 10 ^ e) := by
  obtain ⟨hlow, hhigh⟩ := toDigits_bounds hm
  have hpos : (0 : ℚ) < m * 10 ^ e := mul_pos (Nat.cast_pos.mpr hm) (by positivity)
  unfold ofDecimal
  dsimp only
  rw [if_neg hm.ne']
  generalize ((Nat.toDigits 10 m).length : Int) = width at hlow hhigh ⊢
  split
  · next hlarge =>
    refine (ofRat_of_le ?_).symm
    calc (2 : ℚ) ^ (1024 : Int) = (2 ^ 16) ^ 64 := (zpow_ofNat _ 1024).trans (pow_mul _ 16 64)
      _ ≤ (10 ^ 5) ^ 64 := by gcongr; norm_num
      _ = 10 ^ (320 : Int) := (pow_mul _ 5 64).symm
      _ ≤ 10 ^ (width - 1 + e) := zpow_le_zpow_right₀ (by norm_num) (by omega)
      _ = 10 ^ (width - 1) * 10 ^ e := zpow_add₀ (by norm_num) _ _
      _ ≤ m * 10 ^ e := by gcongr
  split
  · next hsmall =>
    refine (ofRat_of_lt hpos ?_).symm
    calc (m * 10 ^ e : ℚ) < 10 ^ width * 10 ^ e := by gcongr
      _ = 10 ^ (width + e) := (zpow_add₀ (by norm_num) _ _).symm
      _ ≤ 10 ^ (-340 : Int) := zpow_le_zpow_right₀ (by norm_num) (by omega)
      _ = ((10 ^ 5) ^ 68)⁻¹ := congrArg (·⁻¹) (pow_mul _ 5 68)
      _ < ((2 ^ 16) ^ 68)⁻¹ := by gcongr; norm_num
      _ = 2 ^ (-1088 : Int) := (congrArg (·⁻¹) (pow_mul _ 16 68)).symm
      _ ≤ 2 ^ (-1076 : Int) := zpow_le_zpow_right₀ (by norm_num) (by norm_num)
  split
  · next hwhole =>
    obtain ⟨n, rfl⟩ := Int.eq_ofNat_of_zero_le hwhole
    have hpower : 0 < tenTo n := Nat.pow_pos (by decide)
    rw [Int.toNat_natCast, ofRatio_eq (Nat.mul_pos hm hpower) Nat.one_pos]
    simp [tenTo]
  · next hpart =>
    obtain ⟨n, rfl⟩ : ∃ n : Nat, e = -n := ⟨(-e).toNat, by omega⟩
    have hpower : 0 < tenTo n := Nat.pow_pos (by decide)
    rw [neg_neg, Int.toNat_natCast, ofRatio_eq hm hpower]
    simp [tenTo, div_eq_mul_inv]

theorem ofDecimal_mul (m k : Nat) (e : Int) : ofDecimal (m * 10 ^ k) e = ofDecimal m (e + k) := by
  rcases Nat.eq_zero_or_pos m with rfl | hm
  · rw [Nat.zero_mul, ofDecimal_zero, ofDecimal_zero]
  · rw [ofDecimal_eq (Nat.mul_pos hm (by positivity)), ofDecimal_eq hm, zpow_add₀ (by norm_num), zpow_natCast]
    push_cast
    ring_nf

/-- A number as decimals are read: with all its digits, or in units of the smallest number. -/
inductive IsRead : Double → Prop where
  | infinite : IsRead infinite
  | zero : IsRead (finite 0 0)
  | finite {digits : Nat} {scale : Int} (hpos : 0 < digits) (hdigits : digits < 2 ^ 53)
      (hmin : -1074 ≤ scale) (hmax : scale ≤ 971) (hfull : 2 ^ 52 ≤ digits ∨ scale = -1074) :
      IsRead (finite digits scale)

theorem isRead_pack {digits : Nat} {scale : Int} (hmin : -1074 ≤ scale) (hdigits : digits ≤ 2 ^ 53)
    (hfull : 2 ^ 52 ≤ digits ∨ scale = -1074) : IsRead (pack digits scale) := by
  unfold pack
  by_cases hcarry : digits = twoTo 53
  · rw [if_pos hcarry]
    dsimp only
    split
    · exact .infinite
    · exact .finite (by decide) (by decide) (by omega) (by omega) (.inl (by decide))
  · rw [if_neg hcarry]
    dsimp only
    split
    · exact .infinite
    split
    · exact .zero
    · exact .finite (by omega) (lt_of_le_of_ne hdigits hcarry) hmin (by omega) hfull

theorem isRead_ofRat {q : ℚ} (hq : 0 < q) : IsRead (ofRat q) := by
  have hunit : (0 : ℚ) < 2 ^ scaleOf q := by positivity
  refine isRead_pack (le_max_right _ _) (roundEven_le ?_) ?_
  · have hless : q < 2 ^ (53 + scaleOf q) := by
      rw [lt_zpow_iff hq]
      unfold scaleOf
      omega
    rw [zpow_add₀ (by norm_num)] at hless
    rw [div_le_iff₀ hunit]
    exact_mod_cast hless.le
  · by_cases hsmall : scaleOf q = -1074
    · exact .inr hsmall
    · have hle : (2 : ℚ) ^ (52 + scaleOf q) ≤ q := by
        rw [zpow_le_iff hq]
        unfold scaleOf at hsmall ⊢
        omega
      rw [zpow_add₀ (by norm_num)] at hle
      refine .inl (le_roundEven ?_)
      rw [le_div_iff₀ hunit]
      exact_mod_cast hle

theorem isRead_ofDecimal (m : Nat) (e : Int) : IsRead (ofDecimal m e) := by
  rcases Nat.eq_zero_or_pos m with rfl | hm
  · rw [ofDecimal_zero]
    exact .zero
  · rw [ofDecimal_eq hm]
    exact isRead_ofRat (mul_pos (Nat.cast_pos.mpr hm) (by positivity))

/-- A quotient so near to a number that no other number is nearer is read as that number. -/
theorem ofRat_eq {digits : Nat} {scale : Int} (hpos : 0 < digits) (hdigits : digits < 2 ^ 53)
    (hmin : -1074 ≤ scale) (hmax : scale ≤ 971) (hfull : 2 ^ 52 ≤ digits ∨ scale = -1074) {q : ℚ}
    (hnear : |q - digits * 2 ^ scale| < digits * 2 ^ scale / 2 ^ 54) : ofRat q = finite digits scale := by
  have hunit : (0 : ℚ) < 2 ^ scale := by positivity
  have hleast : (1 : ℚ) ≤ digits := by exact_mod_cast hpos
  have hmost : (digits : ℚ) + 1 ≤ 2 ^ 53 := by exact_mod_cast hdigits
  obtain ⟨p, rfl⟩ : ∃ p : ℚ, q = p * 2 ^ scale := ⟨q / 2 ^ scale, (div_mul_cancel₀ _ hunit.ne').symm⟩
  have hnear : |p - digits| < digits / 2 ^ 54 := by
    rw [← sub_mul, abs_mul, abs_of_pos hunit, mul_div_right_comm] at hnear
    exact lt_of_mul_lt_mul_right hnear hunit.le
  obtain ⟨hlow, hhigh⟩ := abs_lt.mp hnear
  have hp : 0 < p := by linarith
  have hlog : Int.log 2 (p * 2 ^ scale) = Int.log 2 p + scale := log_mul_zpow hp
  have hbelow : Int.log 2 p < 53 := (lt_zpow_iff hp).mp (by norm_num; linarith)
  by_cases hsame : (2 : ℚ) ^ (52 : Int) ≤ p ∨ scale = -1074
  · have hscale : scaleOf (p * 2 ^ scale) = scale := by
      unfold scaleOf
      rcases hsame with hlarge | rfl
      · have := (zpow_le_iff hp).mp hlarge
        omega
      · omega
    have hround : roundEven p = digits := roundEven_eq (abs_lt.mpr ⟨by linarith, by linarith⟩)
    rw [ofRat, hscale, mul_div_cancel_right₀ _ hunit.ne', hround, pack_eq hpos hdigits hmax]
  · -- just below a power of two the numbers lie closer together
    obtain ⟨hsmall, hother⟩ := not_or.mp hsame
    have hsmall : p < 2 ^ (52 : Int) := not_le.mp hsmall
    have hfull := hfull.resolve_right hother
    have hexact : digits = 2 ^ 52 := by
      refine le_antisymm (not_lt.mp fun hmore => ?_) hfull
      have hmore : (2 ^ 52 + 1 : ℚ) ≤ digits := by exact_mod_cast hmore
      norm_num at hsmall hlow
      linarith
    subst hexact
    have hscale : scaleOf (p * 2 ^ scale) = scale - 1 := by
      have hlarge : (2 : ℚ) ^ (51 : Int) ≤ p := by
        norm_num at hlow ⊢
        linarith
      have := (zpow_le_iff hp).mp hlarge
      have := (lt_zpow_iff hp).mp hsmall
      unfold scaleOf
      omega
    have hround : roundEven (p * 2) = 2 ^ 53 := by
      refine roundEven_eq (abs_lt.mpr ?_)
      norm_num at hlow hhigh hsmall ⊢
      exact ⟨by linarith, by linarith⟩
    have hquotient : p * 2 ^ scale / 2 ^ (scale - 1) = p * 2 := by
      rw [zpow_sub_one₀ (by norm_num)]
      field_simp
    rw [ofRat, hscale, hquotient, hround, pack_carry (by omega), sub_add_cancel]

/-- The guess for the leading digit of a power of two is not too high. -/
theorem tenTo_guess_le {x : Int} (hx : x ≤ 100000) :
    (10 : ℚ) ^ (x * 30103 / 100000 - 1) ≤ 2 ^ (x - 1) := by
  have hguess : x * 30103 / 100000 * 100000 ≤ 30103 * x := by omega
  have hlow : (2 : ℚ) ^ 100000 ≤ 10 ^ 30103 := by
    have h : 2 ^ 100000 ≤ 10 ^ 30103 := by decide +kernel
    exact_mod_cast h
  have hhigh : (10 : ℚ) ^ 30103 ≤ 2 ^ 100001 := by
    have h : 10 ^ 30103 ≤ 2 ^ 100001 := by decide +kernel
    exact_mod_cast h
  have hpowers : ((10 : ℚ) ^ (x * 30103 / 100000)) ^ 100000 ≤ (2 ^ (x + 1)) ^ 100000 := by
    calc ((10 : ℚ) ^ (x * 30103 / 100000)) ^ 100000 = 10 ^ (x * 30103 / 100000 * 100000) :=
          (zpow_mul _ _ (100000 : Nat)).symm
      _ ≤ 10 ^ (30103 * x) := zpow_le_zpow_right₀ (by norm_num) hguess
      _ = (10 ^ 30103) ^ x := zpow_mul (10 : ℚ) (30103 : Nat) x
      _ ≤ 2 ^ ((x + 1) * 100000) := by
        rcases le_total 0 x with hsign | hsign
        · calc ((10 : ℚ) ^ 30103) ^ x ≤ (2 ^ 100001) ^ x := zpow_le_zpow_left₀ hsign (by positivity) hhigh
            _ = 2 ^ (100001 * x) := (zpow_mul (2 : ℚ) (100001 : Nat) x).symm
            _ ≤ 2 ^ ((x + 1) * 100000) := zpow_le_zpow_right₀ (by norm_num) (by omega)
        · obtain ⟨y, rfl⟩ : ∃ y, x = -y := ⟨-x, (neg_neg x).symm⟩
          calc ((10 : ℚ) ^ 30103) ^ (-y) ≤ (2 ^ 100000) ^ (-y) := by
                rw [zpow_neg, zpow_neg]
                exact inv_anti₀ (by positivity) (zpow_le_zpow_left₀ (by omega) (by positivity) hlow)
            _ = 2 ^ (100000 * -y) := (zpow_mul (2 : ℚ) (100000 : Nat) (-y)).symm
            _ ≤ 2 ^ ((-y + 1) * 100000) := zpow_le_zpow_right₀ (by norm_num) (by omega)
      _ = (2 ^ (x + 1)) ^ 100000 := zpow_mul (2 : ℚ) (x + 1) (100000 : Nat)
  have hroot : (10 : ℚ) ^ (x * 30103 / 100000) ≤ 2 ^ (x + 1) :=
    le_of_pow_le_pow_left₀ (by decide) (by positivity) hpowers
  rw [zpow_sub_one₀ (by norm_num), zpow_sub_one₀ (by norm_num)]
  rw [zpow_add_one₀ (by norm_num)] at hroot
  linarith [show (0 : ℚ) < 2 ^ x by positivity]

/-- The leading digit is looked for where it is, or too low. -/
theorem leadingPower_le {num den : Nat} (hnum : 0 < num) (hden : 0 < den)
    (hlarge : (num.log2 : Int) - den.log2 ≤ 100000) : (10 : ℚ) ^ leadingPower num den ≤ num / den := by
  have hpos : (0 : ℚ) < den := Nat.cast_pos.mpr hden
  have hreaches {p : Int} (h : (if 0 ≤ p then decide (den * tenTo p.toNat ≤ num)
      else decide (den ≤ num * tenTo (-p).toNat)) = true) : (10 : ℚ) ^ p ≤ num / den := by
    rw [le_div_iff₀ hpos]
    split at h
    · next hp =>
      obtain ⟨n, rfl⟩ := Int.eq_ofNat_of_zero_le hp
      rw [zpow_natCast, mul_comm]
      exact_mod_cast of_decide_eq_true h
    · next hp =>
      obtain ⟨n, rfl⟩ : ∃ n : Nat, p = -n := ⟨(-p).toNat, by omega⟩
      have h := of_decide_eq_true h
      rw [neg_neg, Int.toNat_natCast] at h
      rw [zpow_neg, inv_mul_le_iff₀ (by positivity), zpow_natCast, mul_comm]
      exact_mod_cast h
  unfold leadingPower
  extract_lets guess reaches
  by_cases hfirst : reaches (guess + 1) = true
  · rw [if_pos hfirst]
    exact hreaches hfirst
  by_cases hsecond : reaches guess = true
  · rw [if_neg hfirst, if_pos hsecond]
    exact hreaches hsecond
  · rw [if_neg hfirst, if_neg hsecond]
    exact (tenTo_guess_le hlarge).trans (div_bounds hnum hden).1.le

/-- A quotient in units of a power of ten. -/
def inUnits (num den : Nat) (unit : Int) : Nat × Nat :=
  if 0 ≤ unit then (num, den * tenTo unit.toNat) else (num * tenTo (-unit).toNat, den)

theorem inUnits_div (num : Nat) {den : Nat} (hden : 0 < den) (unit : Int) :
    ((inUnits num den unit).1 / (inUnits num den unit).2 : ℚ) = num / den / 10 ^ unit := by
  have hpos : (0 : ℚ) < den := Nat.cast_pos.mpr hden
  unfold inUnits tenTo
  split
  · next hunit =>
    obtain ⟨p, rfl⟩ := Int.eq_ofNat_of_zero_le hunit
    simp only [Int.toNat_natCast, Nat.pow_eq, Nat.cast_mul, Nat.cast_pow, Nat.cast_ofNat, zpow_natCast]
    exact (div_div _ _ _).symm
  · next hunit =>
    obtain ⟨p, rfl⟩ : ∃ p : Nat, unit = -p := ⟨(-unit).toNat, by omega⟩
    simp only [neg_neg, Int.toNat_natCast, Nat.pow_eq, Nat.cast_mul, Nat.cast_pow, Nat.cast_ofNat, zpow_neg,
      zpow_natCast]
    field_simp

/-- Of the two decimals next to a number the nearer one that is read as the number. -/
def chooseDecimal? (value : Double) (n d : Nat) (unit : Int) : Option (Nat × Int) :=
  match decide (ofDecimal (n / d) unit = value), decide (ofDecimal (n / d + 1) unit = value) with
  | true, true => some (if 2 * (n % d) ≤ d then n / d else n / d + 1, unit)
  | true, false => some (n / d, unit)
  | false, true => some (n / d + 1, unit)
  | false, false => none

section
variable {value : Double} {num den m count : Nat} {power unit : Int}

theorem decimalWith?_eq : decimalWith? value num den power count =
    chooseDecimal? value (inUnits num den (power - count + 1)).1 (inUnits num den (power - count + 1)).2
      (power - count + 1) := rfl

theorem ofDecimal_of_decimalWith? (h : decimalWith? value num den power count = some (m, unit)) :
    ofDecimal m unit = value := by
  rw [decimalWith?_eq] at h
  unfold chooseDecimal? at h
  split at h
  · next hlow hhigh =>
    obtain ⟨rfl, rfl⟩ := Prod.mk.inj (Option.some.inj h)
    split
    · exact of_decide_eq_true hlow
    · exact of_decide_eq_true hhigh
  · next hlow _ =>
    obtain ⟨rfl, rfl⟩ := Prod.mk.inj (Option.some.inj h)
    exact of_decide_eq_true hlow
  · next _ hhigh =>
    obtain ⟨rfl, rfl⟩ := Prod.mk.inj (Option.some.inj h)
    exact of_decide_eq_true hhigh
  · cases h

theorem isSome_chooseDecimal? {n d : Nat}
    (h : ofDecimal (n / d) unit = value ∨ ofDecimal (n / d + 1) unit = value) :
    (chooseDecimal? value n d unit).isSome := by
  unfold chooseDecimal?
  rcases h with h | h
  · rw [decide_eq_true h]
    cases decide (ofDecimal (n / d + 1) unit = value) <;> rfl
  · rw [decide_eq_true h]
    cases decide (ofDecimal (n / d) unit = value) <;> rfl

end

/-- Of the decimals with seventeen digits one next to a number is nearer to it than any other number. -/
theorem exists_near {q u : ℚ} (hu : 0 < u) (hq : 10 ^ 16 * u ≤ q) :
    0 < ⌊q / u⌋₊ ∧ ∃ m, (m = ⌊q / u⌋₊ ∨ m = ⌊q / u⌋₊ + 1) ∧ |m * u - q| < q / 2 ^ 54 := by
  have hquotient : 10 ^ 16 ≤ q / u := (le_div_iff₀ hu).mpr hq
  have hlow : (⌊q / u⌋₊ : ℚ) * u ≤ q := (le_div_iff₀ hu).mp (Nat.floor_le (by linarith))
  have hhigh : q < (⌊q / u⌋₊ + 1) * u := (div_lt_iff₀ hu).mp (Nat.lt_floor_add_one _)
  refine ⟨Nat.floor_pos.mpr (by linarith), ?_⟩
  generalize ⌊q / u⌋₊ = m at hlow hhigh
  norm_num at hq
  rcases le_total (q - m * u) (u / 2) with hnear | hnear
  · exact ⟨m, .inl rfl, abs_lt.mpr ⟨by norm_num; linarith, by norm_num; linarith⟩⟩
  · refine ⟨m + 1, .inr rfl, abs_lt.mpr ⟨?_, ?_⟩⟩ <;> push_cast <;> norm_num <;> linarith

section
variable {digits num den : Nat} {scale : Int} (hpos : 0 < digits) (hdigits : digits < 2 ^ 53)
  (hmin : -1074 ≤ scale) (hmax : scale ≤ 971) (hnum : 0 < num) (hden : 0 < den)
  (hratio : (num / den : ℚ) = digits * 2 ^ scale)
include hdigits hmax hnum hden hratio

theorem log_le : (num.log2 : Int) - den.log2 ≤ 100000 := by
  have hless : (2 : ℚ) ^ ((num.log2 : Int) - den.log2 - 1) < 2 ^ (1024 : Int) := by
    calc (2 : ℚ) ^ ((num.log2 : Int) - den.log2 - 1) < num / den := (div_bounds hnum hden).1
      _ = digits * 2 ^ scale := hratio
      _ ≤ 2 ^ (53 : Int) * 2 ^ (971 : Int) := by
        gcongr
        · exact_mod_cast hdigits.le
        · norm_num
      _ = 2 ^ (1024 : Int) := (zpow_add₀ (by norm_num) _ _).symm
  have := (zpow_lt_zpow_iff_right₀ (by norm_num)).mp hless
  omega

include hpos hmin

/-- Seventeen digits are enough. -/
theorem isSome_decimalWith? (hfull : 2 ^ 52 ≤ digits ∨ scale = -1074) :
    (decimalWith? (finite digits scale) num den (leadingPower num den) 17).isSome := by
  have hlead := leadingPower_le hnum hden (log_le hdigits hmax hnum hden hratio)
  rw [decimalWith?_eq, show leadingPower num den - (17 : Nat) + 1 = leadingPower num den - 16 by omega]
  have hdiv := inUnits_div num hden (leadingPower num den - 16)
  have hu : (0 : ℚ) < 10 ^ (leadingPower num den - 16) := by positivity
  have hq : 10 ^ 16 * 10 ^ (leadingPower num den - 16) ≤ (num / den : ℚ) := by
    calc (10 : ℚ) ^ 16 * 10 ^ (leadingPower num den - 16) = 10 ^ leadingPower num den := by
          rw [← zpow_natCast, ← zpow_add₀ (by norm_num)]
          congr 1
          push_cast
          ring
      _ ≤ num / den := hlead
  obtain ⟨hfloor, m, hm, hnear⟩ := exists_near hu hq
  rw [← hdiv, Nat.floor_div_eq_div] at hfloor hm
  have hreads (hm : 0 < m) : ofDecimal m (leadingPower num den - 16) = finite digits scale := by
    rw [hratio] at hnear
    rw [ofDecimal_eq hm]
    exact ofRat_eq hpos hdigits hmin hmax hfull hnear
  refine isSome_chooseDecimal? (hm.imp ?_ ?_)
  · rintro rfl
    exact hreads hfloor
  · rintro rfl
    exact hreads (Nat.succ_pos _)

end

theorem ofDecimal_shortest {digits : Nat} {scale : Int} (h : IsRead (finite digits scale))
    (hpos : 0 < digits) :
    ofDecimal ((finite digits scale).shortest digits scale).1
      ((finite digits scale).shortest digits scale).2 = finite digits scale := by
  obtain ⟨hdigits, hmin, hmax, hfull⟩ : digits < 2 ^ 53 ∧ -1074 ≤ scale ∧ scale ≤ 971 ∧
      (2 ^ 52 ≤ digits ∨ scale = -1074) := by
    cases h with
    | zero => cases hpos
    | finite _ hdigits hmin hmax hfull => exact ⟨hdigits, hmin, hmax, hfull⟩
  obtain ⟨hden, hratio⟩ : 0 < (ratio digits scale).2 ∧ _ := scaleRatio_div Nat.one_pos digits scale
  rw [Nat.cast_one, div_one] at hratio
  have hnum : 0 < (ratio digits scale).1 := by
    refine Nat.pos_of_ne_zero fun hzero => ?_
    have hvalue : (0 : ℚ) < digits * 2 ^ scale := mul_pos (Nat.cast_pos.mpr hpos) (by positivity)
    rw [show (scaleRatio digits 1 scale).1 = 0 from hzero, Nat.cast_zero, zero_div] at hratio
    exact hvalue.ne hratio
  have hsome := isSome_decimalWith? hpos hdigits hmin hmax hnum hden hratio hfull
  unfold shortest
  dsimp only
  cases hfind : (List.range 17).findSome? fun k => decimalWith? (finite digits scale) (ratio digits scale).1
      (ratio digits scale).2 (leadingPower (ratio digits scale).1 (ratio digits scale).2) (k + 1) with
  | none =>
    rw [List.findSome?_eq_none_iff.mp hfind 16 (by decide)] at hsome
    cases hsome
  | some found =>
    obtain ⟨k, -, hk⟩ := List.exists_of_findSome?_eq_some hfind
    exact ofDecimal_of_decimalWith? hk

example : (ofDecimal 1 (-1)).render = "0.1" := by decide +kernel

end ViewTree.Double
