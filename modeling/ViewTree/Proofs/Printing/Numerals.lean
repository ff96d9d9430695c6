import ViewTree.Proofs.Printing.Tokens
import ViewTree.Proofs.Rounding

/-!
Numbers as they are printed: with a point, with an exponent, or with the mark of imaginary ones. Main
statements: such a text is one lexeme (`lexeme?_float`, `lexeme?_imaginary`), decimal notation is such a
text (`exists_numeral`), and a number that was read is read back from its notation
(`isNumberText_float`, `isNumberText_imaginary`).
-/
namespace ViewTree.Embedded
open Text

/-- What ends a number with a point or an exponent. -/
def endsFraction (c : Char) : Bool := !isWordByte c

/-- The text is read as the number. -/
structure IsNumberText (text : String) (value : Literal) : Prop where
  starts : StartsWith isWordByte text.toList
  scans : Scans endsFraction text.toList [.number value]

/-- A number as it is written: digits in front of a point and behind it, and a power of ten. -/
structure Numeral where
  whole : List Char
  fraction : List Char
  power : Option Int
  /-- Whether a power that is not negative has a sign too. -/
  signed : Bool

namespace Numeral

/-- A power with its sign, of two digits at least. -/
def powerChars (signed : Bool) (p : Int) : List Char :=
  let size := Nat.toDigits 10 p.natAbs
  let padded := if size.length < 2 then '0' :: size else size
  'e' :: if p < 0 then '-' :: padded else if signed then '+' :: padded else padded

def powerPart (n : Numeral) : List Char := n.power.elim [] (powerChars n.signed)

def chars (n : Numeral) : List Char :=
  n.whole ++ (if n.fraction.isEmpty then [] else '.' :: n.fraction) ++ n.powerPart

def value (n : Numeral) : Double :=
  .ofDecimal (decimalValue (n.whole ++ n.fraction)) (n.power.getD 0 - n.fraction.length)

structure IsWritten (n : Numeral) : Prop where
  nonempty : n.whole ≠ []
  whole : ∀ d ∈ n.whole, d.isDigit
  fraction : ∀ d ∈ n.fraction, d.isDigit
  /-- No number but zero starts with one. -/
  zero : n.whole.head? = some '0' → n.whole = ['0']

variable {n : Numeral}

/-- What may stand behind a number: the mark of imaginary ones, or what is no part of a word. -/
def EndsNumeral (c : Char) : Prop := c = 'j' ∨ isWordByte c = false

theorem EndsNumeral.isDigit {c : Char} (h : EndsNumeral c) : c.isDigit = false := by
  rcases h with rfl | h
  · rfl
  · exact isDigit_of_not_isWordByte h

theorem EndsNumeral.ne {c d : Char} (h : EndsNumeral c) (hd : isWordByte d) (hj : d ≠ 'j') : c ≠ d := by
  rcases h with rfl | h
  · exact hj.symm
  · exact ne_of_isWordByte h hd

theorem exponent?_digits {ds : List Char} {c : Char} (hds : ∀ d ∈ ds, d.isDigit) (hne : ds ≠ [])
    (hc : EndsNumeral c) (rest : List Char) :
    (∀ sign, sign = '-' ∨ sign = '+' → exponent? ('e' :: sign :: (ds ++ c :: rest)) =
        some (some (if sign = '-' then -(decimalValue ds : Int) else decimalValue ds, ds.length + 2))) ∧
      exponent? ('e' :: (ds ++ c :: rest)) = some (some ((decimalValue ds : Int), ds.length + 1)) := by
  obtain ⟨d, more, rfl⟩ := List.exists_cons_of_ne_nil hne
  have hd : d.isDigit := hds d List.mem_cons_self
  have hrun : digitRun? Char.isDigit (d :: more ++ c :: rest) = some (d :: more).length :=
    digitRun?_digits hds hc.isDigit (hc.ne (by decide) (by decide))
  have htake : (d :: more ++ c :: rest).take (d :: more).length = d :: more := List.take_left
  refine ⟨fun sign hsign => ?_, ?_⟩
  · have hmark : (some sign).filter (fun s => s = '+' || s = '-') = some sign := by
      rcases hsign with rfl | rfl <;> rfl
    unfold exponent?
    dsimp only
    rw [if_pos (by decide), List.head?_cons, hmark]
    rw [Option.isSome_some, if_pos rfl, List.drop_succ_cons, List.drop_zero, List.cons_append, List.head?_cons,
      Option.filter_some, if_pos hd, ← List.cons_append, hrun, Option.map_some, htake]
    rcases hsign with rfl | rfl <;> rfl
  · have hmark : (some d).filter (fun s => s = '+' || s = '-') = none := by
      have hplain : ¬(decide (d = '+') || decide (d = '-')) = true := by
        have hother {s : Char} (hs : s.isDigit = false) : d ≠ s := by
          rintro rfl
          simp [hd] at hs
        simp [hother (s := '+') rfl, hother (s := '-') rfl]
      rw [Option.filter_some, if_neg hplain]
    unfold exponent?
    dsimp only
    rw [if_pos (by decide), List.cons_append, List.head?_cons, hmark]
    rw [Option.isSome_none, if_neg (by decide), List.head?_cons, Option.filter_some, if_pos hd,
      ← List.cons_append, hrun, Option.map_some, htake]
    rfl

theorem exponent?_powerChars (signed : Bool) (p : Int) {c : Char} (hc : EndsNumeral c) (rest : List Char) :
    exponent? (powerChars signed p ++ c :: rest) = some (some (p, (powerChars signed p).length)) := by
  have hdigits : ∀ d ∈ Nat.toDigits 10 p.natAbs, d.isDigit := fun d hd =>
    Nat.isDigit_of_mem_toDigits (by decide) (by decide) hd
  -- a zero in front changes nothing
  have hpadded : ∃ ds, (if (Nat.toDigits 10 p.natAbs).length < 2 then '0' :: Nat.toDigits 10 p.natAbs
      else Nat.toDigits 10 p.natAbs) = ds ∧ (∀ d ∈ ds, d.isDigit) ∧ ds ≠ [] ∧ decimalValue ds = p.natAbs := by
    split
    · refine ⟨_, rfl, List.forall_mem_cons.mpr ⟨rfl, hdigits⟩, List.cons_ne_nil _ _, ?_⟩
      exact decimalValue_toDigits p.natAbs
    · exact ⟨_, rfl, hdigits, Nat.toDigits_ne_nil, decimalValue_toDigits _⟩
  obtain ⟨ds, hds, hall, hne, hvalue⟩ := hpadded
  obtain ⟨hsigned, hplain⟩ := exponent?_digits hall hne hc rest
  rw [hvalue] at hsigned hplain
  unfold powerChars
  dsimp only
  rw [hds]
  by_cases hsign : p < 0
  · rw [if_pos hsign]
    refine (hsigned '-' (.inl rfl)).trans ?_
    rw [if_pos rfl, show -(p.natAbs : Int) = p by omega]
    rfl
  rw [if_neg hsign]
  have hp : (p.natAbs : Int) = p := by omega
  rw [hp] at hsigned hplain
  cases signed with
  | true => exact hsigned '+' (.inr rfl)
  | false => exact hplain

theorem exponent?_powerPart (n : Numeral) {c : Char} (hc : EndsNumeral c) (rest : List Char) :
    exponent? (n.powerPart ++ c :: rest) = some (n.power.map fun p => (p, n.powerPart.length)) := by
  unfold powerPart
  cases n.power with
  | none =>
    have hmark : ¬(decide (c = 'e') || decide (c = 'E')) = true := by
      simp [hc.ne (d := 'e') (by decide) (by decide), hc.ne (d := 'E') (by decide) (by decide)]
    exact if_neg hmark
  | some p => exact exponent?_powerChars _ p hc rest

theorem exists_powerPart (n : Numeral) {c : Char} (hc : EndsNumeral c) (rest : List Char) :
    ∃ d more, n.powerPart ++ c :: rest = d :: more ∧ d.isDigit = false ∧ d ≠ '_' ∧
      (n.power = none → c ≠ '.' → d ≠ '.') ∧ (n.power ≠ none → d ≠ '.') := by
  unfold powerPart
  cases n.power with
  | none => exact ⟨c, rest, rfl, hc.isDigit, hc.ne (by decide) (by decide), fun _ h => h, fun h => absurd rfl h⟩
  | some p => exact ⟨'e', _, rfl, rfl, by decide, nofun, fun _ => by decide⟩

/-- A number from its fraction on; in front of the fraction stand `size` characters. -/
def fromFraction? (size : Nat) (whole fraction : List Char) (pointed : Bool) (rest : List Char) :
    Option (Literal × Nat) := do
  let exponent ← exponent? rest
  let (power, expLength) := exponent.getD (0, 0)
  let rest := rest.drop expLength
  let real := Double.ofDecimal (decimalValue (whole ++ fraction)) (power - (digitsOf fraction).length)
  let isFloat := pointed || exponent.isSome
  let body := size + (if pointed then fraction.length + 1 else 0) + expLength
  match rest with
  | j :: more =>
    if j = 'j' || j = 'J' then
      if endsNumber more then pure (.imaginary real, body + 1) else none
    else decimalNumber?.finish isFloat real whole rest body
  | [] => decimalNumber?.finish isFloat real whole rest body

theorem decimalNumber?_whole {whole rest : List Char} {d : Char} (hwhole : ∀ d ∈ whole, d.isDigit)
    (hdigit : d.isDigit = false) (hline : d ≠ '_') (hdot : d ≠ '.') :
    decimalNumber? (whole ++ d :: rest) = fromFraction? whole.length whole [] false (d :: rest) := by
  unfold decimalNumber?
  rw [digitRun?_digits hwhole hdigit hline]
  dsimp only [Option.bind_eq_bind, Option.bind_some]
  rw [List.take_left, List.drop_left]
  split
  · next heq => exact absurd (List.cons.inj heq).1 hdot
  · rfl

theorem decimalNumber?_fraction {whole fraction rest : List Char} {d : Char} (hwhole : ∀ d ∈ whole, d.isDigit)
    (hfraction : ∀ d ∈ fraction, d.isDigit) (hne : fraction ≠ []) (hdigit : d.isDigit = false) (hline : d ≠ '_') :
    decimalNumber? (whole ++ '.' :: (fraction ++ d :: rest)) =
      fromFraction? whole.length whole fraction true (d :: rest) := by
  obtain ⟨e, es, rfl⟩ := List.exists_cons_of_ne_nil hne
  have hrun : digitRun? Char.isDigit (e :: es ++ d :: rest) = some (e :: es).length :=
    digitRun?_digits hfraction hdigit hline
  unfold decimalNumber?
  rw [digitRun?_digits hwhole rfl (by decide)]
  dsimp only [Option.bind_eq_bind, Option.bind_some]
  rw [List.take_left, List.drop_left]
  let behind := e :: es ++ d :: rest
  have hhead : behind.head?.any (·.isDigit) = true := hfraction e List.mem_cons_self
  show (if behind.head?.any (·.isDigit) then
      (digitRun? Char.isDigit behind).bind fun n => fromFraction? whole.length whole (behind.take n) true
        (behind.drop n)
    else fromFraction? whole.length whole [] true behind) = _
  rw [if_pos hhead, hrun, Option.bind_some, List.take_left, List.drop_left]

theorem decimalNumber?_chars (h : n.IsWritten) {c : Char} (hc : EndsNumeral c)
    (hpoint : n.fraction = [] → n.power = none → c ≠ '.') (rest : List Char) :
    decimalNumber? (n.chars ++ c :: rest) =
      if c = 'j' then if endsNumber rest then some (.imaginary n.value, n.chars.length + 1) else none
      else decimalNumber?.finish (!n.fraction.isEmpty || n.power.isSome) n.value n.whole (c :: rest)
        n.chars.length := by
  obtain ⟨d, more, htail, hdigit, hline, hplain, hpower⟩ := n.exists_powerPart hc rest
  have hbehind : decimalNumber? (n.chars ++ c :: rest) =
      fromFraction? n.whole.length n.whole n.fraction (!n.fraction.isEmpty) (n.powerPart ++ c :: rest) := by
    rw [chars, List.append_assoc, List.append_assoc]
    show decimalNumber? (n.whole ++ (_ ++ (n.powerPart ++ c :: rest))) = _
    rw [htail]
    cases hfraction : n.fraction with
    | nil =>
      have hdot : d ≠ '.' := by
        by_cases hnone : n.power = none
        · exact hplain hnone (hpoint hfraction hnone)
        · exact hpower hnone
      exact decimalNumber?_whole h.whole hdigit hline hdot
    | cons e es =>
      have hdigits := h.fraction
      rw [hfraction] at hdigits
      exact decimalNumber?_fraction h.whole hdigits (List.cons_ne_nil e es) hdigit hline
  have hdrop : (n.powerPart ++ c :: rest).drop ((n.power.map fun p => (p, n.powerPart.length)).getD (0, 0)).2 =
      c :: rest := by
    unfold powerPart
    cases n.power with
    | none => rfl
    | some p => exact List.drop_left
  have hsize : n.whole.length + (if !n.fraction.isEmpty then n.fraction.length + 1 else 0) +
      ((n.power.map fun p => (p, n.powerPart.length)).getD (0, 0)).2 = n.chars.length := by
    rw [chars, List.length_append, List.length_append]
    unfold powerPart
    cases n.power <;> cases n.fraction <;> rfl
  have hvalue : Double.ofDecimal (decimalValue (n.whole ++ n.fraction))
      (((n.power.map fun p => (p, n.powerPart.length)).getD (0, 0)).1 - (digitsOf n.fraction).length) =
        n.value := by
    rw [digitsOf_digits h.fraction]
    unfold value
    cases n.power <;> rfl
  have hsome : (n.power.map fun p => (p, n.powerPart.length)).isSome = n.power.isSome := Option.isSome_map
  have hother : c ≠ 'J' := hc.ne (by decide) (by decide)
  rw [hbehind]
  unfold fromFraction?
  rw [exponent?_powerPart n hc rest]
  dsimp only [Option.bind_eq_bind, Option.bind_some]
  rw [hdrop, hsize, hvalue, hsome]
  simp [hother]

theorem number?_chars (h : n.IsWritten) {c : Char} (hc : EndsNumeral c) (rest : List Char) :
    number? (n.chars ++ c :: rest) = decimalNumber? (n.chars ++ c :: rest) := by
  obtain ⟨d, more, htail, -, -, -, -⟩ := n.exists_powerPart hc rest
  obtain ⟨w, ws, hwhole⟩ := List.exists_cons_of_ne_nil h.nonempty
  unfold number?
  split
  · next d more heq =>
    -- behind a zero stands no mark of another base
    have hzero : w = '0' := by
      have hhead := congrArg List.head? heq
      rw [chars, hwhole] at hhead
      exact Option.some.inj hhead
    subst hzero
    have hwhole : n.whole = ['0'] := h.zero (by rw [hwhole]; rfl)
    have hd : d = '.' ∨ d = 'e' ∨ EndsNumeral d := by
      rw [chars, hwhole, powerPart] at heq
      have hbehind := congrArg List.head? (List.cons.inj heq).2
      cases hfraction : n.fraction with
      | cons e es =>
        rw [hfraction] at hbehind
        exact .inl (Option.some.inj hbehind).symm
      | nil =>
        cases hpower : n.power with
        | none =>
          rw [hfraction, hpower] at hbehind
          obtain rfl : c = d := Option.some.inj hbehind
          exact .inr (.inr hc)
        | some p =>
          rw [hfraction, hpower] at hbehind
          exact .inr (.inl (Option.some.inj hbehind).symm)
    have hmark {m : Char} (hm : (isWordByte m && m ≠ '.' && m ≠ 'e' && m ≠ 'j') = true) : d ≠ m := by
      simp only [Bool.and_eq_true, decide_eq_true_eq] at hm
      obtain ⟨⟨⟨hword, hdot⟩, hpower⟩, hj⟩ := hm
      rcases hd with rfl | rfl | hd
      · exact hdot.symm
      · exact hpower.symm
      · exact hd.ne hword hj
    rw [if_neg (by simp [hmark (m := 'x') rfl, hmark (m := 'X') rfl]),
      if_neg (by simp [hmark (m := 'o') rfl, hmark (m := 'O') rfl]),
      if_neg (by simp [hmark (m := 'b') rfl, hmark (m := 'B') rfl])]
  · rfl

theorem lexeme?_chars (h : n.IsWritten) {c : Char} (hc : EndsNumeral c) (offset : Nat) (rest : List Char) :
    lexeme? offset (n.chars ++ c :: rest) =
      (decimalNumber? (n.chars ++ c :: rest)).map fun (l, size) => (.number l, size) := by
  have hnumber := number?_chars h hc rest
  obtain ⟨w, ws, hwhole⟩ := List.exists_cons_of_ne_nil h.nonempty
  have hw : w.isDigit := h.whole w (hwhole ▸ List.mem_cons_self)
  unfold chars at hnumber ⊢
  rw [hwhole] at hnumber ⊢
  unfold lexeme?
  dsimp only [List.cons_append] at hnumber ⊢
  rw [if_pos (by simp [hw]), hnumber]

/-- A number with a point or an exponent. -/
theorem lexeme?_float (h : n.IsWritten) (hfloat : n.fraction ≠ [] ∨ n.power.isSome) {c : Char}
    (hc : isWordByte c = false) (offset : Nat) (rest : List Char) :
    lexeme? offset (n.chars ++ c :: rest) = some (.number (.float n.value), n.chars.length) := by
  have hpoint : n.fraction = [] → n.power = none → c ≠ '.' := fun hnil hnone => by
    rw [hnil, hnone] at hfloat
    simp at hfloat
  have hfloat : (!n.fraction.isEmpty || n.power.isSome) = true := by
    simpa [List.isEmpty_iff] using hfloat
  rw [lexeme?_chars h (.inr hc), decimalNumber?_chars h (.inr hc) hpoint,
    if_neg (ne_of_isWordByte hc (by decide)), hfloat]
  unfold decimalNumber?.finish
  rw [if_neg (by simp [endsNumber, hc])]
  rfl

theorem lexeme?_imaginary (h : n.IsWritten) {c : Char} (hc : isWordByte c = false) (offset : Nat)
    (rest : List Char) : lexeme? offset (n.chars ++ 'j' :: c :: rest) =
      some (.number (.imaginary n.value), n.chars.length + 1) := by
  have hdot : 'j' ≠ '.' := by decide
  have hends : endsNumber (c :: rest) := by simp [endsNumber, hc]
  rw [lexeme?_chars h (.inl rfl), decimalNumber?_chars h (.inl rfl) fun _ _ => hdot, if_pos rfl, if_pos hends]
  rfl

theorem exists_chars (h : n.IsWritten) : ∃ d more, n.chars = d :: more ∧ d.isDigit := by
  obtain ⟨w, ws, hwhole⟩ := List.exists_cons_of_ne_nil h.nonempty
  have hchars : n.chars = w :: (ws ++ (if n.fraction.isEmpty then [] else '.' :: n.fraction) ++
      n.power.elim [] (powerChars n.signed)) := by
    rw [chars, hwhole]
    rfl
  exact ⟨w, _, hchars, h.whole w (hwhole ▸ List.mem_cons_self)⟩

theorem inline_of_digits {ds : List Char} (hds : ∀ d ∈ ds, d.isDigit) : '\n' ∉ ds := fun hmem =>
  absurd (hds _ hmem) (by decide)

theorem inline_chars (h : n.IsWritten) : '\n' ∉ n.chars := by
  have hpower (p : Int) : '\n' ∉ powerChars n.signed p := by
    have hdigits : '\n' ∉ Nat.toDigits 10 p.natAbs := inline_of_digits fun d hd =>
      Nat.isDigit_of_mem_toDigits (by decide) (by decide) hd
    unfold powerChars
    dsimp only
    split_ifs <;> simp [hdigits]
  have hwhole := inline_of_digits h.whole
  have hfraction := inline_of_digits h.fraction
  unfold chars powerPart
  cases n.power with
  | none => split_ifs <;> simp [hwhole, hfraction]
  | some p => split_ifs <;> simp [hwhole, hfraction, hpower]

end Numeral

theorem isNumberText_of_lexeme? {text : String} {value : Literal} {d : Char} {more : List Char}
    (htext : text.toList = d :: more) (hd : d.isDigit) (hline : '\n' ∉ more)
    (h : ∀ offset c rest, isWordByte c = false →
      lexeme? offset (d :: more ++ c :: rest) = some (.number value, more.length + 1)) :
    IsNumberText text value := by
  have hword : isWordByte d := by simp [isWordByte, Char.isAlphanum, hd]
  refine ⟨?_, ?_⟩
  · rw [htext]
    exact hword
  · rw [htext]
    refine scans_lexeme (startsLexeme_of_isWordByte hword) rfl hline fun offset c rest hc => ?_
    exact ⟨_, h offset c rest (by simpa [endsFraction] using hc), rfl⟩

namespace Numeral
variable {n : Numeral}

theorem IsWritten.float (h : n.IsWritten) (hfloat : n.fraction ≠ [] ∨ n.power.isSome) {text : String}
    (htext : text.toList = n.chars) : IsNumberText text (.float n.value) := by
  obtain ⟨d, more, hchars, hd⟩ := n.exists_chars h
  have hline := inline_chars h
  rw [hchars] at hline
  refine isNumberText_of_lexeme? (htext.trans hchars) hd (fun hmem => hline (List.mem_cons_of_mem d hmem))
    fun offset c rest hc => ?_
  have hlexeme := lexeme?_float h hfloat hc offset rest
  rwa [hchars] at hlexeme

theorem IsWritten.imaginary (h : n.IsWritten) {text : String} (htext : text.toList = n.chars) :
    IsNumberText (text ++ "j") (.imaginary n.value) := by
  obtain ⟨d, more, hchars, hd⟩ := n.exists_chars h
  have htext : (text ++ "j").toList = d :: (more ++ ['j']) := by
    rw [String.toList_append, htext, hchars]
    rfl
  have hline := inline_chars h
  rw [hchars, List.mem_cons, not_or] at hline
  refine isNumberText_of_lexeme? htext hd (by simp [hline.2]) fun offset c rest hc => ?_
  have hlexeme := lexeme?_imaginary h hc offset rest
  rw [hchars] at hlexeme
  simpa using hlexeme

end Numeral

theorem decimalValue_append_zeros (ds : List Char) (k : Nat) :
    decimalValue (ds ++ List.replicate k '0') = decimalValue ds * 10 ^ k := by
  induction k with
  | zero => simp
  | succ k ih =>
    rw [List.replicate_succ', ← List.append_assoc]
    unfold decimalValue digitsOf at ih ⊢
    rw [List.filter_append, List.foldl_append, ih]
    show 10 * _ + 0 = _
    ring

theorem decimalValue_zeros_append (ds : List Char) (k : Nat) :
    decimalValue (List.replicate k '0' ++ ds) = decimalValue ds := by
  induction k with
  | zero => rfl
  | succ k ih => exact ih

/-- The digits that a number is printed with: zeros at their end go into the power. -/
theorem exists_stripZeros {m : Nat} (hm : 0 < m) (unit : Int) :
    ∃ (ds : List Char) (k : Nat), Double.stripZeros (Nat.toDigits 10 m) unit = (ds, unit + k) ∧
      (∀ d ∈ ds, d.isDigit) ∧ ds.head? ≠ some '0' ∧ ds ≠ [] ∧ m = decimalValue ds * 10 ^ k := by
  have hdigits : ∀ d ∈ Nat.toDigits 10 m, d.isDigit := fun d hd =>
    Nat.isDigit_of_mem_toDigits (by decide) (by decide) hd
  have hhead := head_of_toDigits hm
  have hvalue := decimalValue_toDigits m
  generalize Nat.toDigits 10 m = all at hdigits hhead hvalue ⊢
  have hstrip : Double.stripZeros all unit = ((all.reverse.dropWhile (· = '0')).reverse,
      unit + (all.length - (all.reverse.dropWhile (· = '0')).reverse.length)) := rfl
  obtain ⟨k, hsplit⟩ : ∃ k, (all.reverse.dropWhile (· = '0')).reverse ++ List.replicate k '0' = all := by
    refine ⟨(all.reverse.takeWhile (· = '0')).length, ?_⟩
    have hzeros : all.reverse.takeWhile (· = '0') =
        List.replicate (all.reverse.takeWhile (· = '0')).length '0' :=
      List.eq_replicate_iff.mpr ⟨rfl, fun d hd => by simpa using List.mem_takeWhile_imp hd⟩
    have hsplit := congrArg List.reverse (List.takeWhile_append_dropWhile (p := (· = '0')) (l := all.reverse))
    rwa [List.reverse_append, List.reverse_reverse, hzeros, List.reverse_replicate] at hsplit
  generalize (all.reverse.dropWhile (· = '0')).reverse = kept at hsplit hstrip
  subst hsplit
  rw [decimalValue_append_zeros] at hvalue
  have hne : kept ≠ [] := by
    rintro rfl
    rw [show decimalValue [] = 0 from rfl, Nat.zero_mul] at hvalue
    omega
  refine ⟨kept, k, ?_, fun d hd => hdigits d (List.mem_append_left _ hd), ?_, hne, hvalue.symm⟩
  · rw [hstrip, List.length_append, List.length_replicate, Nat.cast_add, add_sub_cancel_left]
  · rwa [List.head?_append_of_ne_nil _ hne] at hhead

/-- What is read back as a number. -/
structure Numeral.Writes (n : Numeral) (x : Double) (pointed : Bool) : Prop where
  written : n.IsWritten
  value : n.value = x
  isFloat : pointed → n.fraction ≠ [] ∨ n.power.isSome

/-- Decimal notation of a number with these digits, which count units of a power of ten. -/
def decimalText (ds : List Char) (unit : Int) (pointed : Bool) : String :=
  let lead : Int := unit + ds.length - 1
  let whole := if pointed then ".0" else ""
  if -4 ≤ lead && lead < 16 then
    if unit ≥ 0 then String.ofList (ds ++ List.replicate unit.toNat '0') ++ whole
    else if lead ≥ 0 then
      String.ofList (ds.take (lead.toNat + 1) ++ '.' :: ds.drop (lead.toNat + 1))
    else String.ofList ('0' :: '.' :: List.replicate (-lead - 1).toNat '0' ++ ds)
  else
    let mantissa := match ds with
      | d :: e :: more => d :: '.' :: e :: more
      | short => short
    let size := toString lead.natAbs
    String.ofList mantissa ++ "e" ++ (if lead < 0 then "-" else "+") ++
      (if size.length < 2 then "0" ++ size else size)

/-- Digits with a power of ten are written so that they are read back. -/
theorem exists_numeral_digits {ds : List Char} (hdigits : ∀ d ∈ ds, d.isDigit) (hne : ds ≠ [])
    (hhead : ds.head? ≠ some '0') (unit : Int) (pointed : Bool) :
    ∃ n : Numeral, n.Writes (.ofDecimal (decimalValue ds) unit) pointed ∧
      (decimalText ds unit pointed).toList = n.chars := by
  have hlength : 0 < ds.length := List.length_pos_iff.mpr hne
  have hzeros (k : Nat) : ∀ d ∈ List.replicate k '0', d.isDigit := fun d hd => by
    rw [List.eq_of_mem_replicate hd]
    rfl
  unfold decimalText
  dsimp only
  split
  · split
    · next hunit =>
      obtain ⟨k, rfl⟩ := Int.eq_ofNat_of_zero_le hunit
      have hwhole : ∀ d ∈ ds ++ List.replicate k '0', d.isDigit := fun d hd =>
        (List.mem_append.mp hd).elim (hdigits d) (hzeros k d)
      have hfirst : (ds ++ List.replicate k '0').head? ≠ some '0' := by
        rwa [List.head?_append_of_ne_nil _ hne]
      cases pointed with
      | false =>
        refine ⟨⟨ds ++ List.replicate k '0', [], none, true⟩,
          ⟨⟨by simp [hne], hwhole, nofun, fun h => absurd h hfirst⟩, ?_, nofun⟩, ?_⟩
        · show Double.ofDecimal (decimalValue (ds ++ List.replicate k '0' ++ [])) (0 - 0) = _
          rw [List.append_nil, decimalValue_append_zeros, Double.ofDecimal_mul]
          congr 1
          omega
        · simp [Numeral.chars, Numeral.powerPart]
      | true =>
        refine ⟨⟨ds ++ List.replicate k '0', ['0'], none, true⟩,
          ⟨⟨by simp [hne], hwhole, by simp, fun h => absurd h hfirst⟩, ?_, fun _ => .inl (by simp)⟩, ?_⟩
        · show Double.ofDecimal (decimalValue (ds ++ List.replicate k '0' ++ ['0'])) (0 - 1) = _
          have hmore : ds ++ List.replicate k '0' ++ ['0'] = ds ++ List.replicate (k + 1) '0' := by
            rw [List.replicate_succ', List.append_assoc]
          rw [hmore, decimalValue_append_zeros, Double.ofDecimal_mul]
          congr 1
          push_cast
          omega
        · simp [Numeral.chars, Numeral.powerPart]
    split
    · next hunit hlead =>
      obtain ⟨k, hk⟩ := Int.eq_ofNat_of_zero_le hlead
      rw [hk, Int.toNat_natCast]
      have hwhole : ds.take (k + 1) ≠ [] := by simp [hne]
      have hfraction : ds.drop (k + 1) ≠ [] := by
        rw [Ne, List.drop_eq_nil_iff]
        omega
      have hfirst : (ds.take (k + 1)).head? ≠ some '0' := by
        have hsplit : (ds.take (k + 1) ++ ds.drop (k + 1)).head? = (ds.take (k + 1)).head? :=
          List.head?_append_of_ne_nil _ hwhole
        rwa [← hsplit, List.take_append_drop]
      refine ⟨⟨ds.take (k + 1), ds.drop (k + 1), none, true⟩,
        ⟨⟨hwhole, fun d hd => hdigits d (List.mem_of_mem_take hd), fun d hd => hdigits d (List.mem_of_mem_drop hd),
          fun h => absurd h hfirst⟩, ?_, fun _ => .inl hfraction⟩, ?_⟩
      · show Double.ofDecimal (decimalValue (ds.take (k + 1) ++ ds.drop (k + 1))) (0 - (ds.drop (k + 1)).length) = _
        rw [List.take_append_drop, List.length_drop]
        congr 1
        omega
      · simp [Numeral.chars, Numeral.powerPart, hfraction]
    · next hunit hlead =>
      obtain ⟨k, hk⟩ : ∃ k : Nat, -(unit + ds.length - 1) - 1 = k :=
        ⟨(-(unit + ds.length - 1) - 1).toNat, by omega⟩
      rw [hk, Int.toNat_natCast]
      have hfraction : List.replicate k '0' ++ ds ≠ [] := by simp [hne]
      refine ⟨⟨['0'], List.replicate k '0' ++ ds, none, true⟩,
        ⟨⟨by simp, by simp, fun d hd => (List.mem_append.mp hd).elim (hzeros k d) (hdigits d), fun _ => rfl⟩, ?_,
          fun _ => .inl hfraction⟩, ?_⟩
      · show Double.ofDecimal (decimalValue (List.replicate (k + 1) '0' ++ ds))
          (0 - (List.replicate k '0' ++ ds).length) = _
        rw [decimalValue_zeros_append, List.length_append, List.length_replicate]
        congr 1
        push_cast
        omega
      · simp [Numeral.chars, Numeral.powerPart, hne]
  · obtain ⟨d, more, rfl⟩ := List.exists_cons_of_ne_nil hne
    obtain ⟨hd, hmore⟩ := List.forall_mem_cons.mp hdigits
    refine ⟨⟨[d], more, some (unit + (d :: more).length - 1), true⟩,
      ⟨⟨by simp, by simpa using hd, hmore, fun h => absurd h hhead⟩, ?_, fun _ => .inr rfl⟩, ?_⟩
    · show Double.ofDecimal (decimalValue (d :: more)) (unit + (d :: more).length - 1 - more.length) = _
      congr 1
      push_cast [List.length_cons]
      omega
    · generalize unit + (d :: more).length - 1 = lead
      have hsize : (toString lead.natAbs).toList = Nat.toDigits 10 lead.natAbs := Nat.toList_repr
      have hpadded : (if (toString lead.natAbs).length < 2 then "0" ++ toString lead.natAbs
          else toString lead.natAbs).toList = if (Nat.toDigits 10 lead.natAbs).length < 2
            then '0' :: Nat.toDigits 10 lead.natAbs else Nat.toDigits 10 lead.natAbs := by
        rw [← String.length_toList, hsize, apply_ite String.toList, String.toList_append, hsize]
        rfl
      have hmantissa : (match d :: more with
          | d :: e :: more => d :: '.' :: e :: more
          | short => short) = [d] ++ if more.isEmpty then [] else '.' :: more := by
        cases more <;> rfl
      have hsign : (if lead < 0 then "-" else "+").toList = [if lead < 0 then '-' else '+'] := by
        split <;> rfl
      rw [String.toList_append, String.toList_append, String.toList_append, String.toList_ofList, hmantissa, hsign,
        hpadded]
      show _ = [d] ++ _ ++ Numeral.powerChars true lead
      by_cases hless : lead < 0 <;> simp [Numeral.powerChars, hless]

theorem exists_numeral_zero (pointed : Bool) :
    ∃ n : Numeral, n.Writes (.finite 0 0) pointed ∧ ((Double.finite 0 0).render pointed).toList = n.chars := by
  cases pointed with
  | false => exact ⟨⟨['0'], [], none, true⟩, ⟨⟨by simp, by simp, nofun, fun _ => rfl⟩, rfl, nofun⟩, rfl⟩
  | true => exact ⟨⟨['0'], ['0'], none, true⟩,
      ⟨⟨by simp, by simp, by simp, fun _ => rfl⟩, rfl, fun _ => .inl (by simp)⟩, rfl⟩

theorem exists_numeral {digits : Nat} {scale : Int} (h : (Double.finite digits scale).IsRead) (pointed : Bool) :
    ∃ n : Numeral, n.Writes (.finite digits scale) pointed ∧
      ((Double.finite digits scale).render pointed).toList = n.chars := by
  rcases Nat.eq_zero_or_pos digits with rfl | hpos
  · cases h with
    | zero => exact exists_numeral_zero pointed
    | finite hpos => exact absurd hpos (Nat.lt_irrefl 0)
  have hshortest := Double.ofDecimal_shortest h hpos
  have hrender : (Double.finite digits scale).render pointed =
      let found := (Double.finite digits scale).shortest digits scale
      let stripped := Double.stripZeros (Nat.toDigits 10 found.1) found.2
      decimalText stripped.1 stripped.2 pointed := by
    unfold Double.render
    exact if_neg hpos.ne'
  rw [hrender]
  generalize (Double.finite digits scale).shortest digits scale = found at hshortest ⊢
  obtain ⟨m, unit⟩ := found
  have hm : 0 < m := by
    refine Nat.pos_of_ne_zero ?_
    rintro rfl
    rw [Double.ofDecimal_zero] at hshortest
    cases hshortest
    exact absurd hpos (Nat.lt_irrefl 0)
  obtain ⟨ds, k, hstrip, hdigits, hhead, hne, hvalue⟩ := exists_stripZeros hm unit
  obtain ⟨n, hn, hchars⟩ := exists_numeral_digits hdigits hne hhead (unit + k) pointed
  rw [← Double.ofDecimal_mul, ← hvalue] at hn
  refine ⟨n, hshortest ▸ hn, ?_⟩
  rw [← hchars]
  dsimp only
  rw [hstrip]

theorem exists_numeral_infinite : ∃ n : Numeral, n.Writes .infinite true ∧ "1e309".toList = n.chars := by
  have hvalue : Numeral.value ⟨['1'], [], some 309, false⟩ = .infinite := by decide +kernel
  exact ⟨⟨['1'], [], some 309, false⟩, ⟨⟨by simp, by simp, nofun, nofun⟩, hvalue, fun _ => .inr rfl⟩, rfl⟩

section
variable {x : Double} (h : x.IsRead)
include h

theorem isNumberText_float : IsNumberText (renderNumber x true) (.float x) := by
  obtain ⟨n, hn, hchars⟩ : ∃ n : Numeral, n.Writes x true ∧ (renderNumber x true).toList = n.chars := by
    cases x with
    | infinite => exact exists_numeral_infinite
    | finite digits scale => exact exists_numeral h true
  have htext := hn.written.float (hn.isFloat rfl) hchars
  rwa [hn.value] at htext

theorem isNumberText_imaginary : IsNumberText (renderNumber x false ++ "j") (.imaginary x) := by
  obtain ⟨n, hn, hvalue, hchars⟩ : ∃ n : Numeral, n.IsWritten ∧ n.value = x ∧
      (renderNumber x false).toList = n.chars := by
    cases x with
    | infinite =>
      obtain ⟨n, hn, hchars⟩ := exists_numeral_infinite
      exact ⟨n, hn.written, hn.value, hchars⟩
    | finite digits scale =>
      obtain ⟨n, hn, hchars⟩ := exists_numeral h false
      exact ⟨n, hn.written, hn.value, hchars⟩
  have htext := hn.imaginary hchars
  rwa [hvalue] at htext

end
end ViewTree.Embedded
