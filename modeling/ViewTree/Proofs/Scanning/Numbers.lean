import ViewTree.Proofs.Capture.Scanning

/-!
Numbers in front of other texts. No lexeme goes on with a separator. Main statement: a text starts
with the same number in front of a separator (`number?_append`).
-/
namespace ViewTree.Embedded
open Text

/-- Separators: what stands between lexemes, and marks that no lexeme goes on with. -/
def separators : List Char := [')', ']', ',', ':', '#', '\\', ' ', '\t', '\x0c', '\n', '\r']

def isStop (c : Char) : Bool := separators.contains c

/-- Texts that start with a separator, or are empty. -/
def Stops (s : List Char) : Prop := ∀ c ∈ s.head?, isStop c

theorem stops_nil : Stops [] := nofun

theorem stops_cons {c : Char} (h : isStop c) (cs : List Char) : Stops (c :: cs) := by
  intro d hd
  obtain rfl := Option.some.inj hd
  exact h

/-- Brackets that close what may stand behind a name. -/
def isClosing (c : Char) : Bool := c = ')' || c = ']'

theorem cases_of_isClosing {c : Char} (h : isClosing c) : c = ')' ∨ c = ']' := by
  simpa [isClosing] using h

theorem stops_closing {c : Char} (h : isClosing c) (cs : List Char) : Stops (c :: cs) := by
  rcases cases_of_isClosing h with rfl | rfl <;> exact stops_cons (by decide) cs

theorem eq_false_of_isStop {p : Char → Bool} (h : separators.all (!p ·) = true := by decide) :
    ∀ c, isStop c → p c = false := fun c hc =>
  Bool.not_inj (List.all_eq_true.mp h c (List.contains_iff_mem.mp hc))

theorem isWordByte_of_isStop {c : Char} (h : isStop c) : isWordByte c = false :=
  eq_false_of_isStop (p := isWordByte) rfl c h

/-- Nothing of what a lexeme looks for behind itself is at the start of `s`. -/
theorem head?_append_any {s : List Char} {p : Char → Bool} (hp : ∀ c ∈ s.head?, p c = false)
    (a : List Char) : (a ++ s).head?.any p = a.head?.any p := by
  cases a with
  | nil =>
    cases s with
    | nil => rfl
    | cons c s => exact hp c rfl
  | cons c a => rfl

theorem takeWhile_append_of_head? {s : List Char} {p : Char → Bool} (hp : ∀ c ∈ s.head?, p c = false)
    (a : List Char) : (a ++ s).takeWhile p = a.takeWhile p := by
  have hnone : s.takeWhile p = [] := by
    cases s with
    | nil => rfl
    | cons c s => rw [List.takeWhile_cons, hp c rfl, if_neg nofun]
  induction a with
  | nil => exact hnone
  | cons c a ih => rw [List.cons_append, List.takeWhile_cons, List.takeWhile_cons, ih]

theorem Stops.head?_append_any {s : List Char} (hs : Stops s) {p : Char → Bool}
    (hp : ∀ c, isStop c → p c = false) (a : List Char) :
    (a ++ s).head?.any p = a.head?.any p := Embedded.head?_append_any (fun c hc => hp c (hs c hc)) a

theorem Stops.head?_append_filter {s : List Char} (hs : Stops s) {p : Char → Bool}
    (hp : ∀ c, isStop c → p c = false) (a : List Char) :
    (a ++ s).head?.filter p = a.head?.filter p := by
  cases a with
  | nil =>
    cases s with
    | nil => rfl
    | cons c s => simp [Option.filter, hp c (hs c rfl)]
  | cons c a => rfl

theorem Stops.takeWhile_append {s : List Char} (hs : Stops s) {p : Char → Bool}
    (hp : ∀ c, isStop c → p c = false) (a : List Char) :
    (a ++ s).takeWhile p = a.takeWhile p := takeWhile_append_of_head? (fun c hc => hp c (hs c hc)) a

/-- The digits at the start of a text. -/
theorem take_append_of_digitRun? (s : List Char) {ok : Char → Bool} (hfigure : ∀ c, ok c → isFigure c)
    {a : List Char} {n : Nat} (h : digitRun? ok a = some n) :
    (a ++ s).take n = a.take n ∧ (a ++ s).drop n = a.drop n ++ s := by
  have hle := (figures_of_digitRun? hfigure h).length_le
  exact ⟨List.take_append_of_le_length hle, List.drop_append_of_le_length hle⟩

section Numbers

variable {s : List Char} (hs : Stops s)
include hs

theorem digitRun?_append {ok : Char → Bool} (hok : ∀ c, isStop c → ok c = false)
    (a : List Char) : digitRun? ok (a ++ s) = digitRun? ok a := by
  induction a using digitRun?.induct ok with
  | case1 =>
    cases s with
    | nil => rfl
    | cons c s =>
      have hc : c ≠ '_' := by
        rintro rfl
        exact absurd (hs '_' rfl) (by decide)
      rw [List.nil_append, digitRun?.eq_3 _ _ _ fun _ _ h _ => hc h, if_neg hc,
        hok c (hs c rfl), if_neg Bool.false_ne_true]
      rfl
  | case2 c cs hc ih =>
    show digitRun? ok ('_' :: c :: (cs ++ s)) = _
    rw [digitRun?, digitRun?, if_pos hc, if_pos hc, ← List.cons_append, ih]
  | case3 c cs hc =>
    show digitRun? ok ('_' :: c :: (cs ++ s)) = _
    rw [digitRun?, digitRun?, if_neg hc, if_neg hc]
  | case4 cs hlast =>
    obtain rfl : cs = [] := List.eq_nil_iff_forall_not_mem.mpr fun c hc => by
      cases cs with
      | nil => cases hc
      | cons d cs => exact hlast d cs rfl rfl
    cases s with
    | nil => rfl
    | cons c s =>
      show digitRun? ok ('_' :: c :: s) = digitRun? ok ['_']
      rw [digitRun?, hok c (hs c rfl), if_neg Bool.false_ne_true]
      rfl
  | case5 c cs hone hc hdigit ih =>
    rw [List.cons_append, digitRun?.eq_3 _ _ _ fun _ _ h _ => hc h, digitRun?.eq_3 _ _ _ hone,
      ih]
  | case6 c cs hone hc hdigit =>
    rw [List.cons_append, digitRun?.eq_3 _ _ _ fun _ _ h _ => hc h, digitRun?.eq_3 _ _ _ hone,
      if_neg hc, if_neg hdigit, if_neg hc, if_neg hdigit]

theorem isPrefixOf_append {w : List Char} (hw : ∀ c ∈ w, isStop c = false) (a : List Char) :
    w.isPrefixOf (a ++ s) = w.isPrefixOf a := by
  induction w generalizing a with
  | nil => cases a <;> cases s <;> rfl
  | cons d w ih =>
    obtain ⟨hd, hw⟩ := List.forall_mem_cons.mp hw
    cases a with
    | nil =>
      cases s with
      | nil => rfl
      | cons c s =>
        have hne : d ≠ c := by
          rintro rfl
          exact absurd (hs d rfl) (by simp [hd])
        simp [List.isPrefixOf, hne]
    | cons c a => simp only [List.cons_append, List.isPrefixOf, ih hw]

theorem endsNumber_append (a : List Char) : endsNumber (a ++ s) = endsNumber a := by
  cases a with
  | nil =>
    cases s with
    | nil => rfl
    | cons c s => simp [endsNumber, isWordByte_of_isStop (hs c rfl)]
  | cons c a =>
    have hall : (followers.all fun w => w.toList.all (!isStop ·)) = true := by decide
    have hplain : ∀ w ∈ followers, ∀ d ∈ w.toList, isStop d = false := fun w hw d hd =>
      Bool.not_inj (List.all_eq_true.mp (List.all_eq_true.mp hall w hw) d hd)
    have hsame : (followers.any fun w => w.toList.isPrefixOf (c :: a ++ s)) =
        followers.any fun w => w.toList.isPrefixOf (c :: a) := by
      rw [Bool.eq_iff_iff, List.any_eq_true, List.any_eq_true]
      refine exists_congr fun w => and_congr_right fun hw => ?_
      rw [isPrefixOf_append hs (hplain w hw)]
    simp only [endsNumber, List.cons_append] at hsame ⊢
    rw [hsame]

theorem exponent?_append (a : List Char) : exponent? (a ++ s) = exponent? a := by
  cases a with
  | nil =>
    cases s with
    | nil => rfl
    | cons c s =>
      exact if_neg (by simp [eq_false_of_isStop (p := fun c => c = 'e' || c = 'E') rfl c (hs c rfl)])
  | cons c a =>
    have hsign := hs.head?_append_filter (eq_false_of_isStop (p := fun d => d = '+' || d = '-')) a
    have hbody : (if (a.head?.filter fun d => d = '+' || d = '-').isSome then (a ++ s).drop 1
        else a ++ s) =
        (if (a.head?.filter fun d => d = '+' || d = '-').isSome then a.drop 1 else a) ++ s := by
      cases a with
      | nil => rfl
      | cons d a => split <;> rfl
    unfold exponent?
    rw [List.cons_append]
    dsimp only
    rw [hsign, hbody]
    generalize (a.head?.filter fun d => d = '+' || d = '-') = sign
    generalize (if sign.isSome then a.drop 1 else a) = body
    rw [hs.head?_append_filter eq_false_of_isStop, digitRun?_append hs eq_false_of_isStop]
    cases hrun : digitRun? Char.isDigit body with
    | none => rfl
    | some n => simp only [Option.map_some,
        (take_append_of_digitRun? s (fun _ => isFigure_of_isDigit) hrun).1]

theorem basedNumber?_append {ok : Char → Bool} (hok : ∀ c, isStop c → ok c = false)
    (hfigure : ∀ c, ok c → isFigure c) (base : Nat)
    (a : List Char) : basedNumber? ok base (a ++ s) = basedNumber? ok base a := by
  have hbody : (if (a ++ s).head? = some '_' then (a ++ s).drop 1 else a ++ s) =
      (if a.head? = some '_' then a.drop 1 else a) ++ s := by
    cases a with
    | nil =>
      cases s with
      | nil => rfl
      | cons c s =>
        have hc : c ≠ '_' := by
          rintro rfl
          exact absurd (hs '_' rfl) (by decide)
        simp [hc]
    | cons c a =>
      simp only [List.cons_append, List.head?_cons, List.drop_one, List.tail_cons]
      split <;> rfl
  unfold basedNumber?
  dsimp only
  rw [hbody, digitRun?_append hs hok, List.length_append, List.length_append,
    Nat.add_sub_add_right]
  generalize (if a.head? = some '_' then a.drop 1 else a) = body
  cases hrun : digitRun? ok body with
  | none => rfl
  | some n =>
    obtain ⟨htake, hdrop⟩ := take_append_of_digitRun? s hfigure hrun
    cases n with
    | zero => rfl
    | succ n =>
      dsimp only
      rw [htake, hdrop, endsNumber_append hs, hs.head?_append_any eq_false_of_isStop]

theorem finish_append (isFloat : Bool) (real : Double) (intPart rest : List Char) (body : Nat) :
    decimalNumber?.finish isFloat real intPart (rest ++ s) body =
      decimalNumber?.finish isFloat real intPart rest body := by
  unfold decimalNumber?.finish
  rw [endsNumber_append hs]

theorem decimalNumber?_append (a : List Char) : decimalNumber? (a ++ s) = decimalNumber? a := by
  unfold decimalNumber?
  rw [digitRun?_append hs eq_false_of_isStop]
  refine Option.bind_congr fun whole hrun => ?_
  obtain ⟨htake, hdrop⟩ := take_append_of_digitRun? s (fun _ => isFigure_of_isDigit) hrun
  rw [htake, hdrop]
  generalize a.drop whole = rest
  extract_lets intPart found go found'
  -- behind the fraction come the exponent and the mark of imaginary numbers
  have hgo (fraction : List Char) (pointed : Bool) (t : List Char) :
      go (fraction, pointed, t ++ s) = go (fraction, pointed, t) := by
    unfold go
    dsimp only
    rw [exponent?_append hs]
    refine Option.bind_congr fun exponent hexponent => ?_
    have hle := (figures_of_exponent? hexponent).length_le
    rw [List.drop_append_of_le_length hle]
    generalize t.drop (exponent.getD (0, 0)).2 = t
    cases t with
    | nil =>
      cases s with
      | nil => rfl
      | cons c s =>
        have hc : ¬(decide (c = 'j') || decide (c = 'J')) = true := by
          simp [eq_false_of_isStop (p := fun c => c = 'j' || c = 'J') rfl c (hs c rfl)]
        exact (if_neg hc).trans (finish_append hs _ _ _ [] _)
    | cons c t =>
      show (if _ then if endsNumber (t ++ s) then _ else _ else
        decimalNumber?.finish _ _ _ (c :: t ++ s) _) = _
      rw [endsNumber_append hs, finish_append hs]
  unfold found found'
  clear_value go
  cases rest with
  | nil =>
    have hplain := hgo [] false []
    rw [List.nil_append] at hplain ⊢
    cases s with
    | nil => rfl
    | cons c s =>
      have hc : c ≠ '.' := by
        rintro rfl
        exact absurd (hs '.' rfl) (by decide)
      split
      · next heq => exact absurd (List.cons.inj heq).1 hc
      · exact hplain
  | cons c more =>
    by_cases hc : c = '.'
    · subst hc
      show (if (more ++ s).head?.any (·.isDigit) then
          (digitRun? Char.isDigit (more ++ s)).bind fun n =>
            go ((more ++ s).take n, true, (more ++ s).drop n)
        else go ([], true, more ++ s)) = if more.head?.any (·.isDigit) then _ else _
      rw [hs.head?_append_any eq_false_of_isStop, digitRun?_append hs eq_false_of_isStop, hgo]
      refine ite_congr rfl (fun _ => Option.bind_congr fun n hn => ?_) fun _ => rfl
      obtain ⟨htake, hdrop⟩ := take_append_of_digitRun? s (fun _ => isFigure_of_isDigit) hn
      rw [htake, hdrop, hgo]
      rfl
    · rw [List.cons_append]
      split
      · next heq => exact absurd (List.cons.inj heq).1 hc
      · split
        · next heq => exact absurd (List.cons.inj heq).1 hc
        · exact hgo [] false (c :: more)

theorem number?_append {a : List Char} (ha : a ≠ []) : number? (a ++ s) = number? a := by
  obtain ⟨c, a, rfl⟩ := List.exists_cons_of_ne_nil ha
  by_cases hzero : c = '0'
  · subst hzero
    cases a with
    | nil =>
      cases s with
      | nil => rfl
      | cons d s =>
        have hplain := decimalNumber?_append hs ['0']
        have hmark {p : Char → Bool} (hp : separators.all (!p ·) = true) : ¬p d = true := by
          rw [eq_false_of_isStop hp d (hs d rfl)]
          nofun
        show (if (d = 'x' || d = 'X') then _ else if (d = 'o' || d = 'O') then _
          else if (d = 'b' || d = 'B') then _ else decimalNumber? ('0' :: d :: s)) = _
        rw [if_neg (hmark (p := fun c => c = 'x' || c = 'X') rfl),
          if_neg (hmark (p := fun c => c = 'o' || c = 'O') rfl),
          if_neg (hmark (p := fun c => c = 'b' || c = 'B') rfl)]
        exact hplain
    | cons d a =>
      have hbinary : ∀ c, (c = '0' || c = '1' : Bool) → isFigure c := by
        intro e he
        rcases Bool.or_eq_true_iff.mp he with h | h <;> rw [of_decide_eq_true h] <;> decide
      simp only [List.cons_append, number?]
      rw [basedNumber?_append hs eq_false_of_isStop (fun _ => isFigure_of_isHexChar),
        basedNumber?_append hs eq_false_of_isStop
          (fun _ h => isFigure_of_isHexChar (isHexChar_of_isOctal h)),
        basedNumber?_append hs eq_false_of_isStop hbinary]
      have hplain := decimalNumber?_append hs ('0' :: d :: a)
      rw [List.cons_append, List.cons_append] at hplain
      rw [hplain]
  · have hplain (cs : List Char) : number? (c :: cs) = decimalNumber? (c :: cs) := by
      unfold number?
      split
      · next heq => exact absurd (List.cons.inj heq).1 hzero
      · rfl
    rw [List.cons_append, hplain, hplain, ← List.cons_append, decimalNumber?_append hs]

end Numbers
end ViewTree.Embedded
