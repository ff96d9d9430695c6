import ViewTree.Proofs.Capture.Marks
import ViewTree.Proofs.Lexing

/-!
The marks of what a scan of an expression finds. Main statement: the lexemes of a text have the
marks of its characters (`Embedded.ofText?_of_scanFrom`).
-/
namespace ViewTree
namespace Embedded
open Mark Text

/-- Characters of numbers are no marks and start no lambda. -/
def isFigure (c : Char) : Bool := isQuiet c && c ≠ 'l'

theorem isFigure_of_isWordByte {c : Char} (h : isWordByte c) (hl : c ≠ 'l') : isFigure c := by
  simp [isFigure, isQuiet_of_isWordByte h, hl]

theorem isFigure_of_isDigit {c : Char} (h : c.isDigit) : isFigure c := by
  refine isFigure_of_isWordByte (by simp [isWordByte, Char.isAlphanum, h]) ?_
  rintro rfl
  exact absurd h (by decide)

theorem toNat_lt_of_isDigit {c : Char} (h : c.isDigit) : c.toNat < 128 := by
  have hle : c.val ≤ 57 := of_decide_eq_true (Bool.and_eq_true_iff.mp h).2
  exact Nat.lt_of_le_of_lt (UInt32.le_iff_toNat_le.mp hle) (by decide)

theorem toNat_lt_of_isAlpha {c : Char} (h : c.isAlpha) : c.toNat < 128 := by
  rcases Bool.or_eq_true_iff.mp h with h | h
  · have hle : c.val ≤ 'Z'.val := (of_decide_eq_true h).2
    exact Nat.lt_of_le_of_lt (UInt32.le_iff_toNat_le.mp hle) (by decide)
  · have hle : c.val ≤ 'z'.val := of_decide_eq_true (Bool.and_eq_true_iff.mp h).2
    exact Nat.lt_of_le_of_lt (UInt32.le_iff_toNat_le.mp hle) (by decide)

theorem isFigure_of_isHexChar {c : Char} (h : isHexChar c) : isFigure c := by
  have hle {d : Char} (hd : c ≤ d) : c.toNat ≤ d.toNat := UInt32.le_iff_toNat_le.mp hd
  have hascii : c.toNat < 128 := by
    by_cases hdigit : c.isDigit
    · exact toNat_lt_of_isDigit hdigit
    · have hhigh : c ≤ 'f' ∨ c ≤ 'F' := by
        simp only [isHexChar, hdigit, Bool.false_or, Bool.or_eq_true, Bool.and_eq_true,
          decide_eq_true_eq] at h
        exact h.imp And.right And.right
      rcases hhigh with hf | hf <;> exact Nat.lt_of_le_of_lt (hle hf) (by decide)
  have hall : ∀ n < 128, isHexChar (Char.ofNat n) → isFigure (Char.ofNat n) := by decide
  have hc := hall c.toNat hascii
  rw [Char.ofNat_toNat] at hc
  exact hc h

theorem isHexChar_of_isOctal {c : Char} (h : isOctal c) : isHexChar c := by
  obtain ⟨hlow, hhigh⟩ := Bool.and_eq_true_iff.mp h
  have hdigit : c.isDigit := by
    refine Bool.and_eq_true_iff.mpr ⟨hlow, decide_eq_true ?_⟩
    exact UInt32.le_trans (of_decide_eq_true hhigh) (by decide)
  simp [isHexChar, hdigit]

/-- A text starts with `n` characters of a number. -/
structure Figures (n : Nat) (cs : List Char) : Prop where
  length_le : n ≤ cs.length
  all : ∀ c ∈ cs.take n, isFigure c

namespace Figures

theorem zero (cs : List Char) : Figures 0 cs := ⟨Nat.zero_le _, by simp⟩

theorem add {n m : Nat} {cs : List Char} (h : Figures n cs) (h' : Figures m (cs.drop n)) :
    Figures (n + m) cs where
  length_le := by
    have := h.length_le
    have := h'.length_le
    rw [List.length_drop] at this
    omega
  all := by
    intro c hc
    rw [List.take_add, List.mem_append] at hc
    exact hc.elim (h.all c) (h'.all c)

theorem cons {n : Nat} {c : Char} {cs : List Char} (hc : isFigure c) (h : Figures n cs) :
    Figures (n + 1) (c :: cs) where
  length_le := Nat.succ_le_succ h.length_le
  all := by
    intro d hd
    rcases List.mem_cons.mp hd with rfl | hd
    · exact hc
    · exact h.all d hd

end Figures

theorem figures_of_digitRun? {ok : Char → Bool} (hok : ∀ c, ok c → isFigure c) {cs : List Char}
    {n : Nat} (h : digitRun? ok cs = some n) : Figures n cs := by
  induction cs using digitRun?.induct ok generalizing n with
  | case1 => exact Option.some.inj h ▸ .zero []
  | case2 c cs hc ih =>
    rw [digitRun?, if_pos hc] at h
    obtain ⟨m, hm, rfl⟩ := Option.map_eq_some_iff.mp h
    exact (ih hm).cons (by decide)
  | case3 c cs hc =>
    rw [digitRun?, if_neg hc] at h
    nomatch h
  | case4 cs hlast =>
    rw [digitRun?.eq_3 ok _ _ hlast, if_pos rfl] at h
    nomatch h
  | case5 c cs hlast hline hc ih =>
    rw [digitRun?.eq_3 ok _ _ hlast, if_neg hline, if_pos hc] at h
    obtain ⟨m, hm, rfl⟩ := Option.map_eq_some_iff.mp h
    exact (ih hm).cons (hok c hc)
  | case6 c cs hlast hline hc =>
    rw [digitRun?.eq_3 ok _ _ hlast, if_neg hline, if_neg hc] at h
    exact Option.some.inj h ▸ .zero _

theorem pos_of_digitRun? {ok : Char → Bool} {c : Char} {cs : List Char} {n : Nat}
    (hline : c ≠ '_') (hc : ok c) (h : digitRun? ok (c :: cs) = some n) : 0 < n := by
  rw [digitRun?.eq_3 ok _ _ fun _ _ h _ => hline h, if_neg hline, if_pos hc] at h
  obtain ⟨m, -, rfl⟩ := Option.map_eq_some_iff.mp h
  exact Nat.succ_pos m

theorem figures_of_finish {cs rest intPart : List Char} {isFloat : Bool} {real : Double}
    {body n : Nat} {l : Literal} (hbody : Figures body cs)
    (h : decimalNumber?.finish isFloat real intPart rest body = some (l, n))
    (hrest : cs.drop body = rest) : Figures n cs ∧ endsNumber (cs.drop n) ∧ body ≤ n := by
  unfold decimalNumber?.finish at h
  by_cases hends : endsNumber rest
  · have hn : n = body := by
      rw [hends, if_neg nofun] at h
      grind
    subst hn hrest
    exact ⟨hbody, hends, Nat.le_refl n⟩
  · rw [if_pos (by simpa using hends)] at h
    nomatch h

theorem figures_of_end {cs rest intPart : List Char} {isFloat : Bool} {real : Double}
    {body n : Nat} {l : Literal} (hbody : Figures body cs)
    (h : (match rest with
      | j :: more =>
        if j = 'j' || j = 'J' then
          if endsNumber more then pure (Literal.imaginary real, body + 1) else none
        else decimalNumber?.finish isFloat real intPart rest body
      | [] => decimalNumber?.finish isFloat real intPart rest body) = some (l, n))
    (hrest : cs.drop body = rest) : Figures n cs ∧ endsNumber (cs.drop n) ∧ body ≤ n := by
  cases rest with
  | nil => exact figures_of_finish hbody h hrest
  | cons j more =>
    dsimp only at h
    by_cases hj : (decide (j = 'j') || decide (j = 'J')) = true
    · rw [if_pos hj] at h
      by_cases hends : endsNumber more
      · rw [if_pos hends] at h
        have hn : n = body + 1 := (Prod.mk.inj (Option.some.inj h)).2.symm
        have hfigure : isFigure j := by
          rcases Bool.or_eq_true_iff.mp hj with h | h <;> rw [of_decide_eq_true h] <;> decide
        have hfigures : Figures 1 (cs.drop body) := hrest ▸ (Figures.zero more).cons hfigure
        have hdrop : cs.drop (body + 1) = more := by
          rw [← List.drop_drop, hrest]
          rfl
        subst hn
        exact ⟨hbody.add hfigures, by rw [hdrop]; exact hends, Nat.le_succ body⟩
      · rw [if_neg hends] at h
        nomatch h
    · rw [if_neg hj] at h
      exact figures_of_finish hbody h hrest

/-- An exponent is made of characters of numbers. -/
theorem figures_of_exponent? {cs : List Char} {found? : Option (Int × Nat)}
    (h : exponent? cs = some found?) : Figures (found?.getD (0, 0)).2 cs := by
  unfold exponent? at h
  cases cs with
  | nil => exact Option.some.inj h ▸ .zero []
  | cons e rest =>
    dsimp -zeta only at h
    by_cases he : (decide (e = 'e') || decide (e = 'E')) = true
    · rw [if_pos he] at h
      have hmark : isFigure e := by
        rcases Bool.or_eq_true_iff.mp he with h | h <;> rw [of_decide_eq_true h] <;> decide
      extract_lets sign body at h
      have hsign : Figures sign.toList.length rest ∧ rest.drop sign.toList.length = body := by
        cases hsome : sign with
        | none => exact ⟨.zero rest, by simp [body, hsome]⟩
        | some s =>
          obtain ⟨hhead, hs⟩ := Option.filter_eq_some_iff.mp hsome
          obtain ⟨more, rfl⟩ := List.head?_eq_some_iff.mp hhead
          have hfigure : isFigure s := by
            rcases Bool.or_eq_true_iff.mp hs with h | h <;> rw [of_decide_eq_true h] <;> decide
          exact ⟨(Figures.zero more).cons hfigure, by simp [body, hsome]⟩
      have hlength (m : Nat) : sign.toList.length + m + 1 = m + 1 + sign.toList.length := by omega
      clear_value sign body
      split at h
      · obtain ⟨m, hm, rfl⟩ := Option.map_eq_some_iff.mp h
        have hdigits := figures_of_digitRun? (fun _ => isFigure_of_isDigit) hm
        have hall := (hsign.1.add (hsign.2 ▸ hdigits)).cons hmark
        rw [hlength] at hall
        exact hall
      · nomatch h
      · exact Option.some.inj h ▸ .zero _
    · rw [if_neg he] at h
      exact Option.some.inj h ▸ .zero _

/-- A decimal number is made of characters of numbers, and no word runs on behind it. -/
theorem figures_of_decimalNumber? {cs : List Char} {l : Literal} {n : Nat}
    (h : decimalNumber? cs = some (l, n)) :
    Figures n cs ∧ endsNumber (cs.drop n) ∧
      ((cs.head?.any fun c => c.isDigit || c = '.') → 0 < n) := by
  obtain ⟨whole, hwhole, h⟩ := Option.bind_eq_some_iff.mp h
  extract_lets intPart rest finish at h
  have hrest : cs.drop whole = rest := rfl
  clear_value rest
  have hfigures := figures_of_digitRun? (fun _ => isFigure_of_isDigit) hwhole
  have hfinish (fraction : List Char) (pointed : Bool) (k : Nat)
      (hk : k = if pointed then fraction.length + 1 else 0) (hpoint : Figures k rest)
      (h : finish (fraction, pointed, rest.drop k) = some (l, n)) :
      Figures n cs ∧ endsNumber (cs.drop n) ∧ whole + k ≤ n := by
    obtain ⟨exponent, hexponent, h⟩ := Option.bind_eq_some_iff.mp h
    have hpower := figures_of_exponent? hexponent
    have hall : Figures (whole + k + (exponent.getD (0, 0)).2) cs := by
      refine (hfigures.add (hrest ▸ hpoint)).add ?_
      rwa [← List.drop_drop, hrest]
    subst hk
    obtain ⟨hn, hends, hle⟩ := figures_of_end hall h
      (by rw [← List.drop_drop, ← List.drop_drop, hrest]; rfl)
    exact ⟨hn, hends, by omega⟩
  have hdigit (hsome : cs.head?.any fun c => c.isDigit || c = '.') (hdot : rest.head? ≠ some '.') :
      0 < whole := by
    cases cs with
    | nil => nomatch hsome
    | cons c cs =>
      rcases Bool.or_eq_true_iff.mp hsome with hc | hc
      · have hline : c ≠ '_' := by
          rintro rfl
          exact absurd hc (by decide)
        exact pos_of_digitRun? hline hc hwhole
      · cases whole with
        | zero =>
          rw [← hrest, List.drop_zero, of_decide_eq_true hc] at hdot
          exact absurd rfl hdot
        | succ whole => exact Nat.succ_pos whole
  have hpart : ∃ k, Figures n cs ∧ endsNumber (cs.drop n) ∧ whole + k ≤ n ∧
      (rest.head? = some '.' → 0 < k) := by
    clear_value finish
    split at h
    · next more =>
      split at h
      · obtain ⟨m, hm, h⟩ := Option.bind_eq_some_iff.mp h
        have hmore := figures_of_digitRun? (fun _ => isFigure_of_isDigit) hm
        have hlength : (more.take m).length = m := List.length_take_of_le hmore.length_le
        obtain ⟨hn, hends, hle⟩ := hfinish (more.take m) true (m + 1) (by rw [hlength]; rfl)
          (hmore.cons (by decide)) h
        exact ⟨m + 1, hn, hends, hle, fun _ => Nat.succ_pos m⟩
      · obtain ⟨hn, hends, hle⟩ := hfinish [] true 1 rfl ((Figures.zero more).cons (by decide)) h
        exact ⟨1, hn, hends, hle, fun _ => Nat.one_pos⟩
    · next hdot =>
      obtain ⟨hn, hends, hle⟩ := hfinish [] false 0 rfl (.zero rest) h
      refine ⟨0, hn, hends, hle, fun hhead => ?_⟩
      obtain ⟨more, rfl⟩ := List.head?_eq_some_iff.mp hhead
      exact absurd rfl (hdot more)
  obtain ⟨k, hn, hends, hle, hdot⟩ := hpart
  refine ⟨hn, hends, fun hsome => ?_⟩
  by_cases hpoint : rest.head? = some '.'
  · have := hdot hpoint
    omega
  · have := hdigit hsome hpoint
    omega

/-- A number in another base is made of characters of numbers, and no word runs on behind it. -/
theorem figures_of_basedNumber? {ok : Char → Bool} (hok : ∀ c, ok c → isFigure c) {base : Nat}
    {cs : List Char} {l : Literal} {n : Nat} (h : basedNumber? ok base cs = some (l, n)) :
    Figures n cs ∧ endsNumber (cs.drop n) := by
  unfold basedNumber? at h
  extract_lets body skipped at h
  have hskipped : Figures skipped cs ∧ cs.drop skipped = body := by
    by_cases hline : cs.head? = some '_'
    · obtain ⟨more, rfl⟩ := List.head?_eq_some_iff.mp hline
      have hone : skipped = 1 := by simp [skipped, body]
      rw [hone]
      exact ⟨(Figures.zero more).cons (by decide), rfl⟩
    · have hbody : body = cs := if_neg hline
      have hzero : skipped = 0 := by simp [skipped, hbody]
      rw [hzero, hbody]
      exact ⟨.zero cs, rfl⟩
  clear_value skipped body
  split at h
  · next m hrun =>
    extract_lets rest at h
    by_cases hends : (endsNumber rest && !(rest.head?.any (·.isDigit))) = true
    · rw [if_pos hends] at h
      obtain ⟨-, rfl⟩ := Prod.mk.inj (Option.some.inj h)
      have hdigits : Figures (m + 1) (cs.drop skipped) :=
        hskipped.2 ▸ figures_of_digitRun? hok hrun
      refine ⟨hskipped.1.add hdigits, ?_⟩
      rw [Nat.add_assoc, ← List.drop_drop, hskipped.2]
      exact (Bool.and_eq_true_iff.mp hends).1
    · rw [if_neg hends] at h
      nomatch h
  · nomatch h

/-- A number is made of characters of numbers, and no word runs on behind it. -/
theorem figures_of_number? {c : Char} {rest : List Char} {l : Literal} {n : Nat}
    (h : number? (c :: rest) = some (l, n)) (hc : c.isDigit ∨ c = '.') :
    ∃ m, n = m + 1 ∧ isFigure c ∧ Figures m rest ∧ endsNumber (rest.drop m) := by
  have hall : Figures n (c :: rest) ∧ endsNumber ((c :: rest).drop n) ∧ 0 < n := by
    have hdecimal (h : decimalNumber? (c :: rest) = some (l, n)) :
        Figures n (c :: rest) ∧ endsNumber ((c :: rest).drop n) ∧ 0 < n := by
      obtain ⟨hn, hends, hpos⟩ := figures_of_decimalNumber? h
      exact ⟨hn, hends, hpos (by simpa using hc)⟩
    have hbased {ok : Char → Bool} {base : Nat} {mark : Char} {more : List Char}
        (hok : ∀ c, ok c → isFigure c) (hmark : isFigure mark)
        (h : (basedNumber? ok base more).map (fun found => (found.1, found.2 + 2)) = some (l, n)) :
        Figures n ('0' :: mark :: more) ∧ endsNumber (('0' :: mark :: more).drop n) ∧ 0 < n := by
      obtain ⟨⟨l, m⟩, hm, hsame⟩ := Option.map_eq_some_iff.mp h
      obtain ⟨-, rfl⟩ := Prod.mk.inj hsame
      obtain ⟨hm, hends⟩ := figures_of_basedNumber? hok hm
      exact ⟨(hm.cons hmark).cons (by decide), hends, Nat.succ_pos _⟩
    unfold number? at h
    split at h
    · next d more hcons =>
      obtain ⟨rfl, rfl⟩ := List.cons.inj hcons
      split at h
      · next hmark =>
        have hfigure : isFigure d := by
          rcases Bool.or_eq_true_iff.mp hmark with h | h <;> rw [of_decide_eq_true h] <;> decide
        exact hbased (fun _ => isFigure_of_isHexChar) hfigure h
      split at h
      · next hmark =>
        have hfigure : isFigure d := by
          rcases Bool.or_eq_true_iff.mp hmark with h | h <;> rw [of_decide_eq_true h] <;> decide
        exact hbased (fun _ h => isFigure_of_isHexChar (isHexChar_of_isOctal h)) hfigure h
      split at h
      · next hmark =>
        have hfigure : isFigure d := by
          rcases Bool.or_eq_true_iff.mp hmark with h | h <;> rw [of_decide_eq_true h] <;> decide
        refine hbased (fun e he => ?_) hfigure h
        rcases Bool.or_eq_true_iff.mp he with h | h <;> rw [of_decide_eq_true h] <;> decide
      · exact hdecimal h
    · exact hdecimal h
  obtain ⟨hn, hends, hpos⟩ := hall
  obtain ⟨m, rfl⟩ := Nat.exists_eq_succ_of_ne_zero (Nat.pos_iff_ne_zero.mp hpos)
  refine ⟨m, rfl, hn.all c List.mem_cons_self, ?_, hends⟩
  exact ⟨Nat.le_of_succ_le_succ hn.length_le, fun d hd => hn.all d (List.mem_cons_of_mem c hd)⟩

theorem closingQuote?_of_bodyLength? {quote : Char} {cs : List Char} {n : Nat}
    (h : bodyLength? quote cs = some n) : Lexer.closingQuote? quote cs = some (n + 1) := by
  induction cs using bodyLength?.induct quote generalizing n with
  | case1 => nomatch h
  | case2 => nomatch h
  | case3 c cs ih =>
    rw [bodyLength?] at h
    obtain ⟨m, hm, rfl⟩ := Option.map_eq_some_iff.mp h
    rw [Lexer.closingQuote?, ih hm]
    rfl
  | case4 c cs hone hmore hline =>
    rw [bodyLength?.eq_4 _ _ _ hone hmore, if_pos hline] at h
    nomatch h
  | case5 cs hone hmore hline =>
    rw [bodyLength?.eq_4 _ _ _ hone hmore, if_neg hline, if_pos rfl] at h
    obtain rfl := Option.some.inj h
    have hfeed : quote ≠ '\n' := by
      rintro rfl
      exact hline (by decide)
    rw [Lexer.closingQuote?.eq_4 _ _ _ hone hmore, if_neg hfeed, if_pos rfl]
  | case6 c cs hone hmore hline hquote ih =>
    rw [bodyLength?.eq_4 _ _ _ hone hmore, if_neg hline, if_neg hquote] at h
    obtain ⟨m, hm, rfl⟩ := Option.map_eq_some_iff.mp h
    have hfeed : c ≠ '\n' := by
      rintro rfl
      exact hline (by decide)
    rw [Lexer.closingQuote?.eq_4 _ _ _ hone hmore, if_neg hfeed, if_neg hquote, ih hm]
    rfl

theorem closingQuotes?_of_longBodyLength? {quote : Char} {cs : List Char} {n : Nat}
    (h : longBodyLength? quote cs = some n) : Lexer.closingQuotes? quote cs = some (n + 3) := by
  induction cs using longBodyLength?.induct quote generalizing n with
  | case1 => nomatch h
  | case2 => nomatch h
  | case3 c cs ih =>
    rw [longBodyLength?] at h
    obtain ⟨m, hm, rfl⟩ := Option.map_eq_some_iff.mp h
    rw [Lexer.closingQuotes?, ih hm]
    rfl
  | case4 c cs hone hmore hquotes =>
    rw [longBodyLength?.eq_4 _ _ _ hone hmore, if_pos hquotes] at h
    obtain rfl := Option.some.inj h
    rw [Lexer.closingQuotes?.eq_4 _ _ _ hone hmore, if_pos hquotes]
  | case5 c cs hone hmore hquotes ih =>
    rw [longBodyLength?.eq_4 _ _ _ hone hmore, if_neg hquotes] at h
    obtain ⟨m, hm, rfl⟩ := Option.map_eq_some_iff.mp h
    rw [Lexer.closingQuotes?.eq_4 _ _ _ hone hmore, if_neg hquotes, ih hm]
    rfl

/-- A string has the same end for a scan as for the lexer. -/
theorem stringLength?_of_string? {letters rest : List Char} {offset n : Nat} {quote : Char}
    {found : StringLiteral} (h : string? letters offset (quote :: rest) = some (found, n)) :
    ∃ m, n = m + 1 ∧ Lexer.stringLength? quote rest = some m := by
  obtain ⟨k, hk, hsame⟩ := Option.map_eq_some_iff.mp h
  obtain ⟨-, rfl⟩ := Prod.mk.inj hsame
  by_cases hlong : [quote, quote].isPrefixOf rest
  · obtain ⟨more, rfl⟩ := List.isPrefixOf_iff_prefix.mp hlong
    rw [if_pos hlong, if_pos hlong] at hk
    refine ⟨k + 5, by rw [if_pos hlong], ?_⟩
    have hclosing : Lexer.closingQuotes? quote more = some (k + 3) :=
      closingQuotes?_of_longBodyLength? hk
    simp [Lexer.stringLength?, hclosing]
  · rw [if_neg hlong, if_neg hlong] at hk
    refine ⟨k + 1, by rw [if_neg hlong], ?_⟩
    have hclosing : Lexer.closingQuote? quote rest = some (k + 1) :=
      closingQuote?_of_bodyLength? hk
    unfold Lexer.stringLength?
    split
    · next a b cs =>
      have hshort : ¬(decide (a = quote) && decide (b = quote)) = true := by
        intro hquotes
        obtain ⟨ha, hb⟩ := Bool.and_eq_true_iff.mp hquotes
        rw [of_decide_eq_true ha, of_decide_eq_true hb] at hlong
        exact hlong (by simp [List.isPrefixOf])
      rw [if_neg hshort]
      exact hclosing
    · exact hclosing

/-- What scanning relies on for a symbol: it is of characters that no word has, it is the mark of
its first one, and a lambda does not follow where a number runs into it. -/
def isPlainSymbol (s : String) : Bool :=
  match s.toList with
  | [] => false
  | c :: tail =>
    !isWordByte c && c ≠ '"' && c ≠ '\'' && c ≠ '#' && tail.all isFigure &&
      !isWordByte (lastOf c tail) && (!isGlue (lastOf c tail) || Nesting.joins (.symbol s)) &&
      ((c = ':' && tail = []) || ofChar? c tail.head? = ofLexeme? (.symbol s)) 

theorem isPlainSymbol_of_mem : ∀ s ∈ symbols, isPlainSymbol s := by decide

theorem symbol?_binds (more : List Char) : symbol? (':' :: '=' :: more) = some ":=" := by
  rfl

theorem ofChar?_of_not_colon {c : Char} (h : c ≠ ':') (next? : Option Char) :
    ofChar? c next? = ofChar? c none := by
  unfold ofChar?
  split
  case h_8 => exact absurd rfl h
  all_goals rfl

/-- A lambda that starts here is not part of a longer word, and no lexeme ends in front of it that
it may not follow. -/
def Apart (v : Nesting) (prev : Char) (cs : List Char) : Prop :=
  startsLambda cs → isWordByte prev = false ∧ (isGlue prev → v.joined)

theorem Apart.of_not {v : Nesting} {prev : Char} {cs : List Char} (h : ¬startsLambda cs) :
    Apart v prev cs := fun hstarts => absurd hstarts h

/-- Behind a lexeme of `n` characters are the marks of the text but its own. -/
def Takes (prev c : Char) (rest : List Char) (w : Nesting) (mark? : Option Mark) (n : Nat) : Prop :=
  ∃ last, Apart w last (rest.drop (n - 1)) ∧
    ofText? prev (c :: rest) = (ofText? last (rest.drop (n - 1))).map (mark?.toList ++ ·)

theorem not_startsLambda_of_endsNumber {rest : List Char} (h : endsNumber rest) :
    ¬startsLambda rest := by
  cases rest with
  | nil => decide
  | cons c rest =>
    intro hstarts
    obtain rfl := head_of_startsLambda hstarts
    exact absurd h (by simp [endsNumber, followers, isWordByte, List.isPrefixOf])

theorem map_nil_append (marks? : Option (List Mark)) :
    marks?.map ((none : Option Mark).toList ++ ·) = marks? := by
  cases marks? <;> rfl

variable {prev c : Char} {rest : List Char} {v w : Nesting} {n : Nat}

theorem takes_number {l : Literal} (h : number? (c :: rest) = some (l, n))
    (hc : c.isDigit ∨ c = '.') : Takes prev c rest w none n := by
  obtain ⟨m, rfl, hfigure, hfigures, hends⟩ := figures_of_number? h hc
  have hsplit : rest.take m ++ rest.drop m = rest := List.take_append_drop m rest
  have hquiet : ∀ d ∈ c :: rest.take m, isQuiet d ∧ d ≠ 'l' := fun d hd => by
    have hd : isFigure d := (List.mem_cons.mp hd).elim (· ▸ hfigure) (hfigures.all d)
    simpa [isFigure] using hd
  refine ⟨lastOf c (rest.take m), .of_not (not_startsLambda_of_endsNumber hends), ?_⟩
  have hmarks : ofText? prev (c :: rest.take m ++ rest.drop m) = _ :=
    ofText?_append_quiet hquiet (rest.drop m)
  rw [List.cons_append, hsplit, lastOf_cons] at hmarks
  rw [hmarks, map_nil_append, Nat.add_sub_cancel]

theorem joined_of_step? {s : String} (h : v.step? (.symbol s) = some w)
    (hjoins : Nesting.joins (.symbol s)) : w.joined := by
  have hsymbol : ((s = "." ∨ s = "...") ∨ s = "+") ∨ s = "-" := by
    simpa [Nesting.joins] using hjoins
  rcases hsymbol with ((rfl | rfl) | rfl) | rfl <;> exact Option.some.inj h ▸ rfl

theorem takes_symbol {s : String} (h : symbol? (c :: rest) = some s)
    (hstep : v.step? (.symbol s) = some w) :
    Takes prev c rest w (ofLexeme? (.symbol s)) s.length := by
  have hplain := isPlainSymbol_of_mem s (List.mem_of_find?_eq_some h)
  have hleading : s.toList.isPrefixOf (c :: rest) := by
    have hfound := List.find?_some h
    exact hfound
  obtain ⟨later, hlater⟩ := List.isPrefixOf_iff_prefix.mp hleading
  unfold isPlainSymbol at hplain
  cases hlist : s.toList with
  | nil =>
    rw [hlist] at hplain
    nomatch hplain
  | cons d tail =>
    rw [hlist] at hplain hlater
    rw [List.cons_append] at hlater
    obtain ⟨rfl, rfl⟩ := List.cons.inj hlater
    have hlength : s.length = tail.length + 1 := by rw [← String.length_toList, hlist]; rfl
    simp only [Bool.and_eq_true, Bool.not_eq_true', decide_eq_true_eq, List.all_eq_true] at hplain
    obtain ⟨⟨⟨⟨⟨⟨⟨hword, hdouble⟩, hsingle⟩, hcomment⟩, htail⟩, hlast⟩, hglue⟩, hmark⟩ := hplain
    have hnot : ¬startsLambda (d :: (tail ++ later)) := not_startsLambda_of_head fun e he =>
      Option.some.inj he ▸ hword
    have hquiet : ∀ e ∈ tail, isQuiet e ∧ e ≠ 'l' := fun e he => by
      simpa [isFigure] using htail e he
    have hhead : ofChar? d (tail ++ later).head? = ofLexeme? (.symbol s) := by
      by_cases hcolon : d = ':' ∧ tail = []
      · obtain ⟨rfl, rfl⟩ := hcolon
        have hs : s = ":" := String.toList_inj.mp hlist
        have hnext : later.head? ≠ some '=' := by
          intro hnext
          obtain ⟨more, rfl⟩ := List.head?_eq_some_iff.mp hnext
          have hbinds := (symbol?_binds more).symm.trans h
          rw [hs] at hbinds
          exact absurd (Option.some.inj hbinds) (by decide)
        rw [hs]
        exact if_neg hnext
      · have hmark : ofChar? d tail.head? = ofLexeme? (.symbol s) := by simpa [hcolon] using hmark
        cases tail with
        | nil =>
          rw [ofChar?_of_not_colon fun hd => hcolon ⟨hd, rfl⟩]
          exact hmark
        | cons e tail => exact hmark
    refine ⟨lastOf d tail, ?_, ?_⟩
    · intro _
      refine ⟨hlast, fun hends => joined_of_step? hstep ?_⟩
      simpa [hends] using hglue
    · rw [ofText?_char ⟨hdouble, hsingle, hcomment⟩ fun hstarts => absurd hstarts hnot,
        ofText?_append_quiet hquiet, hhead, hlength, Nat.add_sub_cancel, List.drop_left]

theorem takes_string {letters : List Char} {offset : Nat} {found : StringLiteral}
    (hc : c = '"' ∨ c = '\'') (h : string? letters offset (c :: rest) = some (found, n)) :
    Takes prev c rest w none n := by
  obtain ⟨m, rfl, hlength⟩ := stringLength?_of_string? h
  refine ⟨c, fun _ => ?_, ?_⟩
  · rcases hc with rfl | rfl <;> exact ⟨by decide, fun hglue => absurd hglue (by decide)⟩
  · rw [ofText?_string hc hlength, map_nil_append, Nat.add_sub_cancel]

theorem not_joined_of_step? (h : v.step? (.keyword "lambda") = some w) : v.joined = false := by
  cases hjoined : v.joined with
  | false => rfl
  | true =>
    rw [Nesting.step?, hjoined] at h
    nomatch h

/-- A lexeme that starts with a word is the word, or a string with letters in front. -/
theorem takes_word {offset : Nat} {kind : LexemeKind} (hc : isWordByte c)
    (hnumber : ¬(c.isDigit || (c = '.' && rest.head?.any (·.isDigit))) = true)
    (h : lexeme? offset (c :: rest) = some (kind, n)) (hstep : v.step? kind = some w)
    (hprev : Apart v prev (c :: rest)) : Takes prev c rest w (ofLexeme? kind) n := by
  unfold lexeme? at h
  dsimp -zeta only at h
  rw [if_neg hnumber, if_pos hc] at h
  extract_lets word behind text quoted at h
  have hword : word = c :: rest.takeWhile isWordByte := by
    unfold word
    rw [List.takeWhile_cons, if_pos hc]
  have hsplit := take_append_drop_takeWhile isWordByte rest
  have hparted := not_head_drop_takeWhile isWordByte rest
  have hbehind : behind = rest.drop (rest.takeWhile isWordByte).length := by
    unfold behind
    rw [hword]
    rfl
  have htail : ∀ d ∈ rest.takeWhile isWordByte, isWordByte d := fun d hd =>
    List.all_eq_true.mp List.all_takeWhile d hd
  have htext : text = "lambda" ↔ word = lambdaWord := by
    unfold text
    rw [← String.toList_inj, String.toList_ofList]
    rfl
  rw [← hbehind] at hsplit hparted
  generalize rest.takeWhile isWordByte = tail at hword hsplit htail
  clear_value behind text word
  subst hword hsplit
  have hmarks := ofText?_word hc htail hparted fun hstarts => (hprev hstarts).1
  by_cases hstring : (quoted && stringLetters.contains
      (String.ofList ((c :: tail).map Char.toLower))) = true
  · rw [if_pos hstring] at h
    obtain ⟨hquoted, hletters⟩ := Bool.and_eq_true_iff.mp hstring
    obtain ⟨quote, hhead, hquote⟩ := (Option.any_eq_true ..).mp hquoted
    have hquote : quote = '"' ∨ quote = '\'' := by simpa using hquote
    obtain ⟨more, rfl⟩ := List.head?_eq_some_iff.mp hhead
    obtain ⟨⟨found, length⟩, hfound, hsame⟩ := Option.map_eq_some_iff.mp h
    obtain ⟨rfl, rfl⟩ := Prod.mk.inj hsame
    obtain ⟨m, rfl, hlength⟩ := stringLength?_of_string? hfound
    have hlambda : c :: tail ≠ lambdaWord := by
      intro hlambda
      rw [hlambda] at hletters
      exact absurd hletters (by decide)
    have hdrop : (tail ++ quote :: more).drop ((c :: tail).length + (m + 1) - 1) = more.drop m := by
      rw [show (c :: tail).length + (m + 1) - 1 = tail.length + (m + 1) by simp; omega,
        List.drop_length_add_append]
      rfl
    refine ⟨quote, fun _ => ?_, ?_⟩
    · rcases hquote with rfl | rfl <;> exact ⟨by decide, fun hglue => absurd hglue (by decide)⟩
    · rw [hdrop, ← List.cons_append, hmarks, if_neg hlambda, ofText?_string hquote hlength]
      exact (map_nil_append _).symm
  rw [if_neg hstring] at h
  have hdrop : (tail ++ behind).drop ((c :: tail).length - 1) = behind := List.drop_left
  have hafter {w : Nesting} : Apart w (lastOf c tail) behind :=
    .of_not (not_startsLambda_of_head hparted)
  by_cases hkeyword : isKeyword text
  · rw [if_pos hkeyword] at h
    obtain ⟨rfl, rfl⟩ := Prod.mk.inj (Option.some.inj h)
    refine ⟨lastOf c tail, by rw [hdrop]; exact hafter, ?_⟩
    rw [hdrop, ← List.cons_append, hmarks]
    by_cases hlambda : c :: tail = lambdaWord
    · have hstarts : startsLambda (c :: (tail ++ behind)) = true :=
        (startsLambda_append (List.forall_mem_cons.mpr ⟨hc, htail⟩) hparted).trans
          (decide_eq_true hlambda)
      have hstep : v.step? (.keyword "lambda") = some w := htext.mpr hlambda ▸ hstep
      have hglue : ¬isGlue prev := fun hglue =>
        absurd ((hprev hstarts).2 hglue) (by simp [not_joined_of_step? hstep])
      rw [if_pos hlambda, if_neg hglue, htext.mpr hlambda]
      rfl
    · have hnone : ofLexeme? (.keyword text) = none := if_neg fun h => hlambda (htext.mp h)
      rw [if_neg hlambda, hnone]
      exact (map_nil_append _).symm
  · rw [if_neg hkeyword] at h
    have hlambda : c :: tail ≠ lambdaWord := by
      intro hlambda
      rw [htext.mpr hlambda] at hkeyword
      exact hkeyword (by decide)
    by_cases hname : isIdentifier text
    · rw [if_pos hname] at h
      obtain ⟨rfl, rfl⟩ := Prod.mk.inj (Option.some.inj h)
      refine ⟨lastOf c tail, by rw [hdrop]; exact hafter, ?_⟩
      rw [hdrop, ← List.cons_append, hmarks, if_neg hlambda]
      exact (map_nil_append _).symm
    · rw [if_neg hname] at h
      nomatch h

/-- A lexeme takes its mark from a text and leaves the others. -/
theorem takes_lexeme {offset : Nat} {kind : LexemeKind}
    (h : lexeme? offset (c :: rest) = some (kind, n)) (hstep : v.step? kind = some w)
    (hprev : Apart v prev (c :: rest)) :
    Takes prev c rest w (ofLexeme? kind) n := by
  by_cases hnumber : (c.isDigit || (c = '.' && rest.head?.any (·.isDigit))) = true
  · unfold lexeme? at h
    dsimp only at h
    rw [if_pos hnumber] at h
    obtain ⟨⟨l, m⟩, hm, hsame⟩ := Option.map_eq_some_iff.mp h
    obtain ⟨rfl, rfl⟩ := Prod.mk.inj hsame
    refine takes_number hm ?_
    rcases Bool.or_eq_true_iff.mp hnumber with hdigit | hdot
    · exact .inl hdigit
    · exact .inr (of_decide_eq_true (Bool.and_eq_true_iff.mp hdot).1)
  by_cases hc : isWordByte c
  · exact takes_word hc hnumber h hstep hprev
  unfold lexeme? at h
  dsimp only at h
  rw [if_neg hnumber, if_neg hc] at h
  by_cases hquote : (decide (c = '"') || decide (c = '\'')) = true
  · rw [if_pos hquote] at h
    obtain ⟨⟨found, m⟩, hm, hsame⟩ := Option.map_eq_some_iff.mp h
    obtain ⟨rfl, rfl⟩ := Prod.mk.inj hsame
    exact takes_string (by simpa using hquote) hm
  · rw [if_neg hquote] at h
    obtain ⟨s, hs, hsame⟩ := Option.map_eq_some_iff.mp h
    obtain ⟨rfl, rfl⟩ := Prod.mk.inj hsame
    exact takes_symbol hs hstep

theorem ofText?_of_blank (hc : isQuiet c ∧ isWordByte c = false) :
    ofText? prev (c :: rest) = ofText? c rest := by
  refine ofText?_quiet hc.1 fun hstarts => absurd hstarts (not_startsLambda_of_head ?_)
  exact fun d hd => Option.some.inj hd ▸ hc.2

theorem apart_of_blank (hc : isWordByte c = false ∧ isGlue c = false) : Apart v c rest :=
  fun _ => ⟨hc.1, fun hglue => absurd hglue (by simp [hc.2])⟩

/-- A comment ends at a line feed where there is no carriage return. -/
theorem commentLength_eq {cs : List Char} (h : '\r' ∉ cs) :
    (cs.takeWhile fun d => d ≠ '\n' && d ≠ '\r').length = Lexer.commentLength cs := by
  induction cs with
  | nil => rfl
  | cons c cs ih =>
    have hc : c ≠ '\r' := fun hc => h (hc ▸ List.mem_cons_self)
    have hrest := ih fun hmem => h (List.mem_cons_of_mem c hmem)
    unfold Lexer.commentLength at hrest ⊢
    rw [List.takeWhile_cons, List.takeWhile_cons]
    by_cases hline : c = '\n'
    · rw [if_neg (by simp [hline]), if_neg (by simp [hline])]
    · rw [if_pos (by simp [hline, hc]), if_pos (by simp [hline]), List.length_cons,
        List.length_cons, hrest]

theorem lineEndLength_pos {cs : List Char} (h : '\r' ∉ cs) (hpos : 0 < lineEndLength cs) :
    ∃ more, cs = '\n' :: more ∧ lineEndLength cs = 1 := by
  unfold lineEndLength at hpos ⊢
  split at hpos
  · exact absurd List.mem_cons_self h
  · exact absurd List.mem_cons_self h
  · exact ⟨_, rfl, rfl⟩
  · nomatch hpos

theorem blank_of_isSkipped (h : Lexer.isSkipped c) (hc : c ≠ '\r') :
    ((c = ' ' ∨ c = '\t') ∨ c = '\x0c') ∨ c = '\n' := by
  simp only [Lexer.isSkipped, hc, Bool.or_eq_true, decide_eq_true_eq, decide_false,
    Bool.or_false] at h
  grind

section
variable {offset : Nat} {pending : List String} {fresh : Bool}

theorem scanFrom_blank (hc : (c = ' ' ∨ c = '\t') ∨ c = '\x0c') :
    scanFrom offset pending fresh (c :: rest) = scanFrom (offset + 1) pending fresh rest := by
  rw [scanFrom, if_pos (by simpa using hc)]

theorem scanFrom_feed :
    scanFrom offset pending fresh ('\n' :: rest) =
      if pending.isEmpty && !fresh then
        (scanFrom (offset + 1) pending (pending.isEmpty || fresh) rest).map
          (⟨.lineEnd, offset, offset + 1⟩ :: ·)
      else scanFrom (offset + 1) pending (pending.isEmpty || fresh) rest := by
  rw [scanFrom, if_neg (by decide), if_pos (by decide)]
  rfl

theorem scanFrom_comment (h : '\r' ∉ rest) :
    scanFrom offset pending fresh ('#' :: rest) =
      scanFrom (offset + 1 + Lexer.commentLength rest) pending fresh
        (rest.drop (Lexer.commentLength rest)) := by
  rw [scanFrom, if_neg (by decide), if_neg (by decide), if_pos rfl]
  dsimp only
  rw [commentLength_eq h]

theorem scanFrom_join {lexemes : List Lexeme} (h : '\r' ∉ rest)
    (hscan : scanFrom offset pending fresh ('\\' :: rest) = some lexemes) :
    ∃ more, rest = '\n' :: more ∧ scanFrom (offset + 2) pending fresh more = some lexemes := by
  rw [scanFrom, if_neg (by decide), if_neg (by decide), if_neg (by decide), if_pos rfl] at hscan
  dsimp only at hscan
  by_cases hlength : (0 < lineEndLength rest && lineEndLength rest < rest.length) = true
  · rw [if_pos hlength] at hscan
    obtain ⟨more, rfl, hone⟩ := lineEndLength_pos h
      (of_decide_eq_true (Bool.and_eq_true_iff.mp hlength).1)
    rw [hone] at hscan
    exact ⟨more, rfl, hscan⟩
  · rw [if_neg hlength] at hscan
    cases hscan

/-- Where no blank, comment or joined line starts, a lexeme does. -/
theorem exists_lexeme_of_scanFrom {lexemes : List Lexeme} (hskipped : ¬Lexer.isSkipped c)
    (hcomment : c ≠ '#') (hjoin : c ≠ '\\')
    (h : scanFrom offset pending fresh (c :: rest) = some lexemes) :
    ∃ kind n still later, lexeme? offset (c :: rest) = some (kind, n) ∧
      nest? pending kind = some still ∧
      scanFrom (offset + max 1 n) still false (rest.drop (n - 1)) = some later ∧
      lexemes = ⟨kind, offset, offset + n⟩ :: later := by
  have hblank : ¬(decide (c = ' ') || decide (c = '\t') || decide (c = '\x0c')) = true := by
    grind [Lexer.isSkipped]
  have hline : ¬(decide (c = '\n') || decide (c = '\r')) = true := by grind [Lexer.isSkipped]
  rw [scanFrom, if_neg hblank, if_neg hline, if_neg hcomment, if_neg hjoin] at h
  cases hlexeme : lexeme? offset (c :: rest) with
  | none =>
    rw [hlexeme] at h
    cases h
  | some found =>
    obtain ⟨kind, n⟩ := found
    rw [hlexeme] at h
    dsimp only at h
    cases hnest : nest? pending kind with
    | none =>
      rw [hnest] at h
      cases h
    | some still =>
      rw [hnest] at h
      obtain ⟨later, hlater, rfl⟩ := Option.map_eq_some_iff.mp h
      exact ⟨kind, n, still, later, rfl, hnest, hlater, rfl⟩

end

theorem ofText?_of_scanFrom {cs : List Char} (hreturn : '\r' ∉ cs) {offset : Nat}
    {pending : List String} {fresh : Bool} {lexemes : List Lexeme}
    (h : scanFrom offset pending fresh cs = some lexemes) (hwalk : v.walk? lexemes = some w)
    (hprev : Apart v prev cs) : ofText? prev cs = some (ofLexemes lexemes) := by
  induction cs using Lexer.induction generalizing prev v offset pending fresh lexemes with
  | nil =>
    rw [scanFrom] at h
    by_cases hpending : pending.isEmpty
    · rw [if_pos hpending] at h
      obtain rfl := Option.some.inj h
      rw [ofText?_nil]
      cases fresh <;> rfl
    · rw [if_neg hpending] at h
      cases h
  | step c rest ih =>
    have hrest (n : Nat) : '\r' ∉ rest.drop n := fun hmem =>
      hreturn (List.mem_cons_of_mem c (List.mem_of_mem_drop hmem))
    have hplain : '\r' ∉ rest := hrest 0
    by_cases hskipped : Lexer.isSkipped c
    · have hc : c ≠ '\r' := fun hc => hreturn (hc ▸ List.mem_cons_self)
      have hblank := blank_of_isSkipped hskipped hc
      have hkind : isQuiet c ∧ isWordByte c = false ∧ isGlue c = false := by
        rcases hblank with ((rfl | rfl) | rfl) | rfl <;> decide
      have hafter (u : Nesting) : Apart u c rest := apart_of_blank hkind.2
      rw [ofText?_of_blank ⟨hkind.1, hkind.2.1⟩]
      rcases hblank with hblank | rfl
      · rw [scanFrom_blank hblank] at h
        exact ih 0 hplain h hwalk (hafter v)
      rw [scanFrom_feed] at h
      by_cases hends : (pending.isEmpty && !fresh) = true
      · rw [if_pos hends] at h
        obtain ⟨later, hlater, rfl⟩ := Option.map_eq_some_iff.mp h
        have hwalk : Nesting.walk? { v with joined := false } later = some w := hwalk
        show ofText? '\n' rest = some (ofLexemes later)
        exact ih 0 hplain hlater hwalk (hafter _)
      · rw [if_neg hends] at h
        exact ih 0 hplain h hwalk (hafter v)
    by_cases hcomment : c = '#'
    · subst hcomment
      rw [scanFrom_comment hplain] at h
      rw [ofText?_comment]
      exact ih _ (hrest _) h hwalk (apart_of_blank (by decide))
    by_cases hjoin : c = '\\'
    · subst hjoin
      obtain ⟨more, rfl, hmore⟩ := scanFrom_join hplain h
      rw [ofText?_of_blank (by decide), ofText?_of_blank (by decide)]
      exact ih 1 (hrest 1) hmore hwalk (apart_of_blank (by decide))
    obtain ⟨kind, n, still, later, hlexeme, -, hlater, rfl⟩ :=
      exists_lexeme_of_scanFrom hskipped hcomment hjoin h
    obtain ⟨u, hstep, hwalk⟩ := Nesting.exists_step?_of_walk? hwalk
    obtain ⟨last, hapart, hmarks⟩ := takes_lexeme hlexeme hstep hprev
    rw [hmarks, ih _ (hrest _) hlater hwalk hapart, ofLexemes_cons]
    rfl

end Embedded
end ViewTree
