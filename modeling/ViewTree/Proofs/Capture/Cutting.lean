import ViewTree.Proofs.Capture.Marks
import ViewTree.Proofs.Lexing

/-!
The marks of what the lexer cuts. Main statement: the tokens of a text have the marks of its
characters (`Lexer.ofTokens_of_run`), although numbers run into what stands behind them.
-/
namespace ViewTree
open Embedded Mark Text

theorem isWordChar_of_isLetter {c : Char} (h : isLetter c) : isWordChar c := by
  simp [isWordChar, isAlphanumeric, h]

theorem isWordChar_of_isDigit {c : Char} (h : isDigit c) : isWordChar c := by
  simp [isWordChar, isAlphanumeric, h]

theorem isWordByte_of_isWordChar {c : Char} (h : isWordChar c) : isWordByte c := by
  unfold isWordByte
  by_cases hc : 128 ≤ c.toNat
  · simp [hc]
  · have hascii : c.toNat < 128 := Nat.lt_of_not_le hc
    simpa [isWordChar, isAlphanumeric, isLetter, isDigit, hascii, hc, Char.isAlphanum] using h

theorem isWordChar_of_isAscii {c : Char} (hascii : c.toNat < 128) (h : isWordByte c) :
    isWordChar c := by
  have hc : ¬128 ≤ c.toNat := Nat.not_le_of_lt hascii
  simpa [isWordByte, isWordChar, isAlphanumeric, isLetter, isDigit, hascii, hc, Char.isAlphanum]
    using h

namespace Lexer

/-- Where lexing goes on, a character that may belong to a word does. -/
theorem isWordChar_of_step {c : Char} {rest : List Char} {kind? : Option TokenKind} {n : Nat}
    (h : step c rest = .ok (kind?, n)) (hc : isWordByte c) : isWordChar c := by
  by_cases hascii : c.toNat < 128
  · exact isWordChar_of_isAscii hascii hc
  have hother {d : Char} (hd : d.toNat < 128) : c ≠ d := by
    rintro rfl
    exact hascii hd
  cases step_cases h with
  | blank hblank => simp [isSkipped, hother] at hblank
  | attrOpen hc => exact absurd hc (hother (by decide))
  | docComment hc => exact absurd hc (hother (by decide))
  | comment hc => exact absurd hc (hother (by decide))
  | string hc => exact absurd hc (not_or.mpr ⟨hother (by decide), hother (by decide)⟩)
  | number hc => exact isWordChar_of_isDigit (hc.resolve_right fun h => hother (by decide) h.1)
  | marked hc => exact isWordChar_of_isLetter (hc.resolve_right (hother (by decide)))
  | word hc => exact isWordChar_of_isLetter (hc.resolve_right (hother (by decide)))
  | pair hnext hkind =>
    unfold TokenKind.ofPair? at hkind
    split at hkind
    case h_12 => cases hkind
    all_goals exact absurd (by decide) hascii
  | single hnext hkind =>
    unfold TokenKind.ofChar? at hkind
    split at hkind
    case h_26 => cases hkind
    all_goals exact absurd (by decide) hascii

/-- The marks of a text are the one of a token and, behind the token, those of the rest. -/
def Leaves (marks : List Mark) (mark? : Option Mark) (cs : List Char) : Prop :=
  ∃ prev later, ofText? prev cs = some later ∧
    (startsLambda cs → isWordByte prev = false) ∧ marks = mark?.toList ++ later

theorem leaves_quiet {prev c : Char} {rest : List Char} {marks : List Mark} (hc : isQuiet c)
    (hword : isWordByte c = false) (h : ofText? prev (c :: rest) = some marks) :
    Leaves marks none rest := by
  have hl : ¬startsLambda (c :: rest) := not_startsLambda_of_head fun d hd => by
    obtain rfl := Option.some.inj hd
    exact hword
  rw [ofText?_quiet hc fun hstarts => absurd hstarts hl] at h
  exact ⟨c, marks, h, fun _ => hword, rfl⟩

theorem isQuiet_of_number {c : Char} (h : isWordByte c ∨ isGlue c) : isQuiet c := by
  rcases h with hc | hc
  · exact isQuiet_of_isWordByte hc
  · have hglue : (c = '.' ∨ c = '+') ∨ c = '-' := by simpa [isGlue] using hc
    rcases hglue with (rfl | rfl) | rfl <;> decide

/-- A number takes no mark with it: a lambda that it would run into is none. -/
theorem ofText?_of_number {prev c : Char} {rest : List Char} {marks : List Mark}
    (hprev : isWordByte prev ∨ isGlue prev) (hc : isWordChar c ∨ c = '.' ∨ isSign c)
    (h : ofText? prev (c :: rest) = some marks) :
    ofText? c rest = some marks ∧ (isWordByte c ∨ isGlue c) := by
  have hkind : isWordByte c ∨ isGlue c := by
    rcases hc with hc | rfl | hc
    · exact .inl (isWordByte_of_isWordChar hc)
    · exact .inr (by decide)
    · have hsign : c = '+' ∨ c = '-' := by simpa [isSign] using hc
      rcases hsign with rfl | rfl <;> exact .inr (by decide)
  refine ⟨?_, hkind⟩
  by_cases hlambda : startsLambda (c :: rest) ∧ isWordByte prev = false
  · obtain ⟨hstarts, hword⟩ := hlambda
    have hglue : isGlue prev := hprev.resolve_left (by simp [hword])
    rw [ofText?_lambda hstarts hword, if_pos hglue] at h
    nomatch h
  · rw [ofText?_quiet (isQuiet_of_number hkind) fun hstarts => by simpa using fun hw => hlambda ⟨hstarts, hw⟩] at h
    exact h

theorem exists_ofText?_drop {prev : Char} {cs : List Char} {marks : List Mark}
    (hprev : isWordByte prev ∨ isGlue prev) (h : ofText? prev cs = some marks) :
    ∃ last, ofText? last (cs.drop (numberLength cs)) = some marks := by
  induction cs using numberLength.induct generalizing prev with
  | case1 => exact ⟨prev, h⟩
  | case2 c hc =>
    have hc : isWordChar c ∨ c = '.' := by simpa using hc
    obtain ⟨h, -⟩ := ofText?_of_number hprev (hc.imp_right .inl) h
    exact ⟨c, by simpa [numberLength, hc] using h⟩
  | case3 c hc => exact ⟨prev, by simpa [numberLength, hc] using h⟩
  | case4 c d cs hc hsign ih =>
    have hword : isWordChar c ∨ c = '.' := by simpa using hc
    have hsigned : isSign d := by simp_all
    obtain ⟨h, hkind⟩ := ofText?_of_number hprev (hword.imp_right .inl) h
    obtain ⟨h, hkind⟩ := ofText?_of_number hkind (.inr (.inr hsigned)) h
    rw [numberLength, if_pos hc, if_pos hsign]
    exact ih hkind h
  | case5 c d cs hc hsign ih =>
    have hword : isWordChar c ∨ c = '.' := by simpa using hc
    obtain ⟨h, hkind⟩ := ofText?_of_number hprev (hword.imp_right .inl) h
    rw [numberLength, if_pos hc, if_neg hsign]
    exact ih hkind h
  | case6 c d cs hc =>
    rw [numberLength, if_neg hc]
    exact ⟨prev, h⟩

theorem not_isWordChar_behind_number (cs : List Char) :
    ∀ d ∈ (cs.drop (numberLength cs)).head?, ¬isWordChar d := by
  induction cs using numberLength.induct with
  | case1 => exact nofun
  | case2 c hc =>
    rw [numberLength, if_pos hc]
    exact nofun
  | case3 c hc =>
    rw [numberLength, if_neg hc]
    intro d hd
    obtain rfl := Option.some.inj hd
    exact fun hword => hc (by simp [hword])
  | case4 c d cs hc hsign ih =>
    rw [numberLength, if_pos hc, if_pos hsign]
    exact ih
  | case5 c d cs hc hsign ih =>
    rw [numberLength, if_pos hc, if_neg hsign]
    exact ih
  | case6 c d cs hc =>
    rw [numberLength, if_neg hc]
    intro d hd
    obtain rfl := Option.some.inj hd
    exact fun hword => hc (by simp [hword])

theorem numberLength_cons {c : Char} {rest : List Char} (hc : isDigit c ∨ c = '.') :
    numberLength (c :: rest) = numberLength rest + 1 := by
  have hword : (isWordChar c || decide (c = '.')) = true := by
    rcases hc with hc | rfl
    · simp [isWordChar_of_isDigit hc]
    · decide
  have hmark : isExponentMark c = false := by
    by_cases hmark : c = 'e' ∨ c = 'E'
    · rcases hmark with rfl | rfl <;> exact absurd hc (by decide)
    · simpa [isExponentMark] using hmark
  cases rest with
  | nil =>
    show numberLength [c] = 0 + 1
    rw [numberLength, if_pos hword]
  | cons d rest => rw [numberLength, if_pos hword, hmark, Bool.false_and, if_neg nofun]

theorem leaves_number {prev c : Char} {rest : List Char} {marks : List Mark}
    (hc : isDigit c ∨ c = '.')
    (hbehind : ∀ d ∈ (rest.drop (numberLength rest)).head?, isWordByte d → isWordChar d)
    (h : ofText? prev (c :: rest) = some marks) :
    Leaves marks none (rest.drop (numberLength rest)) := by
  have hl : ¬startsLambda (c :: rest) := by
    intro hstarts
    obtain rfl := head_of_startsLambda hstarts
    exact absurd hc (by decide)
  have hkind : isWordByte c ∨ isGlue c := by
    rcases hc with hc | rfl
    · exact .inl (isWordByte_of_isWordChar (isWordChar_of_isDigit hc))
    · exact .inr (by decide)
  rw [ofText?_quiet (isQuiet_of_number hkind) fun hstarts => absurd hstarts hl] at h
  obtain ⟨last, hlast⟩ := exists_ofText?_drop hkind h
  have hparted : ¬startsLambda (rest.drop (numberLength rest)) :=
    not_startsLambda_of_head fun d hd => by
      have hword := not_isWordChar_behind_number rest d hd
      simpa using fun hbyte => hword (hbehind d hd hbyte)
  exact ⟨last, marks, hlast, fun hstarts => absurd hstarts hparted, rfl⟩

theorem leaves_word {prev c : Char} {tail behind : List Char} {marks : List Mark}
    (hc : isWordByte c) (htail : ∀ d ∈ tail, isWordByte d)
    (hbehind : ∀ d ∈ behind.head?, isWordByte d = false)
    (hprev : startsLambda (c :: tail ++ behind) → isWordByte prev = false)
    (h : ofText? prev (c :: tail ++ behind) = some marks) :
    ∃ last later, ofText? last behind = some later ∧
      marks = (if c :: tail = lambdaWord then [Mark.lambda] else []) ++ later := by
  rw [ofText?_word hc htail hbehind hprev] at h
  by_cases hlambda : c :: tail = lambdaWord
  · rw [if_pos hlambda] at h ⊢
    by_cases hglue : isGlue prev
    · rw [if_pos hglue] at h
      nomatch h
    · rw [if_neg hglue] at h
      obtain ⟨later, hlater, rfl⟩ := Option.map_eq_some_iff.mp h
      exact ⟨lastOf c tail, later, hlater, rfl⟩
  · rw [if_neg hlambda] at h ⊢
    exact ⟨lastOf c tail, marks, h, rfl⟩

theorem leaves_string {prev c : Char} {rest : List Char} {marks : List Mark} {n : Nat}
    (hc : c = '"' ∨ c = '\'') (hlength : stringLength? c rest = some n)
    (h : ofText? prev (c :: rest) = some marks) : Leaves marks none (rest.drop n) := by
  rw [ofText?_string hc hlength] at h
  refine ⟨c, marks, h, fun _ => ?_, rfl⟩
  rcases hc with rfl | rfl <;> decide

/-- A word is a mark just if it starts a lambda. -/
theorem ofToken?_word (p : Position) (word : List Char) :
    ofToken? (stepToken p word (.ofWord (String.ofList word))) =
      if word = lambdaWord then some Mark.lambda else none := by
  by_cases hlambda : word = lambdaWord
  · subst hlambda
    rfl
  · have htext : String.ofList word ≠ "lambda" := by
      intro h
      have hlist : (String.ofList word).toList = "lambda".toList := congrArg String.toList h
      rw [String.toList_ofList] at hlist
      exact hlambda hlist
    have hkinds (kind : TokenKind) (hkind : kind = .ofWord (String.ofList word)) :
        kind.isOpening = false ∧ kind.isClosing = false ∧ kind ≠ .comma ∧ kind ≠ .colon := by
      subst hkind
      unfold TokenKind.ofWord
      split <;> decide
    obtain ⟨hopening, hclosing, hcomma, hcolon⟩ := hkinds _ rfl
    rw [if_neg hlambda]
    simp [ofToken?, stepToken, hopening, hclosing, hcomma, hcolon, htext]

theorem leaves_pair {prev c d : Char} {rest : List Char} {marks : List Mark} {kind : TokenKind}
    (hpair : TokenKind.ofPair? c d = some kind) (h : ofText? prev (c :: d :: rest) = some marks)
    (p : Position) : Leaves marks (ofToken? (stepToken p [c, d] kind)) rest := by
  have hquiet (c : Char) (hc : isQuiet c) (hword : isWordByte c = false) {prev : Char}
      {rest : List Char} : ofText? prev (c :: rest) = ofText? c rest := by
    refine ofText?_quiet hc fun hstarts => absurd hstarts (not_startsLambda_of_head ?_)
    intro e he
    obtain rfl := Option.some.inj he
    exact hword
  have hsecond : isQuiet d ∧ isWordByte d = false := by
    unfold TokenKind.ofPair? at hpair
    split at hpair
    case h_12 => nomatch hpair
    all_goals decide
  have hmark : ofToken? (stepToken p [c, d] kind) = none := by
    unfold TokenKind.ofPair? at hpair
    split at hpair
    case h_12 => nomatch hpair
    all_goals exact Option.some.inj hpair ▸ rfl
  have hfirst : ofText? prev (c :: d :: rest) = ofText? c (d :: rest) := by
    unfold TokenKind.ofPair? at hpair
    split at hpair
    case h_7 =>
      have hnot : ¬startsLambda (':' :: '=' :: rest) := not_startsLambda_of_head fun e he => by
        obtain rfl := Option.some.inj he
        decide
      rw [ofText?_char (by decide) fun hstarts => absurd hstarts hnot]
      cases ofText? ':' ('=' :: rest) <;> rfl
    case h_12 => nomatch hpair
    all_goals exact hquiet _ (by decide) (by decide)
  rw [hfirst, hquiet d hsecond.1 hsecond.2] at h
  exact ⟨d, marks, h, fun _ => hsecond.2, by rw [hmark]; rfl⟩

theorem leaves_single {prev c : Char} {rest : List Char} {marks : List Mark} {kind : TokenKind}
    (hpair : rest.head?.bind (TokenKind.ofPair? c) = none) (hkind : TokenKind.ofChar? c = some kind)
    (h : ofText? prev (c :: rest) = some marks) (p : Position) :
    Leaves marks (ofToken? (stepToken p [c] kind)) rest := by
  have hplain : c ≠ '"' ∧ c ≠ '\'' ∧ c ≠ '#' := by
    refine ⟨?_, ?_, ?_⟩ <;> rintro rfl <;> nomatch hkind
  have hword : isWordByte c = false := by
    unfold TokenKind.ofChar? at hkind
    split at hkind
    case h_26 => cases hkind
    all_goals decide
  have hnot : ¬startsLambda (c :: rest) := not_startsLambda_of_head fun e he => by
    obtain rfl := Option.some.inj he
    exact hword
  have hmark : ofChar? c rest.head? = ofToken? (stepToken p [c] kind) := by
    by_cases hcolon : c = ':'
    · subst hcolon
      have hnext : rest.head? ≠ some '=' := by
        intro hnext
        rw [hnext] at hpair
        nomatch hpair
      obtain rfl := Option.some.inj hkind
      show (if rest.head? = some '=' then none else some Mark.colon) = _
      rw [if_neg hnext]
      rfl
    · unfold TokenKind.ofChar? at hkind
      split at hkind
      case h_8 => exact absurd rfl hcolon
      case h_26 => cases hkind
      all_goals exact Option.some.inj hkind ▸ rfl
  rw [ofText?_char hplain fun hstarts => absurd hstarts hnot] at h
  obtain ⟨later, hlater, rfl⟩ := Option.map_eq_some_iff.mp h
  exact ⟨c, later, hlater, fun _ => hword, by rw [hmark]⟩

/-- A string has no mark, and neither does a number or a comment; a step leaves the marks of the
rest. -/
theorem leaves_step {prev c : Char} {rest : List Char} {marks : List Mark}
    {kind? : Option TokenKind} {n : Nat} (h : step c rest = .ok (kind?, n))
    (hprev : startsLambda (c :: rest) → isWordByte prev = false)
    (hbehind : ∀ d ∈ (rest.drop n).head?, isWordByte d → isWordChar d)
    (hkind : ∀ kind ∈ kind?, kind ≠ .attrOpen)
    (hmarks : ofText? prev (c :: rest) = some marks) (p : Position) :
    Leaves marks ((kind?.map (stepToken p (c :: rest.take n))).bind ofToken?) (rest.drop n) := by
  have hsplit := take_append_drop_takeWhile isWordChar rest
  have hstop := not_head_drop_takeWhile isWordChar rest
  have htail : ∀ d ∈ rest.takeWhile isWordChar, isWordByte d := fun d hd =>
    isWordByte_of_isWordChar (List.all_eq_true.mp List.all_takeWhile d hd)
  have hletter (hc : isLetter c ∨ c = '_') : isWordByte c := by
    rcases hc with hc | rfl
    · exact isWordByte_of_isWordChar (isWordChar_of_isLetter hc)
    · decide
  cases step_cases h with
  | blank hc =>
    have hblank : (((c = ' ' ∨ c = '\t') ∨ c = '\r') ∨ c = '\n') ∨ c = '\x0c' := by
      simpa [isSkipped] using hc
    have hquiet : isQuiet c ∧ isWordByte c = false := by
      rcases hblank with (((rfl | rfl) | rfl) | rfl) | rfl <;> decide
    exact leaves_quiet hquiet.1 hquiet.2 hmarks
  | attrOpen => exact absurd rfl (hkind _ rfl)
  | docComment hc | comment hc =>
    subst hc
    rw [ofText?_comment] at hmarks
    exact ⟨'#', marks, hmarks, fun _ => by decide, rfl⟩
  | string hc hlength => exact leaves_string hc hlength hmarks
  | number hnumber =>
    have hc := hnumber.imp_right And.left
    rw [numberLength_cons hc, Nat.add_sub_cancel] at hbehind ⊢
    exact leaves_number hc hbehind hmarks
  | @marked quote later m hc hrest hquote hmark hlength =>
    rw [hrest] at hsplit
    generalize rest.takeWhile isWordChar = tail at *
    subst hsplit
    have hlambda : c :: tail ≠ lambdaWord := by
      intro hlambda
      rw [hlambda] at hmark
      exact absurd hmark (by decide)
    have hparted : ∀ d ∈ (quote :: later).head?, isWordByte d = false := fun d hd => by
      obtain rfl := Option.some.inj hd
      rcases hquote with rfl | rfl <;> decide
    obtain ⟨last, behind, hlast, rfl⟩ := leaves_word (hletter hc) htail hparted hprev hmarks
    have hdrop : (tail ++ quote :: later).drop (tail.length + 1 + m) = later.drop m := by
      rw [Nat.add_assoc, Nat.add_comm 1 m, List.drop_length_add_append]
      rfl
    rw [if_neg hlambda, hdrop]
    exact leaves_string hquote hlength hlast
  | word hc =>
    generalize rest.takeWhile isWordChar = tail at *
    generalize rest.drop tail.length = behind at *
    subst hsplit
    rw [List.take_left]
    have hparted : ∀ d ∈ behind.head?, isWordByte d = false := by
      intro d hd
      by_cases hbyte : isWordByte d
      · exact absurd (hbehind d hd hbyte) (by simp [hstop d hd])
      · simpa using hbyte
    obtain ⟨last, later, hlast, rfl⟩ := leaves_word (hletter hc) htail hparted hprev hmarks
    refine ⟨last, later, hlast, fun hstarts => ?_, ?_⟩
    · exact absurd hstarts (not_startsLambda_of_head hparted)
    · rw [Option.map_some, Option.bind_some, ofToken?_word]
      split <;> rfl
  | pair hnext hpair =>
    obtain ⟨rest, rfl⟩ := List.head?_eq_some_iff.mp hnext
    exact leaves_pair hpair hmarks p
  | single hnext hsingle => exact leaves_single hnext hsingle hmarks p

/-- Where lexing goes on, a character that may belong to a word does. -/
theorem isWordChar_of_run {p : Position} {cs : List Char} {ts : Tokens} (h : run p cs = .ok ts) :
    ∀ d ∈ cs.head?, isWordByte d → isWordChar d := by
  cases cs with
  | nil => exact nofun
  | cons c rest =>
    intro d hd
    obtain rfl := Option.some.inj hd
    obtain ⟨kind?, n, more, hstep, -, -⟩ := exists_step_of_run h
    exact isWordChar_of_step hstep

theorem ofTokens_of_run {p : Position} {cs : List Char} {ts : Tokens} {prev : Char}
    {marks : List Mark} (h : run p cs = .ok ts)
    (hkinds : ∀ t ∈ ts.items, t.kind ≠ .attrOpen) (hprev : startsLambda cs → isWordByte prev = false)
    (hmarks : ofText? prev cs = some marks) : ofTokens ts.items = marks := by
  induction cs using Lexer.induction generalizing p ts prev marks with
  | nil =>
    rw [run_nil] at h
    obtain rfl := Except.ok.inj h
    rw [ofText?_nil] at hmarks
    exact Option.some.inj hmarks
  | step c rest ih =>
    obtain ⟨kind?, n, more, hstep, hrun, rfl⟩ := exists_step_of_run h
    have hkind : ∀ kind ∈ kind?, kind ≠ .attrOpen := fun kind hmem =>
      hkinds (stepToken p (c :: rest.take n) kind) (List.mem_append_left _ (by
        rw [Option.mem_def.mp hmem]
        exact List.mem_singleton_self _))
    obtain ⟨last, later, hlast, hparted, rfl⟩ :=
      leaves_step hstep hprev (isWordChar_of_run hrun) hkind hmarks p
    have hlater : ofTokens more.items = later :=
      ih n hrun (fun t ht => hkinds t (List.mem_append_right _ ht)) hparted hlast
    show ofTokens (_ ++ more.items) = _
    rw [ofTokens_append, ofTokens_toList, hlater]

end Lexer
end ViewTree
