import ViewTree.Proofs.Printing.Parts
import ViewTree.Proofs.Printing.Quotes

/-!
Names, whole numbers, strings and signs as they are printed, each in front of a character that ends it.
-/
namespace ViewTree.Embedded
open Text

/-- What ends a whole number. -/
def endsFigures (c : Char) : Bool := !isWordByte c && c ≠ '.'

theorem isDigit_of_not_isWordByte {c : Char} (h : isWordByte c = false) : c.isDigit = false := by
  simp only [isWordByte, Char.isAlphanum, Bool.or_eq_false_iff] at h
  exact h.1.1.2

theorem of_endsFigures {c : Char} (h : endsFigures c) : isWordByte c = false ∧ c ≠ '.' := by
  simpa [endsFigures] using h

section
variable {ds : List Char} (hds : ∀ d ∈ ds, d.isDigit) {c : Char} {rest : List Char}
include hds

theorem digitRun?_digits (hdigit : c.isDigit = false) (hc : c ≠ '_') :
    digitRun? Char.isDigit (ds ++ c :: rest) = some ds.length := by
  have hline {d : Char} (hd : d.isDigit) : d ≠ '_' := by
    rintro rfl
    cases hd
  induction ds with
  | nil =>
    rw [List.nil_append, digitRun?.eq_3 _ _ _ fun _ _ h _ => hc h, if_neg hc, hdigit,
      if_neg Bool.false_ne_true]
    rfl
  | cons d ds ih =>
    obtain ⟨hd, hds⟩ := List.forall_mem_cons.mp hds
    rw [List.cons_append, digitRun?.eq_3 _ _ _ fun _ _ h _ => hline hd h, if_neg (hline hd), if_pos hd,
      ih hds]
    rfl

theorem digitsOf_digits : digitsOf ds = ds := by
  refine List.filter_eq_self.mpr fun d hd => decide_eq_true ?_
  rintro rfl
  cases hds _ hd

theorem decimalNumber?_digits (hc : endsFigures c) (hzero : ¬(ds.head? = some '0' && ds.any (· ≠ '0')) = true)
    (hlength : ds.length ≤ maxDecimalDigits) :
    decimalNumber? (ds ++ c :: rest) = some (.int (decimalValue ds), ds.length) := by
  obtain ⟨hword, hdot⟩ := of_endsFigures hc
  have hother {d : Char} (hd : isWordByte d) : c ≠ d := ne_of_isWordByte hword hd
  have htake : (ds ++ c :: rest).take ds.length = ds := List.take_left
  have hdrop : (ds ++ c :: rest).drop ds.length = c :: rest := List.drop_left
  have hexponent : exponent? (c :: rest) = some none :=
    if_neg (by simp [hother (d := 'e') (by decide), hother (d := 'E') (by decide)])
  have hfinish (real : Double) : decimalNumber?.finish false real ds (c :: rest) ds.length =
      some (.int (decimalValue ds), ds.length) := by
    unfold decimalNumber?.finish
    dsimp only
    rw [if_neg (by simp [endsNumber, hword]), if_neg Bool.false_ne_true, digitsOf_digits hds,
      if_neg (by simpa [hlength] using hzero)]
  unfold decimalNumber?
  rw [digitRun?_digits hds (isDigit_of_not_isWordByte hword) (hother (by decide))]
  dsimp only [Option.bind_eq_bind, Option.bind_some]
  rw [htake, hdrop]
  split
  · next heq => exact absurd (List.cons.inj heq).1 hdot
  · show (exponent? (c :: rest)).bind _ = _
    rw [hexponent]
    exact (if_neg (by simp [hother (d := 'j') (by decide), hother (d := 'J') (by decide)])).trans
      (hfinish _)

end

theorem head_of_toDigits {n : Nat} (hn : 0 < n) : (Nat.toDigits 10 n).head? ≠ some '0' := by
  induction n using Nat.strongRecOn with
  | ind n ih =>
    by_cases hsmall : n < 10
    · rw [Nat.toDigits_of_lt_base hsmall]
      have hall : ∀ m < 10, 0 < m → [m.digitChar].head? ≠ some '0' := by decide
      exact hall n hsmall hn
    · rw [Nat.toDigits_of_base_le (by decide) (by omega), List.head?_append_of_ne_nil _ Nat.toDigits_ne_nil]
      exact ih (n / 10) (by omega) (by omega)

theorem decimalValue_toDigits (n : Nat) : decimalValue (Nat.toDigits 10 n) = n := by
  have hdigits : ∀ d ∈ Nat.toDigits 10 n, d.isDigit := fun d hd =>
    Nat.isDigit_of_mem_toDigits (by decide) (by decide) hd
  rw [decimalValue, digitsOf_digits hdigits]
  exact Nat.ofDigitChars_ten_toDigits

/-- A whole number that is not too long is read back. -/
theorem lexeme?_number {n : Nat} (hlength : (Nat.toDigits 10 n).length ≤ maxDecimalDigits) {c : Char}
    (hc : endsFigures c) (offset : Nat) (rest : List Char) :
    lexeme? offset (Nat.toDigits 10 n ++ c :: rest) =
      some (.number (.int n), (Nat.toDigits 10 n).length) := by
  have hdigits : ∀ d ∈ Nat.toDigits 10 n, d.isDigit := fun d hd =>
    Nat.isDigit_of_mem_toDigits (by decide) (by decide) hd
  have hzero : ¬((Nat.toDigits 10 n).head? = some '0' && (Nat.toDigits 10 n).any (· ≠ '0')) = true := by
    by_cases hn : n = 0
    · rw [hn, Nat.toDigits_zero]
      decide
    · simp [head_of_toDigits (Nat.pos_of_ne_zero hn)]
  have hdecimal : decimalNumber? (Nat.toDigits 10 n ++ c :: rest) = _ :=
    decimalNumber?_digits hdigits hc hzero hlength
  rw [decimalValue_toDigits] at hdecimal
  have hnumber : number? (Nat.toDigits 10 n ++ c :: rest) =
      decimalNumber? (Nat.toDigits 10 n ++ c :: rest) := by
    obtain ⟨hword, -⟩ := of_endsFigures hc
    have hother {d : Char} (hd : isWordByte d) : c ≠ d := ne_of_isWordByte hword hd
    -- a zero alone has no mark of another base behind it, and other numbers do not start with zero
    unfold number?
    split
    · next d more heq =>
      by_cases hn : n = 0
      · rw [hn, Nat.toDigits_zero] at heq
        obtain rfl := (List.cons.inj (List.cons.inj heq).2).1
        rw [if_neg (by simp [hother (d := 'x') (by decide), hother (d := 'X') (by decide)]),
          if_neg (by simp [hother (d := 'o') (by decide), hother (d := 'O') (by decide)]),
          if_neg (by simp [hother (d := 'b') (by decide), hother (d := 'B') (by decide)])]
      · have hhead := congrArg List.head? heq
        rw [List.head?_append_of_ne_nil _ Nat.toDigits_ne_nil] at hhead
        exact absurd hhead (head_of_toDigits (Nat.pos_of_ne_zero hn))
    · rfl
  cases hlist : Nat.toDigits 10 n with
  | nil => exact absurd hlist Nat.toDigits_ne_nil
  | cons d ds =>
    rw [hlist] at hdigits hdecimal hnumber
    have hd : d.isDigit := hdigits d List.mem_cons_self
    unfold lexeme?
    dsimp only [List.cons_append] at hnumber hdecimal ⊢
    rw [if_pos (by simp [hd]), hnumber, hdecimal]
    rfl

def endsWord (c : Char) : Bool := !isWordByte c && c ≠ '"' && c ≠ '\''

theorem of_endsWord {c : Char} (h : endsWord c) : isWordByte c = false ∧ c ≠ '"' ∧ c ≠ '\'' := by
  simpa [endsWord, and_assoc] using h

def endsString (c : Char) : Bool := c ≠ '"' && c ≠ '\''

/-- What stands behind a symbol that it is no part of. -/
def endsSymbol (c : Char) : Bool := c ≠ '=' && c ≠ '*' && c ≠ '>' && c ≠ '<' && c ≠ '/'

theorem cases_of_endsPart {c : Char} (h : endsPart c) :
    c = ' ' ∨ c = ',' ∨ c = ':' ∨ c = ')' ∨ c = ']' ∨ c = '\x7d' ∨ c = '(' ∨ c = '[' := by
  simpa [endsPart, or_assoc] using h

/-- What stands behind a part ends whatever the part ends with. -/
theorem ends_of_endsPart {c : Char} (h : endsPart c) :
    endsWord c ∧ endsFigures c ∧ endsString c ∧ endsSymbol c := by
  rcases cases_of_endsPart h with rfl | rfl | rfl | rfl | rfl | rfl | rfl | rfl <;> decide

theorem endsSymbol_of_startsPart {c : Char} (h : startsPart c) : endsSymbol c := by
  have hother {d : Char} (hd : startsPart d = false) : c ≠ d := by
    rintro rfl
    exact absurd h (by simp [hd])
  simp [endsSymbol, hother (d := '=') (by decide), hother (d := '*') (by decide),
    hother (d := '>') (by decide), hother (d := '<') (by decide), hother (d := '/') (by decide)]

theorem startsPart_of_isWordByte {c : Char} (h : isWordByte c) : startsPart c := by simp [startsPart, h]

/-- A word that is read as the name that it is. -/
structure StandsForItself (word : String) : Prop where
  isVariable : IsVariable word
  compatible : compatible word = word

theorem standsForItself_of_ascii {word : String} (h : IsVariable word)
    (hascii : word.toList.all (·.toNat < 128)) : StandsForItself word :=
  ⟨h, compatible_of_ascii fun c hc => of_decide_eq_true (List.all_eq_true.mp hascii c hc)⟩

theorem isWordByte_of_isIdentifier {word : String} (h : isIdentifier word) :
    ∀ c ∈ word.toList, isWordByte c := by
  have hchars : isIdentifierChars word.toList := h
  cases hlist : word.toList with
  | nil => nofun
  | cons first more =>
    rw [hlist] at hchars
    obtain ⟨hfirst, hmore⟩ := Bool.and_eq_true_iff.mp hchars
    exact List.forall_mem_cons.mpr ⟨(isWordByte_of_isIdentifierStart hfirst).1, fun c hc =>
      isWordByte_of_isIdentifierContinue (List.all_eq_true.mp hmore c hc)⟩

theorem inline_of_isWordByte {text : List Char} (h : ∀ c ∈ text, isWordByte c) : '\n' ∉ text :=
  fun hmem => absurd (h _ hmem) (by decide)

theorem scans_name {word : String} (h : StandsForItself word) : Scans endsWord word.toList [.name word] := by
  obtain ⟨d, a, hlist, hd, -⟩ := h.isVariable.exists_first
  have hlength : word.length = a.length + 1 := by rw [← String.length_toList, hlist, List.length_cons]
  have hbytes : ∀ c ∈ word.toList, isWordByte c := isWordByte_of_isIdentifier h.isVariable.1
  rw [hlist] at hbytes ⊢
  refine scans_lexeme (startsLexeme_of_isWordByte hd) rfl
    (inline_of_isWordByte (List.forall_mem_cons.mp hbytes).2) fun offset c rest hc => ⟨.name word, ?_, rfl⟩
  obtain ⟨hword, hquote⟩ := of_endsWord hc
  rw [← hlist, lexeme?_name h.isVariable.1 h.isVariable.2 hword hquote, h.compatible, hlength]

theorem startsWith_name {word : String} (h : StandsForItself word) : StartsWith isWordByte word.toList := by
  obtain ⟨d, a, hlist, hd, -⟩ := h.isVariable.exists_first
  rw [hlist]
  exact hd

def printedKeywords : List String :=
  ["None", "True", "False", "lambda", "not", "and", "or", "if", "else", "for", "async", "in", "is",
   "await", "yield", "from", "as"]

theorem scans_keyword {s : String} (h : s ∈ printedKeywords) :
    Scans endsWord s.toList [.keyword s] := by
  have hall : printedKeywords.all (fun s => s.toList.head?.any (!·.isDigit) &&
      s.toList.all isWordByte && isKeyword s) = true := by decide
  obtain ⟨⟨hfirst, hbytes⟩, hkeyword⟩ : (s.toList.head?.any (!·.isDigit) = true ∧
      ∀ c ∈ s.toList, isWordByte c) ∧ isKeyword s := by simpa using List.all_eq_true.mp hall s h
  obtain ⟨d, hhead, hdigit⟩ := (Option.any_eq_true _ _).mp hfirst
  obtain ⟨a, hlist⟩ := List.head?_eq_some_iff.mp hhead
  rw [hlist] at hbytes ⊢
  refine scans_lexeme (startsLexeme_of_isWordByte (hbytes d List.mem_cons_self)) rfl
    (inline_of_isWordByte (List.forall_mem_cons.mp hbytes).2) fun offset c rest hc => ⟨.keyword s, ?_, rfl⟩
  obtain ⟨hc, hquote⟩ := of_endsWord hc
  rw [lexeme?_word hbytes (by simpa using hdigit) hc hquote]
  dsimp only
  rw [← hlist, String.ofList_toList, if_pos hkeyword]

theorem scans_number {n : Nat} (h : (Nat.toDigits 10 n).length ≤ maxDecimalDigits) :
    Scans endsFigures (Nat.toDigits 10 n) [.number (.int n)] := by
  have hlexeme {c : Char} (hc : endsFigures c) := lexeme?_number h hc
  have hdigits : ∀ d ∈ Nat.toDigits 10 n, d.isDigit := fun d hd =>
    Nat.isDigit_of_mem_toDigits (by decide) (by decide) hd
  cases hlist : Nat.toDigits 10 n with
  | nil => exact absurd hlist Nat.toDigits_ne_nil
  | cons d ds =>
    rw [hlist] at hlexeme hdigits
    have hbytes : ∀ c ∈ d :: ds, isWordByte c := fun c hc => by
      simp [isWordByte, Char.isAlphanum, hdigits c hc]
    obtain ⟨hd, hds⟩ := List.forall_mem_cons.mp hbytes
    exact scans_lexeme (startsLexeme_of_isWordByte hd) rfl (inline_of_isWordByte hds) fun offset c rest hc =>
      ⟨.number (.int n), hlexeme hc offset rest, rfl⟩

theorem startsLexeme_of_string {offset n : Nat} {c : Char} {rest : List Char} {s : StringLiteral}
    (h : lexeme? offset (c :: rest) = some (.string s, n)) : startsLexeme c ∧ startsPart c := by
  unfold lexeme? at h
  dsimp only at h
  split at h
  · obtain ⟨x, -, hx⟩ := Option.map_eq_some_iff.mp h
    cases hx
  split at h
  · next hword => exact ⟨startsLexeme_of_isWordByte hword, startsPart_of_isWordByte hword⟩
  split at h
  · next hquote =>
    have hquote : c = '"' ∨ c = '\'' := by simpa using hquote
    rcases hquote with rfl | rfl <;> decide
  · obtain ⟨x, -, hx⟩ := Option.map_eq_some_iff.mp h
    cases hx

/-- A printed string is one lexeme, which has its value. -/
theorem exists_scans_string {text : List Char} {value : Literal} (h : IsStringText text value) :
    ∃ marks body, StartsWith startsPart text ∧ Scans endsString text [.string ⟨marks, body, 0⟩] ∧
      ∀ inner start, stringsForm? inner [⟨marks, body, start⟩] = some (.literal value) := by
  obtain ⟨hline, marks, body, hlexeme, hform⟩ := h
  cases text with
  | nil =>
    obtain ⟨start, hstart⟩ := hlexeme 0 [] nofun
    cases hstart
  | cons d a =>
    obtain ⟨start, hstart⟩ := hlexeme 0 [] nofun
    obtain ⟨hlexemes, hpart⟩ := startsLexeme_of_string hstart
    have hinside : '\n' ∉ a := fun hmem => hline (List.mem_cons_of_mem _ hmem)
    refine ⟨marks, body, hpart, scans_lexeme hlexemes rfl hinside fun offset c rest hc => ?_, hform⟩
    have hquote : ¬IsQuote c := by
      simp only [endsString, Bool.and_eq_true, decide_eq_true_eq] at hc
      simp [IsQuote, hc]
    obtain ⟨start, hstart⟩ := hlexeme offset (c :: rest) fun d hd => Option.some.inj hd ▸ hquote
    exact ⟨_, hstart, rfl⟩

/-- Symbols that terms are printed with, brackets and dots apart. -/
def printedSymbols : List String :=
  [",", ":", "=", ":=", "+", "-", "~", "*", "**", "@", "/", "//", "%", "<<", ">>", "&", "^", "|", "==",
   "!=", "<", "<=", ">", ">="]

theorem scans_symbol {s : String} (h : s ∈ printedSymbols) : Scans endsSymbol s.toList [.symbol s] := by
  have hfound (c : Char) (rest : List Char) (hc : endsSymbol c) :
      symbol? (s.toList ++ c :: rest) = some s := by
    simp only [endsSymbol, Bool.and_eq_true, decide_eq_true_eq] at hc
    obtain ⟨⟨⟨⟨hequals, hstar⟩, harrow⟩, hless⟩, hslash⟩ := hc
    simp only [printedSymbols, List.mem_cons, List.not_mem_nil, or_false] at h
    rcases h with rfl | rfl | rfl | rfl | rfl | rfl | rfl | rfl | rfl | rfl | rfl | rfl | rfl | rfl | rfl |
      rfl | rfl | rfl | rfl | rfl | rfl | rfl | rfl | rfl <;>
      simp [symbol?, symbols, hequals.symm, hstar.symm, harrow.symm, hless.symm, hslash.symm]
  have hall : printedSymbols.all (fun s => s.toList.head?.any fun d => startsLexeme d && !isWordByte d &&
      d ≠ '.' && d ≠ '"' && d ≠ '\'') = true := by decide
  have hline : '\n' ∉ s.toList := by
    have hall : printedSymbols.all (fun s => !s.toList.contains '\n') = true := by decide
    simpa using List.all_eq_true.mp hall s h
  have hflat : isFlat (.symbol s) := by
    have hall : printedSymbols.all (fun s => isFlat (.symbol s)) = true := by decide
    exact List.all_eq_true.mp hall s h
  obtain ⟨d, hhead, hd⟩ := (Option.any_eq_true _ _).mp (List.all_eq_true.mp hall s h)
  obtain ⟨a, hlist⟩ := List.head?_eq_some_iff.mp hhead
  simp only [Bool.and_eq_true, Bool.not_eq_true', decide_eq_true_eq] at hd
  obtain ⟨⟨⟨⟨hd, hword⟩, hdot⟩, hdouble⟩, hsingle⟩ := hd
  have hlength : s.length = a.length + 1 := by rw [← String.length_toList, hlist, List.length_cons]
  rw [hlist] at hfound hline ⊢
  refine scans_lexeme hd hflat (fun hmem => hline (List.mem_cons_of_mem _ hmem)) fun offset c rest hc =>
    ⟨.symbol s, ?_, rfl⟩
  have hdigit := isDigit_of_not_isWordByte hword
  unfold lexeme?
  rw [List.cons_append]
  dsimp only
  rw [if_neg (by simp [hdigit, hdot]), if_neg (by simp [hword]), if_neg (by simp [hdouble, hsingle]),
    ← List.cons_append, hfound c rest hc, ← hlength]
  rfl

end ViewTree.Embedded
