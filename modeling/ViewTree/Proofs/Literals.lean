import ViewTree.Proofs.Capture.Pieces

/-!
Literals of the embedded language, as its reference defines them, for texts whose lines end with line
feeds. Main statement: the lexer, which knows much less about them, reads a literal between blanks as
one token (`Lexer.run_literal`), whatever its prefix, quotes, escapes, base, exponent or suffix.
-/
namespace ViewTree
namespace Lexer
open Text

def decimals : List Char := ['0', '1', '2', '3', '4', '5', '6', '7', '8', '9']

/-- Digits, with single underscores between them where they are wanted. -/
inductive IsDigits (digits : List Char) : List Char → Prop where
  | one {c : Char} (hc : c ∈ digits) : IsDigits digits [c]
  | digit {c : Char} {cs : List Char} (hc : c ∈ digits) (h : IsDigits digits cs) :
      IsDigits digits (c :: cs)
  | underscore {c : Char} {cs : List Char} (hc : c ∈ digits) (h : IsDigits digits cs) :
      IsDigits digits (c :: '_' :: cs)

/-- Bases other than ten: the marks behind the zero, and the digits. -/
def bases : List (List Char × List Char) :=
  [(['b', 'B'], ['0', '1']),
   (['o', 'O'], ['0', '1', '2', '3', '4', '5', '6', '7']),
   (['x', 'X'], decimals ++ ['a', 'b', 'c', 'd', 'e', 'f', 'A', 'B', 'C', 'D', 'E', 'F'])]

inductive IsInteger : List Char → Prop where
  | decimal {c : Char} {cs : List Char} (hc : c ≠ '0') (h : IsDigits decimals (c :: cs)) :
      IsInteger (c :: cs)
  | zero {cs : List Char} (h : IsDigits ['0'] cs) : IsInteger cs
  | based {base : List Char × List Char} {mark : Char} {cs : List Char} (hbase : base ∈ bases)
      (hmark : mark ∈ base.1) (h : IsDigits base.2 cs) : IsInteger ('0' :: mark :: cs)
  | basedUnderscore {base : List Char × List Char} {mark : Char} {cs : List Char}
      (hbase : base ∈ bases) (hmark : mark ∈ base.1) (h : IsDigits base.2 cs) :
      IsInteger ('0' :: mark :: '_' :: cs)

inductive IsExponent : List Char → Prop where
  | plain {mark : Char} {cs : List Char} (hmark : mark ∈ ['e', 'E']) (h : IsDigits decimals cs) :
      IsExponent (mark :: cs)
  | signed {mark sign : Char} {cs : List Char} (hmark : mark ∈ ['e', 'E'])
      (hsign : sign ∈ ['+', '-']) (h : IsDigits decimals cs) : IsExponent (mark :: sign :: cs)

inductive IsPointFloat : List Char → Prop where
  | fraction {cs : List Char} (h : IsDigits decimals cs) : IsPointFloat ('.' :: cs)
  | whole {cs : List Char} (h : IsDigits decimals cs) : IsPointFloat (cs ++ ['.'])
  | both {cs more : List Char} (h : IsDigits decimals cs) (hmore : IsDigits decimals more) :
      IsPointFloat (cs ++ '.' :: more)

inductive IsFloat : List Char → Prop where
  | point {cs : List Char} (h : IsPointFloat cs) : IsFloat cs
  | exponent {cs power : List Char} (h : IsDigits decimals cs ∨ IsPointFloat cs)
      (hpower : IsExponent power) : IsFloat (cs ++ power)

inductive IsNumber : List Char → Prop where
  | integer {cs : List Char} (h : IsInteger cs) : IsNumber cs
  | float {cs : List Char} (h : IsFloat cs) : IsNumber cs
  | imaginary {cs : List Char} {mark : Char} (h : IsDigits decimals cs ∨ IsFloat cs)
      (hmark : mark ∈ ['j', 'J']) : IsNumber (cs ++ [mark])

/-- What may stand before the quotes of a string, or of one of bytes. -/
def stringPrefixes : List (List Char) :=
  [['r'], ['u'], ['R'], ['U'], ['f'], ['F'],
   ['f', 'r'], ['F', 'r'], ['f', 'R'], ['F', 'R'], ['r', 'f'], ['r', 'F'], ['R', 'f'], ['R', 'F'],
   ['b'], ['B'],
   ['b', 'r'], ['B', 'r'], ['b', 'R'], ['B', 'R'], ['r', 'b'], ['r', 'B'], ['R', 'b'], ['R', 'B']]

/-- What stands behind the quote of a short string, with the closing quote. A backslash takes the next
character with it, in a raw string too. -/
inductive IsShortBody (quote : Char) : List Char → Prop where
  | close : IsShortBody quote [quote]
  | plain {c : Char} {cs : List Char} (hbackslash : c ≠ '\\') (hfeed : c ≠ '\n') (hquote : c ≠ quote)
      (h : IsShortBody quote cs) : IsShortBody quote (c :: cs)
  | escape {c : Char} {cs : List Char} (h : IsShortBody quote cs) : IsShortBody quote ('\\' :: c :: cs)

/-- What stands behind the three quotes of a long string. The first three quotes in a row close it. -/
inductive IsLongBody (quote : Char) : List Char → Prop where
  | close : IsLongBody quote [quote, quote, quote]
  | plain {c : Char} {cs : List Char} (hbackslash : c ≠ '\\')
      (hquotes : ¬[quote, quote, quote] <+: c :: cs) (h : IsLongBody quote cs) :
      IsLongBody quote (c :: cs)
  | escape {c : Char} {cs : List Char} (h : IsLongBody quote cs) : IsLongBody quote ('\\' :: c :: cs)

/-- What stands behind the first quote of a string. -/
inductive IsStringBody (quote : Char) : List Char → Prop where
  | short {cs : List Char} (h : IsShortBody quote cs) : IsStringBody quote cs
  | long {cs : List Char} (h : IsLongBody quote cs) : IsStringBody quote (quote :: quote :: cs)

inductive IsLiteral : TokenKind → List Char → Prop where
  | string {quote : Char} {cs : List Char} (hquote : quote ∈ ['"', '\''])
      (h : IsStringBody quote cs) : IsLiteral .string (quote :: cs)
  | marked {mark cs : List Char} {quote : Char} (hmark : mark ∈ stringPrefixes)
      (hquote : quote ∈ ['"', '\'']) (h : IsStringBody quote cs) :
      IsLiteral .string (mark ++ quote :: cs)
  | number {cs : List Char} (h : IsNumber cs) : IsLiteral .number cs

/-- The lexer takes these characters to a number, and looks behind them only for a sign. -/
def Runs (cs : List Char) : Prop :=
  ∀ more : List Char, (∀ c ∈ more.head?, isSign c = false) →
    numberLength (cs ++ more) = cs.length + numberLength more

/-- Characters that the lexer takes to a number wherever they stand in it. -/
def isNumeral (c : Char) : Bool := isWordChar c || c = '.'

theorem isNumeral_of_isWordChar {c : Char} (h : isWordChar c) : isNumeral c := by
  rw [isNumeral, h, Bool.true_or]

theorem isSign_of_isNumeral {c : Char} (h : isNumeral c) : isSign c = false := by
  by_cases hsign : c = '+' ∨ c = '-'
  · rcases hsign with rfl | rfl <;> exact absurd h (by decide)
  · simpa [isSign] using hsign

theorem numberLength_numeral {c : Char} {cs : List Char} (hc : isNumeral c)
    (hcs : ∀ d ∈ cs.head?, isSign d = false) : numberLength (c :: cs) = numberLength cs + 1 := by
  unfold isNumeral at hc
  cases cs with
  | nil =>
    show numberLength [c] = 0 + 1
    rw [numberLength, if_pos hc]
  | cons d cs =>
    rw [numberLength, if_pos hc, hcs d rfl, Bool.and_false, if_neg Bool.false_ne_true]

theorem head?_append_isSign {cs more : List Char} (hcs : ∀ c ∈ cs.head?, isSign c = false)
    (hmore : ∀ c ∈ more.head?, isSign c = false) : ∀ c ∈ (cs ++ more).head?, isSign c = false := by
  cases cs with
  | nil => exact hmore
  | cons d cs => exact hcs

namespace Runs

theorem of_isNumeral {cs : List Char} (h : ∀ c ∈ cs, isNumeral c) : Runs cs := by
  induction cs with
  | nil => exact fun more _ => (Nat.zero_add _).symm
  | cons c cs ih =>
    obtain ⟨hc, hcs⟩ := List.forall_mem_cons.mp h
    intro more hmore
    have hnext : ∀ d ∈ (cs ++ more).head?, isSign d = false :=
      head?_append_isSign (fun d hd => isSign_of_isNumeral (hcs d (List.mem_of_mem_head? hd))) hmore
    rw [List.cons_append, numberLength_numeral hc hnext, ih hcs more hmore, List.length_cons]
    omega

theorem append {cs ds : List Char} (hcs : Runs cs) (hds : Runs ds)
    (hhead : ∀ c ∈ ds.head?, isSign c = false) : Runs (cs ++ ds) := by
  intro more hmore
  rw [List.append_assoc, hcs _ (head?_append_isSign hhead hmore), hds more hmore,
    List.length_append, Nat.add_assoc]

theorem numberLength_eq {cs : List Char} (h : Runs cs) : numberLength cs = cs.length := by
  have hall := h [] nofun
  rwa [List.append_nil] at hall

end Runs

theorem forall_isDigits {P : Char → Prop} {digits cs : List Char} (h : IsDigits digits cs)
    (hdigits : ∀ c ∈ digits, P c) (hunderscore : P '_') : ∀ c ∈ cs, P c := by
  induction h with
  | one hc => exact List.forall_mem_singleton.mpr (hdigits _ hc)
  | digit hc _ ih => exact List.forall_mem_cons.mpr ⟨hdigits _ hc, ih⟩
  | underscore hc _ ih =>
    exact List.forall_mem_cons.mpr ⟨hdigits _ hc, List.forall_mem_cons.mpr ⟨hunderscore, ih⟩⟩

theorem isNumeral_of_isDigits {digits cs : List Char} (h : IsDigits digits cs)
    (hdigits : ∀ c ∈ digits, isWordChar c) : ∀ c ∈ cs, isNumeral c :=
  forall_isDigits h (fun c hc => isNumeral_of_isWordChar (hdigits c hc)) (by decide)

theorem isWordChar_of_mem_decimals : ∀ c ∈ decimals, isWordChar c := forall_of_all (by decide)

theorem isWordChar_of_mem_bases : ∀ base ∈ bases, (∀ c ∈ base.1, isWordChar c) ∧
    ∀ c ∈ base.2, isWordChar c := by
  have hall : ∀ base ∈ bases, base.1.all isWordChar ∧ base.2.all isWordChar := by decide
  exact fun base hbase =>
    ⟨List.all_eq_true.mp (hall base hbase).1, List.all_eq_true.mp (hall base hbase).2⟩

theorem isNumeral_of_isInteger {cs : List Char} (h : IsInteger cs) : ∀ c ∈ cs, isNumeral c := by
  cases h with
  | decimal _ h => exact isNumeral_of_isDigits h isWordChar_of_mem_decimals
  | zero h => exact isNumeral_of_isDigits h (forall_of_all (by decide))
  | based hbase hmark h =>
    obtain ⟨hmarks, hdigits⟩ := isWordChar_of_mem_bases _ hbase
    exact List.forall_mem_cons.mpr ⟨by decide, List.forall_mem_cons.mpr
      ⟨isNumeral_of_isWordChar (hmarks _ hmark), isNumeral_of_isDigits h hdigits⟩⟩
  | basedUnderscore hbase hmark h =>
    obtain ⟨hmarks, hdigits⟩ := isWordChar_of_mem_bases _ hbase
    exact List.forall_mem_cons.mpr ⟨by decide, List.forall_mem_cons.mpr
      ⟨isNumeral_of_isWordChar (hmarks _ hmark),
        List.forall_mem_cons.mpr ⟨by decide, isNumeral_of_isDigits h hdigits⟩⟩⟩

theorem isNumeral_of_isPointFloat {cs : List Char} (h : IsPointFloat cs) :
    ∀ c ∈ cs, isNumeral c := by
  have hdigits {ds : List Char} (h : IsDigits decimals ds) : ∀ c ∈ ds, isNumeral c :=
    isNumeral_of_isDigits h isWordChar_of_mem_decimals
  cases h with
  | fraction h => exact List.forall_mem_cons.mpr ⟨by decide, hdigits h⟩
  | whole h =>
    exact List.forall_mem_append.mpr ⟨hdigits h, List.forall_mem_singleton.mpr (by decide)⟩
  | both h hmore =>
    exact List.forall_mem_append.mpr ⟨hdigits h, List.forall_mem_cons.mpr ⟨by decide, hdigits hmore⟩⟩

theorem runs_of_isExponent {power : List Char} (h : IsExponent power) :
    Runs power ∧ ∀ c ∈ power.head?, isSign c = false := by
  have hmark : ∀ mark ∈ ['e', 'E'], isNumeral mark = true ∧ isExponentMark mark = true :=
    forall_of_all (by decide)
  cases h with
  | plain he h =>
    have hnumeral := (hmark _ he).1
    exact ⟨.of_isNumeral (List.forall_mem_cons.mpr
      ⟨hnumeral, isNumeral_of_isDigits h isWordChar_of_mem_decimals⟩),
      fun c hc => Option.some.inj hc ▸ isSign_of_isNumeral hnumeral⟩
  | @signed mark sign cs he hs h =>
    obtain ⟨hnumeral, hexponent⟩ := hmark _ he
    have hplus : ∀ sign ∈ ['+', '-'], isSign sign = true := forall_of_all (by decide)
    refine ⟨fun more hmore => ?_, fun c hc => Option.some.inj hc ▸ isSign_of_isNumeral hnumeral⟩
    have hdigits := Runs.of_isNumeral (isNumeral_of_isDigits h isWordChar_of_mem_decimals) more hmore
    unfold isNumeral at hnumeral
    rw [List.cons_append, List.cons_append, numberLength, if_pos hnumeral, hexponent, hplus sign hs,
      Bool.and_self, if_pos rfl, hdigits, List.length_cons, List.length_cons]
    omega

theorem runs_of_isFloat {cs : List Char} (h : IsFloat cs) : Runs cs := by
  cases h with
  | point h => exact .of_isNumeral (isNumeral_of_isPointFloat h)
  | exponent h hpower =>
    obtain ⟨hruns, hhead⟩ := runs_of_isExponent hpower
    refine .append (.of_isNumeral ?_) hruns hhead
    exact h.elim (isNumeral_of_isDigits · isWordChar_of_mem_decimals) isNumeral_of_isPointFloat

/-- A number is taken whole. -/
theorem runs_of_isNumber {cs : List Char} (h : IsNumber cs) : Runs cs := by
  cases h with
  | integer h => exact .of_isNumeral (isNumeral_of_isInteger h)
  | float h => exact runs_of_isFloat h
  | @imaginary cs mark h hmark =>
    have hmarks : ∀ mark ∈ ['j', 'J'], isWordChar mark := forall_of_all (by decide)
    have hnumeral := isNumeral_of_isWordChar (hmarks mark hmark)
    refine .append ?_ (.of_isNumeral (List.forall_mem_singleton.mpr hnumeral))
      fun c hc => Option.some.inj hc ▸ isSign_of_isNumeral hnumeral
    exact h.elim (fun h => .of_isNumeral (isNumeral_of_isDigits h isWordChar_of_mem_decimals))
      runs_of_isFloat

/-- What the lexer knows a number by: a digit, or a point and a digit. -/
def StartsNumber (cs : List Char) : Prop :=
  ∃ c rest, cs = c :: rest ∧ (c ∈ decimals ∨ c = '.' ∧ ∃ d ∈ rest.head?, d ∈ decimals)

theorem StartsNumber.append {cs : List Char} (h : StartsNumber cs) (more : List Char) :
    StartsNumber (cs ++ more) := by
  obtain ⟨c, rest, rfl, hc⟩ := h
  refine ⟨c, rest ++ more, rfl, hc.imp_right (And.imp_right ?_)⟩
  rintro ⟨d, hd, hdigit⟩
  obtain ⟨later, rfl⟩ := List.head?_eq_some_iff.mp hd
  exact ⟨d, rfl, hdigit⟩

theorem IsDigits.exists_head {digits cs : List Char} (h : IsDigits digits cs) :
    ∃ c rest, cs = c :: rest ∧ c ∈ digits := by
  cases h with
  | one hc => exact ⟨_, _, rfl, hc⟩
  | digit hc => exact ⟨_, _, rfl, hc⟩
  | underscore hc => exact ⟨_, _, rfl, hc⟩

theorem IsDigits.startsNumber {cs : List Char} (h : IsDigits decimals cs) : StartsNumber cs := by
  obtain ⟨c, rest, rfl, hc⟩ := h.exists_head
  exact ⟨c, rest, rfl, .inl hc⟩

theorem IsInteger.startsNumber {cs : List Char} (h : IsInteger cs) : StartsNumber cs := by
  have hzero : '0' ∈ decimals := by decide
  cases h with
  | decimal _ h => exact h.startsNumber
  | zero h =>
    obtain ⟨c, rest, rfl, hc⟩ := h.exists_head
    exact ⟨c, rest, rfl, .inl (List.mem_singleton.mp hc ▸ hzero)⟩
  | based => exact ⟨_, _, rfl, .inl hzero⟩
  | basedUnderscore => exact ⟨_, _, rfl, .inl hzero⟩

theorem IsPointFloat.startsNumber {cs : List Char} (h : IsPointFloat cs) : StartsNumber cs := by
  cases h with
  | fraction h =>
    obtain ⟨c, rest, rfl, hc⟩ := h.exists_head
    exact ⟨'.', c :: rest, rfl, .inr ⟨rfl, c, rfl, hc⟩⟩
  | whole h => exact h.startsNumber.append _
  | both h => exact h.startsNumber.append _

theorem IsFloat.startsNumber {cs : List Char} (h : IsFloat cs) : StartsNumber cs := by
  cases h with
  | point h => exact h.startsNumber
  | exponent h => exact (h.elim IsDigits.startsNumber IsPointFloat.startsNumber).append _

theorem IsNumber.startsNumber {cs : List Char} (h : IsNumber cs) : StartsNumber cs := by
  cases h with
  | integer h => exact h.startsNumber
  | float h => exact h.startsNumber
  | imaginary h => exact (h.elim IsDigits.startsNumber IsFloat.startsNumber).append _

theorem isDigit_of_mem_decimals : ∀ c ∈ decimals, isDigit c := forall_of_all (by decide)

theorem step_number {c : Char} {rest : List Char} (h : IsNumber (c :: rest)) :
    step c rest = .ok (some .number, rest.length) := by
  have hstart : (isDigit c || (c = '.' && rest.head?.any isDigit)) = true ∧
      c ∈ '.' :: decimals := by
    obtain ⟨c, rest, heq, hc⟩ := h.startsNumber
    obtain ⟨rfl, rfl⟩ := List.cons.inj heq
    rcases hc with hc | ⟨rfl, d, hd, hdigit⟩
    · exact ⟨by rw [isDigit_of_mem_decimals c hc, Bool.true_or], List.mem_cons_of_mem _ hc⟩
    · rw [Option.mem_def.mp hd]
      exact ⟨by simp [isDigit_of_mem_decimals d hdigit], List.mem_cons_self⟩
  have hother : ∀ c ∈ '.' :: decimals,
      isSkipped c = false ∧ c ≠ '#' ∧ (decide (c = '"') || decide (c = '\'')) = false :=
    forall_of_all (by decide)
  obtain ⟨hskipped, hcomment, hquote⟩ := hother c hstart.2
  unfold step
  rw [hskipped, if_neg nofun, if_neg hcomment, hquote, if_neg nofun, if_pos hstart.1,
    (runs_of_isNumber h).numberLength_eq, List.length_cons, Nat.add_sub_cancel]

theorem closingQuote?_of_isShortBody {quote : Char} (hquote : quote ∈ ['"', '\''])
    {cs : List Char} (h : IsShortBody quote cs) : closingQuote? quote cs = some cs.length := by
  have hplain : ∀ quote ∈ ['"', '\''], quote ≠ '\\' ∧ quote ≠ '\n' := forall_of_all (by decide)
  obtain ⟨hbackslash, hfeed⟩ := hplain quote hquote
  induction h with
  | close =>
    rw [closingQuote?.eq_4 _ _ _ (fun h _ => hbackslash h) fun _ _ h _ => hbackslash h,
      if_neg hfeed, if_pos rfl]
    rfl
  | plain hc hline hother _ ih =>
    rw [closingQuote?.eq_4 _ _ _ (fun h _ => hc h) fun _ _ h _ => hc h, if_neg hline,
      if_neg hother, ih]
    rfl
  | escape _ ih =>
    rw [closingQuote?, ih]
    rfl

theorem closingQuotes?_of_isLongBody {quote : Char} (hquote : quote ∈ ['"', '\''])
    {cs : List Char} (h : IsLongBody quote cs) : closingQuotes? quote cs = some cs.length := by
  have hplain : ∀ quote ∈ ['"', '\''], quote ≠ '\\' := forall_of_all (by decide)
  have hbackslash := hplain quote hquote
  induction h with
  | close =>
    rw [closingQuotes?.eq_4 _ _ _ (fun h _ => hbackslash h) fun _ _ h _ => hbackslash h,
      if_pos (List.isPrefixOf_iff_prefix.mpr (List.prefix_refl _))]
    rfl
  | plain hc hquotes _ ih =>
    rw [closingQuotes?.eq_4 _ _ _ (fun h _ => hc h) fun _ _ h _ => hc h,
      if_neg fun h => hquotes (List.isPrefixOf_iff_prefix.mp h), ih]
    rfl
  | escape _ ih =>
    rw [closingQuotes?, ih]
    rfl

/-- A short string does not start with two quotes, except for the empty one, which ends there. -/
theorem stringLength?_of_isShortBody {quote : Char} (hquote : quote ∈ ['"', '\''])
    {cs : List Char} (h : IsShortBody quote cs) : stringLength? quote cs = some cs.length := by
  have hbackslash : ∀ quote ∈ ['"', '\''], '\\' ≠ quote := forall_of_all (by decide)
  have hclosing := closingQuote?_of_isShortBody hquote h
  cases h with
  | close => exact hclosing
  | @plain c cs hc hfeed hother h =>
    cases cs with
    | nil => cases h
    | cons d cs =>
      refine (if_neg ?_).trans hclosing
      simp [hother]
  | escape h =>
    refine (if_neg ?_).trans hclosing
    simp [hbackslash quote hquote]

theorem stringLength?_of_isStringBody {quote : Char} (hquote : quote ∈ ['"', '\''])
    {cs : List Char} (h : IsStringBody quote cs) : stringLength? quote cs = some cs.length := by
  cases h with
  | short h => exact stringLength?_of_isShortBody hquote h
  | long h =>
    have hclosing := closingQuotes?_of_isLongBody hquote h
    simp [stringLength?, hclosing]

theorem step_string {quote : Char} (hquote : quote ∈ ['"', '\'']) {cs : List Char}
    (h : IsStringBody quote cs) : step quote cs = .ok (some .string, cs.length) := by
  have hkind : ∀ quote ∈ ['"', '\''], isSkipped quote = false ∧ quote ≠ '#' ∧
      (decide (quote = '"') || decide (quote = '\'')) = true :=
    forall_of_all (by decide)
  obtain ⟨hskipped, hcomment, hopening⟩ := hkind quote hquote
  unfold step
  rw [hskipped, if_neg nofun, if_neg hcomment, if_pos hopening,
    stringLength?_of_isStringBody hquote h]

/-- The lexer reads a prefix as a word and knows it in any case. -/
theorem isStringMark_of_mem {mark : List Char} (h : mark ∈ stringPrefixes) : isStringMark mark := by
  have hall : ∀ mark ∈ stringPrefixes, isStringMark mark := by decide
  exact hall mark h

theorem isLetter_of_mem_stringPrefixes :
    ∀ mark ∈ stringPrefixes, mark ≠ [] ∧ ∀ c ∈ mark, isLetter c ∧ isDigit c = false ∧
      isSkipped c = false ∧ c ∉ ['#', '"', '\'', '.'] := by
  have hsome : ∀ mark ∈ stringPrefixes, mark ≠ [] := by decide
  have hletters : ∀ mark ∈ stringPrefixes, mark.all fun c => isLetter c ∧ isDigit c = false ∧
      isSkipped c = false ∧ c ∉ ['#', '"', '\'', '.'] := by decide
  exact fun mark hmark => ⟨hsome mark hmark, forall_of_all (hletters mark hmark)⟩

theorem step_marked {c quote : Char} {tail cs : List Char} (hmark : c :: tail ∈ stringPrefixes)
    (hquote : quote ∈ ['"', '\'']) (h : IsStringBody quote cs) :
    step c (tail ++ quote :: cs) = .ok (some .string, (tail ++ quote :: cs).length) := by
  obtain ⟨hletter, hdigit, hskipped, hother⟩ :=
    (isLetter_of_mem_stringPrefixes _ hmark).2 c List.mem_cons_self
  simp only [List.mem_cons, List.not_mem_nil, or_false, not_or] at hother
  obtain ⟨hcomment, hdouble, hsingle, hdot⟩ := hother
  have hquotes : ∀ quote ∈ ['"', '\''], isWordChar quote = false ∧
      (decide (quote = '"') || decide (quote = '\'')) = true :=
    forall_of_all (by decide)
  obtain ⟨hword, hopening⟩ := hquotes quote hquote
  have htail : (tail ++ quote :: cs).takeWhile isWordChar = tail := by
    have hall : ∀ d ∈ tail, isWordChar d := fun d hd => isWordChar_of_isLetter
      ((isLetter_of_mem_stringPrefixes _ hmark).2 d (List.mem_cons_of_mem c hd)).1
    rw [List.takeWhile_append_of_pos hall, List.takeWhile_cons, hword, if_neg nofun,
      List.append_nil]
  have hfilter : (some quote).filter
      (fun q => (q = '"' || q = '\'') && isStringMark (c :: tail)) = some quote := by
    rw [Option.filter, hopening, isStringMark_of_mem hmark, Bool.and_self, if_pos rfl]
  unfold step
  rw [hskipped, if_neg nofun, if_neg hcomment, if_neg (by simp [hdouble, hsingle]),
    if_neg (by simp [hdigit, hdot]), if_pos (by simp [hletter])]
  dsimp only
  rw [htail, List.drop_left, List.head?_cons, hfilter, List.tail_cons]
  dsimp only
  rw [stringLength?_of_isStringBody hquote h]
  dsimp only
  rw [List.length_append, List.length_cons, Nat.add_assoc, Nat.add_comm 1]

theorem step_literal {kind : TokenKind} {literal : List Char} (h : IsLiteral kind literal) :
    ∃ c rest, literal = c :: rest ∧ c ≠ '#' ∧ step c rest = .ok (some kind, rest.length) := by
  have hquotes : ∀ quote ∈ ['"', '\''], quote ≠ '#' := forall_of_all (by decide)
  cases h with
  | string hquote h => exact ⟨_, _, rfl, hquotes _ hquote, step_string hquote h⟩
  | @marked mark cs quote hmark hquote h =>
    obtain ⟨hnil, hletters⟩ := isLetter_of_mem_stringPrefixes mark hmark
    obtain ⟨c, tail, rfl⟩ := List.exists_cons_of_ne_nil hnil
    have hother := (hletters c List.mem_cons_self).2.2.2
    exact ⟨c, _, rfl, fun hc => hother (hc ▸ List.mem_cons_self), step_marked hmark hquote h⟩
  | number h =>
    obtain ⟨c, rest, rfl, hc⟩ := h.startsNumber
    refine ⟨c, rest, rfl, ?_, step_number h⟩
    rintro rfl
    exact absurd hc (by simp [decimals])

/-- A literal between blanks is one token, which holds all of it, and lexing goes on behind it. -/
theorem run_literal {kind : TokenKind} {literal : List Char} (h : IsLiteral kind literal) :
    (∀ (p : Position) (more : List Char), run p (' ' :: literal ++ ' ' :: more) =
      (run ((p.next ' ').after literal) (' ' :: more)).map fun ts =>
        { ts with items := ⟨kind, String.ofList literal, p.line, p.column + 1, p.offset + 1,
            p.offset + 1 + literal.length⟩ :: ts.items }) ∧
    ∃ eof, lex (' ' :: literal ++ [' ']) 0 (literal.length + 2) =
      .ok ⟨[⟨kind, String.ofList literal, 1, 2, 1, literal.length + 1⟩], eof⟩ := by
  have hkind : ∀ k ∈ some kind, k ≠ .attrOpen ∧ k ≠ .docComment := by
    rintro k ⟨⟩
    cases h <;> decide
  obtain ⟨c, rest, rfl, hcomment, hstep⟩ := step_literal h
  have hblank (behind : List Char) : step ' ' behind = .ok (none, 0) := if_pos rfl
  have hrun (p : Position) (more : List Char) : run p (' ' :: (c :: rest) ++ ' ' :: more) =
      (run ((p.next ' ').after (c :: rest)) (' ' :: more)).map fun ts =>
        { ts with items := ⟨kind, String.ofList (c :: rest), p.line, p.column + 1, p.offset + 1,
            p.offset + 1 + (c :: rest).length⟩ :: ts.items } := by
    have hbehind := (step_append hstep hkind (x := ' ') (by decide) (absurd · hcomment) more).2
    rw [List.cons_append, run_ok (hblank _), List.take_zero, List.drop_zero, List.cons_append,
      run_ok hbehind, List.take_left, List.drop_left]
    show Except.map _ (Except.map _ (run ((p.next ' ').after (c :: rest)) (' ' :: more))) = _
    cases run ((p.next ' ').after (c :: rest)) (' ' :: more) with
    | error e => rfl
    | ok ts =>
      show Except.ok _ = Except.ok _
      rw [Position.after_cons, Position.after_nil]
      simp only [prepend, stepToken, Option.map_some, Option.map_none, Option.toList_some,
        Option.toList_none, List.nil_append, List.singleton_append, Position.offset_after]
      rfl
  refine ⟨hrun, ?_⟩
  have hall : slice (' ' :: (c :: rest) ++ [' ']) 0 ((c :: rest).length + 2) =
      ' ' :: (c :: rest) ++ [' '] := by
    rw [slice, List.drop_zero, Nat.sub_zero]
    exact List.take_of_length_le (by simp)
  have hend (p : Position) : ∃ eof, run p [' '] = .ok ⟨[], eof⟩ :=
    ⟨_, by rw [run_ok (hblank []), List.drop_nil, run_nil]; rfl⟩
  obtain ⟨eof, heof⟩ := hend (((Position.ofOffset (' ' :: (c :: rest) ++ [' ']) 0).next ' ').after
    (c :: rest))
  rw [lex, hall, hrun, heof]
  refine ⟨eof, ?_⟩
  show Except.ok (Tokens.mk [Token.mk _ _ 1 2 1 (1 + (c :: rest).length)] eof) = _
  rw [Nat.add_comm 1]

theorem run_literal_rawBytes_and_imaginary :
    (∃ eof, lex (' ' :: ['R', 'b', '\'', '\'', '\'', '\\', '\'', '\'', '\'', ',', '\'', '\'', '\''] ++
      [' ']) 0 15 = .ok ⟨[⟨.string, "Rb'''\\''','''", 1, 2, 1, 14⟩], eof⟩) ∧
    ∃ eof, lex (' ' :: ['1', '_', '0', '.', 'E', '-', '3', 'j'] ++ [' ']) 0 10 =
      .ok ⟨[⟨.number, "1_0.E-3j", 1, 2, 1, 9⟩], eof⟩ := by
  have hbody : IsLongBody '\'' ['\\', '\'', '\'', '\'', ',', '\'', '\'', '\''] :=
    .escape (.plain (by decide) (by decide) (.plain (by decide) (by decide)
      (.plain (by decide) (by decide) .close)))
  have hwhole : IsDigits decimals ['1', '_', '0'] := .underscore (by decide) (.one (by decide))
  have hpower : IsExponent ['E', '-', '3'] := .signed (by decide) (by decide) (.one (by decide))
  have hnumber : IsNumber ['1', '_', '0', '.', 'E', '-', '3', 'j'] :=
    .imaginary (.inr (.exponent (.inr (.whole hwhole)) hpower)) (by decide)
  have hstring : IsLiteral .string (['R', 'b'] ++ '\'' :: ['\'', '\'', '\\', '\'', '\'', '\'', ',',
      '\'', '\'', '\'']) := .marked (by decide) (by decide) (.long hbody)
  exact ⟨(run_literal hstring).2, (run_literal (.number hnumber)).2⟩

end Lexer
end ViewTree
