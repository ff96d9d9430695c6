import Mathlib
import ViewTree.Embedded.Format
import ViewTree.Proofs.Spelling
import ViewTree.Text.Quoted

/-!
Quoted texts read back. Between its quotes every code point is spelled so that a scan passes over it
and a decoder finds it again. Main statements: a quoted text and quoted bytes are one string literal, which
has their values (`isStringText_text`, `isStringText_bytes`).
-/
namespace ViewTree.Embedded
open Text

theorem of_hexDigit {d : Nat} (hd : d < 16) :
    isHexChar (hexDigit d) ∧ ∀ ds, hexValue (ds ++ [hexDigit d]) = 16 * hexValue ds + d := by
  have hall : ∀ d < 16, isHexChar (hexDigit d) ∧ (if (hexDigit d).isDigit then (hexDigit d).toNat - 48
      else if 'a' ≤ hexDigit d then (hexDigit d).toNat - 87 else (hexDigit d).toNat - 55) = d := by
    decide
  obtain ⟨hhex, hvalue⟩ := hall d hd
  refine ⟨hhex, fun ds => ?_⟩
  rw [hexValue, List.foldl_append, List.foldl_cons, List.foldl_nil, hvalue]
  rfl

theorem of_hexDigits (width n : Nat) : (hexDigits width n).length = width ∧
    (∀ d ∈ hexDigits width n, isHexChar d) ∧ hexValue (hexDigits width n) = n % 16 ^ width := by
  induction width generalizing n with
  | zero => exact ⟨rfl, nofun, (Nat.mod_one n).symm⟩
  | succ width ih =>
    obtain ⟨hlength, hall, hvalue⟩ := ih (n / 16)
    obtain ⟨hhex, hlast⟩ := of_hexDigit (Nat.mod_lt n (by decide : 0 < 16))
    refine ⟨by rw [hexDigits, List.length_append, hlength]; rfl,
      List.forall_mem_append.mpr ⟨hall, List.forall_mem_singleton.mpr hhex⟩, ?_⟩
    rw [hexDigits, hlast, hvalue, Nat.pow_succ', Nat.mod_mul]
    omega

theorem fixedHex?_hexDigits (width n : Nat) (rest : List Char) :
    fixedHex? width (hexDigits width n ++ rest) = some (n % 16 ^ width, rest) := by
  obtain ⟨hlength, hall, hvalue⟩ := of_hexDigits width n
  have htake : (hexDigits width n ++ rest).take width = hexDigits width n := by
    rw [List.take_left' hlength]
  have hdrop : (hexDigits width n ++ rest).drop width = rest := by rw [List.drop_left' hlength]
  have hdigits : ((hexDigits width n).length = width && (hexDigits width n).all isHexChar) = true := by
    simpa [hlength] using hall
  unfold fixedHex?
  dsimp only
  rw [htake, hdrop, if_pos hdigits, hvalue]

theorem toNat_lt_of_isHexChar {c : Char} (h : isHexChar c) : c.toNat < 128 := by
  unfold isHexChar at h
  simp only [Bool.or_eq_true, Bool.and_eq_true, decide_eq_true_eq] at h
  rcases h with (h | h) | h
  · exact toNat_lt_of_isDigit h
  · exact Nat.lt_of_le_of_lt (Char.le_def.mp h.2) (by decide)
  · exact Nat.lt_of_le_of_lt (Char.le_def.mp h.2) (by decide)

/-- Characters that stand for themselves between quotes. -/
def isBodyChar (quote c : Char) : Bool := c ≠ '\\' && c ≠ '\n' && c ≠ '\r' && c ≠ quote

theorem isBodyChar_of_isHexChar {quote : Char} (hquote : quote = '\'' ∨ quote = '"') {c : Char}
    (h : isHexChar c) : isBodyChar quote c := by
  have hc {d : Char} (hd : isHexChar d = false) : c ≠ d := by
    rintro rfl
    exact absurd h (by simp [hd])
  have hq : isHexChar quote = false := by rcases hquote with rfl | rfl <;> decide
  simp [isBodyChar, hc (d := '\\') (by decide), hc (d := '\n') (by decide),
    hc (d := '\r') (by decide), hc hq]

/-- The code point as it stands between quotes: the character itself, or an escape that stands for
it. -/
inductive Spelled (quote : Char) (escape : List Char → Option (List Nat × Nat)) :
    Nat → List Char → Prop where
  | plain {c} (hc : isBodyChar quote c) : Spelled quote escape c.toNat [c]
  | escaped {n c more} (hc : c ≠ '\n' ∧ c ≠ '\r') (hmore : ∀ d ∈ more, isBodyChar quote d)
      (hescape : ∀ rest, escape (c :: (more ++ rest)) = some ([n], more.length + 1)) :
      Spelled quote escape n ('\\' :: c :: more)

/-- A decoder that replaces what follows a backslash, and keeps all else. -/
structure Decodes (decode : List Char → Option (List Nat))
    (escape : List Char → Option (List Nat × Nat)) : Prop where
  nil : decode [] = some []
  escape (cs) : decode ('\\' :: cs) =
    (escape cs).bind fun found => (decode (cs.drop found.2)).map (found.1 ++ ·)
  plain (c cs) (hc : c ≠ '\\') : decode (c :: cs) = (decode cs).map (c.toNat :: ·)

theorem decodes_decodeText? (named : String → Option Nat) :
    Decodes (decodeText? named) (escape? named) where
  nil := decodeText?.eq_1 named
  escape cs := by
    rw [decodeText?]
    cases escape? named cs <;> rfl
  plain c cs hc := decodeText?.eq_3 named c cs hc

theorem decodes_decodeBytes? : Decodes decodeBytes? byteEscape? where
  nil := decodeBytes?.eq_1
  escape cs := by
    rw [decodeBytes?]
    cases byteEscape? cs <;> rfl
  plain c cs hc := decodeBytes?.eq_3 c cs hc

section
variable {quote : Char} {escape : List Char → Option (List Nat × Nat)} {n : Nat} {b : List Char}

theorem bodyLength?_plain {more : List Char} (h : ∀ c ∈ more, isBodyChar quote c) (rest : List Char) :
    bodyLength? quote (more ++ rest) = (bodyLength? quote rest).map (· + more.length) := by
  induction more with
  | nil => cases hrest : bodyLength? quote rest <;> simp [hrest]
  | cons c more ih =>
    obtain ⟨hc, hmore⟩ := List.forall_mem_cons.mp h
    simp only [isBodyChar, Bool.and_eq_true, decide_eq_true_eq] at hc
    obtain ⟨⟨⟨hbackslash, hfeed⟩, hreturn⟩, hquote⟩ := hc
    rw [List.cons_append, bodyLength?.eq_4 _ _ _ (fun h _ => hbackslash h) fun _ _ h _ => hbackslash h,
      if_neg (by simp [hfeed, hreturn]), if_neg hquote, ih hmore, Option.map_map]
    rfl

theorem Spelled.bodyLength? (h : Spelled quote escape n b) (rest : List Char) :
    bodyLength? quote (b ++ rest) = (bodyLength? quote rest).map (· + b.length) := by
  cases h with
  | plain hc => exact bodyLength?_plain (List.forall_mem_singleton.mpr hc) rest
  | escaped _ hmore _ =>
    rw [List.cons_append, List.cons_append, Embedded.bodyLength?, bodyLength?_plain hmore,
      Option.map_map]
    rfl

theorem Spelled.noReturn (h : Spelled quote escape n b) : '\r' ∉ b := by
  have hplain {c : Char} (hc : isBodyChar quote c) : '\r' ≠ c := by
    rintro rfl
    simp [isBodyChar] at hc
  cases h with
  | plain hc => simpa using hplain hc
  | escaped hc hmore _ =>
    simp only [List.mem_cons, not_or]
    exact ⟨by decide, hc.2.symm, fun hmem => hplain (hmore _ hmem) rfl⟩

theorem Spelled.inline (h : Spelled quote escape n b) : '\n' ∉ b := by
  have hplain {c : Char} (hc : isBodyChar quote c) : '\n' ≠ c := by
    rintro rfl
    simp [isBodyChar] at hc
  cases h with
  | plain hc => simpa using hplain hc
  | escaped hc hmore _ =>
    simp only [List.mem_cons, not_or]
    exact ⟨by decide, hc.1.symm, fun hmem => hplain (hmore _ hmem) rfl⟩

theorem Spelled.decode {decode : List Char → Option (List Nat)} (hdecode : Decodes decode escape)
    (h : Spelled quote escape n b) (rest : List Char) :
    decode (b ++ rest) = (decode rest).map (n :: ·) := by
  cases h with
  | plain hc => exact hdecode.plain _ rest (by rintro rfl; simp [isBodyChar] at hc)
  | @escaped _ c more _ _ hescape =>
    rw [List.cons_append, hdecode.escape, List.cons_append, hescape, Option.bind_some,
      List.drop_succ_cons, List.drop_left]
    rfl

variable {codes : List Nat} {spell : Nat → List Char}

theorem bodyLength?_flatMap (h : ∀ n ∈ codes, Spelled quote escape n (spell n)) (rest : List Char) :
    bodyLength? quote (codes.flatMap spell ++ rest) =
      (bodyLength? quote rest).map (· + (codes.flatMap spell).length) := by
  induction codes with
  | nil => cases hrest : Embedded.bodyLength? quote rest <;> simp [hrest]
  | cons n codes ih =>
    obtain ⟨hn, hcodes⟩ := List.forall_mem_cons.mp h
    rw [List.flatMap_cons, List.append_assoc, hn.bodyLength?, ih hcodes, Option.map_map,
      List.length_append]
    congr 1
    funext m
    simp only [Function.comp_apply]
    omega

theorem decode_flatMap {decode : List Char → Option (List Nat)} (hdecode : Decodes decode escape)
    (h : ∀ n ∈ codes, Spelled quote escape n (spell n)) :
    decode (codes.flatMap spell) = some codes := by
  induction codes with
  | nil => exact hdecode.nil
  | cons n codes ih =>
    obtain ⟨hn, hcodes⟩ := List.forall_mem_cons.mp h
    rw [List.flatMap_cons, hn.decode hdecode, ih hcodes]
    rfl

end
/-- The escapes that texts and bytes have in common. -/
structure Escapes (escape : List Char → Option (List Nat × Nat)) : Prop where
  simple {c n} (h : simpleEscape? c = some n) (rest) : escape (c :: rest) = some ([n], 1)
  short (rest) : escape ('x' :: rest) = (fixedHex? 2 rest).map fun found => ([found.1], 3)

theorem escapes_escape? (named : String → Option Nat) : Escapes (escape? named) where
  simple {c n} h rest := by
    unfold escape?
    split
    case h_1 hnil => cases hnil
    case h_2 hfeed =>
      obtain ⟨rfl, rfl⟩ := List.cons.inj hfeed
      cases h
    case h_3 hcons =>
      obtain ⟨rfl, rfl⟩ := List.cons.inj hcons
      rw [h]
  short rest := rfl

theorem escapes_byteEscape? : Escapes byteEscape? where
  simple {c n} h rest := by
    unfold byteEscape?
    split
    case h_1 hnil => cases hnil
    case h_2 hfeed =>
      obtain ⟨rfl, rfl⟩ := List.cons.inj hfeed
      cases h
    case h_3 hcons =>
      obtain ⟨rfl, rfl⟩ := List.cons.inj hcons
      rw [h]
  short rest := rfl

/-- The quotes that texts are put in. -/
def IsQuote (c : Char) : Prop := c = '\'' ∨ c = '"'

theorem isQuote_quoteFor (codes : List Nat) : IsQuote (quoteFor codes) := by
  unfold quoteFor
  split
  · exact .inr rfl
  · exact .inl rfl

section
variable {quote : Char} (hquote : IsQuote quote) {escape : List Char → Option (List Nat × Nat)}
  (hescape : Escapes escape) {n : Nat}

include hescape in
theorem spelled_simple {c : Char} (h : simpleEscape? c = some n) :
    Spelled quote escape n ['\\', c] := by
  refine .escaped ⟨?_, ?_⟩ nofun (hescape.simple h) <;>
  · rintro rfl
    cases h

include hquote hescape in
/-- A byte by its number. -/
theorem spelled_escapeCode (hn : n < 256) : Spelled quote escape n (escapeCode n) := by
  obtain ⟨hlength, hhex, -⟩ := of_hexDigits 2 n
  unfold escapeCode
  split
  · next htab => exact spelled_simple hescape (htab ▸ rfl)
  split
  · next hfeed => exact spelled_simple hescape (hfeed ▸ rfl)
  split
  · next hreturn => exact spelled_simple hescape (hreturn ▸ rfl)
  refine .escaped (by decide) (fun d hd => isBodyChar_of_isHexChar hquote (hhex d hd)) fun rest => ?_
  rw [hescape.short, fixedHex?_hexDigits, hlength,
    Nat.mod_eq_of_lt (show n < 16 ^ 2 from hn)]
  rfl

/-- One code point between quotes: as it is if it is printed so, and else by an escape. -/
def spellCode (printed : Nat → Bool) (quote : Char) (n : Nat) : List Char :=
  if n = quote.toNat then ['\\', quote]
  else if n = 92 then ['\\', '\\']
  else if printed n then [Char.ofNat n]
  else escapeCode n

theorem toNat_ofNat_of_isValidChar {n : Nat} (h : n.isValidChar) : (Char.ofNat n).toNat = n := by
  unfold Char.ofNat
  rw [dif_pos h]
  rfl

include hquote hescape in
theorem spelled_spellCode {printed : Nat → Bool}
    (hprinted : printed n → n.isValidChar ∧ n ≠ 10 ∧ n ≠ 13)
    (hother : Spelled quote escape n (escapeCode n)) :
    Spelled quote escape n (spellCode printed quote n) := by
  unfold spellCode
  split
  · next hsame =>
    subst hsame
    rcases hquote with rfl | rfl <;> exact spelled_simple hescape rfl
  split
  · next hbackslash => exact spelled_simple hescape (hbackslash ▸ rfl)
  split
  · next hdiffers hbackslash h =>
    obtain ⟨hvalid, hfeed, hreturn⟩ := hprinted h
    have hn := toNat_ofNat_of_isValidChar hvalid
    have hc {c : Char} (hne : n ≠ c.toNat) : Char.ofNat n ≠ c := by
      rintro rfl
      exact hne hn.symm
    have hbody : isBodyChar quote (Char.ofNat n) := by
      simp [isBodyChar, hc (c := '\\') hbackslash, hc (c := '\n') hfeed, hc (c := '\r') hreturn,
        hc hdiffers]
    have hplain : Spelled quote escape (Char.ofNat n).toNat [Char.ofNat n] := .plain hbody
    rwa [hn] at hplain
  · exact hother

end

/-- No surrogate is printed as it is. -/
theorem valid_printables : ∀ range ∈ printables,
    range.2 < 0xd800 ∨ 0xe000 ≤ range.1 ∧ range.2 < 0x110000 := by
  rw [printables, CodeRanges.read, ← List.flatMap_map, List.forall_mem_map, List.forall_mem_flatMap,
    ← List.nil_append (List.map _ _)]
  unfold printableRanges
  repeat refine forall_rows_cons ?_
  decide

theorem valid_of_isPrintableCode {n : Nat} (h : isPrintableCode n) :
    n.isValidChar ∧ n ≠ 10 ∧ n ≠ 13 := by
  unfold isPrintableCode at h
  split at h
  · next hascii =>
    have hrange : 32 ≤ n ∧ n < 127 := by simpa using h
    exact ⟨.inl (by omega), by omega, by omega⟩
  · next hascii =>
    obtain ⟨⟨first, last⟩, hrange, hn⟩ := List.any_eq_true.mp h
    have hvalid := valid_printables _ hrange
    simp only [Bool.and_eq_true, decide_eq_true_eq] at hn hvalid
    refine ⟨?_, by omega, by omega⟩
    unfold Nat.isValidChar
    omega

theorem spelled_quoteCode {quote : Char} (hquote : IsQuote quote) (named : String → Option Nat)
    {n : Nat} (hn : n < 0x110000) : Spelled quote (escape? named) n (quoteCode quote n) := by
  refine spelled_spellCode hquote (escapes_escape? named) valid_of_isPrintableCode ?_
  by_cases hsmall : n < 256
  · exact spelled_escapeCode hquote (escapes_escape? named) hsmall
  have hhex (width : Nat) : ∀ d ∈ hexDigits width n, isBodyChar quote d := fun d hd =>
    isBodyChar_of_isHexChar hquote ((of_hexDigits width n).2.1 d hd)
  unfold escapeCode
  rw [if_neg (by omega), if_neg (by omega), if_neg (by omega), if_neg hsmall]
  split
  · next hmiddle =>
    refine .escaped (by decide) (hhex 4) fun rest => ?_
    show (fixedHex? 4 (hexDigits 4 n ++ rest)).map (fun found => ([found.1], 5)) = _
    rw [fixedHex?_hexDigits, (of_hexDigits 4 n).1, Nat.mod_eq_of_lt (show n < 16 ^ 4 from hmiddle)]
    rfl
  · refine .escaped (by decide) (hhex 8) fun rest => ?_
    show ((fixedHex? 8 (hexDigits 8 n ++ rest)).bind fun found =>
      if found.1 < 0x110000 then some ([found.1], 9) else none) = _
    rw [fixedHex?_hexDigits, (of_hexDigits 8 n).1, Nat.mod_eq_of_lt (by omega), Option.bind_some,
      if_pos hn]

def byteCode (quote : Char) (n : Nat) : List Char := spellCode (fun n => 32 ≤ n && n < 127) quote n

theorem spelled_byteCode {quote : Char} (hquote : IsQuote quote) {n : Nat} (hn : n < 256) :
    Spelled quote byteEscape? n (byteCode quote n) := by
  refine spelled_spellCode hquote escapes_byteEscape? (fun h => ?_)
    (spelled_escapeCode hquote escapes_byteEscape? hn)
  have hrange : 32 ≤ n ∧ n < 127 := by simpa using h
  exact ⟨.inl (by omega), by omega, by omega⟩

theorem byteCode_ascii {quote : Char} (hquote : IsQuote quote) {n : Nat} (hn : n < 256) :
    ∀ c ∈ byteCode quote n, c.toNat < 128 := by
  have hascii : quote.toNat < 128 := by rcases hquote with rfl | rfl <;> decide
  unfold byteCode spellCode
  split
  · simpa using hascii
  split
  · simp
  split
  · next hprinted =>
    have hrange : 32 ≤ n ∧ n < 127 := by simpa using hprinted
    rw [List.forall_mem_singleton, toNat_ofNat_of_isValidChar (.inl (by omega))]
    omega
  unfold escapeCode
  rw [if_pos hn]
  have hhex : ∀ d ∈ hexDigits 2 n, d.toNat < 128 := fun d hd =>
    toNat_lt_of_isHexChar ((of_hexDigits 2 n).2.1 d hd)
  split
  · simp
  split
  · simp
  split
  · simp
  simpa using hhex

theorem unifyLineEnds_eq {cs : List Char} (h : '\r' ∉ cs) : unifyLineEnds cs = cs := by
  induction cs using unifyLineEnds.induct with
  | case1 => rfl
  | case2 cs => exact absurd List.mem_cons_self h
  | case3 c cs hother ih =>
    obtain ⟨hc, hcs⟩ : '\r' ≠ c ∧ '\r' ∉ cs := by simpa using h
    rw [unifyLineEnds.eq_3 _ _ hother, if_neg fun h => hc h.symm, ih hcs]

section
variable {quote : Char} (hquote : IsQuote quote) {body : List Char}
  (hbody : ∀ rest, bodyLength? quote (body ++ quote :: rest) = some body.length)
  (hreturn : '\r' ∉ body) {rest : List Char} (hrest : rest.head? ≠ some quote)
include hquote hbody hreturn hrest

/-- A body that holds no quote is found between two of them. -/
theorem string?_quoted (letters : List Char) (offset : Nat) :
    string? letters offset (quote :: (body ++ quote :: rest)) =
      some (⟨.ofLetters letters, body, offset + 1⟩, body.length + 2) := by
  have hplain : quote ≠ '\\' ∧ ¬(decide (quote = '\n') || decide (quote = '\r')) = true := by
    rcases hquote with rfl | rfl <;> decide
  -- neither an empty body nor a longer one makes the first quote one of three
  have hshort : [quote, quote].isPrefixOf (body ++ quote :: rest) = false := by
    cases body with
    | nil =>
      cases rest with
      | nil => simp [List.isPrefixOf]
      | cons c rest =>
        have hc : quote ≠ c := fun hc => hrest (congrArg some hc.symm)
        simp [List.isPrefixOf, hc]
    | cons c body =>
      have hc : c ≠ quote := by
        rintro rfl
        have hlength := hbody []
        rw [List.cons_append, bodyLength?.eq_4 _ _ _ (fun h _ => hplain.1 h) fun _ _ h _ => hplain.1 h,
          if_neg hplain.2, if_pos rfl] at hlength
        cases hlength
      simp [List.isPrefixOf, hc.symm]
  have htake : (body ++ quote :: rest).take body.length = body := List.take_left
  unfold string?
  dsimp only
  rw [hshort, if_neg Bool.false_ne_true, if_neg Bool.false_ne_true, List.drop_one, List.tail_cons, hbody,
    Option.map_some, htake, unifyLineEnds_eq hreturn]

end

/-- The text stands for the value: it is one literal on a line with that value, wherever it stands. -/
def IsStringText (text : List Char) (value : Literal) : Prop := '\n' ∉ text ∧ ∃ marks body,
  (∀ offset rest, (∀ c ∈ rest.head?, ¬IsQuote c) → ∃ start,
    lexeme? offset (text ++ rest) = some (.string ⟨marks, body, start⟩, text.length)) ∧
  ∀ inner start, stringsForm? inner [⟨marks, body, start⟩] = some (.literal value)

section
variable {quote : Char} (hquote : IsQuote quote) {codes : List Nat} {spell : Nat → List Char}
  {escape : List Char → Option (List Nat × Nat)}
  (hspell : ∀ n ∈ codes, Spelled quote escape n (spell n)) {offset : Nat} {rest : List Char}
  (hrest : ∀ c ∈ rest.head?, ¬IsQuote c)
include hquote hspell hrest

theorem string?_spelled {o : Nat} (letters : List Char) :
    string? letters o (quote :: (codes.flatMap spell ++ quote :: rest)) =
      some (⟨.ofLetters letters, codes.flatMap spell, o + 1⟩,
        (codes.flatMap spell).length + 2) := by
  refine string?_quoted hquote (fun rest => ?_) (fun hmem => ?_) (fun hhead => hrest _ hhead hquote) _ _
  · have hend : bodyLength? quote (quote :: rest) = some 0 := by
      rcases hquote with rfl | rfl <;> rfl
    rw [bodyLength?_flatMap hspell, hend, Option.map_some, Nat.zero_add]
  · obtain ⟨n, hn, hmem⟩ := List.mem_flatMap.mp hmem
    exact (hspell n hn).noReturn hmem

theorem lexeme?_quote {o : Nat} :
    lexeme? o (quote :: (codes.flatMap spell ++ quote :: rest)) =
      some (.string ⟨.ofLetters [], codes.flatMap spell, o + 1⟩,
        (codes.flatMap spell).length + 2) := by
  have hfound := string?_spelled (o := o) hquote hspell hrest []
  unfold lexeme?
  dsimp only
  rcases hquote with rfl | rfl <;>
    rw [if_neg (by simp), if_neg (by decide), if_pos (by decide), hfound] <;> rfl

theorem lexeme?_letter {o : Nat} {letter : Char} (hletter : letter = 'u' ∨ letter = 'b') :
    lexeme? o (letter :: quote :: (codes.flatMap spell ++ quote :: rest)) =
      some (.string ⟨.ofLetters [letter], codes.flatMap spell, o + 2⟩,
        (codes.flatMap spell).length + 3) := by
  have hfound := string?_spelled (o := o + 1) hquote hspell hrest [letter]
  have hword : (letter :: quote :: (codes.flatMap spell ++ quote :: rest)).takeWhile isWordByte =
      [letter] := by
    have hletter : isWordByte letter := by rcases hletter with rfl | rfl <;> decide
    have hend : isWordByte quote = false := by rcases hquote with rfl | rfl <;> decide
    rw [List.takeWhile_cons_of_pos hletter, List.takeWhile_cons_of_neg (by simp [hend])]
  have hquoted : (some quote).any (fun q => q = '"' || q = '\'') = true := by
    rcases hquote with rfl | rfl <;> rfl
  unfold lexeme?
  dsimp only
  rw [hword, List.length_singleton, List.drop_succ_cons, List.drop_zero, List.head?_cons, hquoted]
  have hlength : 1 + ((codes.flatMap spell).length + 2) = (codes.flatMap spell).length + 3 :=
    Nat.add_comm _ _
  rcases hletter with rfl | rfl <;>
    rw [if_neg (by simp), if_pos (by decide), if_pos (by decide), hfound, Option.map_some, hlength]

end

theorem quoted_toList (codes : List Nat) : (quoted codes).toList =
    quoteFor codes :: codes.flatMap (quoteCode (quoteFor codes)) ++ [quoteFor codes] :=
  String.toList_ofList

theorem quotedBytes_toList (bytes : List Nat) : (quotedBytes bytes).toList =
    'b' :: quoteFor bytes :: bytes.flatMap (byteCode (quoteFor bytes)) ++ [quoteFor bytes] :=
  String.toList_ofList

/-- Between quotes no line ends. -/
theorem inline_spelled {quote : Char} (hquote : IsQuote quote) {codes : List Nat} {spell : Nat → List Char}
    {escape : List Char → Option (List Nat × Nat)} (hspell : ∀ n ∈ codes, Spelled quote escape n (spell n)) :
    '\n' ∉ quote :: codes.flatMap spell ++ [quote] := by
  have hline : '\n' ≠ quote := by rcases hquote with rfl | rfl <;> decide
  have hbody : '\n' ∉ codes.flatMap spell := fun hmem => by
    obtain ⟨n, hn, hmem⟩ := List.mem_flatMap.mp hmem
    exact (hspell n hn).inline hmem
  simpa [hline] using hbody

theorem cases_of_decodeText? {body : List Char} {codes : List Nat}
    (h : decodeText? characterNamed? body = some codes) :
    textPiece? false body = some [.text codes] ∨ textPiece? false body = some [] ∧ codes = [] := by
  unfold textPiece?
  cases body with
  | nil => exact .inr ⟨rfl, (Option.some.inj ((decodeText?.eq_1 characterNamed?).symm.trans h)).symm⟩
  | cons c body =>
    rw [h]
    exact .inl rfl

theorem stringsForm?_text {inner : FieldReader} {unicode : Bool} {body : List Char} {offset : Nat}
    {codes : List Nat} (h : decodeText? characterNamed? body = some codes) :
    stringsForm? inner [⟨⟨false, false, false, unicode⟩, body, offset⟩] =
      some (.literal (.text codes unicode)) := by
  have hpiece (s : StringLiteral) (hs : s.marks.format = false) :
      literalPieces? inner s = textPiece? s.marks.raw s.body := if_neg (by simp [hs])
  unfold stringsForm?
  rw [if_neg (by simp), if_neg (by simp), List.mapM_cons, List.mapM_nil, hpiece _ rfl]
  rcases cases_of_decodeText? h with hbody | ⟨hbody, rfl⟩
  · rw [hbody]
    cases codes <;> simp [joinTexts]
  · rw [hbody]
    rfl

theorem isStringText_text {codes : List Nat} (hcodes : ∀ n ∈ codes, n < 0x110000) (marked : Bool) :
    IsStringText ((if marked then "u" else "").toList ++ (quoted codes).toList)
      (.text codes marked) := by
  have hquote := isQuote_quoteFor codes
  have hspell : ∀ n ∈ codes, Spelled (quoteFor codes) (escape? characterNamed?) n
      (quoteCode (quoteFor codes) n) := fun n hn => spelled_quoteCode hquote _ (hcodes n hn)
  have hdecode := decode_flatMap (decodes_decodeText? characterNamed?) hspell
  rw [quoted_toList]
  cases marked with
  | false =>
    refine ⟨inline_spelled hquote hspell, .ofLetters [], _, fun offset rest hrest => ⟨offset + 1, ?_⟩,
      fun inner start => stringsForm?_text hdecode⟩
    simpa using lexeme?_quote (o := offset) hquote hspell hrest
  | true =>
    refine ⟨List.not_mem_cons_of_ne_of_not_mem (by decide) (inline_spelled hquote hspell), .ofLetters ['u'],
      _, fun offset rest hrest => ⟨offset + 2, ?_⟩,
      fun inner start => stringsForm?_text hdecode⟩
    simpa using lexeme?_letter (o := offset) hquote hspell hrest (.inl rfl)

theorem isStringText_bytes {bytes : List Nat} (hbytes : ∀ n ∈ bytes, n < 256) :
    IsStringText (quotedBytes bytes).toList (.bytes bytes) := by
  have hquote := isQuote_quoteFor bytes
  have hspell : ∀ n ∈ bytes, Spelled (quoteFor bytes) byteEscape? n (byteCode (quoteFor bytes) n) :=
    fun n hn => spelled_byteCode hquote (hbytes n hn)
  have hascii : (bytes.flatMap (byteCode (quoteFor bytes))).all (·.toNat < 128) = true := by
    refine List.all_eq_true.mpr fun c hc => ?_
    obtain ⟨n, hn, hc⟩ := List.mem_flatMap.mp hc
    exact decide_eq_true (byteCode_ascii hquote (hbytes n hn) c hc)
  have hdecode := decode_flatMap decodes_decodeBytes? hspell
  rw [quotedBytes_toList]
  refine ⟨List.not_mem_cons_of_ne_of_not_mem (by decide) (inline_spelled hquote hspell), .ofLetters
    ['b'], bytes.flatMap (byteCode (quoteFor bytes)),
    fun offset rest hrest => ⟨offset + 2, ?_⟩, fun inner start => ?_⟩
  · simpa using lexeme?_letter (o := offset) hquote hspell hrest (.inr rfl)
  have hvalues : literalBytes? ⟨.ofLetters ['b'], bytes.flatMap (byteCode (quoteFor bytes)), start⟩ =
      some bytes := (if_pos hascii).trans hdecode
  unfold stringsForm?
  rw [if_pos (by rfl), List.mapM_cons, List.mapM_nil, hvalues]
  simp

end ViewTree.Embedded
