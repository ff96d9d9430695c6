import Mathlib
import ViewTree.Proofs.Printing.Quotes
import ViewTree.Proofs.Reading.Files
import ViewTree.Proofs.Spelling
import ViewTree.Text.CharacterName

/-!
What string literals stand for: code points, or bytes. Main statements: `isString_of_stringsForm?`, and
a character that is named stands for a code point too (`lt_of_characterNamed?`).
-/
namespace ViewTree.Text

theorem length_fields_le (sep : Char) (cs : List Char) : (fields sep cs).length ≤ cs.length + 1 := by
  induction cs with
  | nil => exact Nat.le_refl 1
  | cons c cs ih =>
    rw [fields]
    split
    · exact Nat.succ_le_succ ih
    split
    · exact Nat.succ_le_succ (Nat.zero_le _)
    · next hfields =>
      rw [hfields] at ih
      exact Nat.le_succ_of_le ih

/-- A row of names stays below the last code point. -/
def isNameRow (row : List Char) : Bool := hexValue (row.takeWhile (· ≠ ' ')) + (row.length + 1) < 0x110000

set_option maxRecDepth 20000 in
theorem isNameRow_of_mem_nameRows : ∀ row ∈ nameRows.map String.toList, isNameRow row := by
  rw [← List.nil_append (List.map _ _)]
  unfold nameRows
  repeat refine forall_rows_cons ?_
  decide +kernel

theorem isNameRow_of_mem_aliasRows : ∀ row ∈ aliasRows.map String.toList, isNameRow row := by
  rw [← List.nil_append (List.map _ _)]
  unfold aliasRows
  repeat refine forall_rows_cons ?_
  decide +kernel

theorem lt_of_mem_characterNames {entry : List Char × Nat} (h : entry ∈ characterNames) :
    entry.2 < 0x110000 := by
  obtain ⟨row, hrow, hentry⟩ := List.mem_flatMap.mp h
  have hrow : isNameRow row.toList := (List.mem_append.mp hrow).elim
    (fun h => isNameRow_of_mem_nameRows _ (List.mem_map_of_mem h))
    fun h => isNameRow_of_mem_aliasRows _ (List.mem_map_of_mem h)
  simp only [isNameRow, decide_eq_true_eq] at hrow
  obtain ⟨hlow, hhigh, -⟩ := List.mem_zipIdx hentry
  have hlength := length_fields_le ';' (row.toList.drop ((row.toList.takeWhile (· ≠ ' ')).length + 1))
  rw [List.length_drop] at hlength
  omega

theorem lt_of_ideographNamed? {name : List Char} {n : Nat} (h : ideographNamed? name = some n) :
    n < 0x110000 := by
  unfold ideographNamed? at h
  dsimp only at h
  split at h
  · next hname =>
    obtain rfl := Option.some.inj h
    have hlast : ∀ range ∈ ideographs, range.2 < 0x110000 := by decide
    obtain ⟨range, hrange, hn⟩ := List.any_eq_true.mp (Bool.and_eq_true_iff.mp hname).2
    have hlast := hlast range hrange
    simp only [Bool.and_eq_true, decide_eq_true_eq] at hn
    omega
  · cases h

theorem lt_of_sound? {sounds : List (List Char)} {name rest : List Char} {i : Nat}
    (h : sound? sounds name = some (i, rest)) : i < sounds.length := by
  obtain ⟨⟨sound, j⟩, hmax, heq⟩ := Option.map_eq_some_iff.mp h
  obtain ⟨rfl, -⟩ := Prod.mk.inj heq
  have hmem := List.maxOn?_mem hmax
  have := (List.mem_zipIdx (List.mem_filter.mp hmem).1).2.1
  simpa using this

theorem lt_of_syllableNamed? {name : List Char} {n : Nat} (h : syllableNamed? name = some n) :
    n < 0x110000 := by
  have hvowels : vowelSounds.length = 21 := by decide
  have hlasts : lastSounds.length = 28 := by decide
  have hfirsts : firstSounds.length = 19 := by decide
  obtain ⟨-, -, h⟩ := Option.bind_eq_some_iff.mp h
  obtain ⟨⟨first, rest⟩, hfirst, h⟩ := Option.bind_eq_some_iff.mp h
  obtain ⟨⟨vowel, rest⟩, hvowel, h⟩ := Option.bind_eq_some_iff.mp h
  obtain ⟨⟨last, rest⟩, hlast, h⟩ := Option.bind_eq_some_iff.mp h
  obtain ⟨-, -, h⟩ := Option.bind_eq_some_iff.mp h
  obtain rfl := Option.some.inj h
  have hfirst := lt_of_sound? hfirst
  have hvowel := lt_of_sound? hvowel
  have hlast := lt_of_sound? hlast
  rw [hvowels, hlasts]
  omega

theorem lt_of_characterNamed? {name : String} {n : Nat} (h : characterNamed? name = some n) :
    n < 0x110000 := by
  unfold characterNamed? at h
  rcases Option.or_eq_some_iff.mp h with h | ⟨-, h⟩
  · rcases Option.or_eq_some_iff.mp h with h | ⟨-, h⟩
    · obtain ⟨entry, hentry, rfl⟩ := Option.map_eq_some_iff.mp h
      exact lt_of_mem_characterNames (List.mem_of_find?_eq_some hentry)
    · exact lt_of_ideographNamed? h
  · exact lt_of_syllableNamed? h

end ViewTree.Text

namespace ViewTree.Embedded
open Text

theorem foldl_digits_lt {b : Nat} {f : Char → Nat} {l : List Char} (h : ∀ d ∈ l, f d < b)
    (n : Nat) : l.foldl (fun n d => b * n + f d) n < (n + 1) * b ^ l.length := by
  induction l generalizing n with
  | nil => simp
  | cons d l ih =>
    obtain ⟨hd, hds⟩ := List.forall_mem_cons.mp h
    calc (d :: l).foldl (fun n d => b * n + f d) n
        < (b * n + f d + 1) * b ^ l.length := ih hds _
      _ ≤ (b * (n + 1)) * b ^ l.length := Nat.mul_le_mul_right _ (by rw [Nat.mul_succ]; omega)
      _ = (n + 1) * b ^ (d :: l).length := by rw [List.length_cons, Nat.pow_succ]; ac_rfl

theorem hexValue_lt {ds : List Char} (h : ∀ d ∈ ds, isHexChar d) : hexValue ds < 16 ^ ds.length := by
  have hall : ∀ n < 128, isHexChar (Char.ofNat n) → (if (Char.ofNat n).isDigit then (Char.ofNat n).toNat - 48
      else if 'a' ≤ Char.ofNat n then (Char.ofNat n).toNat - 87 else (Char.ofNat n).toNat - 55) < 16 := by
    decide
  have hvalue := foldl_digits_lt (b := 16) (l := ds) (fun d hd => by
    have hd := h d hd
    have hdigit := hall d.toNat (toNat_lt_of_isHexChar hd)
    rw [Char.ofNat_toNat] at hdigit
    exact hdigit hd) 0
  rwa [Nat.zero_add, Nat.one_mul] at hvalue

theorem octalValue_lt {l : List Char} (h : ∀ d ∈ l, isOctal d) : octalValue l < 8 ^ l.length := by
  have hvalue := foldl_digits_lt (b := 8) (f := fun d => d.toNat - 48) (l := l) (fun d hd => by
    have hle : d.toNat ≤ 55 := Char.le_def.mp (of_decide_eq_true (Bool.and_eq_true_iff.mp (h d hd)).2)
    show d.toNat - 48 < 8
    omega) 0
  rwa [Nat.zero_add, Nat.one_mul] at hvalue

theorem octalValue_octalDigits_lt (cs : List Char) : octalValue (octalDigits cs) < 512 := by
  have hlength : (octalDigits cs).length ≤ 3 :=
    Nat.le_trans (List.takeWhile_sublist isOctal).length_le (List.length_take_le 3 cs)
  have hvalue := octalValue_lt (l := octalDigits cs) fun d hd => List.mem_takeWhile_imp hd
  exact Nat.lt_of_lt_of_le hvalue (Nat.pow_le_pow_right (by decide) hlength)

theorem lt_of_fixedHex? {k n : Nat} {cs rest : List Char} (h : fixedHex? k cs = some (n, rest)) :
    n < 16 ^ k := by
  unfold fixedHex? at h
  dsimp only at h
  split at h
  · next hdigits =>
    obtain ⟨rfl, -⟩ := Prod.mk.inj (Option.some.inj h)
    obtain ⟨hlength, hall⟩ := Bool.and_eq_true_iff.mp hdigits
    have hvalue := hexValue_lt (List.all_eq_true.mp hall)
    rwa [of_decide_eq_true hlength] at hvalue
  · cases h

theorem lt_of_simpleEscape? {c : Char} {n : Nat} (h : simpleEscape? c = some n) : n < 256 := by
  unfold simpleEscape? at h
  split at h <;> first | (obtain rfl := Option.some.inj h; decide) | cases h

theorem toNat_lt (c : Char) : c.toNat < 0x110000 := by
  have hvalid : c.val.toNat < 0xd800 ∨ 0xdfff < c.val.toNat ∧ c.val.toNat < 0x110000 := c.valid
  show c.val.toNat < _
  omega

/-- The code points of an escape. -/
theorem lt_of_escape? {cs : List Char} {codes : List Nat} {length : Nat}
    (h : escape? characterNamed? cs = some (codes, length)) : ∀ n ∈ codes, n < 0x110000 := by
  have hone {m k : Nat} (hm : m < 0x110000) (h : some ([m], k) = some (codes, length)) :
      ∀ n ∈ codes, n < 0x110000 := by
    obtain ⟨rfl, -⟩ := Prod.mk.inj (Option.some.inj h)
    simpa using hm
  have hhex {width k : Nat} {rest : List Char} (hwidth : 16 ^ width ≤ 0x110000)
      (h : (fixedHex? width rest).map (fun found => ([found.1], k)) = some (codes, length)) :
      ∀ n ∈ codes, n < 0x110000 := by
    obtain ⟨⟨m, rest⟩, hm, h⟩ := Option.map_eq_some_iff.mp h
    exact hone (Nat.lt_of_lt_of_le (lt_of_fixedHex? hm) hwidth) (congrArg some h)
  -- the escapes in the order in which they are tried
  unfold escape? at h
  split at h
  · exact hone (by decide) h
  · obtain ⟨rfl, -⟩ := Prod.mk.inj (Option.some.inj h)
    exact List.forall_mem_nil _
  split at h
  · next hsimple => exact hone (Nat.lt_trans (lt_of_simpleEscape? hsimple) (by decide)) h
  split at h
  · exact hone (Nat.lt_trans (octalValue_octalDigits_lt _) (by decide)) h
  split at h
  · exact hhex (by decide) h
  · exact hhex (by decide) h
  · obtain ⟨⟨m, rest⟩, -, h⟩ := Option.bind_eq_some_iff.mp h
    dsimp only at h
    split at h
    · next hm => exact hone hm h
    · cases h
  · split at h
    · dsimp only at h
      split at h
      · obtain ⟨m, hm, h⟩ := Option.map_eq_some_iff.mp h
        exact hone (lt_of_characterNamed? hm) (congrArg some h)
      · cases h
    · cases h
  · obtain ⟨rfl, -⟩ := Prod.mk.inj (Option.some.inj h)
    simpa using toNat_lt _

theorem lt_of_byteEscape? {cs : List Char} {bytes : List Nat} {length : Nat}
    (hascii : ∀ c ∈ cs, c.toNat < 128)
    (h : byteEscape? cs = some (bytes, length)) : ∀ n ∈ bytes, n < 256 := by
  have hone {m k : Nat} (hm : m < 256) (h : some ([m], k) = some (bytes, length)) :
      ∀ n ∈ bytes, n < 256 := by
    obtain ⟨rfl, -⟩ := Prod.mk.inj (Option.some.inj h)
    simpa using hm
  unfold byteEscape? at h
  split at h
  · cases h
  · obtain ⟨rfl, -⟩ := Prod.mk.inj (Option.some.inj h)
    nofun
  split at h
  · next hsimple => exact hone (lt_of_simpleEscape? hsimple) h
  split at h
  · exact hone (Nat.mod_lt _ (by decide)) h
  split at h
  · obtain ⟨⟨m, rest⟩, hm, h⟩ := Option.map_eq_some_iff.mp h
    exact hone (lt_of_fixedHex? (k := 2) hm) (congrArg some h)
  · obtain ⟨rfl, -⟩ := Prod.mk.inj (Option.some.inj h)
    have hc := hascii _ List.mem_cons_self
    simp only [List.mem_cons, List.not_mem_nil, or_false, forall_eq_or_imp, forall_eq]
    omega

theorem lt_of_decodeText? {cs : List Char} {codes : List Nat}
    (h : decodeText? characterNamed? cs = some codes) :
    ∀ n ∈ codes, n < 0x110000 := by
  induction cs using decodeText?.induct characterNamed? generalizing codes with
  | case1 =>
    rw [decodeText?] at h
    obtain rfl := Option.some.inj h
    exact List.forall_mem_nil _
  | case2 cs found length hescape ih =>
    rw [decodeText?, hescape] at h
    obtain ⟨later, hlater, rfl⟩ := Option.map_eq_some_iff.mp h
    exact List.forall_mem_append.mpr ⟨lt_of_escape? hescape, ih hlater⟩
  | case3 cs hescape =>
    rw [decodeText?, hescape] at h
    cases h
  | case4 c cs hother ih =>
    rw [decodeText?] at h
    · obtain ⟨later, hlater, rfl⟩ := Option.map_eq_some_iff.mp h
      exact List.forall_mem_cons.mpr ⟨toNat_lt c, ih hlater⟩
    · exact hother

theorem lt_of_decodeBytes? {cs : List Char} {bytes : List Nat} (hascii : ∀ c ∈ cs, c.toNat < 128)
    (h : decodeBytes? cs = some bytes) : ∀ n ∈ bytes, n < 256 := by
  induction cs using decodeBytes?.induct generalizing bytes with
  | case1 =>
    rw [decodeBytes?] at h
    obtain rfl := Option.some.inj h
    exact List.forall_mem_nil _
  | case2 cs found length hescape ih =>
    rw [decodeBytes?, hescape] at h
    obtain ⟨later, hlater, rfl⟩ := Option.map_eq_some_iff.mp h
    have hascii := (List.forall_mem_cons.mp hascii).2
    exact List.forall_mem_append.mpr ⟨lt_of_byteEscape? hascii hescape,
      ih (fun c hc => hascii c (List.mem_of_mem_drop hc)) hlater⟩
  | case3 cs hescape =>
    rw [decodeBytes?, hescape] at h
    cases h
  | case4 c cs hother ih =>
    rw [decodeBytes?] at h
    · obtain ⟨later, hlater, rfl⟩ := Option.map_eq_some_iff.mp h
      obtain ⟨hc, hcs⟩ := List.forall_mem_cons.mp hascii
      exact List.forall_mem_cons.mpr ⟨Nat.lt_trans hc (by decide), ih hcs hlater⟩
    · exact hother

theorem lt_of_literalBytes? {s : StringLiteral} {bytes : List Nat} (h : literalBytes? s = some bytes) :
    ∀ n ∈ bytes, n < 256 := by
  unfold literalBytes? at h
  split at h
  · next hall =>
    have hascii : ∀ c ∈ s.body, c.toNat < 128 := fun c hc => of_decide_eq_true (List.all_eq_true.mp hall c hc)
    split at h
    · obtain rfl := Option.some.inj h
      exact List.forall_mem_map.mpr fun c hc => Nat.lt_trans (hascii c hc) (by decide)
    · exact lt_of_decodeBytes? hascii h
  · cases h

def IsString : Literal → Prop
  | .text codes _ => ∀ n ∈ codes, n < 0x110000
  | .bytes values => ∀ n ∈ values, n < 256
  | _ => False

/-- Pieces of code points. -/
def IsText : Piece → Prop
  | .text codes => ∀ n ∈ codes, n < 0x110000
  | .field .. => False

theorem isText_of_textPiece? {raw : Bool} {body : List Char} {pieces : List Piece}
    (h : textPiece? raw body = some pieces) : ∀ p ∈ pieces, IsText p := by
  unfold textPiece? at h
  split at h
  · obtain rfl := Option.some.inj h
    nofun
  split at h
  · obtain rfl := Option.some.inj h
    simp only [List.mem_singleton, forall_eq, IsText, List.mem_map, forall_exists_index, and_imp,
      forall_apply_eq_imp_iff₂]
    exact fun c _ => toNat_lt c
  · obtain ⟨codes, hcodes, rfl⟩ := Option.map_eq_some_iff.mp h
    simpa [IsText] using lt_of_decodeText? hcodes

theorem isText_of_joinTexts {pieces : List Piece} (h : ∀ p ∈ pieces, IsText p) :
    ∀ p ∈ joinTexts pieces, IsText p := by
  induction pieces with
  | nil => nofun
  | cons piece more ih =>
    obtain ⟨hfirst, hmore⟩ := List.forall_mem_cons.mp h
    have hall := ih hmore
    cases piece with
    | field value conversion format => exact hfirst.elim
    | text codes =>
      rw [joinTexts]
      split
      · next others later hlater =>
        rw [hlater] at hall
        obtain ⟨hothers, hlater⟩ := List.forall_mem_cons.mp hall
        exact List.forall_mem_cons.mpr ⟨List.forall_mem_append.mpr ⟨hfirst, hothers⟩, hlater⟩
      · split
        · exact hall
        · exact List.forall_mem_cons.mpr ⟨hfirst, hall⟩

/-- Strings without replacement fields are a text of code points, or bytes. -/
theorem isString_of_stringsForm? {inner : FieldReader} {literals : List StringLiteral} {form : Form}
    (hformat : ∀ s ∈ literals, s.marks.format = false) (h : stringsForm? inner literals = some form) :
    ∃ value, form = .literal value ∧ IsString value := by
  unfold stringsForm? at h
  split at h
  · obtain ⟨values, hvalues, h⟩ := Option.bind_eq_some_iff.mp h
    obtain rfl := Option.some.inj h
    refine ⟨_, rfl, fun n hn => ?_⟩
    obtain ⟨bytes, hbytes, hn⟩ := List.mem_flatten.mp hn
    obtain ⟨s, -, hs⟩ := exists_mem_of_mapM_eq_some hvalues bytes hbytes
    exact lt_of_literalBytes? hs n hn
  split at h
  · cases h
  obtain ⟨pieces, hpieces, h⟩ := Option.bind_eq_some_iff.mp h
  have hplain : literals.any (·.marks.format) = false :=
    List.any_eq_false.mpr fun s hs => by simp [hformat s hs]
  dsimp only at h
  rw [if_neg (by simp [hplain])] at h
  obtain rfl := Option.some.inj h
  have htexts : ∀ p ∈ pieces.flatten, IsText p := by
    intro p hp
    obtain ⟨ps, hps, hp⟩ := List.mem_flatten.mp hp
    obtain ⟨s, hs, hread⟩ := exists_mem_of_mapM_eq_some hpieces ps hps
    rw [literalPieces?, if_neg (by simp [hformat s hs])] at hread
    exact isText_of_textPiece? hread p hp
  refine ⟨_, rfl, fun n hn => ?_⟩
  obtain ⟨piece, hpiece, hn⟩ := List.mem_flatMap.mp hn
  have htext := isText_of_joinTexts htexts piece hpiece
  cases piece with
  | text codes => exact htext n hn
  | field value conversion format => exact htext.elim

end ViewTree.Embedded
