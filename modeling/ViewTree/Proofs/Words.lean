import ViewTree.Proofs.OwnNames
import ViewTree.Proofs.Reading.Texts

/-!
When words are identifiers. The lexer takes more characters for letters, digits and numbers than an
identifier may hold, so this is asked of the characters of the source (`Text.IsPlain`). Main
statements: a word of such characters is an identifier (`IsWord.isIdentifier`), and so is what a name
is made up from (`IsWord.isIdentifier_snakeCase`) and the name (`MadeName.isIdentifier`).
-/
namespace ViewTree

namespace Text

/-- What the lexer takes for a letter starts an identifier, and what it takes for a character of a
word goes on with one. Both hold in lower case as well. -/
structure IsPlain (text : List Char) : Prop where
  starts : ∀ c ∈ text, isLetter c → isIdentifierStart c ∧ isIdentifierChars (lowerChar c)
  continues : ∀ c ∈ text, isWordChar c →
    isIdentifierContinue c ∧ ∀ d ∈ lowerChar c, isIdentifierContinue d

/-- The letters and digits of ASCII are those of identifiers. -/
theorem isPlain_of_ascii {text : List Char} (h : text.all (·.toNat < 128)) : IsPlain text := by
  have hascii : ∀ n < 128,
      (isLetter (Char.ofNat n) →
        isIdentifierStart (Char.ofNat n) ∧ isIdentifierChars (lowerChar (Char.ofNat n))) ∧
      (isWordChar (Char.ofNat n) →
        isIdentifierContinue (Char.ofNat n) ∧
          (lowerChar (Char.ofNat n)).all isIdentifierContinue) := by
    decide
  have hchar (c : Char) (hc : c ∈ text) :=
    Char.ofNat_toNat c ▸ hascii c.toNat (of_decide_eq_true (List.all_eq_true.mp h c hc))
  exact ⟨fun c hc => (hchar c hc).1, fun c hc hword =>
    ((hchar c hc).2 hword).imp_right List.all_eq_true.mp⟩

theorem isIdentifierChars_append {cs ds : List Char} (hcs : isIdentifierChars cs)
    (hds : ∀ d ∈ ds, isIdentifierContinue d) : isIdentifierChars (cs ++ ds) := by
  cases cs with
  | nil => nomatch hcs
  | cons c cs =>
    obtain ⟨hstart, hall⟩ := Bool.and_eq_true_iff.mp hcs
    rw [List.cons_append, isIdentifierChars, List.all_append, hstart, hall]
    exact List.all_eq_true.mpr hds

theorem mem_underscoredFrom {before : Option Char} {cs : List Char} {d : Char}
    (h : d ∈ underscoredFrom before cs) : d = '_' ∨ d ∈ cs := by
  induction cs generalizing before with
  | nil => nomatch h
  | cons c cs ih =>
    rw [underscoredFrom] at h
    have hrest (h : d ∈ c :: underscoredFrom (some c) cs) : d = '_' ∨ d ∈ c :: cs := by
      rcases List.mem_cons.mp h with rfl | h
      · exact .inr List.mem_cons_self
      · exact (ih h).imp_right (List.mem_cons_of_mem c)
    split at h
    · rcases List.mem_cons.mp h with rfl | h
      · exact .inl rfl
      · exact hrest h
    · exact hrest h

/-- Only behind the first character an underscore may be put in. -/
theorem underscoredFrom_none (c : Char) (cs : List Char) :
    underscoredFrom none (c :: cs) = c :: underscoredFrom (some c) cs := by
  have hstart : startsWord none c cs = false := Bool.and_false _
  rw [underscoredFrom, hstart]
  rfl

/-- The two small forms of the capital sigma, the only character that looks at its neighbours. -/
theorem isIdentifier_sigma : ∀ c ∈ ['σ', 'ς'], isIdentifierStart c ∧ isIdentifierContinue c :=
  List.forall_mem_cons.mpr ⟨by decide, List.forall_mem_singleton.mpr (by decide)⟩

theorem lowerFrom_cons (before : List Char) (c : Char) (cs : List Char) : ∃ image,
    lowerFrom before (c :: cs) = image ++ lowerFrom (c :: before) cs ∧
      (image = lowerChar c ∨ ∃ s ∈ ['σ', 'ς'], image = [s]) := by
  refine ⟨_, rfl, ?_⟩
  split
  · split
    · exact .inr ⟨'ς', by simp, rfl⟩
    · exact .inr ⟨'σ', by simp, rfl⟩
  · exact .inl rfl

theorem isIdentifierContinue_lowerFrom {before cs : List Char}
    (h : ∀ c ∈ cs, ∀ d ∈ lowerChar c, isIdentifierContinue d) :
    ∀ d ∈ lowerFrom before cs, isIdentifierContinue d := by
  induction cs generalizing before with
  | nil => exact nofun
  | cons c cs ih =>
    obtain ⟨hc, hcs⟩ := List.forall_mem_cons.mp h
    obtain ⟨image, hlower, himage⟩ := lowerFrom_cons before c cs
    rw [hlower]
    refine List.forall_mem_append.mpr ⟨?_, ih hcs⟩
    rcases himage with rfl | ⟨s, hs, rfl⟩
    · exact hc
    · exact List.forall_mem_singleton.mpr (isIdentifier_sigma s hs).2

theorem isIdentifierChars_lowerText {c : Char} {cs : List Char}
    (hstart : isIdentifierChars (lowerChar c))
    (h : ∀ c ∈ cs, ∀ d ∈ lowerChar c, isIdentifierContinue d) :
    isIdentifierChars (lowerText (c :: cs)) := by
  obtain ⟨image, hlower, himage⟩ := lowerFrom_cons [] c cs
  rw [lowerText, hlower]
  refine isIdentifierChars_append ?_ (isIdentifierContinue_lowerFrom h)
  rcases himage with rfl | ⟨s, hs, rfl⟩
  · exact hstart
  · rw [isIdentifierChars, (isIdentifier_sigma s hs).1]
    rfl

end Text

open Text

namespace IsWord
variable {source : List Char} {word : String}

theorem exists_plain (h : IsWord word) (hsource : IsPlain source)
    (hcopied : word.toList <:+: source) : ∃ c cs, word.toList = c :: cs ∧
      (isIdentifierStart c ∧ isIdentifierChars (lowerChar c)) ∧
      ∀ d ∈ cs, isIdentifierContinue d ∧ ∀ e ∈ lowerChar d, isIdentifierContinue e := by
  obtain ⟨c, cs, hword, hfirst, hothers⟩ := h.shape
  have hmem : ∀ d ∈ c :: cs, d ∈ source := fun d hd => hcopied.subset (hword ▸ hd)
  refine ⟨c, cs, hword, ?_, fun d hd =>
    hsource.continues d (hmem d (List.mem_cons_of_mem c hd)) (hothers d hd)⟩
  rcases hfirst with hletter | rfl
  · exact hsource.starts c (hmem c List.mem_cons_self) hletter
  · exact ⟨rfl, rfl⟩

theorem isIdentifier (h : IsWord word) (hsource : IsPlain source)
    (hcopied : word.toList <:+: source) : Text.isIdentifier word := by
  obtain ⟨c, cs, hword, hfirst, hothers⟩ := h.exists_plain hsource hcopied
  rw [Text.isIdentifier, hword, isIdentifierChars, hfirst.1]
  exact List.all_eq_true.mpr fun d hd => (hothers d hd).1

theorem isIdentifier_snakeCase (h : IsWord word) (hsource : IsPlain source)
    (hcopied : word.toList <:+: source) : Text.isIdentifier (snakeCase word) := by
  obtain ⟨c, cs, hword, hfirst, hothers⟩ := h.exists_plain hsource hcopied
  rw [Text.isIdentifier, snakeCase, String.toList_ofList, hword, underscoredFrom_none]
  refine isIdentifierChars_lowerText hfirst.2 fun d hd => ?_
  rcases mem_underscoredFrom hd with rfl | hd
  · exact List.forall_mem_singleton.mpr rfl
  · exact (hothers d hd).2

theorem dot_notMem (h : IsWord word) : '.' ∉ word.toList := by
  obtain ⟨c, cs, hword, hfirst, hothers⟩ := h.shape
  rw [hword]
  rintro hdot
  rcases List.mem_cons.mp hdot with rfl | hdot
  · exact absurd hfirst (by decide)
  · exact absurd (hothers '.' hdot) (by decide)

end IsWord

/-- A number behind an identifier makes another one. -/
theorem MadeName.isIdentifier {m : MadeName} (h : Text.isIdentifier m.stem) :
    Text.isIdentifier m.text := by
  have hdigit : ∀ d ∈ Nat.toDigits 10 m.number, isIdentifierContinue d := by
    intro d hd
    have hd : d.isDigit := Nat.isDigit_of_mem_toDigits (by decide) (by decide) hd
    rw [isIdentifierContinue, if_pos (Embedded.toNat_lt_of_isDigit hd), Char.isAlphanum, hd, Bool.or_true, Bool.true_or]
  rw [Text.isIdentifier, text, String.append_assoc, String.toList_append]
  refine isIdentifierChars_append h ?_
  rw [String.toList_append, Nat.toString_eq_repr, Nat.toList_repr]
  exact List.forall_mem_append.mpr ⟨List.forall_mem_singleton.mpr rfl, hdigit⟩

/-- No keyword ends in a number. -/
theorem MadeName.not_isKeyword (m : MadeName) : ¬Embedded.isKeyword m.text := by
  have hkeywords : ∀ word ∈ Embedded.keywords, word.toList.getLast?.all (!·.isDigit) := by
    decide
  intro hkeyword
  exact text_ne (hkeywords _ (List.contains_iff_mem.mp hkeyword)) rfl

namespace Text

theorem fields_of_notMem {sep : Char} {f : List Char} (h : sep ∉ f) : fields sep f = [f] := by
  induction f with
  | nil => rfl
  | cons c f ih =>
    rw [List.mem_cons, not_or] at h
    rw [fields, if_neg (Ne.symm h.1), ih h.2]

theorem fields_append_sep {sep : Char} {f : List Char} (h : sep ∉ f) (rest : List Char) :
    fields sep (f ++ sep :: rest) = f :: fields sep rest := by
  induction f with
  | nil => rw [List.nil_append, fields, if_pos rfl]
  | cons c f ih =>
    rw [List.mem_cons, not_or] at h
    rw [List.cons_append, fields, if_neg (Ne.symm h.1), ih h.2]

theorem fields_intercalate {sep : Char} {fs : List (List Char)} (hfs : fs ≠ [])
    (h : ∀ f ∈ fs, sep ∉ f) : fields sep ([sep].intercalate fs) = fs := by
  induction fs with
  | nil => exact absurd rfl hfs
  | cons f fs ih =>
    obtain ⟨hf, hothers⟩ := List.forall_mem_cons.mp h
    cases fs with
    | nil => rw [List.intercalate_singleton, fields_of_notMem hf]
    | cons g gs =>
      rw [List.intercalate_cons_cons, List.append_assoc, List.singleton_append,
        fields_append_sep hf, ih (List.cons_ne_nil g gs) hothers]

theorem segments_intercalate {words : List String} (hwords : words ≠ [])
    (h : ∀ w ∈ words, IsWord w) : segments (".".intercalate words) = words := by
  have hfields : fields '.' (['.'].intercalate (words.map String.toList)) = words.map String.toList :=
    fields_intercalate (by simpa using hwords)
      (List.forall_mem_map.mpr fun w hw => (h w hw).dot_notMem)
  rw [segments, String.toList_intercalate, show ".".toList = ['.'] from rfl, hfields, List.map_map]
  exact List.map_id'' (fun w => String.ofList_toList) words

theorem exists_of_typePath? {words : List String} (hwords : words ≠ [])
    (h : ∀ w ∈ words, IsWord w) {type : String}
    (htype : typePath? (".".intercalate words) = some type) :
    ∃ kept, kept ≠ [] ∧ kept <+: words ∧ type = ".".intercalate kept := by
  rw [typePath?, segments_intercalate hwords h] at htype
  split at htype
  · nomatch htype
  · next hsome =>
    refine ⟨_, ?_, ?_, (Option.some.inj htype).symm⟩
    · simpa using hsome
    · rw [← List.reverse_suffix, List.reverse_reverse]
      exact List.dropWhile_suffix _

theorem lastSegment_intercalate {words : List String} (hwords : words ≠ [])
    (h : ∀ w ∈ words, IsWord w) : lastSegment (".".intercalate words) ∈ words := by
  rw [lastSegment, segments_intercalate hwords h, List.getLastD_eq_getLast?,
    List.getLast?_eq_some_getLast hwords]
  exact List.getLast_mem hwords

end Text

/-- The stem of a widget's made-up name is a word of its path in small letters. -/
theorem Construction.exists_stem {c : Construction} {words : List String} (hwords : words ≠ [])
    (h : ∀ w ∈ words, IsWord w) (hpath : c.path = ".".intercalate words) :
    ∃ w ∈ words, c.stem = snakeCase w := by
  have hfound : ∃ kept, kept ≠ [] ∧ kept <+: words ∧ c.type?.getD c.path = ".".intercalate kept := by
    have hwhole : ∃ kept, kept ≠ [] ∧ kept <+: words ∧ c.path = ".".intercalate kept :=
      ⟨words, hwords, List.prefix_refl words, hpath⟩
    have htyped (htype : c.type? = typePath? c.path) :
        ∃ kept, kept ≠ [] ∧ kept <+: words ∧ c.type?.getD c.path = ".".intercalate kept := by
      rw [htype]
      cases hfound : typePath? c.path with
      | none => exact hwhole
      | some type => exact exists_of_typePath? hwords h (hpath ▸ hfound)
    cases c with
    | prebound => exact hwhole
    | block | template | call => exact htyped rfl
  obtain ⟨kept, hkept, hfront, heq⟩ := hfound
  refine ⟨_, hfront.subset (lastSegment_intercalate hkept fun w hw => h w (hfront.subset hw)), ?_⟩
  rw [stem, heq]

end ViewTree
