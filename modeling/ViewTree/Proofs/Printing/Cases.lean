import ViewTree.Proofs.Printing.Literals
import ViewTree.Proofs.Printing.Mappings
import ViewTree.Proofs.Printing.Terms
import ViewTree.Proofs.Spelling

/-!
Patterns as they are printed, form by form. A text is a pattern at a place if it is found as lexemes that are
read as the pattern there; however a pattern is printed, its text is one if the texts of its parts are
(`Pattern.Rereads`).
-/
namespace ViewTree.Embedded
open Text Cases

def WrittenPattern (place : Level) (p : Pattern) (codes : Codes) : Prop := ∃ kinds,
  StartsWith startsPart (charsOf codes) ∧ PartOf codes kinds ∧ PatternAt place kinds p.unplaced

/-- Where a pattern is printed, it is read alone, as one of alternatives or as one that may be bound. -/
def readingPlace (place : Level) : Level := max place 8

def IsPatternPlace (place : Level) : Prop :=
  place = Level.test ∨ place = Level.operand ∨ place = Level.operand.next

def Pattern.Rereads (p : Pattern) : Prop := ∀ place codes, IsPatternPlace place → p.print place = some codes →
  WrittenPattern (readingPlace place) p codes

section
variable {place l : Level} {p : Pattern} {codes : Codes}

theorem readingPlace_le (h : IsPatternPlace place) : 8 ≤ readingPlace place ∧ readingPlace place ≤ 10 := by
  rcases h with rfl | rfl | rfl <;> decide

theorem WrittenPattern.mono (h : WrittenPattern l p codes) (hplace : 8 ≤ place) (hl : place ≤ l)
    (htop : l ≤ 10) :
    WrittenPattern place p codes := by
  obtain ⟨kinds, hstart, hscans, hreads⟩ := h
  exact ⟨kinds, hstart, hscans, hreads.mono hplace hl htop⟩

theorem WrittenPattern.grouped (h : WrittenPattern 8 p codes) :
    WrittenPattern 10 p (codesOf "(" ++ codes ++ codesOf ")") := by
  obtain ⟨kinds, hstart, hscans, hreads⟩ := h
  have hinside := hscans.parentheses rfl
  have htext : charsOf (codesOf "(" ++ codes ++ codesOf ")") = '(' :: charsOf codes ++ [')'] := by simp
  refine ⟨_, ?_, ?_, hreads.grouped⟩
  · rw [htext]
    rfl
  · rw [PartOf, htext]
    exact hinside.mono fun _ _ => rfl

theorem rereads_of_patternLevel (hl : IsPatternPlace l) (h : ∀ place codes, p.print place = some codes →
    ∃ inside, codes = parenthesizeIf (l < place) inside ∧ WrittenPattern (readingPlace l) p inside) :
    p.Rereads := by
  intro place codes hplace hprint
  obtain ⟨inside, rfl, hinside⟩ := h place codes hprint
  obtain ⟨hlow, hhigh⟩ := readingPlace_le hl
  obtain ⟨hplaceLow, hplaceHigh⟩ := readingPlace_le hplace
  by_cases hloose : l < place
  · rw [parenthesizeIf, if_pos (decide_eq_true hloose)]
    exact ((hinside.mono (Nat.le_refl 8) hlow hhigh).grouped).mono hplaceLow hplaceHigh (Nat.le_refl 10)
  · rw [parenthesizeIf, if_neg (by simpa using hloose)]
    exact hinside.mono hplaceLow (max_le_max_right 8 (Nat.not_lt.mp hloose)) hhigh

/-- A pattern that is printed alike wherever it stands. -/
theorem rereads_of_closed (h : ∀ place codes, p.print place = some codes → WrittenPattern 10 p codes) :
    p.Rereads :=
  fun place codes hplace hprint => (h place codes hprint).mono (readingPlace_le hplace).1
    (readingPlace_le hplace).2
    (Nat.le_refl 10)

theorem Pattern.Rereads.part (h : p.Rereads) (hplace : IsPatternPlace l) (hprint : p.print l = some codes) :
    ∃ kinds, StartsWith startsPart (charsOf codes) ∧ PartOf codes kinds ∧
      PatternAt (readingPlace l) kinds p.unplaced := h l codes hplace hprint

end

/-- A number with a sign or none. -/
inductive IsSigned : Term → Prop where
  | plain {s e value} (h : IsFigure value) : IsSigned (.mk s e (.literal value))
  | negative {s e s' e' value} (h : IsFigure value) :
    IsSigned (.mk s e (.unary .negative (.mk s' e' (.literal value))))

/-- A number that a pattern compares with. -/
inductive IsNumeral : Term → Prop where
  | signed {t} (h : IsSigned t) : IsNumeral t
  | complex {s e s' e' op t x} (h : IsSigned t) (hreal : isImaginary t = false) (hop : op = .add ∨ op = .sub)
      (hx : IsFigure (.imaginary x)) :
      IsNumeral (.mk s e (.binary op t (.mk s' e' (.literal (.imaginary x)))))

section
variable {s e : Nat} {t : Term} {place : Level} {codes : Codes}

theorem IsSigned.written (h : IsSigned t) (hplace : place ≤ 15) (hprint : t.print false place = some codes) :
    ∃ kinds, StartsWith startsPart (charsOf codes) ∧ PartOf codes kinds ∧ SignedAt kinds t.unplaced := by
  cases h with
  | plain h =>
    obtain ⟨hstart, hscans⟩ := scans_figure h hprint
    exact ⟨_, hstart, hscans, .plain⟩
  | negative h =>
    obtain ⟨inside, hinside, hcodes⟩ := Option.bind_eq_some_iff.mp hprint
    obtain rfl := Option.some.inj hcodes
    obtain ⟨hstart, hscans⟩ := scans_figure h hinside
    have htight : ¬UnaryOp.negative.level < place := Nat.not_lt.mpr hplace
    rw [parenthesizeIf, if_neg (by simpa using htight)]
    refine ⟨_, by simp [StartsWith, UnaryOp.sign, startsPart], ?_, .negative⟩
    rw [PartOf, charsOf_append, charsOf_codesOf]
    exact (scans_symbol (s := "-") (by decide)).append hscans (hstart.imp fun _ => endsSymbol_of_startsPart)

theorem IsNumeral.written (h : IsNumeral t) (hprint : t.print false .test = some codes) :
    ∃ kinds, StartsWith startsPart (charsOf codes) ∧ PartOf codes kinds ∧ NumberAt kinds t.unplaced := by
  cases h with
  | signed h =>
    obtain ⟨kinds, hstart, hscans, hsigned⟩ := h.written (by decide) hprint
    exact ⟨kinds, hstart, hscans, .signed hsigned⟩
  | @complex s e s' e' op t x h hreal hop hx =>
    obtain ⟨first, hfirst, hprint⟩ := Option.bind_eq_some_iff.mp hprint
    obtain ⟨second, hsecond, hcodes⟩ := Option.bind_eq_some_iff.mp hprint
    obtain rfl := Option.some.inj hcodes
    have hlevel : op.level = 13 ∧ op ≠ .power ∧ op.sign ∈ printedSymbols := by
      rcases hop with rfl | rfl <;> decide
    rw [if_neg hlevel.2.1, hlevel.1] at hfirst
    obtain ⟨ks, hstart, hks, hsigned⟩ := h.written (by decide) hfirst
    obtain ⟨-, hls⟩ := scans_figure hx hsecond
    have htight : ¬op.level < Level.test := by simp [hlevel.1, Level.test]
    rw [parenthesizeIf, if_neg (by simpa using htight)]
    refine ⟨ks ++ [.symbol op.sign, .number (.imaginary x)], ?_, ?_, ?_⟩
    · simpa using hstart.append
    · simpa [PartOf] using scans_between hks (scans_sign hlevel.2.2) hls
    · exact .complex hsigned (by rw [isImaginary_unplaced, hreal]) hop

/-- A name with attributes. -/
inductive IsPath : Term → String → List String → Prop where
  | name {s e word} (h : StandsForItself word) : IsPath (.mk s e (.name word)) word []
  | member {s e t word attrs attr} (h : IsPath t word attrs) (hattr : StandsForItself attr) :
    IsPath (.mk s e (.attribute t attr)) word (attrs ++ [attr])

variable {word : String} {attrs : List String}

theorem IsPath.unplaced (h : IsPath t word attrs) : t.unplaced = pathTerm word attrs := by
  induction h with
  | name => rfl
  | member h hattr ih =>
    rw [Term.unplaced, Form.unplaced, ih, pathTerm, pathTerm, List.foldl_append]
    rfl

theorem IsPath.isName_eq (h : IsPath t word attrs) : isName t = attrs.isEmpty := by
  cases h with
  | name => rfl
  | member => simp [isName]

theorem IsPath.written (h : IsPath t word attrs) (hprint : t.print false place = some codes) :
    StartsWith startsPart (charsOf codes) ∧ Scans endsWord (charsOf codes) (pathKinds word attrs) := by
  induction h generalizing place codes with
  | @name s e word h =>
    obtain rfl := Option.some.inj hprint
    rw [charsOf_codesOf]
    exact ⟨(startsWith_name h).imp fun _ => startsPart_of_isWordByte, scans_name h⟩
  | @member s e t word attrs attr h hattr ih =>
    obtain ⟨inside, hinside, hcodes⟩ := Option.bind_eq_some_iff.mp hprint
    obtain rfl := Option.some.inj hcodes
    obtain ⟨hstart, hscans⟩ := ih hinside
    have hgap : dotGap t = "" := by cases h <;> rfl
    have hall := hscans.append (scans_attribute hattr) rfl
    refine ⟨by simpa using hstart.append, ?_⟩
    simpa [pathKinds, hgap] using hall

theorem IsPath.part (h : IsPath t word attrs) (hprint : t.print false place = some codes) :
    StartsWith startsPart (charsOf codes) ∧ PartOf codes (pathKinds word attrs) :=
  ⟨(h.written hprint).1, (h.written hprint).2.mono fun _ hc => (ends_of_endsPart hc).1⟩

end

section
variable {s e : Nat} {t : Term} {place : Level} {codes : Codes} {word : String} {attrs : List String}

theorem rereads_number (h : IsNumeral t) : (Pattern.value t).Rereads := by
  refine rereads_of_closed fun place codes hprint => ?_
  obtain ⟨kinds, hstart, hscans, hnumber⟩ := h.written hprint
  exact ⟨kinds, hstart, hscans, patternAt_number hnumber⟩

theorem exists_string {value : Literal} (h : IsString value) (hprint : value.print false = some codes) :
    ∃ s : StringLiteral, StartsWith startsPart (charsOf codes) ∧ PartOf codes [.string ⟨s.marks, s.body, 0⟩] ∧
      ∀ inner offset, stringsForm? inner [⟨s.marks, s.body, offset⟩] = some (.literal value) := by
  have htext : IsStringText (charsOf codes) value := by
    cases value with
    | text texts marked =>
      obtain rfl := Option.some.inj hprint
      simpa using isStringText_text h marked
    | bytes values =>
      obtain rfl := Option.some.inj hprint
      simpa using isStringText_bytes h
    | _ => exact h.elim
  obtain ⟨marks, body, hstart, hscans, hform⟩ := exists_scans_string htext
  exact ⟨⟨marks, body, 0⟩, hstart, hscans.mono fun c hc => (ends_of_endsPart hc).2.2.1, hform⟩

theorem rereads_string {value : Literal} (h : IsString value) :
    (Pattern.value (.mk s e (.literal value))).Rereads := by
  refine rereads_of_closed fun place codes hprint => ?_
  obtain ⟨found, hstart, hscans, hform⟩ := exists_string h hprint
  exact ⟨_, hstart, hscans, patternAt_string hform⟩

theorem exists_singleton {k : LexemeKind} {value : Literal} (h : singleton? k = some value)
    (hprint : value.print false = some codes) : StartsWith startsPart (charsOf codes) ∧ PartOf codes [k] := by
  unfold singleton? at h
  split at h
  case h_4 => cases h
  all_goals
    obtain rfl := Option.some.inj h
    obtain rfl := Option.some.inj hprint
    refine ⟨by rw [charsOf_codesOf]; rfl, ?_⟩
    rw [PartOf, charsOf_codesOf]
    exact (scans_keyword (by decide)).mono fun c hc => (ends_of_endsPart hc).1

theorem rereads_singleton {k : LexemeKind} {value : Literal} (h : singleton? k = some value) :
    (Pattern.singleton value).Rereads := by
  refine rereads_of_closed fun place codes hprint => ?_
  obtain ⟨hstart, hscans⟩ := exists_singleton h hprint
  exact ⟨[k], hstart, hscans, patternAt_singleton h⟩

theorem standsForItself_wildcard : StandsForItself "_" :=
  standsForItself_of_ascii ⟨by decide, by decide⟩ (by decide)

theorem part_name (h : StandsForItself word) :
    StartsWith startsPart (charsOf (codesOf word)) ∧ PartOf (codesOf word) [.name word] := by
  rw [PartOf, charsOf_codesOf]
  exact ⟨(startsWith_name h).imp fun _ => startsPart_of_isWordByte,
    (scans_name h).mono fun c hc => (ends_of_endsPart hc).1⟩

theorem rereads_wildcard : (Pattern.capture none).Rereads := by
  refine rereads_of_closed fun place codes hprint => ?_
  obtain rfl := Option.some.inj hprint
  obtain ⟨hstart, hscans⟩ := part_name standsForItself_wildcard
  exact ⟨_, hstart, hscans, patternAt_wildcard⟩

/-- A name other than the wildcard. -/
structure IsBindingName (word : String) : Prop where
  standsForItself : StandsForItself word
  ne_wildcard : word ≠ "_"

theorem rereads_capture (h : IsBindingName word) : (Pattern.capture (some word)).Rereads := by
  refine rereads_of_closed fun place codes hprint => ?_
  obtain rfl := Option.some.inj hprint
  obtain ⟨hstart, hscans⟩ := part_name h.standsForItself
  exact ⟨_, hstart, hscans, patternAt_path h.ne_wildcard []⟩

theorem rereads_path (h : IsPath t word attrs) (hword : word ≠ "_") (hattrs : attrs ≠ []) :
    (Pattern.value t).Rereads := by
  refine rereads_of_closed fun place codes hprint => ?_
  obtain ⟨hstart, hscans⟩ := h.part hprint
  refine ⟨_, hstart, hscans, ?_⟩
  have hpath := patternAt_path hword attrs
  obtain ⟨attr, attrs, rfl⟩ := List.exists_cons_of_ne_nil hattrs
  have hvalue : pathPattern (pathTerm word (attr :: attrs)) = .value (pathTerm word (attr :: attrs)) := by
    have hname := isName_pathTerm word attr attrs
    unfold pathPattern
    split
    · next heq =>
      rw [heq] at hname
      cases hname
    · rfl
  rw [hvalue] at hpath
  rw [Pattern.unplaced, h.unplaced]
  exact hpath

end

theorem Pattern.forall₂_of_printAll {place : Level} {ps : List Pattern} {parts : List Codes}
    (h : Pattern.printAll place ps = some parts) :
    List.Forall₂ (fun p codes => p.print place = some codes) ps parts := by
  induction ps generalizing parts with
  | nil =>
    obtain rfl := Option.some.inj h
    exact .nil
  | cons p ps ih =>
    obtain ⟨first, hfirst, h⟩ := Option.bind_eq_some_iff.mp h
    obtain ⟨others, hothers, h⟩ := Option.bind_eq_some_iff.mp h
    obtain rfl := Option.some.inj h
    exact .cons hfirst (ih hothers)

/-- A pattern that is printed as itself, or a star with a name. -/
inductive Pattern.Listed : Pattern → Prop where
  | pattern {p} (h : p.Rereads) : Pattern.Listed p
  | wildcard : Pattern.Listed (.star none)
  | star {word} (h : IsBindingName word) : Pattern.Listed (.star (some word))

section
variable {p : Pattern} {ps : List Pattern} {codes : Codes} {parts : List Codes} {word : String}

theorem rereads_bound (h : p.Rereads) (hword : IsBindingName word) : (Pattern.bound p word).Rereads := by
  refine rereads_of_patternLevel (l := .test) (.inl rfl) fun place codes hprint => ?_
  obtain ⟨inside, hinside, hcodes⟩ := Option.bind_eq_some_iff.mp hprint
  refine ⟨_, (Option.some.inj hcodes).symm, ?_⟩
  obtain ⟨ks, hstart, hks, hreads⟩ := h.part (l := .operand) (.inr (.inl rfl)) hinside
  refine ⟨ks ++ [.keyword "as", .name word], ?_, ?_, ?_⟩
  · simpa using hstart.append
  · obtain ⟨-, hname⟩ := part_name hword.standsForItself
    simpa [PartOf] using scans_between hks (scans_word (s := "as") (by decide)) hname
  · rw [Pattern.unplaced]
    exact hreads.bound hword.ne_wildcard

theorem rereads_alternatives (h : p.Rereads) (hothers : ∀ q ∈ ps, q.Rereads) (hsome : ps ≠ []) :
    (Pattern.alternatives (p :: ps)).Rereads := by
  refine rereads_of_patternLevel (l := .operand) (.inr (.inl rfl)) fun place codes hprint => ?_
  obtain ⟨parts, hparts, hcodes⟩ := Option.bind_eq_some_iff.mp hprint
  refine ⟨_, (Option.some.inj hcodes).symm, ?_⟩
  obtain _ | ⟨hfirst, hmore⟩ := Pattern.forall₂_of_printAll hparts
  obtain ⟨ks, hstart, hks, hreads⟩ := h.part (.inr (.inr rfl)) hfirst
  obtain ⟨kss, hkss, hmore⟩ := exists_forall₂ (P := PartOf)
    (Q := fun ks (q : Pattern) => PatternAt 10 ks q.unplaced) hmore fun q hq codes hcodes => by
      obtain ⟨ls, -, hls, hreads⟩ := (hothers q hq).part (.inr (.inr rfl)) hcodes
      exact ⟨ls, hls, hreads⟩
  have hsep : Scans anyChar " | ".toList [.symbol "|"] := scans_sign (s := "|") (by decide)
  refine ⟨_, startsWith_joined hstart _, scans_separated hsep rfl hks hkss, ?_⟩
  rw [Pattern.unplaced, Pattern.allUnplaced_eq]
  exact hreads.alternatives (by rwa [List.forall₂_map_right_iff]) (by simpa using hsome)

theorem Pattern.Listed.written (h : p.Listed) (hprint : p.print .test = some codes) :
    ∃ kinds, PartOf codes kinds ∧ SequenceItemAt kinds p.unplaced := by
  have hstar {word : String} (h : StandsForItself word) :
      PartOf (codesOf ("*" ++ word)) [.symbol "*", .name word] := by
    obtain ⟨hstart, hname⟩ := part_name h
    simpa [PartOf] using scans_star hstart hname
  cases h with
  | pattern h =>
    obtain ⟨kinds, -, hscans, hreads⟩ := h.part (.inl rfl) hprint
    exact ⟨kinds, hscans, .pattern hreads⟩
  | wildcard =>
    obtain rfl := Option.some.inj hprint
    exact ⟨_, hstar standsForItself_wildcard, .wildcard⟩
  | star h =>
    obtain rfl := Option.some.inj hprint
    exact ⟨_, hstar h.standsForItself, .star h.ne_wildcard⟩

theorem rereads_sequence (h : ∀ p ∈ ps, p.Listed) : (Pattern.sequence ps).Rereads := by
  refine rereads_of_closed fun place codes hprint => ?_
  obtain ⟨parts, hparts, hcodes⟩ := Option.bind_eq_some_iff.mp hprint
  obtain rfl := Option.some.inj hcodes
  obtain ⟨kss, hkss, hitems⟩ := exists_forall₂ (P := PartOf)
    (Q := fun ks (p : Pattern) => SequenceItemAt ks p.unplaced) (Pattern.forall₂_of_printAll hparts)
    fun p hp codes hcodes => (h p hp).written hcodes
  have hscans := (scans_joined hkss).squares rfl
  refine ⟨.symbol "[" :: commas kss ++ [.symbol "]"], by simp [StartsWith, startsPart], ?_, ?_⟩
  · simpa [PartOf] using hscans.mono (e := endsPart) fun _ _ => rfl
  · rw [Pattern.unplaced, Pattern.allUnplaced_eq]
    exact patternAt_sequence (by rwa [List.forall₂_map_right_iff])

end

/-- The key of a mapping: a constant, or a name with attributes. -/
inductive IsKey : Term → Prop where
  | number {t} (h : IsNumeral t) : IsKey t
  | string {s e value} (h : IsString value) : IsKey (.mk s e (.literal value))
  | singleton {s e k value} (h : singleton? k = some value) : IsKey (.mk s e (.literal value))
  | path {t word attr attrs} (h : IsPath t word (attr :: attrs)) : IsKey t

section
variable {t : Term} {p : Pattern} {keys : List Term} {ps : List Pattern} {codes : Codes} {parts : List Codes}
  {word : String} {others : Option String}

theorem IsKey.written (h : IsKey t) (hprint : t.print false .test = some codes) :
    ∃ kinds, PartOf codes kinds ∧ KeyAt kinds t.unplaced := by
  cases h with
  | number h =>
    obtain ⟨kinds, -, hscans, hnumber⟩ := h.written hprint
    exact ⟨kinds, hscans, .number hnumber⟩
  | string h =>
    obtain ⟨found, -, hscans, hform⟩ := exists_string h hprint
    exact ⟨_, hscans, .string hform⟩
  | singleton h => exact ⟨_, (exists_singleton h hprint).2, .singleton h⟩
  | path h =>
    rw [h.unplaced]
    exact ⟨_, (h.part hprint).2, .path⟩

/-- Keys with their patterns. -/
theorem exists_mappingEntries_printed {first second : List Codes} (hkeys : ∀ t ∈ keys, IsKey t)
    (hvalues : ∀ p ∈ ps, p.Rereads) (hlength : keys.length = ps.length)
    (hfirst : List.Forall₂ (fun t codes => t.print false .test = some codes) keys first)
    (hsecond : List.Forall₂ (fun p codes => p.print .test = some codes) ps second) :
    ∃ kss, List.Forall₂ PartOf ((first.zip second).map fun (k, v) => k ++ codesOf ": " ++ v) kss ∧
      List.Forall₂ MappingEntryAt kss
        (((keys.map Term.unplaced).zip (ps.map Pattern.unplaced)).map Sum.inl) := by
  induction hfirst generalizing ps second with
  | nil => exact ⟨[], .nil, .nil⟩
  | @cons t code keys codes ht hrest ih =>
    cases hsecond with
    | nil => cases hlength
    | @cons p code' ps codes' hp hsecond =>
      obtain ⟨hkey, hkeys⟩ := List.forall_mem_cons.mp hkeys
      obtain ⟨hvalue, hvalues⟩ := List.forall_mem_cons.mp hvalues
      obtain ⟨kss, hkss, hentries⟩ := ih hkeys hvalues (Nat.succ.inj hlength) hsecond
      obtain ⟨ks, hks, hkeyAt⟩ := hkey.written ht
      obtain ⟨ls, -, hls, hreads⟩ := hvalue.part (.inl rfl) hp
      refine ⟨_ :: kss, .cons ?_ hkss, .cons (.pair hkeyAt hreads) hentries⟩
      simpa [PartOf] using scans_pair hks hls

theorem rereads_mapping (hkeys : ∀ t ∈ keys, IsKey t) (hvalues : ∀ p ∈ ps, p.Rereads)
    (hlength : keys.length = ps.length) (hothers : ∀ word ∈ others, IsBindingName word) :
    (Pattern.mapping keys ps others).Rereads := by
  refine rereads_of_closed fun place codes hprint => ?_
  obtain ⟨first, hfirst, hprint⟩ := Option.bind_eq_some_iff.mp hprint
  obtain ⟨second, hsecond, hcodes⟩ := Option.bind_eq_some_iff.mp hprint
  obtain rfl := Option.some.inj hcodes
  obtain ⟨kss, hkss, hentries⟩ := exists_mappingEntries_printed hkeys hvalues hlength
    (forall₂_of_printAll hfirst) (Pattern.forall₂_of_printAll hsecond)
  obtain ⟨lss, hlss, hrest⟩ : ∃ lss,
      List.Forall₂ PartOf (others.toList.map fun name => codesOf ("**" ++ name)) lss ∧
        List.Forall₂ MappingEntryAt lss (others.toList.map Sum.inr) := by
    cases others with
    | none => exact ⟨[], .nil, .nil⟩
    | some word =>
      obtain ⟨hstart, hname⟩ := part_name (hothers word rfl).standsForItself
      refine ⟨[_], .cons ?_ .nil, .cons (.others (hothers word rfl).ne_wildcard) .nil⟩
      simpa [PartOf] using scans_stars hstart hname
  have hscans := (scans_joined (List.rel_append hkss hlss)).braces (by rfl)
  refine ⟨.symbol "\x7b" :: commas (kss ++ lss) ++ [.symbol "\x7d"], by simp [StartsWith, startsPart], ?_, ?_⟩
  · simpa [PartOf] using hscans.mono (e := endsPart) fun _ _ => rfl
  · have hlength : (keys.map Term.unplaced).length = (ps.map Pattern.unplaced).length := by
      simpa using hlength
    have hall := patternAt_mapping (o := others) (List.rel_append hentries hrest)
    rw [List.map_fst_zip (Nat.le_of_eq hlength), List.map_snd_zip (Nat.le_of_eq hlength.symm)] at hall
    rwa [Pattern.unplaced, Term.allUnplaced_eq, Pattern.allUnplaced_eq]

end

section
variable {type : Term} {word : String} {attrs names : List String} {ps qs : List Pattern} {parts : List Codes}

theorem exists_plainArguments (h : ∀ p ∈ ps, p.Rereads) (hprint : Pattern.printAll .test ps = some parts) :
    ∃ kss, List.Forall₂ PartOf parts kss ∧
      List.Forall₂ ObjectArgumentAt kss ((ps.map Pattern.unplaced).map (none, ·)) := by
  simp only [List.map_map, List.forall₂_map_right_iff]
  refine exists_forall₂ (Pattern.forall₂_of_printAll hprint) fun p hp codes hcodes => ?_
  obtain ⟨kinds, -, hscans, hreads⟩ := (h p hp).part (.inl rfl) hcodes
  exact ⟨kinds, hscans, .plain hreads⟩

theorem exists_namedArguments (hnames : ∀ name ∈ names, StandsForItself name) (h : ∀ p ∈ ps, p.Rereads)
    (hprint : Pattern.printAll .test ps = some parts) :
    ∃ kss, List.Forall₂ PartOf ((names.zip parts).map fun (name, v) => codesOf (name ++ "=") ++ v) kss ∧
      List.Forall₂ ObjectArgumentAt kss
        ((names.zip (ps.map Pattern.unplaced)).map fun (name, p) => (some name, p)) := by
  have hparts := Pattern.forall₂_of_printAll hprint
  clear hprint
  induction names generalizing ps parts with
  | nil => exact ⟨[], .nil, .nil⟩
  | cons name names ih =>
    obtain ⟨hname, hnames⟩ := List.forall_mem_cons.mp hnames
    cases hparts with
    | nil => exact ⟨[], .nil, .nil⟩
    | @cons p code ps codes hp hparts =>
      obtain ⟨hvalue, hvalues⟩ := List.forall_mem_cons.mp h
      obtain ⟨kss, hkss, harguments⟩ := ih hnames hvalues hparts
      obtain ⟨ks, hstart, hks, hreads⟩ := hvalue.part (.inl rfl) hp
      refine ⟨_ :: kss, .cons ?_ hkss, .cons (.named hreads) harguments⟩
      simpa [PartOf] using scans_assigned hname hstart hks

theorem rereads_object (htype : IsPath type word attrs) (hword : word ≠ "_") (hplain : ∀ p ∈ ps, p.Rereads)
    (hnames : ∀ name ∈ names, StandsForItself name) (hnamed : ∀ p ∈ qs, p.Rereads)
    (hlength : names.length = qs.length) (hfirst : ps ≠ [] → names.head? ≠ some "_") :
    (Pattern.object type ps names qs).Rereads := by
  refine rereads_of_closed fun place codes hprint => ?_
  obtain ⟨head, hhead, hprint⟩ := Option.bind_eq_some_iff.mp hprint
  obtain ⟨first, hfirstParts, hprint⟩ := Option.bind_eq_some_iff.mp hprint
  obtain ⟨second, hsecond, hcodes⟩ := Option.bind_eq_some_iff.mp hprint
  obtain rfl := Option.some.inj hcodes
  obtain ⟨hstart, hpath⟩ := htype.part hhead
  obtain ⟨kss, hkss, hplainAt⟩ := exists_plainArguments hplain hfirstParts
  obtain ⟨lss, hlss, hnamedAt⟩ := exists_namedArguments hnames hnamed hsecond
  have harguments := (scans_joined (List.rel_append hkss hlss)).parentheses (by rfl)
  refine ⟨pathKinds word attrs ++ (.symbol "(" :: commas (kss ++ lss) ++ [.symbol ")"]), ?_, ?_, ?_⟩
  · simpa using hstart.append
  · simpa [PartOf] using (hpath.append harguments rfl).mono (e := endsPart) fun _ _ => rfl
  · rw [Pattern.unplaced, Pattern.allUnplaced_eq, Pattern.allUnplaced_eq, htype.unplaced]
    exact patternAt_object hword attrs (List.rel_append hplainAt hnamedAt) (by simpa using hlength)
      (by simpa using hfirst)

end
end ViewTree.Embedded
