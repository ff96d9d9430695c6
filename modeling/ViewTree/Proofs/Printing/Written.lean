import ViewTree.Proofs.Printing.Calls
import ViewTree.Proofs.Printing.Tokens

/-!
Printed terms. A text is a term at a place if it is found as lexemes that are read as the term there.
-/
namespace ViewTree.Embedded
open Text

def charsOf (codes : Codes) : List Char := codes.map Char.ofNat

@[simp] theorem charsOf_append (a b : Codes) : charsOf (a ++ b) = charsOf a ++ charsOf b := List.map_append

@[simp] theorem charsOf_codesOf (text : String) : charsOf (codesOf text) = text.toList := by
  simp [charsOf, codesOf, Function.comp_def]

@[simp] theorem charsOf_nil : charsOf [] = [] := rfl

theorem toList_textOf (codes : Codes) : (textOf codes).toList = charsOf codes := by
  simp [textOf, charsOf]

/-- Characters that stand behind a printed term: a dot may stand behind an atom that it is no part of. -/
def endsTerm (place : Level) (t : Term) (c : Char) : Bool :=
  endsPart c || (c = '.' && place = Level.atom && dotGap t = "")

def Written (place : Level) (t : Term) (codes : Codes) : Prop := ∃ kinds,
  StartsWith startsPart (charsOf codes) ∧ Scans (endsTerm place t) (charsOf codes) kinds ∧
    ReadsAt place kinds t.unplaced

/-- However the term is printed, the text is the term. -/
def Rereads (t : Term) : Prop := ∀ place codes, 4 ≤ place → place ≤ 18 →
  t.print false place = some codes → Written place t codes

section
variable {place l : Level} {t : Term} {codes : Codes}

theorem endsTerm_of_endsPart {c : Char} (h : endsPart c) : endsTerm place t c := by
  simp [endsTerm, h]

theorem Written.mono (h : Written l t codes) (hplace : 4 ≤ place) (hl : place ≤ l) (hatom : l ≤ 18) :
    Written place t codes := by
  obtain ⟨kinds, hstart, hscans, hreads⟩ := h
  refine ⟨kinds, hstart, hscans.mono fun c hc => ?_, hreads.mono hplace hl hatom⟩
  simp only [endsTerm, Bool.or_eq_true, Bool.and_eq_true, decide_eq_true_eq] at hc ⊢
  rcases hc with hc | ⟨⟨hc, rfl⟩, hgap⟩
  · exact .inl hc
  · exact .inr ⟨⟨hc, Nat.le_antisymm hatom hl⟩, hgap⟩

theorem written_of {kinds : List LexemeKind} {a : List Char} (htext : charsOf codes = a)
    (hstart : StartsWith startsPart a) (hscans : Scans (endsTerm place t) a kinds)
    (hreads : ReadsAt place kinds t.unplaced) : Written place t codes :=
  ⟨kinds, htext ▸ hstart, htext ▸ hscans, hreads⟩

theorem endsPart_of_endsTerm {c : Char} (h : endsTerm place t c) (hplace : place ≠ 18) : endsPart c := by
  simp only [endsTerm, Bool.or_eq_true, Bool.and_eq_true, decide_eq_true_eq] at h
  exact h.resolve_right fun h => hplace h.1.2

/-- A term that is no atom. -/
theorem written_of_part {kinds : List LexemeKind} {text : List Char} (hplace : place ≠ 18)
    (hscans : Scans endsPart text kinds) (hreads : ReadsAt place kinds t.unplaced)
    (hstart : StartsWith startsPart text) (htext : charsOf codes = text) : Written place t codes :=
  written_of htext hstart (hscans.mono fun _ hc => endsPart_of_endsTerm hc hplace) hreads

theorem Written.grouped (h : Written l t codes) (hplace : 4 ≤ l) (hl : l ≤ 18) :
    Written 18 t (codesOf "(" ++ codes ++ codesOf ")") := by
  obtain ⟨kinds, hstart, hscans, hreads⟩ := h
  have hinside := hscans.parentheses (endsTerm_of_endsPart (by decide))
  exact written_of (a := '(' :: charsOf codes ++ [')']) (by simp) rfl (hinside.mono fun _ _ => rfl)
    (hreads.mono (Nat.le_refl 4) hplace hl).grouped

theorem Written.parenthesizeIf (h : Written l t codes) (hl : 4 ≤ l) (hatom : l ≤ 18) (hplace : 4 ≤ place)
    (htop : place ≤ 18) : Written place t (parenthesizeIf (l < place) codes) := by
  unfold Embedded.parenthesizeIf
  by_cases hloose : l < place
  · rw [if_pos (by simpa using hloose)]
    exact (h.grouped hl hatom).mono hplace htop (Nat.le_refl 18)
  · rw [if_neg (by simpa using hloose)]
    exact h.mono hplace (Nat.not_lt.mp hloose) hatom

/-- A term that is printed as an atom wherever it stands. -/
theorem rereads_of_atom (h : ∀ place codes, t.print false place = some codes → Written 18 t codes) :
    Rereads t := fun place codes hplace htop hprint =>
  (h place codes hprint).mono hplace htop (Nat.le_refl 18)

/-- A term that is printed between parentheses in places that are tighter than it. -/
theorem rereads_of_level (hl : 4 ≤ l) (hatom : l ≤ 18)
    (h : ∀ place codes, t.print false place = some codes →
      ∃ inside, codes = Embedded.parenthesizeIf (l < place) inside ∧ Written l t inside) : Rereads t := by
  intro place codes hplace htop hprint
  obtain ⟨inside, rfl, hinside⟩ := h place codes hprint
  exact hinside.parenthesizeIf hl hatom hplace htop

end

theorem forall₂_of_printAll {place : Level} {ts : List Term} {parts : List Codes}
    (h : Term.printAll false place ts = some parts) :
    List.Forall₂ (fun t codes => t.print false place = some codes) ts parts := by
  induction ts generalizing parts with
  | nil =>
    obtain rfl := Option.some.inj h
    exact .nil
  | cons t ts ih =>
    obtain ⟨first, hfirst, h⟩ := Option.bind_eq_some_iff.mp h
    obtain ⟨others, hothers, h⟩ := Option.bind_eq_some_iff.mp h
    obtain rfl := Option.some.inj h
    exact .cons hfirst (ih hothers)

theorem exists_forall₂ {α β γ : Type} {R : α → β → Prop} {P : β → γ → Prop} {Q : γ → α → Prop}
    {as : List α} {bs : List β} (h : List.Forall₂ R as bs)
    (hR : ∀ a ∈ as, ∀ b, R a b → ∃ c, P b c ∧ Q c a) :
    ∃ cs, List.Forall₂ P bs cs ∧ List.Forall₂ Q cs as := by
  induction h with
  | nil => exact ⟨[], .nil, .nil⟩
  | @cons a b as bs hab _ ih =>
    obtain ⟨ha, has⟩ := List.forall_mem_cons.mp hR
    obtain ⟨c, hbc, hca⟩ := ha b hab
    obtain ⟨cs, hbs, hcs⟩ := ih has
    exact ⟨c :: cs, .cons hbc hbs, .cons hca hcs⟩

/-- The text is found as the lexemes wherever a part may stand. -/
abbrev PartOf (codes : Codes) (kinds : List LexemeKind) : Prop := Scans endsPart (charsOf codes) kinds

section
variable {codes : Codes} {kinds : List LexemeKind} {parts : List Codes} {kss : List (List LexemeKind)}

theorem startsWith_comma {text : List Char} : StartsWith endsPart (',' :: text) := rfl

theorem scans_comma : Scans anyChar [',', ' '] [.symbol ","] :=
  (scans_symbol (s := ",") (by decide)).blank rfl

theorem charsOf_joinCodes (sep : String) (parts : List Codes) :
    charsOf (joinCodes sep parts) = sep.toList.intercalate (parts.map charsOf) := by
  induction parts with
  | nil => rfl
  | cons part parts ih =>
    cases parts with
    | nil => simp [joinCodes]
    | cons next parts =>
      simp only [joinCodes, List.intercalate_cons_cons, charsOf_append, charsOf_codesOf,
        List.map_cons] at ih ⊢
      rw [ih]

/-- Parts with something between them. -/
theorem scans_separated {s : String} {k : LexemeKind} (hsep : Scans anyChar s.toList [k])
    (hstart : StartsWith endsPart s.toList) {part : Codes} {ks : List LexemeKind} (hpart : PartOf part ks)
    (h : List.Forall₂ PartOf parts kss) :
    Scans endsPart (charsOf (joinCodes s (part :: parts))) (ks ++ led k kss) := by
  rw [charsOf_joinCodes]
  induction h generalizing part ks with
  | nil => simpa [led] using hpart
  | @cons next ls parts kss hnext hparts ih =>
    rw [List.map_cons, List.map_cons, List.intercalate_cons_cons, led_cons]
    exact List.append_assoc _ _ _ ▸ hpart.append (hsep.append_any (ih hnext)) hstart.append

theorem scans_joined (h : List.Forall₂ PartOf parts kss) :
    Scans endsPart (charsOf (joinCodes ", " parts)) (commas kss) := by
  cases h with
  | nil => exact scans_nil
  | cons hpart hparts => exact scans_separated (s := ", ") scans_comma rfl hpart hparts

theorem scans_tupleItems (h : List.Forall₂ PartOf parts kss) :
    Scans endsPart (charsOf (tupleItems parts)) (tupleKinds kss) := by
  cases h with
  | nil => exact scans_nil
  | @cons part ks parts kss hpart hparts =>
    cases hparts with
    | nil =>
      rw [tupleItems, charsOf_append, charsOf_codesOf]
      exact hpart.append ((scans_symbol (by decide)).mono fun c hc => (ends_of_endsPart hc).2.2.2)
        startsWith_comma
    | cons hnext hparts => exact scans_joined (.cons hpart (.cons hnext hparts))

end

def WrittenItem (t : Term) (codes : Codes) : Prop := ∃ kinds,
  PartOf codes kinds ∧ ItemAt kinds t.unplaced

/-- A term that is printed as itself, or a star with one behind it. -/
inductive Listed : Term → Prop where
  | term {t} (h : Rereads t) : Listed t
  | starred {s e value} (h : Rereads value) : Listed (.mk s e (.starred value))

section
variable {place : Level} {t : Term} {ts : List Term} {codes : Codes} {parts : List Codes}

theorem Written.part (h : Written place t codes) : ∃ kinds,
    StartsWith startsPart (charsOf codes) ∧ PartOf codes kinds ∧ ReadsAt place kinds t.unplaced := by
  obtain ⟨kinds, hstart, hscans, hreads⟩ := h
  exact ⟨kinds, hstart, hscans.mono fun _ => endsTerm_of_endsPart, hreads⟩

theorem Rereads.part {l : Level} (h : Rereads t) (hplace : 4 ≤ l) (htop : l ≤ 18)
    (hprint : t.print false l = some codes) : ∃ kinds,
    StartsWith startsPart (charsOf codes) ∧ PartOf codes kinds ∧ ReadsAt l kinds t.unplaced :=
  (h l codes hplace htop hprint).part

theorem scans_star {kinds : List LexemeKind} (hstart : StartsWith startsPart (charsOf codes))
    (h : PartOf codes kinds) : PartOf (codesOf "*" ++ codes) (.symbol "*" :: kinds) := by
  rw [PartOf, charsOf_append, charsOf_codesOf]
  exact (scans_symbol (s := "*") (by decide)).append h (hstart.imp fun _ => endsSymbol_of_startsPart)

theorem Listed.written {l : Level} (h : Listed t) (hplace : 4 ≤ l) (htop : l ≤ 18)
    (hprint : t.print false l = some codes) : WrittenItem t codes := by
  cases h with
  | term h =>
    obtain ⟨kinds, -, hscans, hreads⟩ := h.part hplace htop hprint
    exact ⟨kinds, hscans, .term (hreads.mono (Nat.le_refl 4) hplace htop)⟩
  | starred h =>
    obtain ⟨inside, hinside, hcodes⟩ := Option.bind_eq_some_iff.mp hprint
    obtain rfl := Option.some.inj hcodes
    obtain ⟨kinds, hstart, hscans, hreads⟩ := h.part (l := .operand) (by decide) (by decide) hinside
    exact ⟨_, scans_star hstart hscans, .starred hreads⟩

theorem exists_items (h : ∀ t ∈ ts, Listed t) (hplace : 4 ≤ place) (htop : place ≤ 18)
    (hprint : Term.printAll false place ts = some parts) :
    ∃ kss, List.Forall₂ PartOf parts kss ∧ List.Forall₂ ItemAt kss (ts.map Term.unplaced) := by
  simp only [List.forall₂_map_right_iff]
  exact exists_forall₂ (forall₂_of_printAll hprint) fun t ht codes hcodes =>
    (h t ht).written hplace htop hcodes

variable {s e : Nat}

theorem rereads_tuple (h : ∀ t ∈ ts, Listed t) : Rereads (.mk s e (.tuple ts)) := by
  intro place codes hplace htop hprint
  obtain ⟨parts, hparts, hcodes⟩ := Option.bind_eq_some_iff.mp hprint
  obtain rfl := Option.some.inj hcodes
  obtain ⟨kss, hscans, hitems⟩ := exists_items h (by decide) (by decide) hparts
  have htight : (ts.isEmpty || decide (Level.tuple < place)) = true := by
    simp [Nat.lt_of_lt_of_le (by decide : Level.tuple < 4) hplace]
  rw [parenthesizeIf, if_pos htight]
  refine Written.mono (written_of (a := '(' :: charsOf (tupleItems parts) ++ [')']) (by simp) rfl
    (((scans_tupleItems hscans).parentheses rfl).mono fun _ _ => rfl) ?_) hplace htop (Nat.le_refl 18)
  rw [Term.unplaced, Form.unplaced, Term.allUnplaced_eq]
  exact readsAt_tuple hitems

theorem rereads_list (h : ∀ t ∈ ts, Listed t) : Rereads (.mk s e (.list ts)) := by
  refine rereads_of_atom fun place codes hprint => ?_
  obtain ⟨parts, hparts, hcodes⟩ := Option.bind_eq_some_iff.mp hprint
  obtain rfl := Option.some.inj hcodes
  obtain ⟨kss, hscans, hitems⟩ := exists_items h (by decide) (by decide) hparts
  refine written_of (a := '[' :: charsOf (joinCodes ", " parts) ++ [']']) (by simp) rfl
    (((scans_joined hscans).squares rfl).mono fun _ _ => rfl) ?_
  rw [Term.unplaced, Form.unplaced, Term.allUnplaced_eq]
  exact readsAt_list hitems

end
end ViewTree.Embedded
