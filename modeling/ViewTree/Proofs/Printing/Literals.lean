import ViewTree.Proofs.Printing.Decoded
import ViewTree.Proofs.Printing.Numerals
import ViewTree.Proofs.Printing.Written

/-!
Names and constants as they are printed, and readers that give them. Main statements: names and constants
are printed as what they are read as (`rereads_name`, `rereads_literal`), every number that a scan finds is
one that is printed so (`isFigure_of_scanFrom`), and all that a reader gives has a property if what it is
combined from has properties that lead to it (`Delivers.bind`, `Delivers.repeating`).
-/
namespace ViewTree.Embedded
open Text Reader

/-- A number as numbers are read. -/
def IsFigure : Literal → Prop
  | .int _ => True
  | .float x | .imaginary x => x.IsRead
  | _ => False

/-- A constant that is printed as itself. -/
def Literal.IsSound : Literal → Prop
  | .none | .bool _ | .ellipsis => True
  | .text codes marked => IsString (.text codes marked)
  | .bytes values => IsString (.bytes values)
  | value => IsFigure value

theorem IsFigure.isSound {value : Literal} (h : IsFigure value) : value.IsSound := by
  cases value with
  | int | float | imaginary => exact h
  | _ => exact h.elim

theorem IsString.isSound {value : Literal} (h : IsString value) : value.IsSound := by
  cases value with
  | text | bytes => exact h
  | _ => exact h.elim

section
variable {s e : Nat} {place : Level} {codes : Codes}

theorem endsWord_of_endsTerm {t : Term} {c : Char} (h : endsTerm place t c) : endsWord c := by
  simp only [endsTerm, Bool.or_eq_true, Bool.and_eq_true, decide_eq_true_eq] at h
  rcases h with h | ⟨⟨rfl, -⟩, -⟩
  · exact (ends_of_endsPart h).1
  · rfl

theorem endsString_of_endsTerm {t : Term} {c : Char} (h : endsTerm place t c) : endsString c := by
  have hword := of_endsWord (endsWord_of_endsTerm h)
  simp [endsString, hword.2.1, hword.2.2]

theorem endsFraction_of_endsTerm {t : Term} {c : Char} (h : endsTerm place t c) : endsFraction c := by
  simp [endsFraction, (of_endsWord (endsWord_of_endsTerm h)).1]

theorem rereads_name {id : String} (hid : StandsForItself id) : Rereads (.mk s e (.name id)) := by
  refine rereads_of_atom fun place codes hprint => ?_
  obtain rfl := Option.some.inj hprint
  exact written_of (charsOf_codesOf id) ((startsWith_name hid).imp fun _ => startsPart_of_isWordByte)
    ((scans_name hid).mono fun _ => endsWord_of_endsTerm) (readsAt_name id)

theorem written_keyword {word : String} {value : Literal} (hword : word ∈ printedKeywords)
    (hvalue : constant? (.keyword word) = some value) :
    Written 18 (.mk s e (.literal value)) (codesOf word) := by
  have hstart : StartsWith startsPart word.toList := by
    have hall : ∀ word ∈ printedKeywords, word.toList.head?.any startsPart = true := by decide
    exact hall word hword
  exact written_of (charsOf_codesOf word) hstart ((scans_keyword hword).mono fun _ => endsWord_of_endsTerm)
    (readsAt_constant hvalue)

theorem scans_ellipsis : Scans anyChar "...".toList [.symbol "..."] := by
  refine scans_lexeme (d := '.') (a := ['.', '.']) (by decide) (by decide) (by decide)
    fun offset c rest _ => ?_
  exact ⟨.symbol "...", rfl, rfl⟩

theorem written_string {value : Literal} (htext : IsStringText (charsOf codes) value) :
    Written 18 (.mk s e (.literal value)) codes := by
  obtain ⟨marks, body, hstart, hscans, hform⟩ := exists_scans_string htext
  exact ⟨_, hstart, hscans.mono fun _ => endsString_of_endsTerm, readsAt_string (s := ⟨marks, body, 0⟩) hform⟩

theorem written_numberText {text : String} {value : Literal} (h : IsNumberText text value) :
    Written 18 (.mk s e (.literal value)) (codesOf text) :=
  written_of (charsOf_codesOf text) (h.starts.imp fun _ => startsPart_of_isWordByte)
    (h.scans.mono fun _ => endsFraction_of_endsTerm) (readsAt_number value)

theorem scans_whole {n : Nat} (hprint : printNumber n = some codes) :
    StartsWith isWordByte (charsOf codes) ∧ Scans endsFigures (charsOf codes) [.number (.int n)] := by
  unfold printNumber at hprint
  dsimp only at hprint
  split at hprint
  · next hlength =>
    obtain rfl := Option.some.inj hprint
    have htext : (toString n).toList = Nat.toDigits 10 n := Nat.toList_repr
    have hlength : (Nat.toDigits 10 n).length ≤ maxDecimalDigits := by
      rw [← htext]
      simpa [codesOf] using hlength
    rw [charsOf_codesOf, htext]
    refine ⟨?_, scans_number hlength⟩
    cases hlist : Nat.toDigits 10 n with
    | nil => exact absurd hlist Nat.toDigits_ne_nil
    | cons d ds =>
      have hdigit : d.isDigit :=
        Nat.isDigit_of_mem_toDigits (b := 10) (n := n) (by decide) (by decide) (hlist ▸ List.mem_cons_self)
      simp [StartsWith, isWordByte, Char.isAlphanum, hdigit]
  · cases hprint

theorem written_whole {n : Nat} (hprint : printNumber n = some codes) :
    Written 18 (.mk s e (.literal (.int n))) codes := by
  obtain ⟨hstart, hscans⟩ := scans_whole hprint
  refine written_of rfl (hstart.imp fun _ => startsPart_of_isWordByte) (hscans.mono fun c hc => ?_)
    (readsAt_number _)
  have hpart : endsPart c := by simpa [endsTerm, dotGap] using hc
  exact (ends_of_endsPart hpart).2.1

/-- A number where parts may stand. -/
theorem scans_figure {value : Literal} (h : IsFigure value) (hprint : value.print false = some codes) :
    StartsWith startsPart (charsOf codes) ∧ PartOf codes [.number value] := by
  have htext {text : String} (h : IsNumberText text value) :
      StartsWith startsPart (charsOf (codesOf text)) ∧ PartOf (codesOf text) [.number value] := by
    rw [PartOf, charsOf_codesOf]
    refine ⟨h.starts.imp fun _ => startsPart_of_isWordByte, h.scans.mono fun c hc => ?_⟩
    have hword := (of_endsWord (ends_of_endsPart hc).1).1
    simp [endsFraction, hword]
  cases value with
  | int n =>
    obtain ⟨hstart, hscans⟩ := scans_whole hprint
    exact ⟨hstart.imp fun _ => startsPart_of_isWordByte, hscans.mono fun c hc => (ends_of_endsPart hc).2.1⟩
  | float x =>
    obtain rfl := Option.some.inj hprint
    exact htext (isNumberText_float h)
  | imaginary x =>
    obtain rfl := Option.some.inj hprint
    exact htext (isNumberText_imaginary h)
  | _ => exact h.elim

theorem rereads_literal {value : Literal} (h : value.IsSound) : Rereads (.mk s e (.literal value)) := by
  refine rereads_of_atom fun place codes hprint => ?_
  cases value with
  | none =>
    obtain rfl := Option.some.inj hprint
    exact written_keyword (by decide) rfl
  | bool b =>
    obtain rfl := Option.some.inj hprint
    cases b <;> exact written_keyword (by decide) rfl
  | ellipsis =>
    obtain rfl := Option.some.inj hprint
    exact written_of (charsOf_codesOf _) rfl (scans_ellipsis.mono fun _ _ => rfl) (readsAt_constant rfl)
  | int n => exact written_whole hprint
  | float x =>
    obtain rfl := Option.some.inj hprint
    exact written_numberText (isNumberText_float h)
  | imaginary x =>
    obtain rfl := Option.some.inj hprint
    exact written_numberText (isNumberText_imaginary h)
  | text texts marked =>
    obtain rfl := Option.some.inj hprint
    exact written_string (by simpa using isStringText_text h marked)
  | bytes values =>
    obtain rfl := Option.some.inj hprint
    exact written_string (by simpa using isStringText_bytes h)

end

section
variable {cs : List Char} {value : Literal} {n : Nat}

theorem isFigure_of_basedNumber? {ok : Char → Bool} {base : Nat}
    (h : basedNumber? ok base cs = some (value, n)) : IsFigure value := by
  unfold basedNumber? at h
  extract_lets body skipped at h
  split at h
  · dsimp only at h
    split at h
    · obtain ⟨rfl, -⟩ := Prod.mk.inj (Option.some.inj h)
      trivial
    · cases h
  · cases h

theorem isFigure_of_finish {isFloat : Bool} {real : Double} {whole : List Char} {body : Nat}
    (hreal : real.IsRead) (h : decimalNumber?.finish isFloat real whole cs body = some (value, n)) :
    IsFigure value := by
  unfold decimalNumber?.finish at h
  dsimp only at h
  split at h
  · cases h
  split at h
  · obtain ⟨rfl, -⟩ := Prod.mk.inj (Option.some.inj h)
    exact hreal
  split at h
  · cases h
  · obtain ⟨rfl, -⟩ := Prod.mk.inj (Option.some.inj h)
    trivial

theorem isFigure_of_fromFraction? {size : Nat} {whole fraction : List Char} {pointed : Bool}
    (h : Numeral.fromFraction? size whole fraction pointed cs = some (value, n)) : IsFigure value := by
  obtain ⟨exponent, -, h⟩ := Option.bind_eq_some_iff.mp h
  dsimp only at h
  have hreal := Double.isRead_ofDecimal (decimalValue (whole ++ fraction))
    ((exponent.getD (0, 0)).1 - (digitsOf fraction).length)
  cases hrest : cs.drop (exponent.getD (0, 0)).2 with
  | nil =>
    rw [hrest] at h
    exact isFigure_of_finish hreal h
  | cons j more =>
    rw [hrest] at h
    dsimp only at h
    by_cases hmark : (decide (j = 'j') || decide (j = 'J')) = true
    · rw [if_pos hmark] at h
      split at h
      · obtain ⟨rfl, -⟩ := Prod.mk.inj (Option.some.inj h)
        exact hreal
      · cases h
    · rw [if_neg hmark] at h
      exact isFigure_of_finish hreal h

theorem isFigure_of_decimalNumber? (h : decimalNumber? cs = some (value, n)) : IsFigure value := by
  obtain ⟨whole, -, h⟩ := Option.bind_eq_some_iff.mp h
  extract_lets intPart rest go at h
  clear_value rest
  have hgo {fraction : List Char} {pointed : Bool} {behind : List Char}
      (h : go (fraction, pointed, behind) = some (value, n)) : IsFigure value :=
    isFigure_of_fromFraction? (show Numeral.fromFraction? whole intPart fraction pointed behind = _ from h)
  clear_value go
  split at h
  · split at h
    · obtain ⟨m, -, h⟩ := Option.bind_eq_some_iff.mp h
      exact hgo h
    · exact hgo h
  · exact hgo h

theorem isFigure_of_number? (h : number? cs = some (value, n)) : IsFigure value := by
  have hbased {ok : Char → Bool} {base : Nat} {cs : List Char}
      (h : (basedNumber? ok base cs).map (fun found => (found.1, found.2 + 2)) = some (value, n)) :
      IsFigure value := by
    obtain ⟨⟨l, m⟩, hm, hsame⟩ := Option.map_eq_some_iff.mp h
    obtain ⟨rfl, -⟩ := Prod.mk.inj hsame
    exact isFigure_of_basedNumber? hm
  unfold number? at h
  split at h
  · split at h
    · exact hbased h
    split at h
    · exact hbased h
    split at h
    · exact hbased h
    · exact isFigure_of_decimalNumber? h
  · exact isFigure_of_decimalNumber? h

theorem isFigure_of_lexeme? {offset : Nat} (h : lexeme? offset cs = some (.number value, n)) :
    IsFigure value := by
  cases cs with
  | nil => cases h
  | cons c rest =>
    unfold lexeme? at h
    dsimp only at h
    split at h
    · obtain ⟨⟨l, m⟩, hm, hsame⟩ := Option.map_eq_some_iff.mp h
      cases hsame
      exact isFigure_of_number? hm
    split at h
    · split at h
      · obtain ⟨r, -, hsame⟩ := Option.map_eq_some_iff.mp h
        cases hsame
      split at h
      · cases h
      split at h
      · cases h
      · cases h
    split at h
    · obtain ⟨r, -, hsame⟩ := Option.map_eq_some_iff.mp h
      cases hsame
    · obtain ⟨r, -, hsame⟩ := Option.map_eq_some_iff.mp h
      cases hsame

theorem isFigure_of_scanFrom {offset : Nat} {pending : List String} {fresh : Bool} {ts : List Lexeme}
    (h : scanFrom offset pending fresh cs = some ts) :
    ∀ t ∈ ts, ∀ value, t.kind = .number value → IsFigure value := by
  induction ts generalizing offset pending fresh cs with
  | nil => nofun
  | cons t ts ih =>
    obtain ⟨gap, own, rest, still, hfinds⟩ | ⟨hline, front, rest, rfl, hscan⟩ := exists_first_of_scanFrom h
    · exact List.forall_mem_cons.mpr ⟨fun value hvalue => isFigure_of_lexeme? (hvalue ▸ hfinds.lexeme),
        ih hfinds.scan⟩
    · refine List.forall_mem_cons.mpr ⟨fun value hvalue => ?_, ih hscan⟩
      rw [hline] at hvalue
      cases hvalue

end

/-- Kinds of lexemes whose names and constants are printed as themselves. -/
def IsSoundKind : LexemeKind → Prop
  | .name id => StandsForItself id
  | .number value => IsFigure value
  | .string s => s.marks.format = false
  | _ => True

/-- Names are those that they are read as, and no string has replacement fields. -/
def IsPlainKind : LexemeKind → Prop
  | .name id => StandsForItself id
  | .string s => s.marks.format = false
  | _ => True

theorem IsPlainKind.isSound {kind : LexemeKind} (h : IsPlainKind kind)
    (hnumber : ∀ value, kind = .number value → IsFigure value) : IsSoundKind kind := by
  cases kind with
  | number value => exact hnumber value rfl
  | name | string => exact h
  | _ => trivial

/-- All lexemes still to come are of such kinds. -/
def Input.IsSound (i : Input) : Prop := ∀ t ∈ i.rest, IsSoundKind t.kind

variable {α β : Type}

/-- All that the reader gives from sound lexemes has the property, and leaves sound lexemes. -/
def Delivers (Q : α → Prop) (r : Reader α) : Prop :=
  ∀ i x i', i.IsSound → r i = some (x, i') → Q x ∧ i'.IsSound

section
variable {i : Input} {t : Lexeme} {rest : List Lexeme}

theorem Input.IsSound.cons {last : Nat} (h : Input.IsSound ⟨t :: rest, last⟩) (last' : Nat) :
    IsSoundKind t.kind ∧ Input.IsSound ⟨rest, last'⟩ := List.forall_mem_cons.mp h

end

namespace Delivers
variable {Q Q₁ : α → Prop} {Q' : β → Prop} {r s : Reader α} {k : α → Reader β}

theorem imp (h : Delivers Q r) (hQ : ∀ x, Q x → Q₁ x) : Delivers Q₁ r := fun i x i' hi hr =>
  ⟨hQ x (h i x i' hi hr).1, (h i x i' hi hr).2⟩

theorem pure {x : α} (h : Q x) : Delivers Q (pure x) := by
  intro i y i' hi hr
  obtain ⟨rfl, rfl⟩ := Prod.mk.inj (Option.some.inj hr)
  exact ⟨h, hi⟩

theorem bind (hr : Delivers Q r) (h : ∀ x, Q x → Delivers Q' (k x)) : Delivers Q' (r >>= k) := by
  intro i y i' hi hk
  obtain ⟨⟨x, j⟩, hx, hk⟩ := Option.bind_eq_some_iff.mp hk
  obtain ⟨hQ, hj⟩ := hr i x j hi hx
  exact h x hQ j y i' hj hk

theorem failure : Delivers Q failure := fun _ _ _ _ hr => nomatch hr

theorem ite {p : Prop} [Decidable p] (hr : p → Delivers Q r) (hs : ¬p → Delivers Q s) :
    Delivers Q (if p then r else s) := by
  by_cases hp : p
  · rw [if_pos hp]
    exact hr hp
  · rw [if_neg hp]
    exact hs hp

/-- A reader that fails in some cases. -/
theorem guarded {p : Prop} [Decidable p] {k : PUnit → Reader β} (h : ¬p → Delivers Q' (k ())) :
    Delivers Q' (if p then Alternative.failure >>= k else k ()) :=
  ite (fun _ => (failure (Q := fun _ => False)).bind fun _ hfalse => hfalse.elim) h

/-- A reader that takes nothing. -/
theorem still {x : Input → α} (h : ∀ i, i.IsSound → Q (x i)) : Delivers Q (fun i => some (x i, i)) := by
  intro i y i' hi hr
  obtain ⟨rfl, rfl⟩ := Prod.mk.inj (Option.some.inj hr)
  exact ⟨h i hi, hi⟩

theorem rounds {step : α → Reader (Option α)}
    (h : ∀ x, Q x → Delivers (fun next? => ∀ next ∈ next?, Q next) (step x)) (n : Nat) {x : α}
    (hx : Q x) : Delivers Q (ViewTree.rounds Alternative.failure step n x) := by
  induction n generalizing x with
  | zero => exact failure
  | succ n ih =>
    refine bind (h x hx) fun next? hnext => ?_
    cases next? with
    | none => exact pure hx
    | some next => exact ih (hnext next rfl)

theorem peek : Delivers (fun kind? => ∀ kind ∈ kind?, IsSoundKind kind) peek :=
  still fun i hi kind hkind => by
    obtain ⟨t, ht, rfl⟩ := Option.map_eq_some_iff.mp hkind
    exact hi t (List.mem_of_head? ht)

theorem peekSecond : Delivers (fun _ => True) peekSecond := still fun _ _ => trivial

theorem here : Delivers (fun _ => True) here := still fun _ _ => trivial

theorem next : Delivers IsSoundKind next := by
  intro i x i' hi hr
  obtain ⟨_ | ⟨t, rest⟩, last⟩ := i
  · cases hr
  · obtain ⟨rfl, rfl⟩ := Prod.mk.inj (Option.some.inj hr)
    exact hi.cons t.stop

theorem expect (kind : LexemeKind) : Delivers (fun _ => True) (expect kind) :=
  next.bind fun _ _ => ite (fun _ => pure trivial) fun _ => failure

theorem symbol (text : String) : Delivers (fun _ => True) (symbol text) := expect _

theorem keyword (word : String) : Delivers (fun _ => True) (keyword word) := expect _

theorem accept (kind : LexemeKind) : Delivers (fun _ => True) (accept kind) :=
  peek.bind fun _ _ => ite (fun _ => next.bind fun _ _ => pure trivial) fun _ => pure trivial

theorem name : Delivers StandsForItself name := by
  refine next.bind fun kind hkind => ?_
  cases kind with
  | name id => exact pure hkind
  | _ => exact failure

theorem close {Q : Term → Prop} {start : Nat} {form : Form} (h : ∀ stop, Q (.mk start stop form)) :
    Delivers Q (close start form) := still fun i _ => h i.last

theorem repeating {step : α → Reader (Option α)}
    (h : ∀ x, Q x → Delivers (fun next? => ∀ next ∈ next?, Q next) (step x)) {x : α} (hx : Q x) :
    Delivers Q (repeating step x) :=
  bind (Q := fun _ => True) (still (x := fun i => i) fun _ _ => trivial) fun _ _ => rounds h _ hx

theorem many {item : Reader (Option α)} (h : Delivers (fun found => ∀ x ∈ found, Q x) item) :
    Delivers (fun found => ∀ x ∈ found, Q x) (many item) := by
  refine bind (Q := fun found => ∀ x ∈ found, Q x) (repeating (fun found hfound => ?_) nofun)
    fun found hfound => pure fun x hx => hfound x (List.mem_reverse.mp hx)
  refine h.bind fun next? hnext => pure fun all hall => ?_
  obtain ⟨x, rfl, rfl⟩ := Option.map_eq_some_iff.mp hall
  exact List.forall_mem_cons.mpr ⟨hnext x rfl, hfound⟩

theorem itemsAfter {first : α} {item : Reader α} {ends : LexemeKind → Bool} (hfirst : Q first)
    (h : Delivers Q item) :
    Delivers (fun (found : List α × Bool) => found.1 ≠ [] ∧ ∀ x ∈ found.1, Q x)
      (itemsAfter first item ends) := by
  refine bind (Q := fun (found : List α × Bool) => found.1 ≠ [] ∧ ∀ x ∈ found.1, Q x)
    (repeating (fun found hfound => ?_) (by simpa using hfirst)) fun found hfound => ?_
  · refine (accept _).bind fun comma _ => ite (fun _ => pure nofun) fun _ => peek.bind fun kind? _ => ?_
    refine ite (fun _ => pure fun _ hnext => ?_) fun _ => h.bind fun x hx => pure fun _ hnext => ?_
    · obtain rfl := Option.some.inj hnext
      exact hfound
    · obtain rfl := Option.some.inj hnext
      exact ⟨List.cons_ne_nil _ _, List.forall_mem_cons.mpr ⟨hx, hfound.2⟩⟩
  · obtain ⟨found, commas⟩ := found
    exact pure (by simpa using hfound)

theorem items {item : Reader α} {ends : LexemeKind → Bool} (h : Delivers Q item) :
    Delivers (fun (found : List α × Bool) => found.1 ≠ [] ∧ ∀ x ∈ found.1, Q x) (items item ends) :=
  h.bind fun _ hfirst => itemsAfter hfirst h

end Delivers
end ViewTree.Embedded
