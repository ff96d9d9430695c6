import ViewTree.Proofs.Printing.Arms
import ViewTree.Proofs.Reading.Usable

/-!
Arms of several lines are written anew on one line. Main statement: what is written there reads as the arm
that the source is, with its line breaks as blanks (`TreeReader.rereads_capturePattern`). Strings with
replacement fields are left out, since not all of them are read again once they are printed
(`TreeReader.readArm?_eq_none_formatArm`).
-/
namespace ViewTree.Embedded
open Text

/-- The kinds of the lexemes in a text, however many brackets they open. -/
def kindsIn : List Char → List LexemeKind
  | [] => []
  | c :: rest =>
    if startsLexeme c then
      match lexeme? 0 (c :: rest) with
      | some (kind, n) => kind.unplaced :: kindsIn (rest.drop (n - 1))
      | none => []
    else kindsIn rest
termination_by cs => cs.length
decreasing_by all_goals (simp only [List.length_cons, List.length_drop]; omega)

/-- The most brackets that are open at a time in a text. -/
def nesting (cs : List Char) : Nat := deepest 0 (kindsIn cs)

theorem Lexes.kindsIn_eq {o p : Nat} {a s : List Char} {ts : List Lexeme} (h : Lexes o a ts p s) :
    kindsIn a = kindsOf ts ++ kindsIn s := by
  induction h with
  | done => rfl
  | blank _ ih =>
    rw [kindsIn, if_neg (by decide), ih]
  | lexeme hc hlexeme _ ih =>
    obtain ⟨kind, hfound, hsame⟩ := exists_lexeme?_elsewhere hlexeme 0
    rw [kindsIn, if_pos hc, hfound]
    dsimp only
    rw [ih, hsame]
    rfl

theorem deepest_le_append (depth : Nat) (ks ls : List LexemeKind) :
    deepest depth ks ≤ deepest depth (ks ++ ls) := by
  induction ks generalizing depth with
  | nil =>
    cases ls with
    | nil => exact Nat.le_refl _
    | cons => exact Nat.le_max_left _ _
  | cons k ks ih => exact max_le_max (Nat.le_refl _) (ih _)

theorem deepest_le_nesting {text : String} {kinds : List LexemeKind} (h : Scans endsPart text.toList kinds) :
    deepest 0 kinds ≤ nesting (armText text) := by
  obtain ⟨-, ts, stop, hts, hkinds⟩ := exists_lexes_arm h
  rw [nesting, hts.kindsIn_eq, hkinds]
  refine Nat.le_trans ?_ (deepest_le_append 0 _ _)
  rw [deepest_concat_flat (by decide)]
  exact Nat.le_max_right _ _

section
open Delivers

theorem delivers_guardReader {g : Grammar} (hg : g.IsSound) :
    Delivers (fun guard => ∀ t ∈ guard, Rereads t) (guardReader g) := by
  refine (accept _).bind fun _ _ => ite (fun _ => ?_) fun _ => pure nofun
  exact hg.named.bind fun t ht => pure fun _ hsome => Option.some.inj hsome ▸ ht.rereads

theorem delivers_armReader {g : Grammar} (hg : g.IsSound) (inner : FieldReader) :
    Delivers Arm.Rereads (armReader inner g) := by
  rw [armReader_eq]
  have hstart : Delivers Arm.Rereads (armStart inner g) := by
    refine (expect _).bind fun _ _ => (still (x := fun i => i) (Q := fun _ => True) fun _ _ => trivial).bind
      fun i _ => ?_
    refine (Cases.delivers_openSequence (Cases.delivers_patternAt inner _)).bind fun pattern hpattern => ?_
    refine (delivers_guardReader hg).bind fun guard hguard => (symbol _).bind fun _ _ => (expect _).bind
      fun _ _ => ?_
    exact (keyword _).bind fun _ _ => pure ⟨hpattern, hguard⟩
  exact hstart.bind fun arm harm => (expect _).bind fun _ _ => pure harm

end

theorem exists_scan_of_readArm? {text : String} {arm : Arm} (h : readArm? text = some arm) :
    ∃ ts, scan (armText text) = some ts := by
  rw [readArm?_eq] at h
  obtain ⟨ts, hscan, -⟩ := Option.bind_eq_some_iff.mp h
  exact ⟨ts, hscan⟩

theorem rereads_of_readArm? {text : String} {arm : Arm} {ts : List Lexeme}
    (hscan : scan (armText text) = some ts)
    (hplain : ∀ t ∈ ts, IsPlainKind t.kind) (h : readArm? text = some arm) : arm.Rereads := by
  have hsound : ∀ t ∈ ts, IsSoundKind t.kind := fun t ht =>
    (hplain t ht).isSound (isFigure_of_scanFrom hscan t ht)
  rw [readArm?_eq] at h
  unfold readText? readAll? at h
  rw [hscan] at h
  simp only [Option.bind_eq_bind, Option.bind_some] at h
  obtain ⟨⟨found, left⟩, hread, h⟩ := Option.bind_eq_some_iff.mp h
  dsimp only at h
  split at h
  · obtain rfl := Option.some.inj h
    exact (delivers_armReader (sound_grammarAt _ _).1 _ ⟨ts, 0⟩ found left hsound hread).1
  · cases h

/-- The text that an arm is printed as is one line and reads as the arm. -/
theorem Arm.Rereads.exists_readArm? {arm : Arm} (h : arm.Rereads) {text : String}
    (hprint : arm.render? = some text)
    (hdeep : nesting (armText text) ≤ maxNesting) :
    isMultiline text = false ∧ ∃ found, readArm? text = some found ∧ found.unplaced = arm.unplaced := by
  obtain ⟨ks, ls, hscans, hpattern, hguard⟩ := h.exists_kinds hprint
  refine ⟨?_, Embedded.exists_readArm? hscans hpattern hguard
    (Nat.le_trans (deepest_le_nesting hscans) hdeep)⟩
  simpa [isMultiline] using hscans.inline

end ViewTree.Embedded

namespace ViewTree
open Embedded

def lexemesOf (cs : List Char) : List Lexeme := (scan cs).getD []

/-- Whether the place in a text belongs to one of its lexemes. -/
def covers (text : String) (i : Nat) : Bool :=
  (lexemesOf text.toList).any fun t => t.kind ≠ .lineEnd && t.start ≤ i && i < t.stop

/-- Characters between lexemes that part them on a line. -/
def isGap (c : Char) : Bool := c = ' ' || c = '\t' || c = '\x0c'

/-- The text on one line: line breaks between its lexemes are blanks, and so is all else that is no part of
one, such as a comment. -/
def joinLines (text : String) : String :=
  String.ofList (text.toList.mapIdx fun i c => if covers text i || isGap c then c else ' ')

/-- Lines break between lexemes only, where nothing else but blanks stands. -/
def LinesApart (text : String) : Prop :=
  ∀ i c, text.toList[i]? = some c → if covers text i then c ≠ '\n' else isGap c ∨ c = '\n'

instance (text : String) : Decidable (LinesApart text) :=
  decidable_of_iff (∀ i : Fin text.toList.length,
    if covers text i then text.toList[i] ≠ '\n' else isGap text.toList[i] ∨ text.toList[i] = '\n')
    ⟨fun h i c hc => by
      obtain ⟨hi, rfl⟩ := List.getElem?_eq_some_iff.mp hc
      exact h ⟨i, hi⟩,
    fun h i => h i _ (List.getElem?_eq_getElem i.isLt)⟩

namespace TreeReader

/-- Where lines break between lexemes only, nothing is lost when line feeds become blanks. -/
theorem flatten_eq_joinLines {text : String} (h : LinesApart text) : flatten text = joinLines text := by
  refine congrArg String.ofList (List.ext_getElem? fun i => ?_)
  rw [List.getElem?_map, List.getElem?_mapIdx]
  cases hc : text.toList[i]? with
  | none => rfl
  | some c =>
    have hplace := h i c hc
    refine congrArg some ?_
    dsimp only
    by_cases hcovers : covers text i
    · rw [if_pos hcovers] at hplace
      rw [if_neg hplace, if_pos (by simp [hcovers])]
    · rw [if_neg hcovers] at hplace
      rcases hplace with hgap | rfl
      · have hline : c ≠ '\n' := by
          rintro rfl
          cases hgap
        rw [if_neg hline, if_pos (by simp [hgap])]
      · rw [if_pos rfl, if_neg (by simp [hcovers, isGap])]

theorem flatten_of_line {text : String} (h : Text.isMultiline text = false) : flatten text = text := by
  have hplain : text.toList.map (fun c => if c = '\n' then ' ' else c) = text.toList := by
    refine (List.map_congr_left fun c hc => if_neg ?_).trans (List.map_id' _)
    rintro rfl
    simp [Text.isMultiline, hc] at h
  rw [flatten, hplain, String.ofList_toList]

variable {context : Context} {c c' : Cursor} {p : ArmPattern} {text : String}

def patternUpTo (c : Cursor) : Option Token × List Token → TreeReader ArmPattern
  | (some last, rest) => do
    set { c with previous := some last, rest }
    pattern (← textBetween c.token last) c.token
  | (none, _) => failAt (.expected "a match pattern" c.token.describe) c.token

theorem capturePattern_eq {rest : List Token} {last : Token}
    (hend : patternEnd 0 none c.rest = (some last, rest)) :
    capturePattern context c = pattern (String.ofList (Text.slice context.text c.token.offset last.stop))
      c.token context
      { c with previous := some last, rest } := by
  show patternUpTo c (patternEnd 0 none c.rest) context c = _
  rw [hend]
  rfl

theorem exists_pattern_of_capturePattern (h : capturePattern context c = .ok (p, c'))
    (htext : context.patternText? c.rest = some text) :
    ∃ start d, pattern text start context d = .ok (p, c') := by
  unfold Context.patternText? at htext
  cases hhead : c.rest.head? with
  | none =>
    rw [hhead] at htext
    cases htext
  | some first =>
    have hfirst : c.token = first := by rw [Cursor.token, List.headD_eq_head?_getD, hhead, Option.getD_some]
    rw [hhead] at htext
    cases hend : patternEnd 0 none c.rest with
    | mk last? rest =>
      rw [hend] at htext
      cases last? with
      | none => cases htext
      | some last =>
        obtain rfl := Option.some.inj htext
        rw [capturePattern_eq hend, hfirst] at h
        exact ⟨_, _, h⟩

/-- A pattern is that of its text on one line, and has this text or is printed. -/
theorem reads_of_pattern {start : Token} (h : pattern text start context c = .ok (p, c')) :
    readArm? (flatten text) = some p.arm ∧
      (p.text = text ∧ Text.isMultiline text = false ∨ p.arm.render? = some p.text) := by
  unfold pattern at h
  by_cases hends : text.toList.any endsTexts
  · rw [if_pos hends] at h
    cases h
  rw [if_neg hends] at h
  cases hread : readArm? (flatten text) with
  | none =>
    rw [hread] at h
    cases h
  | some arm =>
    rw [hread] at h
    dsimp only at h
    by_cases hlines : Text.isMultiline text
    · rw [if_pos hlines] at h
      cases hwritten : arm.render? with
      | none =>
        rw [hwritten] at h
        cases h
      | some written =>
        rw [hwritten] at h
        obtain ⟨rfl, -⟩ := Prod.mk.inj (Except.ok.inj h)
        exact ⟨rfl, .inr hwritten⟩
    · rw [if_neg hlines] at h
      obtain ⟨rfl, -⟩ := Prod.mk.inj (Except.ok.inj h)
      exact ⟨rfl, .inl ⟨rfl, by simpa using hlines⟩⟩

/-- A text between lexemes of which lines break reads, once it is captured and written anew, as the pattern
and guard that it is on one line. -/
theorem rereads_capturePattern (h : capturePattern context c = .ok (p, c'))
    (htext : context.patternText? c.rest = some text) (hlines : LinesApart text)
    (hplain : ∀ t ∈ lexemesOf (armText (joinLines text)), IsPlainKind t.kind)
    (hdeep : nesting (armText p.text) ≤ maxNesting) :
    readArm? (joinLines text) = some p.arm ∧ Text.isMultiline p.text = false ∧
      ∃ arm, readArm? p.text = some arm ∧ arm.unplaced = p.arm.unplaced := by
  obtain ⟨start, d, hread⟩ := exists_pattern_of_capturePattern h htext
  obtain ⟨hread, hwritten⟩ := reads_of_pattern hread
  -- a text of one line is kept as it is written, and only one of several lines is printed
  rw [← flatten_eq_joinLines hlines] at hplain ⊢
  refine ⟨hread, ?_⟩
  rcases hwritten with ⟨rfl, hline⟩ | hprint
  · rw [flatten_of_line hline] at hread
    exact ⟨hline, p.arm, hread, rfl⟩
  · obtain ⟨ts, hscan⟩ := exists_scan_of_readArm? hread
    rw [lexemesOf, hscan] at hplain
    exact (rereads_of_readArm? hscan hplain hread).exists_readArm? hprint hdeep

def inFrontOf (text : String) : Cursor :=
  match lex text.toList 0 text.length with
  | .ok tokens => ⟨none, tokens.items, tokens.eof⟩
  | .error _ => ⟨none, [], default⟩

def modeArm : String := "'on'\n| -1 if x => Gtk.Label"

theorem rereads_capturePattern_modeArm : ∃ p c',
    capturePattern ⟨modeArm.toList, {}⟩ (inFrontOf modeArm) = .ok (p, c') ∧ p.text = "'on' | -1 if x" ∧
      readArm? (joinLines "'on'\n| -1 if x") = some p.arm ∧ Text.isMultiline p.text = false ∧
      ∃ arm, readArm? p.text = some arm ∧ arm.unplaced = p.arm.unplaced := by
  have hread : (match capturePattern ⟨modeArm.toList, {}⟩ (inFrontOf modeArm) with
    | .ok (p, _) => decide (p.text = "'on' | -1 if x")
    | .error _ => false) = true := by decide +kernel
  have htext : Context.patternText? ⟨modeArm.toList, {}⟩ (inFrontOf modeArm).rest =
      some "'on'\n| -1 if x" := by decide +kernel
  have hkinds : (lexemesOf (armText (joinLines "'on'\n| -1 if x"))).map (·.kind) =
      [.name "case", .string ⟨.ofLetters [], ['o', 'n'], 6⟩, .symbol "|", .symbol "-", .number (.int 1),
        .keyword "if", .name "x", .symbol ":", .lineEnd, .keyword "pass", .lineEnd] := by decide +kernel
  have hplain : ∀ t ∈ lexemesOf (armText (joinLines "'on'\n| -1 if x")), IsPlainKind t.kind := by
    rw [← List.forall_mem_map (P := IsPlainKind), hkinds]
    have hx : StandsForItself "x" :=
      standsForItself_of_ascii ⟨by decide, by decide⟩ (by decide)
    simpa [IsPlainKind] using ⟨standsForItself_case, rfl, hx⟩
  split at hread
  · next p c' hp =>
    have hwritten := of_decide_eq_true hread
    refine ⟨p, c', hp, hwritten, rereads_capturePattern hp htext (by decide +kernel) hplain ?_⟩
    rw [hwritten]
    decide +kernel
  · nomatch hread

def formatArm : String := "1\nif f\"\x7ba:\\x7b\x7d\" => Gtk.Label"

/-- A brace that a format spells with an escape is printed as two braces, which nothing reads. -/
theorem readArm?_eq_none_formatArm : ∃ p c',
    capturePattern ⟨formatArm.toList, {}⟩ (inFrontOf formatArm) = .ok (p, c') ∧
      Context.patternText? ⟨formatArm.toList, {}⟩ (inFrontOf formatArm).rest =
        some "1\nif f\"\x7ba:\\x7b\x7d\"" ∧
      LinesApart "1\nif f\"\x7ba:\\x7b\x7d\"" ∧ readArm? p.text = none := by
  have hread : (match capturePattern ⟨formatArm.toList, {}⟩ (inFrontOf formatArm) with
    | .ok (p, _) => (readArm? p.text).isNone
    | .error _ => false) = true := by decide +kernel
  split at hread
  · next p c' hp =>
    exact ⟨p, c', hp, by decide +kernel, by decide +kernel, Option.isNone_iff_eq_none.mp hread⟩
  · nomatch hread

def comparedText? : Pattern → Option Codes
  | .value (.mk _ _ (.literal (.text codes _))) => some codes
  | _ => none

theorem comparedText?_unplaced (p : Pattern) : comparedText? p.unplaced = comparedText? p := by
  cases p with
  | value t =>
    obtain ⟨s, e, form⟩ := t
    cases form with
    | literal value => cases value <;> rfl
    | _ => rfl
  | _ => rfl

def brokenArm : String := "\"\"\"a\nb\"\"\" => Gtk.Label"

/-- The line break belongs to the string, which is another one once the arm is captured. -/
theorem not_rereads_capturePattern_brokenArm : ∃ p c' arm,
    capturePattern ⟨brokenArm.toList, {}⟩ (inFrontOf brokenArm) = .ok (p, c') ∧
      Context.patternText? ⟨brokenArm.toList, {}⟩ (inFrontOf brokenArm).rest =
        some "\"\"\"a\nb\"\"\"" ∧
      readArm? (joinLines "\"\"\"a\nb\"\"\"") = some arm ∧
      comparedText? arm.pattern = some [97, 10, 98] ∧
      ¬∃ found, readArm? p.text = some found ∧ found.unplaced = arm.unplaced := by
  have hread : (match capturePattern ⟨brokenArm.toList, {}⟩ (inFrontOf brokenArm) with
    | .ok (p, _) => (readArm? p.text).all fun arm => comparedText? arm.pattern = some [97, 32, 98]
    | .error _ => false) = true := by decide +kernel
  have htext : Context.patternText? ⟨brokenArm.toList, {}⟩ (inFrontOf brokenArm).rest =
      some "\"\"\"a\nb\"\"\"" := by decide +kernel
  have hjoined : (readArm? (joinLines "\"\"\"a\nb\"\"\"")).any fun arm =>
      comparedText? arm.pattern = some [97, 10, 98] := by decide +kernel
  obtain ⟨arm, harm, hcodes⟩ := (Option.any_eq_true _ _).mp hjoined
  have hcodes := of_decide_eq_true hcodes
  split at hread
  · next p c' hp =>
    refine ⟨p, c', arm, hp, htext, harm, hcodes, ?_⟩
    rintro ⟨found, hfound, hsame⟩
    rw [hfound, Option.all_some] at hread
    have hpattern : found.pattern.unplaced = arm.pattern.unplaced := congrArg Arm.pattern hsame
    have hother : comparedText? found.pattern = comparedText? arm.pattern := by
      rw [← comparedText?_unplaced, hpattern, comparedText?_unplaced]
    rw [hcodes, of_decide_eq_true hread] at hother
    nomatch hother
  · nomatch hread

end TreeReader
end ViewTree
