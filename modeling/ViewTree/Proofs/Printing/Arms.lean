import ViewTree.Proofs.Printing.CaseReaders

/-!
Arms as they are printed. Main statements: a text that is found as the lexemes of an arm is read as one
(`exists_readArm?`), and a printed arm is found so (`Arm.Rereads.exists_kinds`).
-/
namespace ViewTree.Embedded
open Text Reader Cases

section
variable {o p : Nat} {a s : List Char} {ts : List Lexeme}

/-- A scan that finds a lexeme may start on a fresh line. -/
theorem Lexes.passes_fresh (h : Lexes o a ts p s) (hsome : ts ≠ []) {pending still : List String}
    (hnest : nestAll? pending ts = some still) : Passes ⟨o, pending, true⟩ a ts ⟨p, still, false⟩ s := by
  induction h with
  | done => exact absurd rfl hsome
  | blank _ ih => exact .blank (.inl (.inl rfl)) (ih hsome hnest)
  | lexeme hc hlexeme h _ =>
    obtain ⟨next, hnext, hrest⟩ := Option.bind_eq_some_iff.mp hnest
    exact .lexeme hc hlexeme hnext (h.passes hrest)

/-- The body that stands behind the colon of an arm. -/
theorem passes_body (o : Nat) : Passes ⟨o, [], false⟩ "\n  pass\n".toList
    [⟨.lineEnd, o, o + 1⟩, ⟨.keyword "pass", o + 3, o + 7⟩] ⟨o + 7, [], false⟩ ['\n'] := by
  refine .feed
    (.blank (.inl (.inl rfl)) (.blank (.inl (.inl rfl)) (.lexeme (n := 4) (by decide) ?_ rfl (.done _ _))))
  rfl

end

/-- The text that the text of a pattern and guard is read in. -/
def armText (text : String) : List Char := "case ".toList ++ text.toList ++ ":\n  pass\n".toList

theorem readArm?_eq (text : String) : readArm? text =
    readText? (fun g _ => armReader (readField (armText text).length) g) (armText text) := rfl

theorem standsForItself_case : StandsForItself "case" :=
  standsForItself_of_ascii ⟨by decide, by decide⟩ (by decide)

/-- A part is found as its lexemes where the pattern of an arm stands. -/
theorem exists_lexes_arm {text : String} {kinds : List LexemeKind} (h : Scans endsPart text.toList kinds) :
    Matched (.name "case" :: kinds ++ [.symbol ":"]) ∧ ∃ ts stop,
      Lexes 0 (armText text) ts stop "\n  pass\n".toList ∧
        kindsOf ts = .name "case" :: kinds ++ [.symbol ":"] := by
  have hall : Scans endsSymbol ("case".toList ++ [' '] ++ (text.toList ++ ":".toList))
      ([.name "case"] ++ (kinds ++ [.symbol ":"])) :=
    ((scans_name standsForItself_case).blank rfl).append_any (h.append (scans_symbol (by decide)) rfl)
  obtain ⟨ts, stop, hts, hkinds⟩ := hall.lexed 0 '\n' "  pass\n".toList (by decide)
  have htext : armText text =
      "case".toList ++ [' '] ++ (text.toList ++ ":".toList) ++ '\n' :: "  pass\n".toList := by
    have hfirst : "case ".toList = "case".toList ++ [' '] := rfl
    have hlast : ":\n  pass\n".toList = ":".toList ++ '\n' :: "  pass\n".toList := rfl
    refine (congrArg₂ (· ++ text.toList ++ ·) hfirst hlast).trans ?_
    simp only [List.append_assoc]
  rw [htext]
  exact ⟨hall.matched, ts, stop, hts, hkinds⟩

theorem exists_scan_arm {text : String} {kinds : List LexemeKind} (h : Scans endsPart text.toList kinds)
    (hdeep : deepest 0 kinds ≤ maxNesting) : ∃ ts t, scan (armText text) = some (ts ++ [t]) ∧
      kindsOf ts = .name "case" :: kinds ++ [.symbol ":", .lineEnd, .keyword "pass"] ∧ t.kind = .lineEnd := by
  obtain ⟨hmatched, ts, stop, hts, hkinds⟩ := exists_lexes_arm h
  have hsome : ts ≠ [] := by
    rintro rfl
    cases hkinds
  have hnest : nestAll? [] ts = some [] := by
    rw [nestAll?_of_kinds, hkinds]
    refine (hmatched [] [] ?_).1
    rw [List.append_nil, List.length_nil, deepest_concat_flat (by decide)]
    exact hdeep
  have hpasses := (hts.passes_fresh hsome hnest).trans (passes_body stop)
  have hend : scanFrom (stop + 7) [] false ['\n'] = some [⟨.lineEnd, stop + 7, stop + 8⟩] := by
    rw [scanFrom_feed, scanFrom]
    rfl
  refine ⟨ts ++ [⟨.lineEnd, stop, stop + 1⟩, ⟨.keyword "pass", stop + 3, stop + 7⟩],
    ⟨.lineEnd, stop + 7, stop + 8⟩, ?_, ?_, rfl⟩
  · refine (hpasses.scan_eq fun _ => List.cons_ne_nil _ _).trans ?_
    show (scanFrom (stop + 7) [] false ['\n']).map _ = _
    rw [hend]
    rfl
  · rw [kindsOf, List.map_append, ← kindsOf, hkinds]
    simp [LexemeKind.unplaced]

/-- The arm with all places forgotten. -/
def Arm.unplaced (arm : Arm) : Arm := ⟨arm.pattern.unplaced, arm.guard.map Term.unplaced⟩

/-- The lexemes are read as a guard with the word in front, which may be missing. -/
inductive GuardAt : List LexemeKind → Option Term → Prop where
  | absent : GuardAt [] none
  | present {ks y} (h : ReadsAt 4 ks y) : GuardAt (.keyword "if" :: ks) (some y)

def guardReader (g : Grammar) : Reader (Option Term) := do
  if ← accept (.keyword "if") then pure (some (← g.named)) else pure none

/-- What reads an arm up to its last line end. -/
def armStart (inner : FieldReader) (g : Grammar) : Reader Arm := do
  expect (.name "case")
  let depth := (← get).rest.length + 1
  let pattern ← openSequence (patternAt inner depth)
  let guard ← guardReader g
  symbol ":"
  expect .lineEnd
  keyword "pass"
  pure ⟨pattern, guard⟩

section
variable {inner : FieldReader} {g : Grammar} {depth : Nat} {ks ls : List LexemeKind} {p : Pattern}
  {guard : Option Term}

theorem armReader_eq : armReader inner g = (do
    let arm ← armStart inner g
    expect .lineEnd
    pure arm) := by
  have hguard {β : Type} (k : Option Term → Reader β) : guardReader g >>= k = (do
      if ← accept (.keyword "if") then k (some (← g.named)) else k none) := by
    unfold guardReader
    rw [bind_assoc]
    refine congrArg (accept _ >>= ·) (funext fun guarded => ?_)
    split
    · rw [bind_assoc]
      simp only [pure_bind]
    · rw [pure_bind]
  simp only [armReader, armStart, bind_assoc, pure_bind, hguard]
  refine congrArg (expect _ >>= ·) (funext fun _ => congrArg (get >>= ·) (funext fun i => ?_))
  refine congrArg (openSequence _ >>= ·) (funext fun pattern => ?_)
  refine congrArg (accept _ >>= ·) (funext fun guarded => ?_)
  split <;> simp only [bind_assoc, pure_bind]

theorem consumes_get {β γ : Type} {f : β → γ} {B : LexemeKind → Prop} {k : Input → Reader β} {z : γ}
    (h : ∀ i, ks.length ≤ i.rest.length → Consumes f B (k i) ks z) : Consumes f B (get >>= k) ks z := by
  intro ts t tail last hts ht
  refine h ⟨ts ++ t :: tail, last⟩ ?_ ts t tail last hts ht
  rw [← hts, List.length_append, List.length_map]
  omega

theorem GuardAt.consumes (h : GuardAt ls guard) (hdepth : ls.length ≤ depth) :
    Consumes (Option.map Term.unplaced) (· = .symbol ":")
      (guardReader (grammarAt inner depth).1) ls guard := by
  cases h with
  | absent => exact consumes_accept_other (by rintro _ rfl; decide) (consumes_pure rfl)
  | present h =>
    refine consumes_when rfl ?_
    refine ((h.named hdepth).mono ?_).bind_nil fun x hx => consumes_pure (congrArg some hx)
    rintro _ rfl
    decide

theorem consumes_armStart {r : FieldReader} {d : Nat} (hp : PatternAt 8 ks p) (hguard : GuardAt ls guard)
    (hdepth : ls.length ≤ d) :
    Consumes Arm.unplaced Any (armStart r (grammarAt r d).1)
      (.name "case" :: (ks ++ (ls ++ [.symbol ":", .lineEnd, .keyword "pass"]))) ⟨p, guard⟩ := by
  refine consumes_expect rfl (consumes_get fun i hi => ?_)
  have hroom : ks.length < i.rest.length + 1 := by
    rw [List.length_append] at hi
    omega
  have hnext : Begins Any (ls ++ [.symbol ":", .lineEnd, .keyword "pass"])
      (fun k => closes k ∧ Under 8 k) := by
    cases hguard with
    | absent => exact begins_plain rfl ⟨rfl, by decide⟩
    | present h => exact begins_plain rfl ⟨rfl, by decide⟩
  refine (hp.openSequence hroom).bind hnext fun pattern hpattern => ?_
  refine (hguard.consumes hdepth).bind (begins_plain rfl rfl) fun found hfound => ?_
  refine consumes_symbol (consumes_expect rfl (consumes_keyword (consumes_pure ?_)))
  rw [Arm.unplaced, hpattern, hfound]

theorem readText?_of_scan {α : Type} {reader : Grammar → Reader Term → Reader α} {cs : List Char}
    {ts : List Lexeme}
    {x : α} {left : Input} (hscan : scan cs = some ts)
    (hread : reader (grammarAt (readField cs.length) (ts.length + 1)).1
      (grammarAt (readField cs.length) (ts.length + 1)).2 ⟨ts, 0⟩ = some (x, left)) (hend : atEnd left) :
    readText? reader cs = some x := by
  unfold readText? readAll?
  rw [hscan]
  simp only [Option.bind_eq_bind, Option.bind_some]
  rw [hread, Option.bind_some, if_pos hend]
  rfl

/-- A text that is found as the lexemes of an arm is read as one. -/
theorem exists_readArm? {text : String} (h : Scans endsPart text.toList (ks ++ ls)) (hp : PatternAt 8 ks p)
    (hguard : GuardAt ls guard) (hdeep : deepest 0 (ks ++ ls) ≤ maxNesting) :
    ∃ arm, readArm? text = some arm ∧ arm.unplaced = ⟨p, guard⟩ := by
  obtain ⟨ts, t, hscan, hkinds, ht⟩ := exists_scan_arm h hdeep
  have hlength : ls.length ≤ (ts ++ [t]).length + 1 := by
    have hcount := congrArg List.length hkinds
    simp only [List.length_map, List.length_append, List.length_cons, List.length_nil] at hcount ⊢
    omega
  rw [List.cons_append, List.append_assoc] at hkinds
  obtain ⟨arm, last, harm, hsame⟩ := consumes_armStart (r := readField (armText text).length) hp hguard
    hlength ts t [] 0 hkinds trivial
  have hread : armReader (readField (armText text).length)
      (grammarAt (readField (armText text).length) ((ts ++ [t]).length + 1)).1 ⟨ts ++ [t], 0⟩ =
        some (arm, ⟨[], t.stop⟩) := by
    rw [armReader_eq, bind_eq harm, bind_eq (expect_eq ht [] last)]
    rfl
  exact ⟨arm, readText?_of_scan hscan hread rfl, hsame⟩

end

/-- An arm that is printed as itself. -/
structure Arm.Rereads (arm : Arm) : Prop where
  pattern : arm.pattern.Rereads
  guard : ∀ t ∈ arm.guard, Embedded.Rereads t

theorem Arm.Rereads.exists_kinds {arm : Arm} (h : arm.Rereads) {text : String}
    (hprint : arm.render? = some text) :
    ∃ ks ls, Scans endsPart text.toList (ks ++ ls) ∧ PatternAt 8 ks arm.pattern.unplaced ∧
      GuardAt ls (arm.guard.map Term.unplaced) := by
  obtain ⟨pattern, guard⟩ := arm
  obtain ⟨first, hfirst, hprint⟩ := Option.bind_eq_some_iff.mp hprint
  obtain ⟨ks, -, hks, hpattern⟩ := h.pattern.part (.inl rfl) hfirst
  cases guard with
  | none =>
    obtain rfl := Option.some.inj hprint
    exact ⟨ks, [], by simpa [toList_textOf] using hks, hpattern, .absent⟩
  | some t =>
    obtain ⟨second, hsecond, hprint⟩ := Option.bind_eq_some_iff.mp hprint
    obtain rfl := Option.some.inj hprint
    obtain ⟨ls, -, hls, hreads⟩ := (h.guard t rfl).part (l := .test) (by decide) (by decide) hsecond
    refine ⟨ks, .keyword "if" :: ls, ?_, hpattern, .present hreads⟩
    simpa [toList_textOf] using scans_between hks (scans_word (s := "if") (by decide)) hls

end ViewTree.Embedded
