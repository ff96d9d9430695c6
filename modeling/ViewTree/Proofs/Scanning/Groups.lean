import ViewTree.Proofs.Capture.Group
import ViewTree.Proofs.Scanning.Passes

/-!
Texts between parentheses of their own. Brackets close in the reverse order in which they open, so a
text whose marks never close more than they opened leaves alone what is open around it
(`nestAll?_of_append`). Main statement: such a text that can be read between parentheses is a group,
where the one parenthesis closes the other (`isGroup_of_readTerm?`).
-/
namespace ViewTree

namespace Mark

/-- How many brackets are open behind a mark; none if the mark closes one that is not open. -/
def deepen? (depth : Nat) : Mark → Option Nat
  | opening => some (depth + 1)
  | closing => if depth = 0 then none else some (depth - 1)
  | comma | colon | lambda => some depth

def depth? (depth : Nat) (marks : List Mark) : Option Nat := marks.foldlM deepen? depth

theorem depth?_append (depth : Nat) (ms ns : List Mark) :
    depth? depth (ms ++ ns) = (depth? depth ms).bind (depth? · ns) := List.foldlM_append

end Mark

namespace Embedded
open Mark Reader

/-- The closing brackets still to come behind lexemes. -/
def nestAll? (pending : List String) (lexemes : List Lexeme) : Option (List String) :=
  lexemes.foldlM (fun pending t => nest? pending t.kind) pending

theorem nestAll?_append (pending : List String) (ts us : List Lexeme) :
    nestAll? pending (ts ++ us) = (nestAll? pending ts).bind (nestAll? · us) := List.foldlM_append

theorem nestAll?_cons {pending still : List String} {t : Lexeme} (h : nest? pending t.kind = some still)
    (ts : List Lexeme) : nestAll? pending (t :: ts) = nestAll? still ts := by
  unfold nestAll?
  rw [List.foldlM_cons, h]
  rfl

/-- The parentheses around the text close each other: each bracket in it is closed in it. -/
def IsGroup (text : String) : Prop :=
  ∃ inner, scan (grouped text) = some (⟨.symbol "(", 0, 1⟩ :: inner ++
    [⟨.symbol ")", text.length + 1, text.length + 2⟩,
      ⟨.lineEnd, text.length + 2, text.length + 2⟩]) ∧ nestAll? [] inner = some []

/-- A lexeme that closes nothing that is open around leaves that as it is. -/
theorem nest?_of_append {own around still : List String} {k : LexemeKind} {depth : Nat}
    (h : nest? (own ++ around) k = some still)
    (hdepth : Mark.depth? own.length (ofLexeme? k).toList = some depth) :
    ∃ own', still = own' ++ around ∧ nest? own k = some own' ∧ own'.length = depth := by
  cases k with
  | symbol s =>
    unfold nest? at h ⊢
    unfold ofLexeme? at hdepth
    dsimp only at h hdepth ⊢
    cases hopens : closerOf? s with
    | some c =>
      rw [hopens] at h hdepth
      obtain rfl : own.length + 1 = depth := Option.some.inj hdepth
      dsimp only at h ⊢
      by_cases hdeep : (own ++ around).length < maxNesting
      · rw [if_pos hdeep] at h
        obtain rfl := Option.some.inj h
        have hown : own.length < maxNesting := by
          rw [List.length_append] at hdeep
          omega
        exact ⟨c :: own, rfl, if_pos hown, rfl⟩
      · rw [if_neg hdeep] at h
        nomatch h
    | none =>
      rw [hopens] at h hdepth
      rw [if_neg (by simp)] at hdepth
      dsimp only at h ⊢
      by_cases hcloses : isCloser s
      · rw [if_pos hcloses] at h hdepth ⊢
        cases own with
        | nil => nomatch hdepth
        | cons c own =>
          obtain rfl : own.length = depth := Option.some.inj hdepth
          dsimp only [List.cons_append] at h ⊢
          by_cases hsame : c = s
          · rw [if_pos hsame] at h ⊢
            exact ⟨own, (Option.some.inj h).symm, rfl, rfl⟩
          · rw [if_neg hsame] at h
            nomatch h
      · rw [if_neg hcloses] at h hdepth ⊢
        obtain rfl := Option.some.inj h
        refine ⟨own, rfl, rfl, ?_⟩
        split at hdepth
        · exact Option.some.inj hdepth
        · split at hdepth <;> exact Option.some.inj hdepth
  | keyword word =>
    obtain rfl := Option.some.inj h
    refine ⟨own, rfl, rfl, ?_⟩
    unfold ofLexeme? at hdepth
    dsimp only at hdepth
    split at hdepth <;> exact Option.some.inj hdepth
  | _ =>
    obtain rfl := Option.some.inj h
    exact ⟨own, rfl, rfl, Option.some.inj hdepth⟩

/-- Lexemes that close nothing that is open around leave that as it is. -/
theorem nestAll?_of_append {own around still : List String} {ts : List Lexeme} {depth : Nat}
    (h : nestAll? (own ++ around) ts = some still)
    (hdepth : Mark.depth? own.length (ofLexemes ts) = some depth) :
    ∃ own', still = own' ++ around ∧ nestAll? own ts = some own' ∧ own'.length = depth := by
  induction ts generalizing own with
  | nil => exact ⟨own, (Option.some.inj h).symm, rfl, Option.some.inj hdepth⟩
  | cons t ts ih =>
    obtain ⟨next, hnext, hrest⟩ := Option.bind_eq_some_iff.mp h
    rw [ofLexemes_cons, depth?_append] at hdepth
    obtain ⟨d, hd, hdepth⟩ := Option.bind_eq_some_iff.mp hdepth
    obtain ⟨own', rfl, hown, rfl⟩ := nest?_of_append hnext hd
    obtain ⟨own'', hstill, hrest, hlength⟩ := ih hrest hdepth
    exact ⟨own'', hstill, by rw [nestAll?_cons hown, hrest], hlength⟩

/-- A scan keeps the closing brackets to come as its lexemes say. -/
theorem Passes.nestAll?_eq {i j : ScanPoint} {a s : List Char} {ts : List Lexeme}
    (h : Passes i a ts j s) : nestAll? i.pending ts = some j.pending := by
  induction h with
  | done => rfl
  | blank _ _ ih => exact ih
  | @feed o p f cs ts j s _ ih =>
    have hline : nestAll? p (ScanPoint.lineEnd ⟨o, p, f⟩) = some p := by
      unfold ScanPoint.lineEnd
      split <;> rfl
    rw [nestAll?_append, hline]
    exact ih
  | comment _ _ ih => exact ih
  | join _ ih => exact ih
  | lexeme _ _ hnest _ ih =>
    rw [nestAll?_cons hnest]
    exact ih

/-- A closing parenthesis ends a scan only if nothing but it is to come. -/
theorem scan_parenthesis {j : ScanPoint} {ts : List Lexeme} (h : j.scan [')'] = some ts) :
    j.pending = [")"] ∧ ts = [⟨.symbol ")", j.offset, j.offset + 1⟩,
      ⟨.lineEnd, j.offset + 1, j.offset + 1⟩] := by
  obtain ⟨o, p, f⟩ := j
  obtain ⟨kind, n, still, later, hlexeme, hnest, hlater, rfl⟩ :=
    exists_lexeme_of_scanFrom (by decide) (by decide) (by decide) h
  obtain ⟨rfl, rfl⟩ := Prod.mk.inj (Option.some.inj (show some (LexemeKind.symbol ")", 1) = _ from hlexeme))
  have hclosed : p = ")" :: still := by
    cases p with
    | nil => cases hnest
    | cons c p =>
      have hnest : (if c = ")" then some p else none) = some still := hnest
      split at hnest
      · next hc => rw [hc, Option.some.inj hnest]
      · cases hnest
  rw [List.drop_nil, scanFrom] at hlater
  cases still with
  | nil => exact ⟨hclosed, congrArg _ (Option.some.inj hlater).symm⟩
  | cons c still => cases hlater

theorem commentLength_of_not_mem {t : List Char} (h : '\n' ∉ t) :
    Lexer.commentLength t = t.length := by
  have hall : ∀ c ∈ t, decide (c ≠ '\n') = true := fun c hc =>
    decide_eq_true fun hline => h (hline ▸ hc)
  have htake : (t ++ []).takeWhile (· ≠ '\n') = t ++ [].takeWhile (· ≠ '\n') :=
    List.takeWhile_append_of_pos hall
  rw [List.append_nil, List.takeWhile_nil, List.append_nil] at htake
  exact congrArg List.length htake

/-- A comment up to the end ends a scan only if nothing but the end of the line is to come. -/
theorem scan_comment {j : ScanPoint} {t : List Char} {ts : List Lexeme}
    (hfeed : '\n' ∉ t) (hreturn : '\r' ∉ t) (h : j.scan ('#' :: t) = some ts) :
    j.pending = [] ∧ ∀ t ∈ ts, t.kind = .lineEnd := by
  obtain ⟨o, p, f⟩ := j
  have hend : scanFrom o p f ('#' :: t) = some ts := h
  rw [scanFrom_comment hreturn, commentLength_of_not_mem hfeed, List.drop_length, scanFrom] at hend
  cases p with
  | nil =>
    obtain rfl := Option.some.inj hend
    refine ⟨rfl, fun u hu => ?_⟩
    split at hu
    · cases hu
    · rw [List.mem_singleton.mp hu]
  | cons c p => cases hend

theorem exists_walk?_of_atEnd (v : Nesting) {lexemes : List Lexeme}
    (h : ∀ t ∈ lexemes, t.kind = .lineEnd) : ∃ w, v.walk? lexemes = some w := by
  induction lexemes generalizing v with
  | nil => exact ⟨v, rfl⟩
  | cons t lexemes ih =>
    obtain ⟨w, hw⟩ := ih ⟨v.depth, v.lambdas, false⟩ fun u hu => h u (List.mem_cons_of_mem t hu)
    refine ⟨w, ?_⟩
    rw [Nesting.walk?, List.foldlM_cons, h t List.mem_cons_self]
    exact hw

/-- The lexemes of a text that can be read between parentheses go through all levels. -/
theorem exists_walk?_of_readTerm? {text : String} {term : Term} (h : readTerm? text = some term) :
    ∃ lexemes w, scanFrom 1 [")"] false (text.toList ++ [')']) = some lexemes ∧
      Nesting.walk? ⟨2, 0, false⟩ lexemes = some w := by
  obtain ⟨all, hscan, hread⟩ := Option.bind_eq_some_iff.mp h
  obtain ⟨lexemes, hlexemes, rfl⟩ := Option.map_eq_some_iff.mp
    ((scan_cons (text.toList ++ [')'])).symm.trans hscan)
  obtain ⟨⟨found, left⟩, hall, hend⟩ := Option.bind_eq_some_iff.mp hread
  have hend : ∀ t ∈ left.rest, t.kind = .lineEnd := by
    have hend : (if atEnd left then some found else none) = some term := hend
    split at hend
    · next hleft => simpa [atEnd] using hleft
    · cases hend
  have hreads := (follows_grammarAt (readField (grouped text).length)
    ((⟨.symbol "(", 0, 1⟩ :: lexemes).length + 1) 0).1
  obtain ⟨used, hused, hpassage, -⟩ := follows_itemsTerm hreads.inside _ _ _ trivial hall
  obtain ⟨u, hwalk, -⟩ := hpassage.walks 0 0 ⟨1, 0, false⟩ ⟨rfl, fun _ => rfl⟩
  obtain ⟨w, hleft⟩ := exists_walk?_of_atEnd u hend
  have hwhole : Nesting.walk? ⟨1, 0, false⟩ (⟨.symbol "(", 0, 1⟩ :: lexemes) = some w := by
    show Nesting.walk? _ (Input.rest ⟨⟨.symbol "(", 0, 1⟩ :: lexemes, 0⟩) = _
    rw [hused, Nesting.walk?_append, hwalk]
    exact hleft
  exact ⟨lexemes, w, hlexemes, hwhole⟩

/-- A text that can be read between parentheses, and whose tokens close no bracket that they have not
opened, is a group. Only the lexer cuts `#[` off; everything else takes it for a comment. -/
theorem isGroup_of_readTerm? {text : String} {term : Term} {p : Position} {ts : Tokens} {depth : Nat}
    (h : readTerm? text = some term) (hreturn : '\r' ∉ text.toList)
    (hrun : Lexer.run p text.toList = .ok ts) (hkinds : ∀ t ∈ ts.items, t.kind ≠ .attrOpen)
    (hdepth : Mark.depth? 0 (ofTokens ts.items) = some depth) : IsGroup text := by
  obtain ⟨lexemes, w, hscan, hwalk⟩ := exists_walk?_of_readTerm? h
  obtain ⟨us, j, s, vs, hpasses, hs, hvs, rfl⟩ := exists_passes hreturn hscan
  obtain ⟨v, hwalk, -⟩ := Option.bind_eq_some_iff.mp ((Nesting.walk?_append _ us vs).symm.trans hwalk)
  have hapart : Apart ⟨2, 0, false⟩ '(' text.toList := fun _ => ⟨rfl, nofun⟩
  obtain ⟨last, hmarks⟩ := hpasses.ofText?_eq hwalk hapart
  obtain ⟨b, hb, hoffset⟩ := hpasses.suffix
  have hnone : ofText? last s = some [] := by
    rcases hs with rfl | ⟨t, rfl, hfeed⟩
    · exact ofText?_nil last
    · rw [ofText?_comment, commentLength_of_not_mem hfeed, List.drop_length, ofText?_nil]
  rw [hnone, Option.map_some, List.append_nil] at hmarks
  rw [Lexer.ofTokens_of_run hrun hkinds (fun _ => rfl) hmarks] at hdepth
  have hnest : nestAll? ([] ++ [")"]) us = some j.pending := hpasses.nestAll?_eq
  obtain ⟨own, hpending, hown, -⟩ := nestAll?_of_append hnest hdepth
  rcases hs with rfl | ⟨t, rfl, hfeed⟩
  · obtain ⟨hclosed, rfl⟩ := scan_parenthesis hvs
    obtain rfl : own = [] := List.append_cancel_right (hpending.symm.trans hclosed)
    have hlength : j.offset = text.length + 1 := by
      rw [hoffset, ← String.length_toList, hb, List.append_nil, Nat.add_comm]
    refine ⟨us, ?_, hown⟩
    rw [hlength] at hscan
    exact (scan_cons _).trans (congrArg _ hscan)
  · -- the comment hides the closing parenthesis, but the opening one was never closed
    have hend : '\n' ∉ t ++ [')'] ∧ '\r' ∉ t ++ [')'] := by
      have ht : '\r' ∉ t := fun hmem => hreturn (hb ▸ List.mem_append_right b (List.mem_cons_of_mem _ hmem))
      simpa using ⟨hfeed, ht⟩
    have hclosed := (scan_comment hend.1 hend.2 hvs).1
    exact absurd (hpending.symm.trans hclosed) (by simp)

end Embedded
end ViewTree
