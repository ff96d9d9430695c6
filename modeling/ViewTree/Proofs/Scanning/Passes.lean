import ViewTree.Proofs.Scanning.Lexemes

/-!
Parts of a text that is scanned. A scan passes a part with what stands behind it in view, so no
lexeme is cut. Main statements: what a scan finds in a text is what it passes and what it finds
behind (`Passes.scan_eq`), it passes the same in front of a separator (`Passes.append`), what it
passes has the marks of its lexemes (`Passes.ofText?_eq`), and a scan up to a closing parenthesis
passes all in front of it but a comment that hides it (`exists_passes`).
-/
namespace ViewTree.Embedded
open Mark Text

/-- Where a scan is: its offset, the closing brackets still to come, and whether no lexeme stands on
the line yet. -/
structure ScanPoint where
  offset : Nat
  pending : List String
  fresh : Bool

namespace ScanPoint

def scan (i : ScanPoint) (cs : List Char) : Option (List Lexeme) :=
  scanFrom i.offset i.pending i.fresh cs

/-- The line end that a line feed is, outside of brackets and behind a lexeme. -/
def lineEnd (i : ScanPoint) : List Lexeme :=
  if i.pending.isEmpty && !i.fresh then [⟨.lineEnd, i.offset, i.offset + 1⟩] else []

end ScanPoint

def startsLexeme (c : Char) : Bool := !Lexer.isSkipped c && c ≠ '#' && c ≠ '\\'

/-- From one point and text a scan gets to another point and the rest of the text, past the lexemes
between them. -/
inductive Passes : ScanPoint → List Char → List Lexeme → ScanPoint → List Char → Prop where
  | done (i : ScanPoint) (s : List Char) : Passes i s [] i s
  | blank {o p f c cs ts j s} (hc : (c = ' ' ∨ c = '\t') ∨ c = '\x0c')
      (h : Passes ⟨o + 1, p, f⟩ cs ts j s) : Passes ⟨o, p, f⟩ (c :: cs) ts j s
  | feed {o p f cs ts j s} (h : Passes ⟨o + 1, p, p.isEmpty || f⟩ cs ts j s) :
      Passes ⟨o, p, f⟩ ('\n' :: cs) (ScanPoint.lineEnd ⟨o, p, f⟩ ++ ts) j s
  | comment {o p f skipped cs ts j s} (hskipped : ∀ c ∈ skipped, c ≠ '\n' ∧ c ≠ '\r')
      (h : Passes ⟨o + 1 + skipped.length, p, f⟩ ('\n' :: cs) ts j s) :
      Passes ⟨o, p, f⟩ ('#' :: skipped ++ '\n' :: cs) ts j s
  | join {o p f cs ts j s} (h : Passes ⟨o + 2, p, f⟩ cs ts j s) :
      Passes ⟨o, p, f⟩ ('\\' :: '\n' :: cs) ts j s
  | lexeme {o p f c rest kind n still ts j s} (hc : startsLexeme c)
      (hlexeme : lexeme? o (c :: rest) = some (kind, n)) (hnest : nest? p kind = some still)
      (h : Passes ⟨o + max 1 n, still, false⟩ (rest.drop (n - 1)) ts j s) :
      Passes ⟨o, p, f⟩ (c :: rest) (⟨kind, o, o + n⟩ :: ts) j s

section
variable {offset n : Nat} {pending still : List String} {fresh : Bool} {c : Char}
  {rest : List Char} {kind : LexemeKind}

theorem lexeme_of_startsLexeme (hc : startsLexeme c) :
    ¬Lexer.isSkipped c ∧ c ≠ '#' ∧ c ≠ '\\' := by
  simpa [startsLexeme, and_assoc] using hc

theorem scanFrom_lexeme (hc : startsLexeme c) (hlexeme : lexeme? offset (c :: rest) = some (kind, n))
    (hnest : nest? pending kind = some still) :
    scanFrom offset pending fresh (c :: rest) =
      (scanFrom (offset + max 1 n) still false (rest.drop (n - 1))).map
        (⟨kind, offset, offset + n⟩ :: ·) := by
  obtain ⟨hskipped, hcomment, hjoin⟩ := lexeme_of_startsLexeme hc
  have hblank : ¬(decide (c = ' ') || decide (c = '\t') || decide (c = '\x0c')) = true := by
    grind [Lexer.isSkipped]
  have hline : ¬(decide (c = '\n') || decide (c = '\r')) = true := by grind [Lexer.isSkipped]
  rw [scanFrom, if_neg hblank, if_neg hline, if_neg hcomment, if_neg hjoin, hlexeme]
  dsimp only
  rw [hnest]

theorem scanFrom_comment_feed {skipped : List Char} (hskipped : ∀ c ∈ skipped, c ≠ '\n' ∧ c ≠ '\r')
    (cs : List Char) :
    scanFrom offset pending fresh ('#' :: skipped ++ '\n' :: cs) =
      scanFrom (offset + 1 + skipped.length) pending fresh ('\n' :: cs) := by
  have htake : (skipped ++ '\n' :: cs).takeWhile (fun d => d ≠ '\n' && d ≠ '\r') = skipped := by
    rw [List.takeWhile_append_of_pos fun c hc => by simpa using hskipped c hc]
    simp
  rw [List.cons_append, scanFrom, if_neg (by decide), if_neg (by decide), if_pos rfl]
  dsimp only
  rw [htake, List.drop_left]

theorem scanFrom_join_feed (hrest : rest ≠ []) :
    scanFrom offset pending fresh ('\\' :: '\n' :: rest) =
      scanFrom (offset + 2) pending fresh rest := by
  have hfits : (0 < lineEndLength ('\n' :: rest) &&
      lineEndLength ('\n' :: rest) < ('\n' :: rest).length) = true := by
    simpa [lineEndLength] using List.length_pos_iff.mpr hrest
  rw [scanFrom, if_neg (by decide), if_neg (by decide), if_neg (by decide), if_pos rfl]
  dsimp only
  rw [if_pos hfits]
  rfl

theorem drop_append_of_lexeme? (h : lexeme? offset (c :: rest) = some (kind, n)) (z : List Char) :
    (rest ++ z).drop (n - 1) = rest.drop (n - 1) ++ z := by
  have hle := length_of_lexeme? h
  rw [List.length_cons] at hle
  exact List.drop_append_of_le_length (by omega)

end

namespace Passes

variable {i j : ScanPoint} {a s : List Char} {ts : List Lexeme}

theorem suffix (h : Passes i a ts j s) : ∃ b, a = b ++ s ∧ j.offset = i.offset + b.length := by
  induction h with
  | done i s => exact ⟨[], rfl, rfl⟩
  | @blank _ _ _ c _ _ _ _ _ _ ih =>
    obtain ⟨b, rfl, hoffset⟩ := ih
    exact ⟨c :: b, rfl, by simp only [hoffset, List.length_cons]; omega⟩
  | feed _ ih =>
    obtain ⟨b, rfl, hoffset⟩ := ih
    exact ⟨'\n' :: b, rfl, by simp only [hoffset, List.length_cons]; omega⟩
  | @comment _ _ _ skipped _ _ _ _ _ _ ih =>
    obtain ⟨b, hb, hoffset⟩ := ih
    refine ⟨'#' :: skipped ++ b, by rw [hb]; simp, ?_⟩
    simp only [hoffset, List.length_cons, List.length_append]
    omega
  | join _ ih =>
    obtain ⟨b, rfl, hoffset⟩ := ih
    exact ⟨'\\' :: '\n' :: b, rfl, by simp only [hoffset, List.length_cons]; omega⟩
  | @lexeme _ _ _ c rest _ n _ _ _ _ _ hlexeme _ _ ih =>
    obtain ⟨b, hb, hoffset⟩ := ih
    have hle := length_of_lexeme? hlexeme
    rw [List.length_cons] at hle
    refine ⟨c :: rest.take (n - 1) ++ b, ?_, ?_⟩
    · rw [List.append_assoc, ← hb, List.cons_append, List.take_append_drop]
    · simp only [hoffset, List.length_append, List.length_cons, List.length_take]
      omega

theorem trans {k : ScanPoint} {r : List Char} {us : List Lexeme} (h : Passes i a ts j s)
    (hrest : Passes j s us k r) : Passes i a (ts ++ us) k r := by
  induction h with
  | done => exact hrest
  | blank hc _ ih => exact .blank hc (ih hrest)
  | feed _ ih =>
    rw [List.append_assoc]
    exact .feed (ih hrest)
  | comment hskipped _ ih => exact .comment hskipped (ih hrest)
  | join _ ih => exact .join (ih hrest)
  | lexeme hc hlexeme hnest _ ih => exact .lexeme hc hlexeme hnest (ih hrest)

/-- What a scan finds is what it passes and what it finds behind. A joined line needs a next one. -/
theorem scan_eq (h : Passes i a ts j s) (hjoin : '\n' ∈ a.getLast? → s ≠ []) :
    i.scan a = (j.scan s).map (ts ++ ·) := by
  have hbehind {c d : Char} {cs : List Char} (hd : d ∈ cs.getLast?) : d ∈ (c :: cs).getLast? := by
    rw [List.getLast?_cons, hd]
    rfl
  induction h with
  | done i s =>
    cases hfound : i.scan s <;> rfl
  | blank hc _ ih => exact (scanFrom_blank hc).trans (ih fun h => hjoin (hbehind h))
  | @feed o p f cs ts j s _ ih =>
    have hrest := ih fun h => hjoin (hbehind h)
    refine scanFrom_feed.trans ?_
    unfold ScanPoint.scan ScanPoint.lineEnd at *
    dsimp only at hrest ⊢
    rw [hrest]
    by_cases hends : (p.isEmpty && !f) = true
    · rw [if_pos hends, if_pos hends, Option.map_map]
      rfl
    · rw [if_neg hends, if_neg hends]
      rfl
  | comment hskipped _ ih =>
    exact (scanFrom_comment_feed hskipped _).trans
      (ih fun h => hjoin (by rw [List.getLast?_append, h]; rfl))
  | @join o p f cs ts j s h ih =>
    have hrest : cs ≠ [] := by
      rintro rfl
      obtain ⟨b, hb, -⟩ := h.suffix
      exact hjoin rfl (List.append_eq_nil_iff.mp hb.symm).2
    exact (scanFrom_join_feed hrest).trans (ih fun h => hjoin (hbehind (hbehind h)))
  | @lexeme o p f c rest kind n still ts j s hc hlexeme hnest _ ih =>
    have hlast (h : '\n' ∈ (rest.drop (n - 1)).getLast?) : '\n' ∈ rest.getLast? := by
      rw [List.getLast?_drop] at h
      split at h
      · nomatch h
      · exact h
    have hrest := ih fun h => hjoin (hbehind (hlast h))
    refine (scanFrom_lexeme hc hlexeme hnest).trans ?_
    unfold ScanPoint.scan at hrest ⊢
    rw [hrest, Option.map_map]
    rfl

/-- What a scan passes up to the end of a line is all that it finds, but for the end. -/
theorem scan_line {cs : List Char} {stop : Nat}
    (h : Passes ⟨0, [], true⟩ cs ts ⟨stop, [], false⟩ []) (hline : '\n' ∉ cs.getLast?) :
    scan cs = some (ts ++ [⟨.lineEnd, stop, stop⟩]) := by
  have hend : scanFrom stop [] false [] = some [⟨.lineEnd, stop, stop⟩] := by
    rw [scanFrom]
    rfl
  refine (h.scan_eq fun hfeed => absurd hfeed hline).trans ?_
  show (scanFrom stop [] false []).map _ = _
  rw [hend, Option.map_some]

/-- All lexemes start in front of the end. -/
theorem start_lt (h : Passes i a ts j s) : ∀ t ∈ ts, t.start < j.offset := by
  induction h with
  | done => nofun
  | blank _ _ ih => exact ih
  | @feed o p f cs ts j s h ih =>
    obtain ⟨b, -, hoffset⟩ := h.suffix
    have hline : ∀ t ∈ ScanPoint.lineEnd ⟨o, p, f⟩, t.start < j.offset := by
      unfold ScanPoint.lineEnd
      split
      · refine List.forall_mem_singleton.mpr ?_
        dsimp only at hoffset ⊢
        omega
      · nofun
    exact List.forall_mem_append.mpr ⟨hline, ih⟩
  | comment _ _ ih => exact ih
  | join _ ih => exact ih
  | lexeme _ _ _ h ih =>
    obtain ⟨b, -, hoffset⟩ := h.suffix
    refine List.forall_mem_cons.mpr ⟨?_, ih⟩
    dsimp only at hoffset ⊢
    omega

/-- A scan passes the same in front of a separator. -/
theorem append (h : Passes i a ts j s) {z : List Char} (hz : Stops z) :
    Passes i (a ++ z) ts j (s ++ z) := by
  induction h with
  | done i s => exact .done i (s ++ z)
  | blank hc _ ih => exact .blank hc ih
  | feed _ ih => exact .feed ih
  | comment hskipped _ ih =>
    rw [List.append_assoc]
    exact .comment hskipped ih
  | join _ ih => exact .join ih
  | lexeme hc hlexeme hnest _ ih =>
    rw [← drop_append_of_lexeme? hlexeme] at ih
    exact .lexeme hc (lexeme?_append hz hlexeme) hnest ih

/-- What a scan passes has the marks of its lexemes. -/
theorem ofText?_eq (h : Passes i a ts j s) {v w : Nesting} (hwalk : v.walk? ts = some w)
    {prev : Char} (hprev : Apart v prev a) :
    ∃ last, ofText? prev a = (ofText? last s).map (ofLexemes ts ++ ·) := by
  induction h generalizing v prev with
  | done i s =>
    exact ⟨prev, by cases ofText? prev s <;> rfl⟩
  | @blank o p f c cs ts j s hc _ ih =>
    have hkind : isQuiet c ∧ isWordByte c = false ∧ isGlue c = false := by
      rcases hc with (rfl | rfl) | rfl <;> decide
    rw [ofText?_of_blank ⟨hkind.1, hkind.2.1⟩]
    exact ih hwalk (apart_of_blank hkind.2)
  | @feed o p f cs ts j s _ ih =>
    rw [ofText?_of_blank (by decide)]
    unfold ScanPoint.lineEnd at hwalk ⊢
    by_cases hends : (p.isEmpty && !f) = true
    · rw [if_pos hends] at hwalk ⊢
      have hwalk : Nesting.walk? { v with joined := false } ts = some w := hwalk
      exact ih hwalk (apart_of_blank (by decide))
    · rw [if_neg hends] at hwalk ⊢
      exact ih hwalk (apart_of_blank (by decide))
  | @comment o p f skipped cs ts j s hskipped _ ih =>
    have hlength : Lexer.commentLength (skipped ++ '\n' :: cs) = skipped.length := by
      unfold Lexer.commentLength
      rw [List.takeWhile_append_of_pos fun c hc => by simpa using (hskipped c hc).1]
      simp
    rw [List.cons_append, ofText?_comment, hlength, List.drop_left]
    exact ih hwalk (apart_of_blank (by decide))
  | join _ ih =>
    rw [ofText?_of_blank (by decide), ofText?_of_blank (by decide)]
    exact ih hwalk (apart_of_blank (by decide))
  | lexeme hc hlexeme hnest _ ih =>
    obtain ⟨u, hstep, hwalk⟩ := Nesting.exists_step?_of_walk? hwalk
    obtain ⟨before, hapart, hmarks⟩ := takes_lexeme hlexeme hstep hprev
    obtain ⟨last, hrest⟩ := ih hwalk hapart
    refine ⟨last, ?_⟩
    rw [hmarks, hrest, ofLexemes_cons, Option.map_map]
    refine congrArg (fun f => (ofText? last _).map f) (funext fun marks => ?_)
    simp only [Function.comp_apply, List.append_assoc]

end Passes

/-- A scan up to a closing parenthesis passes the text in front of it, but a comment that hides the
parenthesis. -/
theorem exists_passes {a : List Char} (hreturn : '\r' ∉ a) {o : Nat} {p : List String} {f : Bool}
    {ts : List Lexeme} (h : scanFrom o p f (a ++ [')']) = some ts) :
    ∃ us j s vs, Passes ⟨o, p, f⟩ a us j s ∧ (s = [] ∨ ∃ t, s = '#' :: t ∧ '\n' ∉ t) ∧
      j.scan (s ++ [')']) = some vs ∧ ts = us ++ vs := by
  induction a using Lexer.induction generalizing o p f ts with
  | nil => exact ⟨[], _, [], ts, .done _ [], .inl rfl, h, rfl⟩
  | step c rest ih =>
    have hrest (n : Nat) : '\r' ∉ rest.drop n := fun hmem =>
      hreturn (List.mem_cons_of_mem c (List.mem_of_mem_drop hmem))
    have hplain : '\r' ∉ rest := hrest 0
    have hclosed : '\r' ∉ rest ++ [')'] := by simpa using hplain
    rw [List.cons_append] at h
    by_cases hskipped : Lexer.isSkipped c
    · have hc : c ≠ '\r' := fun hc => hreturn (hc ▸ List.mem_cons_self)
      rcases blank_of_isSkipped hskipped hc with hblank | rfl
      · rw [scanFrom_blank hblank] at h
        obtain ⟨us, j, s, vs, hus, hs, hvs, rfl⟩ := ih 0 (hrest 0) h
        exact ⟨us, j, s, vs, .blank hblank hus, hs, hvs, rfl⟩
      · rw [scanFrom_feed] at h
        by_cases hends : (p.isEmpty && !f) = true
        · rw [if_pos hends] at h
          obtain ⟨later, hlater, rfl⟩ := Option.map_eq_some_iff.mp h
          obtain ⟨us, j, s, vs, hus, hs, hvs, rfl⟩ := ih 0 (hrest 0) hlater
          refine ⟨_, j, s, vs, .feed hus, hs, hvs, ?_⟩
          rw [ScanPoint.lineEnd, if_pos hends]
          rfl
        · rw [if_neg hends] at h
          obtain ⟨us, j, s, vs, hus, hs, hvs, rfl⟩ := ih 0 (hrest 0) h
          refine ⟨_, j, s, vs, .feed hus, hs, hvs, ?_⟩
          rw [ScanPoint.lineEnd, if_neg hends]
          rfl
    by_cases hcomment : c = '#'
    · subst hcomment
      by_cases hfeed : '\n' ∈ rest
      · obtain ⟨skipped, cs, rfl, hfirst⟩ := List.eq_append_cons_of_mem hfeed
        have hskipped : ∀ d ∈ skipped, d ≠ '\n' ∧ d ≠ '\r' := fun d hd =>
          ⟨fun hline => hfirst (hline ▸ hd), fun hline => hplain (List.mem_append_left _ (hline ▸ hd))⟩
        rw [List.append_assoc, List.cons_append] at h
        have hfound := (scanFrom_comment_feed hskipped _).symm.trans h
        have hih := @ih skipped.length (hrest _)
        rw [List.drop_left] at hih
        obtain ⟨us, j, s, vs, hus, hs, hvs, rfl⟩ := hih hfound
        exact ⟨us, j, s, vs, .comment hskipped hus, hs, hvs, rfl⟩
      · exact ⟨[], _, '#' :: rest, ts, .done _ _, .inr ⟨rest, rfl, hfeed⟩, h, rfl⟩
    by_cases hjoin : c = '\\'
    · subst hjoin
      obtain ⟨more, hmore, hfound⟩ := scanFrom_join hclosed h
      cases rest with
      | nil => simp at hmore
      | cons d rest =>
        obtain ⟨rfl, rfl⟩ := List.cons.inj hmore
        obtain ⟨us, j, s, vs, hus, hs, hvs, rfl⟩ := ih 1 (hrest 1) hfound
        exact ⟨us, j, s, vs, .join hus, hs, hvs, rfl⟩
    obtain ⟨kind, n, still, later, hlexeme, hnest, hlater, rfl⟩ :=
      exists_lexeme_of_scanFrom hskipped hcomment hjoin h
    have hlexeme := lexeme?_of_closing (by decide) (List.cons_ne_nil c rest) hlexeme
    rw [drop_append_of_lexeme? hlexeme] at hlater
    obtain ⟨us, j, s, vs, hus, hs, hvs, rfl⟩ := ih (n - 1) (hrest _) hlater
    have hc : startsLexeme c := by simp [startsLexeme, hskipped, hcomment, hjoin]
    exact ⟨_, j, s, vs, .lexeme hc hlexeme hnest hus, hs, hvs, rfl⟩

end ViewTree.Embedded
