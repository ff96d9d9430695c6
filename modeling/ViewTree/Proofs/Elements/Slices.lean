import ViewTree.Proofs.Pasting.Inline

/-!
Parts of a scanned text by themselves. Between two lexemes stands a gap, and a gap is passed between all
brackets; the last lexeme of a part does not see what stands behind it, as long as that is a separator.
Main statement: what stands from the start of one lexeme to the stop of another one has the lexemes
between them, wherever it is put between brackets (`exists_slice_of_scanFrom`).
-/
namespace ViewTree.Embedded
open Text

section
variable {offset n : Nat} {pending : List String} {fresh : Bool} {c : Char} {cs rest gap : List Char}

theorem lineEndLength_return (h : rest.head? ≠ some '\n') : lineEndLength ('\r' :: rest) = 1 := by
  unfold lineEndLength
  split <;> simp_all

theorem lineEndLength_eq_zero (hfeed : c ≠ '\n') (hreturn : c ≠ '\r') :
    lineEndLength (c :: rest) = 0 := by
  unfold lineEndLength
  split <;> simp_all

/-- The line end that a text starts with, and what stands behind it. -/
inductive Breaks : List Char → List Char → Prop where
  | feed (rest : List Char) : Breaks ['\n'] rest
  | both (rest : List Char) : Breaks ['\r', '\n'] rest
  | back {rest : List Char} (h : rest.head? ≠ some '\n') : Breaks ['\r'] rest

theorem Breaks.length {mark : List Char} (h : Breaks mark rest) :
    lineEndLength (mark ++ rest) = mark.length := by
  cases h with
  | feed | both => rfl
  | back h => exact lineEndLength_return h

theorem exists_breaks (h : 0 < lineEndLength cs) : ∃ mark rest, cs = mark ++ rest ∧ Breaks mark rest := by
  cases cs with
  | nil => nomatch h
  | cons c rest =>
    by_cases hfeed : c = '\n'
    · exact ⟨['\n'], rest, by rw [hfeed]; rfl, .feed rest⟩
    by_cases hreturn : c = '\r'
    · subst hreturn
      by_cases hboth : rest.head? = some '\n'
      · obtain ⟨rest, rfl⟩ := List.head?_eq_some_iff.mp hboth
        exact ⟨['\r', '\n'], rest, rfl, .both rest⟩
      · exact ⟨['\r'], rest, rfl, .back hboth⟩
    · rw [lineEndLength_eq_zero hfeed hreturn] at h
      nomatch h

/-- A line end is a lexeme outside of brackets and behind a lexeme. -/
theorem Breaks.scanFrom_eq {mark : List Char} (h : Breaks mark rest) :
    scanFrom offset pending fresh (mark ++ rest) =
      let later := scanFrom (offset + mark.length) pending (pending.isEmpty || fresh) rest
      if pending.isEmpty && !fresh then
        later.map (⟨.lineEnd, offset, offset + mark.length⟩ :: ·)
      else later := by
  cases h with
  | feed => exact scanFrom_feed
  | both =>
    show scanFrom offset pending fresh ('\r' :: '\n' :: rest) = _
    rw [scanFrom, if_neg (by decide), if_pos (by decide)]
    rfl
  | back h =>
    have hother : ¬(decide ('\r' = '\r') && decide (rest.head? = some '\n')) = true := by simp [h]
    show scanFrom offset pending fresh ('\r' :: rest) = _
    rw [scanFrom, if_neg (by decide), if_pos (by decide), if_neg hother]
    rfl

/-- What a comment skips goes up to the end of the line. -/
def commentSkip (rest : List Char) : List Char := rest.takeWhile fun d => d ≠ '\n' && d ≠ '\r'

theorem exists_commentSkip (rest : List Char) :
    ∃ skipped more, rest = skipped ++ more ∧ commentSkip rest = skipped ∧
      (∀ d ∈ skipped, d ≠ '\n' ∧ d ≠ '\r') ∧ ∀ d ∈ more.head?, d = '\n' ∨ d = '\r' := by
  refine ⟨commentSkip rest, rest.drop (commentSkip rest).length,
    (Mark.take_append_drop_takeWhile _ rest).symm, rfl, fun d hd => ?_, fun d hd => ?_⟩
  · simpa using List.all_eq_true.mp List.all_takeWhile d hd
  · have hends := Mark.not_head_drop_takeWhile (fun d => d ≠ '\n' && d ≠ '\r') rest d hd
    by_cases hfeed : d = '\n'
    · exact .inl hfeed
    · exact .inr (by simpa [hfeed] using hends)

theorem scanFrom_hash : scanFrom offset pending fresh ('#' :: rest) =
    scanFrom (offset + 1 + (commentSkip rest).length) pending fresh
      (rest.drop (commentSkip rest).length) := by
  rw [scanFrom, if_neg (by decide), if_neg (by decide), if_pos rfl]
  rfl

theorem Breaks.scanFrom_join {mark : List Char} (h : Breaks mark rest) (hrest : rest ≠ []) :
    scanFrom offset pending fresh ('\\' :: mark ++ rest) =
      scanFrom (offset + 1 + mark.length) pending fresh rest := by
  have hpos : 0 < mark.length := by cases h <;> simp
  have hfits : (0 < lineEndLength (mark ++ rest) &&
      lineEndLength (mark ++ rest) < (mark ++ rest).length) = true := by
    simpa [h.length, hpos] using List.length_pos_iff.mpr hrest
  rw [List.cons_append, scanFrom, if_neg (by decide), if_neg (by decide), if_neg (by decide), if_pos rfl]
  dsimp only
  rw [if_pos hfits, h.length, List.drop_left]

/-- Behind a backslash has to stand a line end, and something behind it. -/
theorem exists_of_scanFrom_join {found : List Lexeme}
    (h : scanFrom offset pending fresh ('\\' :: cs) = some found) :
    ∃ mark rest, cs = mark ++ rest ∧ Breaks mark rest ∧ rest ≠ [] := by
  rw [scanFrom, if_neg (by decide), if_neg (by decide), if_neg (by decide), if_pos rfl] at h
  dsimp only at h
  split at h
  · next hfits =>
    obtain ⟨hpos, hlt⟩ := Bool.and_eq_true_iff.mp hfits
    obtain ⟨mark, rest, rfl, hbreaks⟩ := exists_breaks (of_decide_eq_true hpos)
    refine ⟨mark, rest, rfl, hbreaks, ?_⟩
    rintro rfl
    rw [hbreaks.length, List.append_nil] at hlt
    simp at hlt
  · cases h

/-- In front of a lexeme, and between brackets, a scan passes `gap` without finding anything. -/
def IsPassed (gap : List Char) : Prop :=
  ∀ offset pending fresh c more, pending ≠ [] → startsLexeme c →
    scanFrom offset pending fresh (gap ++ c :: more) =
      scanFrom (offset + gap.length) pending fresh (c :: more)

theorem isPassed_nil : IsPassed [] := fun _ _ _ _ _ _ _ => rfl

theorem isPassed_blank (hc : (c = ' ' ∨ c = '\t') ∨ c = '\x0c') (h : IsPassed gap) : IsPassed (c :: gap) := by
  intro offset pending fresh d more hpending hd
  rw [List.cons_append, scanFrom_blank hc, h _ _ _ _ _ hpending hd, List.length_cons, Nat.add_assoc,
    Nat.add_comm 1]

theorem ne_of_startsLexeme (hc : startsLexeme c) : c ≠ '\n' ∧ c ≠ '\r' := by
  constructor <;> (rintro rfl; exact absurd hc (by decide))

/-- A line end stays one in front of every lexeme. -/
theorem Breaks.before {mark more : List Char} {d : Char} (h : Breaks mark (gap ++ c :: rest))
    (hd : startsLexeme d) : Breaks mark (gap ++ d :: more) := by
  cases h with
  | feed => exact .feed _
  | both => exact .both _
  | back h =>
    refine .back ?_
    cases gap with
    | nil => simpa using (ne_of_startsLexeme hd).1
    | cons e gap => exact h

theorem Breaks.isPassed {mark : List Char} (hmark : Breaks mark (gap ++ c :: rest)) (h : IsPassed gap) :
    IsPassed (mark ++ gap) := by
  intro offset pending fresh d more hpending hd
  have hopen : pending.isEmpty = false := by simpa using hpending
  rw [List.append_assoc, (hmark.before hd).scanFrom_eq, hopen]
  dsimp only [Bool.false_and]
  rw [if_neg nofun, Bool.false_or, h _ _ _ _ _ hpending hd, List.length_append, Nat.add_assoc]

theorem Breaks.isPassed_join {mark : List Char} (hmark : Breaks mark (gap ++ c :: rest)) (h : IsPassed gap) :
    IsPassed ('\\' :: mark ++ gap) := by
  intro offset pending fresh d more hpending hd
  rw [List.append_assoc, (hmark.before hd).scanFrom_join (by simp), h _ _ _ _ _ hpending hd]
  simp only [List.length_append, List.length_cons]
  congr 1
  omega

theorem isPassed_comment {skipped : List Char} (hskipped : ∀ d ∈ skipped, d ≠ '\n' ∧ d ≠ '\r') {e : Char}
    (he : e = '\n' ∨ e = '\r') (h : IsPassed (e :: gap)) : IsPassed ('#' :: skipped ++ e :: gap) := by
  intro offset pending fresh d more hpending hd
  have hskip (rest : List Char) : commentSkip (skipped ++ e :: rest) = skipped := by
    unfold commentSkip
    rw [List.takeWhile_append_of_pos fun c hc => by simpa using hskipped c hc]
    rcases he with rfl | rfl <;> simp
  have hline := h (offset + 1 + skipped.length) pending fresh d more hpending hd
  rw [List.append_assoc, List.cons_append, List.cons_append, scanFrom_hash, hskip, List.drop_left]
  rw [List.cons_append] at hline
  rw [hline]
  simp only [List.length_append, List.length_cons]
  congr 1
  omega

end

theorem length_unifyLineEnds_le (cs : List Char) : (unifyLineEnds cs).length ≤ cs.length := by
  fun_induction unifyLineEnds cs with
  | case1 => exact Nat.le_refl _
  | case2 cs ih => exact Nat.le_succ_of_le (Nat.succ_le_succ ih)
  | case3 c cs _ ih => exact Nat.succ_le_succ ih

/-- The quotes of a string take room too. -/
theorem body_of_string? {letters : List Char} {offset n : Nat} {cs : List Char} {s : StringLiteral}
    (h : string? letters offset cs = some (s, n)) : s.body.length + 2 ≤ n := by
  cases cs with
  | nil => nomatch h
  | cons quote rest =>
    obtain ⟨m, -, hsame⟩ := Option.map_eq_some_iff.mp h
    obtain ⟨rfl, rfl⟩ := Prod.mk.inj hsame
    have hbody : ∀ body : List Char, (unifyLineEnds (body.take m)).length ≤ m := fun body =>
      Nat.le_trans (length_unifyLineEnds_le _) (List.length_take_le m body)
    have hopening (long : Bool) : 1 ≤ if long then 3 else 1 := by cases long <;> decide
    have := hbody ((quote :: rest).drop (if [quote, quote].isPrefixOf rest then 3 else 1))
    have := hopening ([quote, quote].isPrefixOf rest)
    dsimp only
    omega

/-- What a lexeme is, and how long it is at least. -/
theorem cases_of_lexeme? {offset n : Nat} {cs : List Char} {kind : LexemeKind}
    (h : lexeme? offset cs = some (kind, n)) :
    ((∃ l, kind = .number l) ∧ 0 < n) ∨ (∃ s, kind = .string s ∧ s.body.length + 2 ≤ n) ∨
      ((∃ word, kind = .keyword word ∨ kind = .name word) ∧ 0 < n) ∨
      ∃ w, kind = .symbol w ∧ w ∈ symbols ∧ w.toList <+: cs ∧ n = w.length := by
  cases cs with
  | nil => nomatch h
  | cons c rest =>
    unfold lexeme? at h
    dsimp only at h
    by_cases hnumber : (c.isDigit || (decide (c = '.') && rest.head?.any (·.isDigit))) = true
    · rw [if_pos hnumber] at h
      obtain ⟨⟨l, m⟩, hm, hsame⟩ := Option.map_eq_some_iff.mp h
      obtain ⟨rfl, rfl⟩ := Prod.mk.inj hsame
      have hc : c.isDigit ∨ c = '.' := by
        rcases Bool.or_eq_true_iff.mp hnumber with hdigit | hdot
        · exact .inl hdigit
        · exact .inr (of_decide_eq_true (Bool.and_eq_true_iff.mp hdot).1)
      obtain ⟨k, rfl, -⟩ := figures_of_number? hm hc
      exact .inl ⟨⟨l, rfl⟩, Nat.succ_pos k⟩
    rw [if_neg hnumber] at h
    by_cases hword : isWordByte c
    · rw [if_pos hword] at h
      have hpos : 0 < ((c :: rest).takeWhile isWordByte).length := by
        rw [List.takeWhile_cons, if_pos hword]
        exact Nat.succ_pos _
      generalize (c :: rest).takeWhile isWordByte = word at h hpos
      split at h
      · obtain ⟨⟨s, m⟩, hs, hsame⟩ := Option.map_eq_some_iff.mp h
        obtain ⟨rfl, rfl⟩ := Prod.mk.inj hsame
        have hbody := body_of_string? hs
        exact .inr (.inl ⟨s, rfl, by omega⟩)
      split at h
      · obtain ⟨rfl, rfl⟩ := Prod.mk.inj (Option.some.inj h)
        exact .inr (.inr (.inl ⟨⟨_, .inl rfl⟩, hpos⟩))
      split at h
      · obtain ⟨rfl, rfl⟩ := Prod.mk.inj (Option.some.inj h)
        exact .inr (.inr (.inl ⟨⟨_, .inr rfl⟩, hpos⟩))
      · nomatch h
    rw [if_neg hword] at h
    split at h
    · obtain ⟨⟨s, m⟩, hs, hsame⟩ := Option.map_eq_some_iff.mp h
      obtain ⟨rfl, rfl⟩ := Prod.mk.inj hsame
      exact .inr (.inl ⟨s, rfl, body_of_string? hs⟩)
    · obtain ⟨w, hw, hsame⟩ := Option.map_eq_some_iff.mp h
      obtain ⟨rfl, rfl⟩ := Prod.mk.inj hsame
      have hfound := List.find?_some hw
      exact .inr (.inr (.inr ⟨w, rfl, List.mem_of_find?_eq_some hw,
        List.isPrefixOf_iff_prefix.mp hfound, rfl⟩))

section
variable {offset n : Nat} {cs : List Char} {kind : LexemeKind}

theorem pos_of_lexeme? (h : lexeme? offset cs = some (kind, n)) : 0 < n := by
  obtain ⟨-, hpos⟩ | ⟨s, -, hbody⟩ | ⟨-, hpos⟩ | ⟨w, -, hw, -, rfl⟩ := cases_of_lexeme? h
  · exact hpos
  · omega
  · exact hpos
  · have hall : ∀ w ∈ symbols, 0 < w.length := by decide
    exact hall w hw

theorem symbol_of_lexeme? {w : String} (h : lexeme? offset cs = some (.symbol w, n)) :
    w.toList <+: cs ∧ n = w.length := by
  obtain ⟨⟨l, hkind⟩, -⟩ | ⟨s, hkind, -⟩ | ⟨⟨word, hkind | hkind⟩, -⟩ | ⟨w', hkind, -, hleading, hn⟩ :=
    cases_of_lexeme? h
  all_goals cases hkind
  exact ⟨hleading, hn⟩

theorem string_of_lexeme? {s : StringLiteral} (h : lexeme? offset cs = some (.string s, n)) :
    s.body.length + 2 ≤ n := by
  obtain ⟨⟨l, hkind⟩, -⟩ | ⟨s', hkind, hbody⟩ | ⟨⟨word, hkind | hkind⟩, -⟩ | ⟨w, hkind, -⟩ :=
    cases_of_lexeme? h
  all_goals cases hkind
  exact hbody

theorem ne_lineEnd_of_lexeme? (h : lexeme? offset cs = some (kind, n)) : kind ≠ .lineEnd := by
  obtain ⟨⟨l, rfl⟩, -⟩ | ⟨s, rfl, -⟩ | ⟨⟨word, rfl | rfl⟩, -⟩ | ⟨w, rfl, -⟩ := cases_of_lexeme? h
  all_goals nofun

end

/-- A scan finds `t` first: behind a gap stand the characters `own` of the lexeme, and behind these it
finds `ts` in `rest`. -/
structure Finds (offset : Nat) (pending : List String) (cs : List Char) (t : Lexeme) (ts : List Lexeme)
    (gap own rest : List Char) (still : List String) : Prop where
  text : cs = gap ++ (own ++ rest)
  passed : IsPassed gap
  starts : ∃ c more, own = c :: more ∧ startsLexeme c
  lexeme : lexeme? t.start (own ++ rest) = some (t.kind, own.length)
  start : t.start = offset + gap.length
  stop : t.stop = t.start + own.length
  nest : nest? pending t.kind = some still
  scan : scanFrom t.stop still false rest = some ts

section
variable {offset : Nat} {pending : List String} {fresh : Bool} {cs : List Char} {t : Lexeme}
  {ts : List Lexeme}

/-- One step of a scan: it is at the end, passes what is no lexeme, or finds the end of a line or a
lexeme. -/
inductive ScanStep (offset : Nat) (pending : List String) :
    Bool → List Char → List Lexeme → Prop where
  | spent (hpending : pending = []) : ScanStep offset pending true [] []
  | last (hpending : pending = []) : ScanStep offset pending false [] [⟨.lineEnd, offset, offset⟩]
  | pass {fresh front rest ts} (hfront : front ≠ [])
      (hgap : ∀ gap c more, startsLexeme c → rest = gap ++ c :: more → IsPassed gap → IsPassed (front ++ gap))
      (h : scanFrom (offset + front.length) pending fresh rest = some ts) :
      ScanStep offset pending fresh (front ++ rest) ts
  | line {front rest ts} (h : scanFrom (offset + front.length) pending true rest = some ts) :
      ScanStep offset pending false (front ++ rest)
        (⟨.lineEnd, offset, offset + front.length⟩ :: ts)
  | lexeme {fresh cs t ts own rest still} (h : Finds offset pending cs t ts [] own rest still) :
      ScanStep offset pending fresh cs (t :: ts)

theorem scanStep_nil (h : scanFrom offset pending fresh [] = some ts) :
    ScanStep offset pending fresh [] ts := by
  rw [scanFrom] at h
  split at h
  · next hclosed =>
    have hpending : pending = [] := List.isEmpty_iff.mp hclosed
    cases fresh with
    | true => exact Option.some.inj h ▸ .spent hpending
    | false => exact Option.some.inj h ▸ .last hpending
  · cases h

/-- A line end ends a line outside of brackets where something is on it. -/
theorem scanStep_lineEnd {mark more : List Char} (hbreaks : Breaks mark more)
    (h : scanFrom offset pending fresh (mark ++ more) = some ts) :
    ScanStep offset pending fresh (mark ++ more) ts := by
  rw [hbreaks.scanFrom_eq] at h
  dsimp only at h
  split at h
  · next hends =>
    obtain ⟨hopen, hfresh⟩ := Bool.and_eq_true_iff.mp hends
    obtain ⟨later, hlater, rfl⟩ := Option.map_eq_some_iff.mp h
    obtain rfl : fresh = false := by simpa using hfresh
    rw [hopen] at hlater
    exact .line hlater
  · next hends =>
    have hfresh : (pending.isEmpty || fresh) = fresh := by
      cases hopen : pending.isEmpty <;> cases fresh <;> simp_all
    rw [hfresh] at h
    refine .pass ?_ (fun gap d more _ hmore => (hmore ▸ hbreaks).isPassed) h
    rintro rfl
    cases hbreaks

theorem scanStep_comment {rest : List Char}
    (h : scanFrom offset pending fresh ('#' :: rest) = some ts) :
    ScanStep offset pending fresh ('#' :: rest) ts := by
  rw [scanFrom_hash] at h
  obtain ⟨skipped, more, rfl, hskip, hskipped, hmore⟩ := exists_commentSkip rest
  rw [hskip, List.drop_left, Nat.add_assoc, Nat.add_comm 1] at h
  refine .pass (List.cons_ne_nil '#' skipped) (fun gap d more' hd hsame h => ?_) h
  cases gap with
  | nil =>
    have hline := hmore d (by rw [hsame]; rfl)
    exact absurd hline (not_or.mpr (ne_of_startsLexeme hd))
  | cons e gap => exact isPassed_comment hskipped (hmore e (by rw [hsame]; rfl)) h

theorem scanStep_join {rest : List Char}
    (h : scanFrom offset pending fresh ('\\' :: rest) = some ts) :
    ScanStep offset pending fresh ('\\' :: rest) ts := by
  obtain ⟨mark, more, rfl, hbreaks, hmore⟩ := exists_of_scanFrom_join h
  have hjoined := (hbreaks.scanFrom_join hmore).symm.trans h
  rw [Nat.add_assoc, Nat.add_comm 1] at hjoined
  exact .pass (List.cons_ne_nil '\\' mark) (fun gap d more _ hmore => (hmore ▸ hbreaks).isPassed_join)
    hjoined

theorem scanStep_of_scanFrom (h : scanFrom offset pending fresh cs = some ts) :
    ScanStep offset pending fresh cs ts := by
  cases cs with
  | nil => exact scanStep_nil h
  | cons c rest =>
    by_cases hblank : (c = ' ' ∨ c = '\t') ∨ c = '\x0c'
    · rw [scanFrom_blank hblank] at h
      exact .pass (List.cons_ne_nil c []) (fun _ _ _ _ _ => isPassed_blank hblank) h
    by_cases hline : c = '\n' ∨ c = '\r'
    · have hpos : 0 < lineEndLength (c :: rest) := by
        rcases hline with rfl | rfl
        · exact Nat.zero_lt_one
        · unfold lineEndLength
          split <;> simp_all
      obtain ⟨mark, more, hsplit, hbreaks⟩ := exists_breaks hpos
      rw [hsplit] at h ⊢
      exact scanStep_lineEnd hbreaks h
    by_cases hcomment : c = '#'
    · subst hcomment
      exact scanStep_comment h
    by_cases hjoin : c = '\\'
    · subst hjoin
      exact scanStep_join h
    have hskipped : ¬Lexer.isSkipped c := by grind [Lexer.isSkipped]
    obtain ⟨kind, n, still, later, hlexeme, hnest, hlater, rfl⟩ :=
      exists_lexeme_of_scanFrom hskipped hcomment hjoin h
    have hle := length_of_lexeme? hlexeme
    obtain ⟨n, rfl⟩ := Nat.exists_eq_add_one_of_ne_zero (Nat.ne_of_gt (pos_of_lexeme? hlexeme))
    have hlength : ((c :: rest).take (n + 1)).length = n + 1 := List.length_take_of_le hle
    refine .lexeme (⟨?_, isPassed_nil, ?_, ?_, rfl, ?_, hnest, ?_⟩ : Finds offset pending (c :: rest)
      ⟨kind, offset, offset + (n + 1)⟩ later [] ((c :: rest).take (n + 1)) (rest.drop n) still)
    · exact (List.take_append_drop (n + 1) (c :: rest)).symm
    · exact ⟨c, rest.take n, rfl, by simp [startsLexeme, hskipped, hcomment, hjoin]⟩
    · rw [hlength]
      exact (congrArg _ (List.take_append_drop (n + 1) (c :: rest))).trans hlexeme
    · rw [hlength]
    · rwa [Nat.max_eq_right (Nat.le_add_left 1 n), Nat.add_sub_cancel] at hlater

theorem exists_first_of_scanFrom (h : scanFrom offset pending fresh cs = some (t :: ts)) :
    (∃ gap own rest still, Finds offset pending cs t ts gap own rest still) ∨
      t.kind = .lineEnd ∧ ∃ front rest, cs = front ++ rest ∧
        scanFrom (offset + front.length) pending true rest = some ts := by
  induction hlength : cs.length using Nat.strongRecOn generalizing offset fresh cs with
  | _ length ih =>
    subst hlength
    generalize hfound : t :: ts = found at h
    cases scanStep_of_scanFrom h with
    | spent => nomatch hfound
    | last hpending =>
      obtain ⟨rfl, rfl⟩ := List.cons.inj hfound
      refine .inr ⟨rfl, [], [], rfl, ?_⟩
      rw [scanFrom, if_pos (List.isEmpty_iff.mpr hpending)]
      rfl
    | @pass fresh front rest ts hfront hgap hscan =>
      subst hfound
      have hlt : rest.length < (front ++ rest).length := by
        have := List.length_pos_iff.mpr hfront
        rw [List.length_append]
        omega
      obtain ⟨gap, own, rest, still, hfinds⟩ | ⟨hline, before, rest, rfl, hlater⟩ := ih _ hlt hscan rfl
      · -- what stands in front of the gap belongs to the gap
        obtain ⟨c, more, hown, hc⟩ := hfinds.starts
        refine .inl ⟨front ++ gap, own, rest, still, ?_, ?_, hfinds.starts, hfinds.lexeme, ?_, hfinds.stop,
          hfinds.nest, hfinds.scan⟩
        · rw [hfinds.text, List.append_assoc]
        · exact hgap gap c (more ++ rest) hc (by rw [hfinds.text, hown]; rfl) hfinds.passed
        · rw [hfinds.start, List.length_append, Nat.add_assoc]
      · refine .inr ⟨hline, front ++ before, rest, by rw [List.append_assoc], ?_⟩
        rw [List.length_append, ← Nat.add_assoc]
        exact hlater
    | @line front rest ts hscan =>
      obtain ⟨rfl, rfl⟩ := List.cons.inj hfound
      exact .inr ⟨rfl, front, rest, rfl, hscan⟩
    | lexeme hfinds =>
      obtain ⟨rfl, rfl⟩ := List.cons.inj hfound
      exact .inl ⟨[], _, _, _, hfinds⟩

/-- Behind a lexeme comes a lexeme, or the end of the line. -/
theorem ne_nil_of_scanFrom (h : scanFrom offset pending false cs = some ts) : ts ≠ [] := by
  induction hlength : cs.length using Nat.strongRecOn generalizing offset cs with
  | _ length ih =>
    subst hlength
    generalize hfresh : false = fresh at h
    cases scanStep_of_scanFrom h with
    | spent => nomatch hfresh
    | last => exact List.cons_ne_nil _ _
    | @pass fresh front rest ts hfront _ hscan =>
      subst hfresh
      refine ih rest.length ?_ hscan rfl
      have := List.length_pos_iff.mpr hfront
      rw [List.length_append]
      omega
    | line => exact List.cons_ne_nil _ _
    | lexeme => exact List.cons_ne_nil _ _

end

/-- What a scan finds behind lexemes it finds in the text behind them. -/
theorem exists_rest_of_scanFrom {offset : Nat} {pending : List String} {fresh : Bool} {cs : List Char}
    {before ts : List Lexeme} (h : scanFrom offset pending fresh cs = some (before ++ ts)) :
    ∃ front rest still fresh', cs = front ++ rest ∧ nestAll? pending before = some still ∧
      scanFrom (offset + front.length) still fresh' rest = some ts := by
  induction before generalizing offset pending fresh cs with
  | nil => exact ⟨[], cs, pending, fresh, rfl, rfl, h⟩
  | cons t before ih =>
    obtain ⟨gap, own, rest, still, hcut⟩ | ⟨hline, front, rest, rfl, hscan⟩ :=
      exists_first_of_scanFrom h
    · obtain ⟨front, rest, still', fresh', rfl, hnest, hscan⟩ := ih hcut.scan
      refine ⟨gap ++ own ++ front, rest, still', fresh', ?_, ?_, ?_⟩
      · rw [hcut.text]
        simp only [List.append_assoc]
      · rw [nestAll?_cons hcut.nest, hnest]
      · rw [hcut.stop, hcut.start] at hscan
        simpa only [List.length_append, Nat.add_assoc] using hscan
    · have hnest : nest? pending t.kind = some pending := by rw [hline]; rfl
      obtain ⟨front', rest, still, fresh', rfl, hstill, hscan⟩ := ih hscan
      refine ⟨front ++ front', rest, still, fresh', by rw [List.append_assoc], ?_, ?_⟩
      · rw [nestAll?_cons hnest, hstill]
      · rwa [List.length_append, ← Nat.add_assoc]

/-- Behind lexemes of a line comes another one, or the end of the line. -/
theorem ne_nil_of_scanFrom_append {offset : Nat} {pending : List String} {fresh : Bool} {cs : List Char}
    {used ts : List Lexeme} (h : scanFrom offset pending fresh cs = some (used ++ ts)) (hused : used ≠ [])
    (hline : ∀ t ∈ used, t.kind ≠ .lineEnd) : ts ≠ [] := by
  obtain ⟨before, t, rfl⟩ := (List.eq_nil_or_concat used).resolve_left hused
  rw [List.concat_eq_append, List.append_assoc] at h
  obtain ⟨front, rest, still, fresh', -, -, hrest⟩ := exists_rest_of_scanFrom h
  obtain ⟨gap, own, rest, still, hfinds⟩ | ⟨hend, -⟩ := exists_first_of_scanFrom hrest
  · exact ne_nil_of_scanFrom hfinds.scan
  · exact absurd hend (hline t (by simp))

/-- In front of what stands behind an expression, and of nothing, stands a separator. -/
theorem stops_of_scanFrom {offset : Nat} {pending : List String} {fresh : Bool} {cs : List Char}
    {ts : List Lexeme} (h : scanFrom offset pending fresh cs = some ts)
    (hts : ∀ t ∈ ts.head?, endsExpression t.kind) : Stops cs := by
  cases cs with
  | nil => exact stops_nil
  | cons c rest =>
    refine stops_cons ?_ rest
    by_cases hskipped : Lexer.isSkipped c
    · simp only [Lexer.isSkipped, Bool.or_eq_true, decide_eq_true_eq, or_assoc] at hskipped
      rcases hskipped with rfl | rfl | rfl | rfl | rfl <;> rfl
    by_cases hcomment : c = '#'
    · rw [hcomment]
      rfl
    by_cases hjoin : c = '\\'
    · rw [hjoin]
      rfl
    obtain ⟨kind, n, still, later, hlexeme, -, -, rfl⟩ :=
      exists_lexeme_of_scanFrom hskipped hcomment hjoin h
    have hfirst {w : String} {d : Char} (hw : w.toList = [d]) (hd : isStop d) (hkind : kind = .symbol w) :
        isStop c := by
      obtain ⟨more, hmore⟩ := (symbol_of_lexeme? (hkind ▸ hlexeme)).1
      rw [hw] at hmore
      exact (List.cons.inj hmore).1 ▸ hd
    rcases cases_of_endsExpression (hts _ rfl) with hline | hparenthesis | hcomma | hcolon
    · exact absurd hline (ne_lineEnd_of_lexeme? hlexeme)
    · exact hfirst rfl rfl hparenthesis
    · exact hfirst rfl rfl hcomma
    · exact hfirst rfl rfl hcolon

/-- Wherever `a` is put between brackets, behind a lexeme and in front of a separator, a scan finds
lexemes like `ts` in it. -/
def ScansAs (a : List Char) (ts : List Lexeme) : Prop :=
  ∀ offset own own' around w, around ≠ [] → nestAll? own ts = some own' →
    (nestAll? (own ++ around) ts).isSome → Stops w →
      ∃ us, Alike us ts ∧ scanFrom offset (own ++ around) false (a ++ w) =
        (scanFrom (offset + a.length) (own' ++ around) false w).map (us ++ ·)

theorem scansAs_nil : ScansAs [] [] := by
  intro offset own own' around w _ hown _ _
  obtain rfl := Option.some.inj hown
  exact ⟨[], rfl, by simp⟩

theorem ScansAs.gap {gap a : List Char} {ts : List Lexeme} (h : ScansAs a ts) (hgap : IsPassed gap)
    (ha : ∃ c more, a = c :: more ∧ startsLexeme c) : ScansAs (gap ++ a) ts := by
  intro offset own own' around w haround hown hroom hw
  obtain ⟨c, more, rfl, hc⟩ := ha
  obtain ⟨us, halike, hscan⟩ := h (offset + gap.length) own own' around w haround hown hroom hw
  refine ⟨us, halike, ?_⟩
  rw [List.append_assoc, List.cons_append, hgap _ _ _ _ _ (by simp [haround]) hc, ← List.cons_append,
    hscan, List.length_append, Nat.add_assoc]

theorem ScansAs.lexeme {own a : List Char} {t : Lexeme} {ts : List Lexeme} {offset : Nat}
    (h : ScansAs a ts) (hstarts : ∃ c more, own = c :: more ∧ startsLexeme c)
    (hlexeme : lexeme? offset (own ++ a) = some (t.kind, own.length)) : ScansAs (own ++ a) (t :: ts) := by
  intro offset' pending pending' around w haround hpending hroom hw
  obtain ⟨c, more, rfl, hc⟩ := hstarts
  obtain ⟨next, hnext, hrest⟩ := Option.bind_eq_some_iff.mp hpending
  obtain ⟨all, hall⟩ := Option.isSome_iff_exists.mp hroom
  obtain ⟨still, hstill, hbehind⟩ := Option.bind_eq_some_iff.mp hall
  obtain rfl : still = next ++ around :=
    Option.some.inj (hstill.symm.trans (nest?_around hstill hnext (Nat.le_refl _)))
  obtain ⟨kind, hfound, hkind⟩ := exists_lexeme?_elsewhere (lexeme?_append hw hlexeme) offset'
  have hnest : nest? (pending ++ around) kind = some (next ++ around) :=
    (nest?_congr hkind _).trans hstill
  obtain ⟨us, halike, hscan⟩ := h (offset' + (c :: more).length) next pending' around w haround hrest
    (Option.isSome_iff_exists.mpr ⟨all, hbehind⟩) hw
  refine ⟨⟨kind, offset', offset' + (c :: more).length⟩ :: us, List.cons_eq_cons.mpr ⟨hkind, halike⟩, ?_⟩
  have hfound : lexeme? offset' (c :: (more ++ (a ++ w))) = some (kind, (c :: more).length) := by
    simpa using hfound
  have hdrop : (more ++ (a ++ w)).drop ((c :: more).length - 1) = a ++ w := List.drop_left
  have hmax : max 1 (c :: more).length = (c :: more).length := Nat.max_eq_right (Nat.le_add_left 1 _)
  rw [List.append_assoc, List.cons_append, scanFrom_lexeme hc hfound hnest, hdrop, hmax, hscan,
    Option.map_map, List.length_append, Nat.add_assoc]
  rfl

def startOf (ts : List Lexeme) : Nat := ts.head?.elim 0 (·.start)

def stopOf (ts : List Lexeme) : Nat := ts.getLast?.elim 0 (·.stop)

/-- The lexemes `ts` stand in `a`, which stands in the text behind a gap. -/
structure StandsIn (offset : Nat) (cs : List Char) (ts : List Lexeme) (gap a behind : List Char) :
    Prop where
  text : cs = gap ++ (a ++ behind)
  passed : IsPassed gap
  starts : ∃ c more, a = c :: more ∧ startsLexeme c
  start : startOf ts = offset + gap.length
  stop : stopOf ts = startOf ts + a.length
  short : ∀ t ∈ ts, ∀ s, t.kind = .string s → s.body.length + 2 ≤ a.length
  stops : Stops behind
  scans : ScansAs a ts

section
variable {offset : Nat} {pending still : List String} {cs gap own rest : List Char} {t : Lexeme}
  {ts : List Lexeme}

theorem Finds.ne_nil (h : Finds offset pending cs t ts gap own rest still) : own ≠ [] := by
  obtain ⟨c, more, hown, -⟩ := h.starts
  rw [hown]
  exact List.cons_ne_nil c more

theorem Finds.short (h : Finds offset pending cs t ts gap own rest still) (s : StringLiteral)
    (hs : t.kind = .string s) : s.body.length + 2 ≤ own.length :=
  string_of_lexeme? (hs ▸ h.lexeme)

/-- A lexeme that is found stands by itself. -/
theorem Finds.standsIn (h : Finds offset pending cs t ts gap own rest still) (hstops : Stops rest) :
    StandsIn offset cs [t] gap own rest := by
  have halone : lexeme? t.start (own ++ []) = some (t.kind, own.length) := by
    rw [List.append_nil]
    exact lexeme?_of_append hstops h.ne_nil h.lexeme (Nat.le_refl _)
  refine ⟨h.text, h.passed, h.starts, h.start, h.stop, List.forall_mem_singleton.mpr h.short, hstops, ?_⟩
  have hscans := scansAs_nil.lexeme h.starts halone
  rwa [List.append_nil] at hscans

/-- It stands together with what stands behind it. -/
theorem Finds.standsIn_cons {core : List Lexeme} {u : Lexeme} {gap' a behind : List Char}
    (h : Finds offset pending cs t ts gap own rest still)
    (hslice : StandsIn t.stop rest (u :: core) gap' a behind) :
    StandsIn offset cs (t :: u :: core) gap (own ++ (gap' ++ a)) behind := by
  have halone : lexeme? t.start (own ++ (gap' ++ a)) = some (t.kind, own.length) := by
    refine lexeme?_of_append hslice.stops (List.append_ne_nil_of_left_ne_nil h.ne_nil _) ?_ ?_
    · rw [List.append_assoc, List.append_assoc, ← hslice.text]
      exact h.lexeme
    · simp only [List.length_append]
      omega
  refine ⟨?_, h.passed, ?_, h.start, ?_, ?_, hslice.stops,
    (hslice.scans.gap hslice.passed hslice.starts).lexeme h.starts halone⟩
  · rw [h.text, hslice.text]
    simp only [List.append_assoc]
  · obtain ⟨c, more, hown, hc⟩ := h.starts
    exact ⟨c, more ++ (gap' ++ a), by rw [hown]; rfl, hc⟩
  · have hstop : stopOf (t :: u :: core) = stopOf (u :: core) := by
      simp [stopOf, List.getLast?_cons_cons]
    have hstart : startOf (t :: u :: core) = t.start := rfl
    rw [hstop, hslice.stop, hslice.start, h.stop, hstart]
    simp only [List.length_append]
    omega
  · refine List.forall_mem_cons.mpr ⟨fun s hs => ?_, fun v hv s hs => ?_⟩
    · have := h.short s hs
      simp only [List.length_append]
      omega
    · have := hslice.short v hv s hs
      simp only [List.length_append]
      omega

end

/-- What stands from the start of a lexeme to the stop of another one has the lexemes between them. -/
theorem exists_slice_of_scanFrom {offset : Nat} {pending : List String} {fresh : Bool} {cs : List Char}
    {core ts : List Lexeme} (h : scanFrom offset pending fresh cs = some (core ++ ts))
    (hcore : core ≠ []) (hline : ∀ t ∈ core, t.kind ≠ .lineEnd)
    (hts : ∀ t ∈ ts.head?, endsExpression t.kind) :
    ∃ gap a behind, StandsIn offset cs core gap a behind := by
  induction core generalizing offset pending fresh cs with
  | nil => exact absurd rfl hcore
  | cons t core ih =>
    obtain ⟨hfirst, hline⟩ := List.forall_mem_cons.mp hline
    obtain ⟨gap, own, rest, still, hfinds⟩ | ⟨hend, -⟩ := exists_first_of_scanFrom h
    · cases core with
      | nil => exact ⟨gap, own, rest, hfinds.standsIn (stops_of_scanFrom hfinds.scan hts)⟩
      | cons u core =>
        obtain ⟨gap', a, behind, hslice⟩ := ih hfinds.scan (List.cons_ne_nil u core) hline
        exact ⟨gap, _, behind, hfinds.standsIn_cons hslice⟩
    · exact absurd hend hfirst

theorem Finds.own_eq {offset : Nat} {pending still : List String} {cs gap own rest : List Char} {t : Lexeme}
    {ts : List Lexeme} {w : String} (h : Finds offset pending cs t ts gap own rest still)
    (hkind : t.kind = .symbol w) : own = w.toList := by
  obtain ⟨hleading, hlength⟩ := symbol_of_lexeme? (hkind ▸ h.lexeme)
  have hsame : w.toList.length = own.length := String.length_toList.trans hlength.symm
  exact ((List.prefix_of_prefix_length_le hleading (List.prefix_append own rest)
    (Nat.le_of_eq hsame)).eq_of_length hsame).symm

/-- Between an opening and a closing parenthesis stands what is between the two characters. -/
theorem exists_slice_of_parentheses {cs : List Char} {a inside b : List Lexeme} {opening closing : Lexeme}
    (h : scan cs = some (a ++ opening :: inside ++ closing :: b))
    (hopening : opening.kind = .symbol "(") (hclosing : closing.kind = .symbol ")") :
    ∃ inner, slice cs opening.start closing.stop = '(' :: inner ++ [')'] := by
  have hnoline {w : String} {t : Lexeme} (hkind : t.kind = .symbol w) : t.kind ≠ .lineEnd := by
    rw [hkind]
    nofun
  rw [List.append_assoc] at h
  obtain ⟨front, rest, still, fresh, rfl, -, hscan⟩ := exists_rest_of_scanFrom h
  obtain ⟨gap, own, rest, still, hfinds⟩ | ⟨hend, -⟩ := exists_first_of_scanFrom hscan
  · obtain rfl := hfinds.own_eq hopening
    obtain ⟨front', rest', still', fresh', rfl, -, hscan'⟩ := exists_rest_of_scanFrom hfinds.scan
    obtain ⟨gap', own', rest', still', hfinds'⟩ | ⟨hend, -⟩ := exists_first_of_scanFrom hscan'
    · obtain rfl := hfinds'.own_eq hclosing
      refine ⟨front' ++ gap', ?_⟩
      rw [hfinds.text, hfinds'.text]
      have hstart : opening.start = (front ++ gap).length := by
        rw [hfinds.start, List.length_append]
        omega
      have hstop : closing.stop - opening.start = ('(' :: (front' ++ gap') ++ [')']).length := by
        rw [hfinds'.stop, hfinds'.start, hfinds.stop]
        simp
        omega
      unfold slice
      have hsame : ("(".toList ++ (front' ++ (gap' ++ (")".toList ++ rest')))) =
          '(' :: (front' ++ gap') ++ [')'] ++ rest' := by simp
      rw [hstop, hstart, ← List.append_assoc, List.drop_left, hsame, List.take_left]
    · exact absurd hend (hnoline hclosing)
  · exact absurd hend (hnoline hopening)

/-- Put between parentheses, such a text has the lexemes between two of its own. -/
theorem ScansAs.scan_grouped {a : List Char} {ts : List Lexeme} (h : ScansAs a ts)
    (hown : nestAll? [] ts = some []) (hroom : (nestAll? [")"] ts).isSome) :
    ∃ us closing ending, Alike us ts ∧ closing.kind = .symbol ")" ∧ ending.kind = .lineEnd ∧
      scan (grouped (String.ofList a)) = some (⟨.symbol "(", 0, 1⟩ :: us ++ [closing, ending]) := by
  obtain ⟨us, halike, hscan⟩ := h 1 [] [] [")"] [')'] nofun hown hroom (stops_closing (by decide) [])
  have hend (offset : Nat) : scanFrom offset [")"] false [')'] =
      some [⟨.symbol ")", offset, offset + 1⟩, ⟨.lineEnd, offset + 1, offset + 1⟩] := by
    have hlexeme : lexeme? offset [')'] = some (.symbol ")", 1) := rfl
    have hnest : nest? [")"] (.symbol ")") = some [] := rfl
    rw [scanFrom_lexeme (by decide) hlexeme hnest, List.drop_nil, scanFrom]
    rfl
  refine ⟨us, ⟨.symbol ")", 1 + a.length, 1 + a.length + 1⟩,
    ⟨.lineEnd, 1 + a.length + 1, 1 + a.length + 1⟩, halike, rfl, rfl, ?_⟩
  unfold grouped
  rw [String.toList_ofList, List.cons_append, scan_cons]
  exact (congrArg _ (hscan.trans (congrArg _ (hend _)))).trans rfl

end ViewTree.Embedded
