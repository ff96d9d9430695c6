import ViewTree.Proofs.Printing.Groups

/-!
Comprehensions on lexemes whose kinds are known. Main statements: `readsAt_generator`, `readsAt_listOf`,
`readsAt_setOf` and `readsAt_dictOf`.
-/
namespace ViewTree.Embedded
open Reader Grammar

/-- The lexemes are read as something to assign to. -/
inductive TargetItemAt : List LexemeKind → Term → Prop where
  | plain {ks x y} (h : ReadsAt 18 ks x) (htarget : target? x = some y) : TargetItemAt ks y
  | starred {ks x y} (h : ReadsAt 18 ks x) (htarget : target? x = some y) :
    TargetItemAt (.symbol "*" :: ks) (.mk 0 0 (.starred y))

/-- The lexemes are read as what a comprehension assigns to. -/
inductive TargetAt : List LexemeKind → Term → Prop where
  | one {ks y} (h : TargetItemAt ks y) : TargetAt ks y
  | tuple {ks kss y ys} (hfirst : TargetItemAt ks y) (h : List.Forall₂ TargetItemAt kss ys) :
    TargetAt (tupleKinds (ks :: kss)) (.mk 0 0 (.tuple (y :: ys)))

/-- The lexemes are read as one `for` of a comprehension. -/
inductive ClauseAt : List LexemeKind → Clause → Prop where
  | mk {isAsync ks target ls source mss conditions} (htarget : TargetAt ks target)
      (hsource : ReadsAt 5 ls source) (hconditions : List.Forall₂ (ReadsAt 5) mss conditions) :
    ClauseAt ((if isAsync then [.keyword "async"] else []) ++ .keyword "for" :: ks ++
      .keyword "in" :: ls ++ led (.keyword "if") mss) (.mk isAsync target source conditions)

section
variable {β δ : Type} {f : β → δ} {z : δ} {inner : FieldReader} {depth : Nat} {kinds : List LexemeKind}
  {y : Term} {B : LexemeKind → Prop}

theorem TargetItemAt.consumes (h : TargetItemAt kinds y) (hdepth : kinds.length ≤ depth) :
    Consumes Term.unplaced (Under 18) (target (grammarAt inner depth).2) kinds y := by
  have hpass {x : Term} {s y : Term} (hx : x.unplaced = s) (hs : target? s = some y) :
      ∃ t, target? x = some t ∧ t.unplaced = y := by
    rw [← hx, target?_unplaced] at hs
    exact Option.map_eq_some_iff.mp hs
  refine consumes_here fun start => ?_
  cases h with
  | plain h htarget =>
    refine consumes_accept_other (h.begins_ne (by decide)) ((h.primary hdepth).bind_nil fun x hx => ?_)
    obtain ⟨t, ht, hsame⟩ := hpass hx htarget
    rw [ht]
    exact consumes_pure hsame
  | starred h htarget =>
    refine consumes_accept rfl ((h.primary (Nat.le_of_succ_le hdepth)).bind_nil fun x hx => ?_)
    obtain ⟨t, ht, hsame⟩ := hpass hx htarget
    rw [ht]
    exact consumes_close (by rw [Form.unplaced, hsame]) start

theorem TargetItemAt.begins (h : TargetItemAt kinds y) {P : LexemeKind → Prop} (hstar : P (.symbol "*"))
    (hP : ∀ k, 18 ≤ opens k → P k) : Begins B kinds P := by
  cases h with
  | plain h => exact h.begins hP
  | starred h => exact begins_plain rfl hstar

theorem TargetAt.consumes (h : TargetAt kinds y) (hdepth : kinds.length ≤ depth) :
    Consumes Term.unplaced (· = .keyword "in") (itemsTerm (target (grammarAt inner depth).2)) kinds y := by
  cases h with
  | one h =>
    refine consumes_itemsTerm_one ?_ ((h.consumes hdepth).mono ?_)
    all_goals
      rintro _ rfl
      decide
  | @tuple ks kss y ys hfirst h =>
    rw [tupleKinds, List.length_append] at hdepth
    have hlength := length_led_le kss
    refine consumes_itemsTerm_tuple ?_ ?_ ?_ (by decide) (hfirst.consumes (by omega))
      (forall₂_of_led (.symbol ",") h (by omega) fun _ _ hlength hitem =>
        ⟨hitem.consumes (Nat.le_of_lt hlength), hitem.begins rfl fun k hk =>
          endsItems_of_opens (Nat.le_trans (by decide) hk)⟩)
    all_goals
      rintro _ rfl
      decide

/-- The conditions of a loop. -/
theorem consumes_conditions {mss : List (List LexemeKind)} {ys : List Term}
    (h : List.Forall₂ (ReadsAt 5) mss ys) (hdepth : (led (.keyword "if") mss).length ≤ depth) :
    Consumes (List.map Term.unplaced) (Under 4) (many do
      if ← accept (.keyword "if") then pure (some (← (grammarAt inner depth).1.disjunction))
      else pure none) (led (.keyword "if") mss) ys := by
  refine consumes_many (C := Under 5) (under_of_le (by decide)) ?_ ?_
  · exact consumes_unless (fun k hk => ne_of_rank_lt hk (by decide)) (consumes_pure rfl)
  · rw [List.forall₂_map_left_iff]
    refine forall₂_of_led (.keyword "if") h hdepth fun ms t hlength ht =>
      ⟨List.cons_ne_nil _ _, begins_under (by decide), ?_⟩
    exact consumes_when rfl ((ht.disjunction (by omega)).bind_nil fun x hx =>
      consumes_pure (by simp [hx]))

theorem ClauseAt.consumes {c : Clause} (h : ClauseAt kinds c) (hdepth : kinds.length ≤ depth) :
    Consumes (Option.map Clause.unplaced) (Under 4)
      ((grammarAt inner depth).1.clause (grammarAt inner depth).2) kinds (some c) := by
  obtain @⟨isAsync, ks, target, ls, source, mss, conditions, htarget, hsource, hconditions⟩ := h
  simp only [List.length_append, List.length_cons] at hdepth
  have hbehind : Consumes (Option.map Clause.unplaced) (Under 4) (do
      keyword "for"
      let found ← itemsTerm (Grammar.target (grammarAt inner depth).2)
      keyword "in"
      let source ← (grammarAt inner depth).1.disjunction
      let conditions ← many do
        if ← accept (.keyword "if") then pure (some (← (grammarAt inner depth).1.disjunction))
        else pure none
      pure (some (.mk isAsync found source conditions)))
      (.keyword "for" :: (ks ++ .keyword "in" :: (ls ++ led (.keyword "if") mss)))
      (some (.mk isAsync target source conditions)) := by
    refine consumes_keyword ((htarget.consumes (by omega)).bind (begins_plain rfl rfl) fun found hfound => ?_)
    refine consumes_keyword ((hsource.disjunction (by omega)).bind ?_ fun x hx => ?_)
    · have hif : Begins (Under 4) (led (.keyword "if") mss ++ []) (Under 5) :=
        begins_led rfl (by decide) (under_of_le (by decide))
      rwa [List.append_nil] at hif
    · refine (consumes_conditions hconditions (by omega)).bind_nil fun tests htests => consumes_pure ?_
      rw [Option.map_some, Clause.unplaced, Term.allUnplaced_eq, hfound, hx, htests]
  have hkinds : (if isAsync then [.keyword "async"] else []) ++ .keyword "for" :: ks ++ .keyword "in" :: ls ++
      led (.keyword "if") mss = (if isAsync then [.keyword "async"] else []) ++
        (.keyword "for" :: (ks ++ .keyword "in" :: (ls ++ led (.keyword "if") mss))) := by simp
  rw [hkinds]
  cases isAsync with
  | true =>
    refine consumes_accept rfl (consumes_peek (begins_plain (P := Any) rfl trivial) fun _ _ => ?_)
    exact consumes_ite_pos rfl hbehind
  | false =>
    refine consumes_accept_other (begins_plain rfl (by decide)) ?_
    refine consumes_peek (begins_plain (P := (· = .keyword "for")) rfl rfl) ?_
    rintro _ rfl
    exact consumes_ite_pos (by simp) hbehind

theorem ClauseAt.ne_nil {c : Clause} (h : ClauseAt kinds c) : kinds ≠ [] := by
  obtain @⟨isAsync, _⟩ := h
  cases isAsync <;> exact List.cons_ne_nil _ _

theorem ClauseAt.begins {c : Clause} (h : ClauseAt kinds c) : Begins B kinds (Under 3) := by
  obtain @⟨isAsync, _⟩ := h
  cases isAsync <;> exact begins_under (by decide)

/-- The clauses of a comprehension. -/
theorem consumes_clauses {kss : List (List LexemeKind)} {cs : List Clause}
    (h : List.Forall₂ ClauseAt kss cs) (hdepth : kss.flatten.length ≤ depth) :
    Consumes (List.map Clause.unplaced) (Under 2)
      ((grammarAt inner depth).1.clauses (grammarAt inner depth).2) kss.flatten cs := by
  have hlengths (ks : List LexemeKind) (hks : ks ∈ kss) : ks.length ≤ depth :=
    Nat.le_trans (List.sublist_flatten_of_mem hks).length_le hdepth
  refine consumes_many (C := Under 4) (under_of_le (by decide)) ?_
    (((List.forall₂_and_left _ _).mpr ⟨hlengths, h⟩).imp fun ks c ⟨hlength, hc⟩ =>
      ⟨hc.ne_nil, hc.begins.imp (under_of_le (by decide)), hc.consumes hlength⟩)
  refine consumes_accept_other (fun k hk => ne_of_rank_lt hk (by decide)) ?_
  refine consumes_peek (fun _ hk => hk) fun k hk => ?_
  have hfor : k ≠ .keyword "for" := ne_of_rank_lt hk (by decide)
  rw [if_neg (by simpa using hfor)]
  exact consumes_pure rfl

theorem consumes_some_clauses {first : Term} {k : List Clause → Reader β} {kss : List (List LexemeKind)}
    {cs : List Clause} {ks : List LexemeKind} (hfirst : first.isStarred = false)
    (h : List.Forall₂ ClauseAt kss cs) (hdepth : kss.flatten.length ≤ depth) (hnext : Begins B ks (Under 2))
    (hk : ∀ loops, loops.map Clause.unplaced = cs → Consumes f B (k loops) ks z) :
    Consumes f B (if first.isStarred then (do let loops ← pure []; k loops)
      else (do let loops ← (grammarAt inner depth).1.clauses (grammarAt inner depth).2; k loops))
      (kss.flatten ++ ks) z := by
  rw [hfirst, if_neg Bool.false_ne_true]
  exact (consumes_clauses h hdepth).bind hnext hk

theorem begins_clauses {kss : List (List LexemeKind)} {cs : List Clause} {l : List LexemeKind}
    (h : List.Forall₂ ClauseAt kss cs) (hsome : cs ≠ []) : Begins B (kss.flatten ++ l) (Under 3) := by
  cases h with
  | nil => exact absurd rfl hsome
  | cons hc =>
    rw [List.flatten_cons, List.append_assoc]
    exact hc.begins.append hc.ne_nil

theorem isEmpty_of_unplaced {loops cs : List Clause} (h : loops.map Clause.unplaced = cs) (hsome : cs ≠ []) :
    (!loops.isEmpty) = true := by
  subst h
  cases loops with
  | nil => exact absurd rfl hsome
  | cons => rfl

variable {ks : List LexemeKind} {kss : List (List LexemeKind)} {cs : List Clause}
  (h : ReadsAt 4 ks y) (hclauses : List.Forall₂ ClauseAt kss cs) (hsome : cs ≠ [])
include h hclauses hsome

theorem readsAt_listOf :
    ReadsAt 18 (.symbol "[" :: (ks ++ kss.flatten) ++ [.symbol "]"]) (.mk 0 0 (.listOf y cs)) := by
  refine readsAt_of_brackets (by decide) rfl fun inner depth start hdepth => ?_
  rw [List.length_append] at hdepth
  rw [List.append_assoc]
  have hnext := (begins_clauses (B := Under 19) (l := [.symbol "]"]) hclauses hsome).imp
    (under_of_le (m := 4) (by decide))
  unfold atomFrom bracketed
  refine consumes_unless ((h.begins_ne (by decide)).append h.ne_nil) ?_
  refine ((ItemAt.term h).consumes_item (by omega)).bind hnext fun first hfirst => ?_
  refine consumes_some_clauses ?_ hclauses (by omega) (begins_under (by decide)) fun loops hloops => ?_
  · rw [← first.isStarred_unplaced, hfirst, h.unstarred]
  refine consumes_ite_pos (isEmpty_of_unplaced hloops hsome) (consumes_symbol (consumes_close ?_ start))
  rw [Form.unplaced, Clause.allUnplaced_eq, hfirst, hloops]

theorem readsAt_generator :
    ReadsAt 18 (.symbol "(" :: (ks ++ kss.flatten) ++ [.symbol ")"]) (.mk 0 0 (.generator y cs)) := by
  refine readsAt_of_brackets (by decide) rfl fun inner depth start hdepth => ?_
  rw [List.length_append] at hdepth
  rw [List.append_assoc]
  have hnext := (begins_clauses (B := Under 19) (l := [.symbol ")"]) hclauses hsome).imp
    (under_of_le (m := 4) (by decide))
  unfold atomFrom parenthesized
  refine consumes_unless ((h.begins_ne (by decide)).append h.ne_nil) ?_
  refine consumes_peek ((h.begins_ne (k := .keyword "yield") (by decide)).append h.ne_nil) fun k hk => ?_
  refine consumes_ite_neg (fun hsame => hk (Option.some.inj hsame)) ?_
  refine ((ItemAt.term h).consumes_item (by omega)).bind hnext fun first hfirst => ?_
  refine consumes_some_clauses ?_ hclauses (by omega) (begins_under (by decide)) fun loops hloops => ?_
  · rw [← first.isStarred_unplaced, hfirst, h.unstarred]
  refine consumes_ite_pos (isEmpty_of_unplaced hloops hsome) (consumes_symbol (consumes_close ?_ start))
  rw [Form.unplaced, Clause.allUnplaced_eq, hfirst, hloops]

theorem readsAt_setOf :
    ReadsAt 18 (.symbol "\x7b" :: (ks ++ kss.flatten) ++ [.symbol "\x7d"]) (.mk 0 0 (.setOf y cs)) := by
  refine readsAt_of_brackets (by decide) rfl fun inner depth start hdepth => ?_
  rw [List.length_append] at hdepth
  rw [List.append_assoc]
  have hnext := begins_clauses (B := Under 19) (l := [.symbol "\x7d"]) hclauses hsome
  unfold atomFrom braced
  refine consumes_unless ((h.begins_ne (by decide)).append h.ne_nil) ?_
  refine consumes_peek ((h.begins_ne (k := .symbol "**") (by decide)).append h.ne_nil) fun k hk => ?_
  refine consumes_ite_neg (fun hsame => hk (Option.some.inj hsame)) ?_
  refine h.consumes_namesNext (hnext.imp (under_of_le (by decide))) ?_
  refine ((ItemAt.term h).consumes_item (by omega)).bind (hnext.imp (under_of_le (by decide)))
    fun first hfirst => ?_
  refine consumes_accept_other (hnext.imp fun k hk => ne_of_rank_lt hk (by decide)) ?_
  rw [Bool.and_false]
  refine consumes_ite_neg Bool.false_ne_true ?_
  refine consumes_some_clauses ?_ hclauses (by omega) (begins_under (by decide)) fun loops hloops => ?_
  · rw [← first.isStarred_unplaced, hfirst, h.unstarred]
  refine consumes_ite_pos (isEmpty_of_unplaced hloops hsome) (consumes_symbol (consumes_close ?_ start))
  rw [Form.unplaced, Clause.allUnplaced_eq, hfirst, hloops]

theorem readsAt_dictOf {ls : List LexemeKind} {v : Term} (hvalue : ReadsAt 4 ls v) :
    ReadsAt 18 (.symbol "\x7b" :: (ks ++ .symbol ":" :: (ls ++ kss.flatten)) ++ [.symbol "\x7d"])
      (.mk 0 0 (.dictOf y v cs)) := by
  refine readsAt_of_brackets (by decide) rfl fun inner depth start hdepth => ?_
  rw [List.length_append, List.length_cons, List.length_append] at hdepth
  rw [List.append_assoc, List.cons_append, List.append_assoc]
  have hnext := begins_clauses (B := Under 19) (l := [.symbol "\x7d"]) hclauses hsome
  unfold atomFrom braced
  refine consumes_unless ((h.begins_ne (by decide)).append h.ne_nil) ?_
  refine consumes_peek ((h.begins_ne (k := .symbol "**") (by decide)).append h.ne_nil) fun k hk => ?_
  refine consumes_ite_neg (fun hsame => hk (Option.some.inj hsame)) ?_
  refine h.consumes_namesNext (begins_under (by decide)) ?_
  refine ((ItemAt.term h).consumes_item (by omega)).bind (begins_under (by decide)) fun first hfirst => ?_
  refine consumes_accept rfl (consumes_ite_pos ?_ ?_)
  · simp [← first.isStarred_unplaced, hfirst, h.unstarred]
  refine (hvalue.expression (by omega)).bind (hnext.imp (under_of_le (by decide))) fun value hvalue => ?_
  refine (consumes_clauses hclauses (by omega)).bind (begins_under (by decide)) fun loops hloops => ?_
  refine consumes_ite_pos (isEmpty_of_unplaced hloops hsome) (consumes_symbol (consumes_close ?_ start))
  rw [Form.unplaced, Clause.allUnplaced_eq, hfirst, hvalue, hloops]

end
end ViewTree.Embedded
