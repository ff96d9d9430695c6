import ViewTree.Proofs.Printing.Atoms

/-!
Operators on lexemes whose kinds are known. Main statements: operands at least as tight as the operator asks
for are read with it as its term (`readsAt_binary`, `readsAt_compare`, `readsAt_bool`).
-/
namespace ViewTree.Embedded
open Reader Grammar

section
variable {l : Level} {kinds ks ls : List LexemeKind} {y z : Term}

theorem readsAt_signed {op : UnaryOp} (hop : op ≠ .not) (h : ReadsAt 15 kinds y) :
    ReadsAt 15 (.symbol op.sign :: kinds) (.mk 0 0 (.unary op y)) := by
  refine ⟨⟨_, _, rfl, by cases op <;> first | decide | exact absurd rfl hop⟩, nofun, rfl,
    fun inner depth hdepth => (readIn_of_none rfl).mpr ?_⟩
  have hoperand := h.factor (i := inner) (Nat.le_of_succ_le_succ hdepth)
  refine consumes_here fun start => consumes_peek_plain rfl ?_
  cases op with
  | not => exact absurd rfl hop
  | negative | positive | invert =>
    exact consumes_next fun _ _ => hoperand.bind_nil fun x hx =>
      consumes_close (by rw [Form.unplaced, hx]) start

theorem readsAt_not (h : ReadsAt 7 kinds y) :
    ReadsAt 7 (.keyword "not" :: kinds) (.mk 0 0 (.unary .not y)) := by
  refine ⟨⟨_, _, rfl, by decide⟩, nofun, rfl, fun inner depth hdepth => (readIn_of_none rfl).mpr ?_⟩
  refine consumes_here fun start => consumes_when rfl ?_
  exact (h.inversion hdepth).bind_nil fun x hx => consumes_close (by rw [Form.unplaced, hx]) start

theorem readsAt_await (h : ReadsAt 18 kinds y) :
    ReadsAt 17 (.keyword "await" :: kinds) (.mk 0 0 (.await y)) := by
  refine ⟨⟨_, _, rfl, by decide⟩, nofun, rfl, fun inner depth hdepth => (readIn_of_none rfl).mpr ?_⟩
  refine consumes_here fun start => consumes_when rfl ?_
  exact ((h.primary (Nat.le_of_succ_le hdepth)).mono fun k hk => Nat.lt_succ_of_lt hk).bind_nil fun x hx =>
    consumes_close (by rw [Form.unplaced, hx]) start

theorem getD_lookup {P : Level → Prop} (hzero : P 0) {table : List (String × Level)}
    (h : ∀ entry ∈ table, P entry.2) (s : String) : P ((table.lookup s).getD 0) := by
  induction table with
  | nil => exact hzero
  | cons entry table ih =>
    obtain ⟨hentry, htable⟩ := List.forall_mem_cons.mp h
    rw [List.lookup_cons]
    split
    · exact hentry
    · exact ih htable

/-- No lexeme goes on with a factor alone. -/
theorem under_factor {k : LexemeKind} (h : Under 16 k) : Under 15 k := by
  have hne : rank k ≠ 15 := by
    cases k with
    | symbol s => exact getD_lookup (P := (· ≠ 15)) (by decide) (by decide) s
    | keyword word => exact getD_lookup (P := (· ≠ 15)) (by decide) (by decide) word
    | string => exact (by decide : (19 : Nat) ≠ 15)
    | _ => exact (by decide : (0 : Nat) ≠ 15)
  exact Nat.lt_of_le_of_ne (Nat.le_of_lt_succ h) hne

theorem readsAt_power (h : ReadsAt 17 ks y) (hexponent : ReadsAt 15 ls z) :
    ReadsAt 16 (ks ++ .symbol "**" :: ls) (.mk 0 0 (.binary .power y z)) := by
  refine h.followed (by decide) (by decide) rfl fun inner depth hks hls => (readIn_of_none rfl).mpr ?_
  show Consumes _ _ ((grammarAt inner depth).1.power (grammarAt inner (depth + 1)).2) _ _
  rw [power_eq]
  refine consumes_here fun start => ?_
  refine (h.consumes (i := inner) (d := depth) (by omega)).bind (begins_under (by decide)) fun x hx => ?_
  refine consumes_when rfl ?_
  refine ((hexponent.factor (by omega)).mono fun k hk => under_factor hk).bind_nil fun v hv =>
    consumes_close (by rw [Form.unplaced, hx, hv]) start

theorem loopAt_level (inner : FieldReader) (depth : Nat) {op : BinaryOp} (hop : op ≠ .power) :
    loopAt inner depth op.level = some (readerAt inner depth (op.level + 1),
      binaryStep (readerAt inner depth (op.level + 1)) (levelOp? op.level)) := by
  cases op <;> first | rfl | exact absurd rfl hop

theorem readsAt_binary {op : BinaryOp} (hop : op ≠ .power) (h : ReadsAt op.level ks y)
    (hright : ReadsAt (op.level + 1) ls z) :
    ReadsAt op.level (ks ++ .symbol op.sign :: ls) (.mk 0 0 (.binary op y z)) := by
  have hsign := levelOp?_sign op hop
  have hrank := rank_of_levelOp? hsign
  have hunder : Under 20 (.symbol op.sign) := by cases op <;> decide
  refine h.followed (Nat.le_refl _) hunder rfl fun inner depth hks hls => ?_
  have hread := h.reads inner depth (Nat.le_succ_of_le hks)
  rw [readIn_of_loop (loopAt_level inner depth hop)] at hread ⊢
  refine hread.more (Nat.lt_succ_of_le (Nat.le_of_eq hrank)) fun start s hs => ?_
  refine consumes_peek_plain rfl ?_
  rw [Option.bind_some, hsign]
  refine consumes_next fun _ _ => ?_
  refine (hright.consumes (i := inner) (d := depth) (by omega)).bind_nil fun x hx => ?_
  exact (consumes_close (by rw [Form.unplaced, hs, hx]) start).bind_nil fun v hv =>
    consumes_pure (congrArg some hv)

def CompareOp.lexemes : CompareOp → List LexemeKind
  | .isNot => [.keyword "is", .keyword "not"]
  | .notIn => [.keyword "not", .keyword "in"]
  | .is => [.keyword "is"]
  | .isIn => [.keyword "in"]
  | op => [.symbol op.sign]

theorem consumes_compareOp (op : CompareOp) :
    Consumes id (· ≠ .keyword "not") compareOp op.lexemes (some op) := by
  cases op <;> refine consumes_peek_plain rfl ?_
  case notIn => exact consumes_next fun _ _ => consumes_keyword (consumes_pure rfl)
  case isNot => exact consumes_next fun _ _ => consumes_accept rfl (consumes_pure rfl)
  case is => exact consumes_next fun _ _ => consumes_accept_other (fun _ hk => hk) (consumes_pure rfl)
  all_goals exact consumes_next fun _ _ => consumes_pure rfl

end

/-- The lexemes are an operator and what is read behind it. -/
inductive ComparedAt : List LexemeKind → CompareOp × Term → Prop where
  | mk {op ks y} (h : ReadsAt 9 ks y) : ComparedAt (op.lexemes ++ ks) (op, y)

section
variable {l : Level} {kinds ks ls : List LexemeKind} {y z : Term} {kss : List (List LexemeKind)}

theorem CompareOp.lexemes_cases (op : CompareOp) :
    ∃ k ks, op.lexemes = k :: ks ∧ Under 9 k := by
  cases op <;> exact ⟨_, _, rfl, by decide⟩

theorem ComparedAt.ne_nil {compared : CompareOp × Term} (h : ComparedAt ks compared) : ks ≠ [] := by
  obtain @⟨op, ks, y, h⟩ := h
  simp [h.ne_nil]

theorem ComparedAt.begins {compared : CompareOp × Term} (h : ComparedAt ks compared) {B : LexemeKind → Prop} :
    Begins B ks (Under 9) := by
  obtain @⟨op, ks, y, h⟩ := h
  obtain ⟨k, ls, hlexemes, hk⟩ := op.lexemes_cases
  rw [hlexemes]
  exact begins_under hk

theorem readsAt_compare {others : List (CompareOp × Term)} (h : ReadsAt 9 ks y)
    (hothers : List.Forall₂ ComparedAt kss others) (hsome : others ≠ []) :
    ReadsAt 8 (ks ++ kss.flatten) (.mk 0 0 (.compare y (others.map (·.1)) (others.map (·.2)))) := by
  obtain ⟨k, ms, hkinds, hunder⟩ : ∃ k ms, kss.flatten = k :: ms ∧ Under 9 k := by
    cases hothers with
    | nil => exact absurd rfl hsome
    | cons hfirst hothers =>
      obtain @⟨op, ks, y, h⟩ := hfirst
      obtain ⟨k, ls, hlexemes, hk⟩ := op.lexemes_cases
      exact ⟨k, _, by rw [List.flatten_cons, hlexemes]; rfl, hk⟩
  rw [hkinds]
  refine h.followed (by decide) (Nat.lt_trans hunder (by decide)) rfl fun inner depth hks hls =>
    (readIn_of_none rfl).mpr ?_
  have hlength : kss.flatten.length ≤ depth + 1 := by
    rw [hkinds, List.length_cons]
    omega
  rw [← hkinds]
  refine consumes_here fun start => ?_
  -- what is compared first ends at the operator, which is looser than the operands
  have hbehind : Begins (Under 8) kss.flatten (Under 9) := by
    rw [hkinds]
    exact begins_under hunder
  refine (h.consumes (i := inner) (d := depth) (by omega)).bind hbehind fun x hx => ?_
  have hitems : ∀ ks ∈ kss, ks.length ≤ depth + 1 := fun ks hks =>
    Nat.le_trans (List.sublist_flatten_of_mem hks).length_le hlength
  refine (consumes_many (C := Under 9) (f := fun (op, x) => (op, Term.unplaced x)) (l := others)
    (under_of_le (by decide)) ?_ (((List.forall₂_and_left _ _).mpr ⟨hitems, hothers⟩).imp ?_)).bind_nil
    fun more hmore => ?_
  · exact consumes_compareOp_none.bind_nil fun op? hop => by
      obtain rfl : op? = none := hop
      exact consumes_pure rfl
  · rintro _ compared ⟨hlength, hcompared⟩
    refine ⟨hcompared.ne_nil, hcompared.begins, ?_⟩
    obtain @⟨op, ls, z, hz⟩ := hcompared
    rw [List.length_append] at hlength
    refine (consumes_compareOp op).bind (hz.begins_ne (by decide)) fun op? hop => ?_
    obtain rfl : op? = some op := hop
    exact (hz.consumes (i := inner) (d := depth) (by omega)).bind_nil fun v hv =>
      consumes_pure (by simp [hv])
  · subst hmore
    cases more with
    | nil => exact absurd rfl hsome
    | cons one more =>
      refine consumes_ite_neg Bool.false_ne_true (consumes_close ?_ start)
      simp [Form.unplaced, hx, Function.comp_def]

theorem consumes_boolLoop {operand : Reader Term} {word : String} {op : BoolOp} {n m : Level} {ys : List Term}
    (hword : rank (.keyword word) = m) (hmn : m < n)
    (h : Consumes Term.unplaced (Under n) operand ks y)
    (hothers : List.Forall₂ (Consumes Term.unplaced (Under n) operand) kss ys) (hsome : ys ≠ []) :
    Consumes Term.unplaced (Under m) (boolLoop operand word op) (ks ++ led (.keyword word) kss)
      (.mk 0 0 (.bool op (y :: ys))) := by
  have hunder : Under n (.keyword word) := Nat.lt_of_le_of_lt (Nat.le_of_eq hword) hmn
  have hlooser := under_of_le (Nat.le_of_lt hmn)
  refine consumes_here fun start => h.bind ?_ fun x hx => ?_
  · cases kss with
    | nil => exact hlooser
    | cons => exact begins_under hunder
  refine (consumes_many (C := Under n) (f := Term.unplaced) (l := ys) hlooser ?_ ?_).bind_nil
    fun more hmore => ?_
  · exact consumes_accept_other (fun k hk => ne_of_rank_lt hk (Nat.le_of_eq hword.symm)) (consumes_pure rfl)
  · rw [List.forall₂_map_left_iff]
    refine hothers.imp fun ks y hy => ⟨List.cons_ne_nil _ _, begins_under hunder, ?_⟩
    exact consumes_accept rfl (hy.bind_nil fun v hv => consumes_pure (congrArg some hv))
  · subst hmore
    cases more with
    | nil => exact absurd rfl hsome
    | cons one more =>
      exact consumes_ite_neg Bool.false_ne_true (consumes_close (by simp [Form.unplaced, hx]) start)

theorem readsAt_bool {op : BoolOp} {l : List Term} (h : ReadsAt (op.level + 1) ks y)
    (hothers : List.Forall₂ (ReadsAt (op.level + 1)) kss l) (hsome : l ≠ []) :
    ReadsAt op.level (ks ++ led (.keyword op.sign) kss) (.mk 0 0 (.bool op (y :: l))) := by
  obtain ⟨ls, kss', rfl⟩ : ∃ ls kss', kss = ls :: kss' := by
    cases hothers with
    | nil => exact absurd rfl hsome
    | cons => exact ⟨_, _, rfl⟩
  rw [led_cons]
  refine h.followed (Nat.le_succ _) (by cases op <;> decide) rfl fun inner depth hks hls => ?_
  rw [← led_cons]
  have hhead := h.consumes (i := inner) (d := depth) (by omega)
  have hitems := forall₂_of_led (.keyword op.sign) (d := depth + 1) hothers
    (by rw [led_cons, List.length_cons]; omega)
    fun ks y hlength hy => hy.consumes (i := inner) (d := depth) (by omega)
  cases op with
  | and => exact (readIn_of_none rfl).mpr (consumes_boolLoop rfl (by decide) hhead hitems hsome)
  | or => exact (readIn_of_none rfl).mpr (consumes_boolLoop rfl (by decide) hhead hitems hsome)

/-- A choice between two values. -/
theorem readsAt_choice {ms : List LexemeKind} {w : Term} (h : ReadsAt 5 ks y) (htest : ReadsAt 5 ls z)
    (hother : ReadsAt 4 ms w) :
    ReadsAt 4 (ks ++ .keyword "if" :: (ls ++ .keyword "else" :: ms)) (.mk 0 0 (.choice z y w)) := by
  refine h.followed (by decide) (by decide) rfl fun inner depth hks hls => (readIn_of_none rfl).mpr ?_
  rw [List.length_append, List.length_cons] at hls
  have hlambda : Begins (Under 4) (ks ++ .keyword "if" :: (ls ++ .keyword "else" :: ms))
      (· ≠ .keyword "lambda") := (h.begins_ne (by decide)).append h.ne_nil
  refine consumes_peek hlambda fun k hk => consumes_ite_neg (fun hsame => hk (Option.some.inj hsame)) ?_
  refine consumes_here fun start => ?_
  refine (h.disjunction (i := inner) (by omega)).bind (begins_under (by decide)) fun x hx => ?_
  refine consumes_when rfl ?_
  refine (htest.disjunction (by omega)).bind (begins_under (by decide)) fun t ht => consumes_keyword ?_
  exact (hother.expression (by omega)).bind_nil fun v hv =>
    consumes_close (by simp [Form.unplaced, hx, ht, hv]) start

end
end ViewTree.Embedded
