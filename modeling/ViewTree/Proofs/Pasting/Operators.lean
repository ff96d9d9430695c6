import ViewTree.Embedded.Expression
import ViewTree.Proofs.Pasting.Readers

/-!
Operators, lambdas and choices on the same lexemes elsewhere. Main statement: an expression is read
alike by grammars whose readers of smaller ones mirror each other (`mirrors_expressionOf`).
-/
namespace ViewTree.Embedded
open Reader

/-- Readers of terms that may end where an expression ends. -/
abbrev MirrorsTerm (r r' : Reader Term) : Prop := Mirrors true (fun _ => True) Term.unplaced r r'

/-- Grammars whose readers mirror each other. -/
structure MirrorsGrammar (g g' : Grammar) : Prop where
  expression : MirrorsTerm g.expression g'.expression
  inversion : MirrorsTerm g.inversion g'.inversion
  factor : MirrorsTerm g.factor g'.factor

theorem Heads.bind_eq {α : Type} {bare : Bool} {a b : Option LexemeKind} (h : Heads bare a b)
    {op? : LexemeKind → Option α}
    (hop : ∀ k op, op? k = some op → isPlain k ∧ ¬endsExpression k) : a.bind op? = b.bind op? := by
  have hnone {k : LexemeKind} (hk : isPlain k → endsExpression k) : op? k = none := by
    cases hopk : op? k with
    | none => rfl
    | some op => exact absurd (hk (hop k op hopk).1) (hop k op hopk).2
  have hstring (s : StringLiteral) : op? (.string s) = none := hnone nofun
  rcases h.cases with rfl | ⟨s, s', -, rfl, rfl⟩ | ⟨-, k, l, hk, hl, rfl, rfl⟩
  · rfl
  · exact (hstring s).trans (hstring s').symm
  · exact (hnone fun _ => hk).trans (hnone fun _ => hl).symm

section
variable {g g' : Grammar} {operand operand' : Reader Term}

theorem mirrors_binaryLoop (h : MirrorsTerm operand operand') {op? : LexemeKind → Option BinaryOp}
    (hop : ∀ k op, op? k = some op → isPlain k ∧ ¬endsExpression k) :
    MirrorsTerm (Grammar.binaryLoop operand op?) (Grammar.binaryLoop operand' op?) := by
  refine mirrors_here fun start start' => h.bind fun first first' hfirst => ?_
  refine mirrors_repeating (fun left left' hleft => mirrors_peek fun a b hab => ?_) hfirst
  rw [hab.bind_eq hop]
  cases b.bind op? with
  | none => exact mirrors_pure rfl rfl
  | some op =>
    refine mirrors_next.taking fun _ _ _ => h.bind fun right right' hright => ?_
    refine (mirrors_close ?_ start start').bind fun found found' hfound => mirrors_pure ?_ trivial
    · rw [Form.unplaced, Form.unplaced, hleft, hright]
    · exact congrArg some hfound

theorem mirrors_bitOr (h : MirrorsTerm g.factor g'.factor) : MirrorsTerm g.bitOr g'.bitOr := by
  have honly (text : String) (op : BinaryOp) (htext : ¬endsExpression (.symbol text)) :
      ∀ k found, Grammar.only text op k = some found → isPlain k ∧ ¬endsExpression k := by
    intro k found hfound
    unfold Grammar.only at hfound
    split at hfound
    · next hk => exact hk ▸ ⟨rfl, htext⟩
    · nomatch hfound
  refine mirrors_binaryLoop (mirrors_binaryLoop (mirrors_binaryLoop (mirrors_binaryLoop
    (mirrors_binaryLoop (mirrors_binaryLoop h ?_) ?_) ?_) (honly _ _ (by decide)))
    (honly _ _ (by decide))) (honly _ _ (by decide))
  · intro k op hop
    unfold Grammar.termOp? at hop
    split at hop
    all_goals first | exact ⟨rfl, by decide⟩ | nomatch hop
  · intro k op hop
    unfold Grammar.sumOp? at hop
    split at hop
    all_goals first | exact ⟨rfl, by decide⟩ | nomatch hop
  · intro k op hop
    unfold Grammar.shiftOp? at hop
    split at hop
    all_goals first | exact ⟨rfl, by decide⟩ | nomatch hop

theorem mirrors_compareOp :
    Mirrors true (· = none) id Grammar.compareOp Grammar.compareOp := by
  unfold Grammar.compareOp
  extract_lets take
  have htake (op : CompareOp) : Mirrors true (· = none) id (take op) (take op) :=
    mirrors_next.taking fun _ _ _ => mirrors_pure rfl trivial
  refine mirrors_peek fun a b hab => ?_
  rcases hab.cases with rfl | ⟨s, s', -, rfl, rfl⟩ | ⟨-, k, l, hk, hl, rfl, rfl⟩
  · split
    case h_8 =>
      exact mirrors_next.taking fun _ _ _ => (mirrors_keyword _).bind fun _ _ _ =>
        mirrors_pure rfl trivial
    case h_9 =>
      refine mirrors_next.taking fun _ _ _ => mirrors_accept rfl nofun ?_ ?_
      · exact mirrors_pure rfl trivial
      · exact mirrors_pure rfl trivial
    case h_10 => exact mirrors_pure rfl rfl
    all_goals exact htake _
  · exact mirrors_pure rfl rfl
  · rcases cases_of_endsExpression hk with rfl | rfl | rfl | rfl <;>
      rcases cases_of_endsExpression hl with rfl | rfl | rfl | rfl <;> exact mirrors_pure rfl rfl

theorem isEmpty_congr {α β : Type} {f : α → β} {xs ys : List α} (h : xs.map f = ys.map f) :
    xs.isEmpty = ys.isEmpty := by
  rw [← List.isEmpty_map, h, List.isEmpty_map]

def unplacedOperand (found : CompareOp × Term) : CompareOp × Term := (found.1, found.2.unplaced)

theorem mirrors_comparison (h : MirrorsTerm g.factor g'.factor) :
    MirrorsTerm g.comparison g'.comparison := by
  have hbitOr := mirrors_bitOr h
  refine mirrors_here fun start start' => hbitOr.bind fun first first' hfirst => ?_
  refine (mirrors_many (f := unplacedOperand) ?more).bind fun more more' hmore => ?_
  case more =>
    refine mirrors_compareOp.bind_id fun op? => ?_
    cases op? with
    | none => exact mirrors_pure rfl fun _ => rfl
    | some op =>
      refine hbitOr.bind fun value value' hvalue => mirrors_pure ?_ (by rintro ⟨⟩)
      exact congrArg (fun t => some (op, t)) hvalue
  have hops : more.map (·.1) = more'.map (·.1) := by
    simpa [unplacedOperand, Function.comp_def] using congrArg (List.map (·.1)) hmore
  have hothers : (more.map (·.2)).map Term.unplaced = (more'.map (·.2)).map Term.unplaced := by
    simpa [unplacedOperand, Function.comp_def] using congrArg (List.map (·.2)) hmore
  refine .ite_of (by rw [isEmpty_congr hmore]) (fun _ => mirrors_pure hfirst trivial) fun _ =>
    mirrors_close ?_ start start'
  rw [Form.unplaced, Form.unplaced, Term.allUnplaced_eq, Term.allUnplaced_eq, hfirst, hops, hothers]

theorem mirrors_inversionOf (h : MirrorsGrammar g g') : MirrorsTerm g.inversionOf g'.inversionOf := by
  refine mirrors_here fun start start' => mirrors_accept rfl nofun ?_ ?_
  · refine h.inversion.bind fun value value' hvalue => mirrors_close ?_ start start'
    rw [Form.unplaced, Form.unplaced, hvalue]
  · exact mirrors_comparison h.factor

theorem mirrors_boolLoop (h : MirrorsTerm operand operand') (word : String) (op : BoolOp) :
    MirrorsTerm (Grammar.boolLoop operand word op) (Grammar.boolLoop operand' word op) := by
  have hmore : Mirrors true (· = none) (Option.map Term.unplaced)
      (do if ← accept (.keyword word) then pure (some (← operand)) else pure none)
      (do if ← accept (.keyword word) then pure (some (← operand')) else pure none) := by
    refine mirrors_accept rfl nofun ?_ (mirrors_pure rfl rfl)
    exact h.bind fun other other' hother => mirrors_pure (congrArg some hother) trivial
  refine mirrors_here fun start start' => h.bind fun first first' hfirst => ?_
  refine (mirrors_many hmore).bind fun more more' hsame => ?_
  refine .ite_of (by rw [isEmpty_congr hsame]) (fun _ => mirrors_pure hfirst trivial) fun _ => mirrors_close ?_ start start'
  simp [Form.unplaced, hfirst, hsame]

theorem mirrors_disjunction (h : MirrorsGrammar g g') : MirrorsTerm g.disjunction g'.disjunction :=
  mirrors_boolLoop (mirrors_boolLoop (mirrors_inversionOf h) _ _) _ _

def Grammar.Parameters.unplaced (read : Grammar.Parameters) : Grammar.Parameters :=
  { read with found := read.found.map Param.unplaced }

theorem positionalOnly_unplaced (p : Param) :
    (Grammar.positionalOnly p).unplaced = Grammar.positionalOnly p.unplaced := by
  cases p
  rfl

theorem mirrors_parameter (h : MirrorsGrammar g g') {read read' : Grammar.Parameters}
    (hread : read.unplaced = read'.unplaced) :
    Mirrors false (fun _ => False) Grammar.Parameters.unplaced (g.parameter read)
      (g'.parameter read') := by
  obtain ⟨found, optional, slash, star, waiting, last⟩ := read
  obtain ⟨found', optional', slash', star', waiting', last'⟩ := read'
  obtain ⟨hfound, rfl, rfl, rfl, rfl, rfl⟩ : found.map Param.unplaced = found'.map Param.unplaced ∧
      optional = optional' ∧ slash = slash' ∧ star = star' ∧ waiting = waiting' ∧ last = last' := by
    simpa [Grammar.Parameters.unplaced] using hread
  have hpositional : (found.map Grammar.positionalOnly).map Param.unplaced =
      (found'.map Grammar.positionalOnly).map Param.unplaced := by
    simpa [Function.comp_def, positionalOnly_unplaced] using
      congrArg (List.map Grammar.positionalOnly) hfound
  have hsame {found found' : List Param} (hfound : found.map Param.unplaced = found'.map Param.unplaced)
      (optional slash star waiting last : Bool) :
      Grammar.Parameters.unplaced ⟨found, optional, slash, star, waiting, last⟩ =
        Grammar.Parameters.unplaced ⟨found', optional, slash, star, waiting, last⟩ :=
    congrArg (Grammar.Parameters.mk · optional slash star waiting last) hfound
  have hparam (kind : ParamKind) (id : String) {default default' : Option Term}
      (hdefault : default.map Term.unplaced = default'.map Term.unplaced) :
      (Param.mk kind id default :: found).map Param.unplaced =
        (Param.mk kind id default' :: found').map Param.unplaced := by
    simp [Param.unplaced, hdefault, hfound]
  have hplain (kind : ParamKind) (optional slash star waiting last : Bool) :
      Mirrors false (fun _ => True) Grammar.Parameters.unplaced
        (do pure ⟨.mk kind (← name) none :: found, optional, slash, star, waiting, last⟩)
        (do pure ⟨.mk kind (← name) none :: found', optional, slash, star, waiting, last⟩) := by
    refine mirrors_name.taking fun id id' hid => mirrors_pure ?_ trivial
    obtain rfl : id = id' := hid
    exact hsame (hparam kind id rfl) _ _ _ _ _
  have hdefaulted (id : String) (default default' : Option Term)
      (hdefault : default.map Term.unplaced = default'.map Term.unplaced) :
      Mirrors false (fun _ => True) Grammar.Parameters.unplaced
        (do
          if !star && optional && default.isNone then failure
          pure ⟨.mk (if star then .keywordOnly else .ordinary) id default :: found,
            optional || default.isSome, slash, star, false, last⟩)
        (do
          if !star && optional && default'.isNone then failure
          pure ⟨.mk (if star then .keywordOnly else .ordinary) id default' :: found',
            optional || default'.isSome, slash, star, false, last⟩) := by
    have hsome : default.isSome = default'.isSome := by
      rw [← Option.isSome_map, hdefault, Option.isSome_map]
    have hnone : default.isNone = default'.isNone := by
      rw [← Option.isNone_map, hdefault, Option.isNone_map]
    rw [hsome, hnone]
    refine .ite (fun _ => mirrors_failure_bind) fun _ => mirrors_pure ?_ trivial
    exact hsame (hparam _ id hdefault) _ _ _ _ _
  unfold Grammar.parameter
  refine .ite (fun _ => mirrors_failure_bind) fun _ => mirrors_accept rfl nofun ?_ ?_
  · refine .ite (fun _ => ?_) (absurd rfl)
    refine .ite_of (by simp [isEmpty_congr hfound]) (fun _ => mirrors_failure_bind) fun _ => ?_
    exact mirrors_pure (hsame hpositional _ _ _ _ _) trivial
  refine .ite nofun fun _ => mirrors_accept rfl nofun ?_ ?_
  · refine .ite (fun _ => ?_) (absurd rfl)
    refine .ite (fun _ => mirrors_failure_bind) fun _ => ?_
    exact hplain _ _ _ _ _ _
  refine .ite nofun fun _ => mirrors_accept rfl nofun ?_ ?_
  · refine .ite (fun _ => ?_) (absurd rfl)
    refine .ite (fun _ => mirrors_failure_bind) fun _ => mirrors_peek fun a b hab => ?_
    rcases hab.cases with rfl | ⟨s, s', -, rfl, rfl⟩ | ⟨hbare, -⟩
    · split
      · exact mirrors_pure (hsame hfound _ _ _ _ _) trivial
      · exact hplain _ _ _ _ _ _
    · exact hplain _ _ _ _ _ _
    · nomatch hbare
  · refine .ite nofun fun _ => mirrors_name.taking fun id id' hid => ?_
    obtain rfl : id = id' := hid
    refine mirrors_accept rfl nofun ?_ ?_
    · refine .ite (fun _ => ?_) (absurd rfl)
      refine h.expression.within.bind fun value value' hvalue => ?_
      exact hdefaulted id (some value) (some value') (congrArg some hvalue)
    · exact .ite nofun fun _ => hdefaulted id none none rfl

/-- The parameters read so far without places, and whether more may follow. -/
def unplacedRound (round : Grammar.Parameters × Bool) : Grammar.Parameters × Bool :=
  (round.1.unplaced, round.2)

theorem mirrors_parameters (h : MirrorsGrammar g g') :
    Mirrors false (fun _ => True) (List.map Param.unplaced) g.parameters g'.parameters := by
  refine (mirrors_repeating (g := unplacedRound) (fun round round' hround => ?step) rfl).bind
    fun round round' hround => ?_
  case step =>
    obtain ⟨hread, hmore⟩ := Prod.mk.inj hround
    refine mirrors_peek fun a b hab => ?_
    have hstop : (!round.2 || decide (a = some (.symbol ":"))) = true ↔
        (!round'.2 || decide (b = some (.symbol ":"))) = true := by
      rw [hmore, decide_eq_decide.mpr (hab.eq_iff rfl nofun)]
    refine .ite_of hstop (fun _ => mirrors_pure rfl rfl) fun _ => ?_
    refine (mirrors_parameter h hread).taking fun read read' hread => ?_
    have hround (more : Bool) :
        Mirrors false (fun _ => True) (Option.map unplacedRound) (pure (some (read, more)))
          (pure (some (read', more))) :=
      mirrors_pure (congrArg (fun read => some (read, more)) hread) trivial
    exact mirrors_accept rfl nofun (hround true) (hround false)
  obtain ⟨hread, -⟩ := Prod.mk.inj hround
  obtain ⟨hfound, -, -, -, hwaiting, -⟩ := Grammar.Parameters.mk.inj hread
  refine .ite_of (by rw [hwaiting]) (fun _ => mirrors_failure_bind) fun _ => mirrors_pure ?_ trivial
  rw [List.map_reverse, List.map_reverse, hfound]

theorem mirrors_lambda (h : MirrorsGrammar g g') : MirrorsTerm g.lambda g'.lambda := by
  refine mirrors_here fun start start' => (mirrors_keyword _).taking fun _ _ _ => ?_
  refine (mirrors_parameters h).inside fun params params' hparams => ?_
  refine (mirrors_symbol _).taking fun _ _ _ => h.expression.bind fun body body' hbody => ?_
  refine mirrors_close ?_ start start'
  simp [Form.unplaced, hparams, hbody]

theorem mirrors_expressionOf (h : MirrorsGrammar g g') :
    MirrorsTerm g.expressionOf g'.expressionOf := by
  have hdisjunction := mirrors_disjunction h
  refine mirrors_peek fun a b hab => .ite_of (hab.eq_iff rfl nofun) (fun _ => mirrors_lambda h) ?_
  intro _
  refine mirrors_here fun start start' => hdisjunction.bind fun body body' hbody => ?_
  refine mirrors_accept rfl nofun ?_ (mirrors_pure hbody trivial)
  refine hdisjunction.bind fun test test' htest => (mirrors_keyword _).taking fun _ _ _ => ?_
  refine h.expression.bind fun other other' hother => mirrors_close ?_ start start'
  simp [Form.unplaced, hbody, htest, hother]

end

end ViewTree.Embedded
