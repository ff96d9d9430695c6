import ViewTree.Proofs.Pasting.Productions

/-!
Attributes, calls and subscripts behind a value. Main statements: a name with such suffixes that is
read as an expression is read as its name and one suffix after the other
(`exists_suffixes_of_expression`), and behind another value the same suffixes are read on the same
lexemes, whatever stands behind them (`Suffixes.exists_withPath`).
-/
namespace ViewTree.Embedded
open Reader

mutual

/-- Whether the term is a name, or one with attributes, calls and subscripts behind it. -/
def Term.isPath : Term → Bool
  | .mk _ _ form => form.isPath

def Form.isPath : Form → Bool
  | .name _ => true
  | .attribute value _ => value.isPath
  | .subscript value _ => value.isPath
  | .call function _ _ => function.isPath
  | _ => false

end

mutual

/-- A value with a path behind it: what was the name of the path is an attribute of the value. -/
def Term.withPath (base : Term) : Term → Term
  | .mk start stop form => .mk start stop (Form.onto base form)

def Form.onto (base : Term) : Form → Form
  | .name id => .attribute base id
  | .attribute value attr => .attribute (base.withPath value) attr
  | .subscript value index => .subscript (base.withPath value) index
  | .call function arguments keywords => .call (base.withPath function) arguments keywords
  | form => form

end

mutual

theorem Term.withPath_unplaced (base : Term) : (t : Term) →
    (base.withPath t).unplaced = base.unplaced.withPath t.unplaced
  | .mk _ _ form => congrArg (Term.mk 0 0) (Form.onto_unplaced base form)

theorem Form.onto_unplaced (base : Term) : (form : Form) →
    (form.onto base).unplaced = form.unplaced.onto base.unplaced
  | .name _ => rfl
  | .attribute value attr => congrArg (Form.attribute · attr) (Term.withPath_unplaced base value)
  | .subscript value index =>
    congrArg (Form.subscript · index.unplaced) (Term.withPath_unplaced base value)
  | .call function plain keywords =>
    congrArg (Form.call · (Term.allUnplaced plain) (Keyword.allUnplaced keywords))
      (Term.withPath_unplaced base function)
  | .binder _ | .literal _ | .format _ | .unary .. | .binary .. | .bool .. | .compare ..
  | .lambda .. | .choice .. | .tuple _ | .list _ | .set _ | .dict _ | .listOf .. | .setOf ..
  | .generator .. | .dictOf .. | .await _ | .yield _ | .yieldFrom _ | .starred _ | .named ..
  | .slice .. => rfl

end

/-- What reads the next suffix of a value that started at `start`. -/
def Grammar.suffix (g : Grammar) (primary : Reader Term) (start : Nat) (value : Term) :
    Reader (Option Term) := do
  match ← peek with
  | some (.symbol ".") =>
    let _ ← next
    let attr ← name
    pure (some (← close start (.attribute value attr)))
  | some (.symbol "(") =>
    let opening ← here
    let _ ← next
    let read ← g.arguments primary opening
    pure (some (← close start (.call value read.plain read.keywords)))
  | some (.symbol "[") =>
    let _ ← next
    let found ← g.indices
    symbol "]"
    pure (some (← close start (.subscript value found)))
  | _ => pure none

theorem Grammar.primaryOf_eq (g : Grammar) (inner : FieldReader) (primary : Reader Term) :
    g.primaryOf inner primary = (do
      let start ← here
      let first ← g.atom inner primary
      repeating (g.suffix primary start) first) := rfl

/-- From a value at one place suffixes are read up to another value at another place. -/
inductive Suffixes (g : Grammar) (primary : Reader Term) (start : Nat) :
    Term → Input → Term → Input → Prop where
  | done (v : Term) (i : Input) : Suffixes g primary start v i v i
  | more {v w x i j k} (hstep : g.suffix primary start v i = some (some w, j))
      (h : Suffixes g primary start w j x k) : Suffixes g primary start v i x k

section
variable {g g' : Grammar} {primary primary' : Reader Term} {start start' : Nat} {v w x y : Term}
  {i j k m : Input}

theorem Suffixes.trans (h : Suffixes g primary start v i x j)
    (hrest : Suffixes g primary start x j y m) : Suffixes g primary start v i y m := by
  induction h with
  | done => exact hrest
  | more hstep _ ih => exact .more hstep (ih hrest)

theorem Suffixes.single (h : g.suffix primary start v i = some (some w, j)) :
    Suffixes g primary start v i w j := .more h (.done w j)

theorem suffix_attribute {dot attr : Lexeme} {id : String} (hdot : dot.kind = .symbol ".")
    (hattr : attr.kind = .name id) (rest : List Lexeme) (last : Nat) :
    g.suffix primary start v ⟨dot :: attr :: rest, last⟩ =
      some (some (.mk start attr.stop (.attribute v id)), ⟨rest, attr.stop⟩) := by
  obtain ⟨kind, s, e⟩ := dot
  obtain ⟨kind', s', e'⟩ := attr
  obtain rfl : kind = .symbol "." := hdot
  obtain rfl : kind' = .name id := hattr
  rfl

theorem suffix_call {opening : Lexeme} (hopening : opening.kind = .symbol "(") {rest : List Lexeme}
    {read : Grammar.Arguments}
    (hread : g.arguments primary opening.start ⟨rest, opening.stop⟩ = some (read, j)) (last : Nat) :
    g.suffix primary start v ⟨opening :: rest, last⟩ =
      some (some (.mk start j.last (.call v read.plain read.keywords)), j) := by
  obtain ⟨kind, s, e⟩ := opening
  obtain rfl : kind = .symbol "(" := hopening
  show (g.arguments primary s >>= fun read => do
    pure (some (← close start (.call v read.plain read.keywords)))) ⟨rest, e⟩ = _
  rw [bind_eq hread]
  rfl

theorem suffix_subscript {opening closing : Lexeme} (hopening : opening.kind = .symbol "[")
    (hclosing : closing.kind = .symbol "]") {inside rest : List Lexeme} {index : Term} {stop : Nat}
    (hread : g.indices ⟨inside, opening.stop⟩ = some (index, ⟨closing :: rest, stop⟩)) (last : Nat) :
    g.suffix primary start v ⟨opening :: inside, last⟩ =
      some (some (.mk start closing.stop (.subscript v index)), ⟨rest, closing.stop⟩) := by
  obtain ⟨kind, s, e⟩ := opening
  obtain rfl : kind = .symbol "[" := hopening
  show (g.indices >>= fun found => do
    symbol "]"
    pure (some (← close start (.subscript v found)))) ⟨inside, e⟩ = _
  rw [bind_eq hread, bind_eq (symbol_eq hclosing rest stop)]
  rfl

theorem exists_of_name {id : String} (h : name i = some (id, j)) :
    ∃ t, i.rest = t :: j.rest ∧ t.kind = .name id := by
  obtain ⟨⟨kind, m⟩, hnext, hname⟩ := Option.bind_eq_some_iff.mp h
  obtain ⟨t, ht, rfl⟩ := exists_of_next hnext
  cases hkind : t.kind with
  | name id' =>
    rw [hkind] at hname
    obtain ⟨rfl, rfl⟩ := Prod.mk.inj (Option.some.inj hname)
    exact ⟨t, ht, hkind⟩
  | _ =>
    rw [hkind] at hname
    nomatch hname

/-- Nothing else is a suffix. -/
theorem suffix_cases {t : Lexeme} {rest : List Lexeme} {last : Nat}
    (h : g.suffix primary start v ⟨t :: rest, last⟩ = some (some w, k)) :
    (t.kind = .symbol "." ∧ ∃ attr id, rest = attr :: k.rest ∧ attr.kind = .name id ∧
      w = .mk start k.last (.attribute v id)) ∨
    (t.kind = .symbol "(" ∧ ∃ read, g.arguments primary t.start ⟨rest, t.stop⟩ = some (read, k) ∧
      w = .mk start k.last (.call v read.plain read.keywords)) ∨
    (t.kind = .symbol "[" ∧ ∃ index closing stop, closing.kind = .symbol "]" ∧
      g.indices ⟨rest, t.stop⟩ = some (index, ⟨closing :: k.rest, stop⟩) ∧
      w = .mk start k.last (.subscript v index)) := by
  obtain ⟨kind, s, e⟩ := t
  unfold Grammar.suffix at h
  rw [bind_eq (peek_of_next rfl)] at h
  generalize hkind : Option.map (·.kind) (List.head? (_ :: rest)) = kind? at h
  split at h
  · obtain rfl := Option.some.inj hkind
    obtain ⟨⟨id, m⟩, hname, hrest⟩ := Option.bind_eq_some_iff.mp h
    obtain ⟨attr, hattr, hid⟩ := exists_of_name hname
    obtain ⟨hw, rfl⟩ := Prod.mk.inj (Option.some.inj hrest)
    exact .inl ⟨rfl, attr, id, hattr, hid, (Option.some.inj hw).symm⟩
  · obtain rfl := Option.some.inj hkind
    obtain ⟨⟨read, m⟩, hread, hrest⟩ := Option.bind_eq_some_iff.mp h
    obtain ⟨hw, rfl⟩ := Prod.mk.inj (Option.some.inj hrest)
    exact .inr (.inl ⟨rfl, read, hread, (Option.some.inj hw).symm⟩)
  · obtain rfl := Option.some.inj hkind
    obtain ⟨⟨index, ⟨behind, stop⟩⟩, hread, hrest⟩ := Option.bind_eq_some_iff.mp h
    obtain ⟨⟨⟨⟩, m⟩, hsymbol, hend⟩ := Option.bind_eq_some_iff.mp hrest
    obtain ⟨closing, rfl, hkind⟩ := exists_of_symbol hsymbol
    obtain ⟨hw, rfl⟩ := Prod.mk.inj (Option.some.inj hend)
    exact .inr (.inr ⟨rfl, index, closing, stop, hkind, hread, (Option.some.inj hw).symm⟩)
  · nomatch h

theorem suffix_lineEnd (hi : Next (some .lineEnd) i) :
    g.suffix primary start v i = some (none, i) := by
  unfold Grammar.suffix
  rw [bind_eq (peek_of_next hi)]
  rfl

theorem suffix_none (h : g.suffix primary start v i = some (none, k)) : k = i := by
  have hsome (form : Form) : Yields (· ≠ none) (do pure (some (← close start form))) :=
    .bind fun _ => .pure nofun
  unfold Grammar.suffix at h
  rw [bind_eq (peek_of_next rfl)] at h
  generalize Option.map (·.kind) (List.head? i.rest) = kind? at h
  split at h
  · exact absurd rfl (Yields.bind (fun _ => Yields.bind fun _ => hsome _) _ _ _ h)
  · exact absurd rfl
      (Yields.bind (fun _ => Yields.bind fun _ => Yields.bind fun _ => hsome _) _ _ _ h)
  · exact absurd rfl
      (Yields.bind (fun _ => Yields.bind fun _ => Yields.bind fun _ => hsome _) _ _ _ h)
  · exact (Prod.mk.inj (Option.some.inj h)).2.symm

/-- A suffix is read behind another value too, and ends where its own lexemes end. -/
theorem exists_suffix_onto (hg : MirrorsGrammar g g') (hp : MirrorsTerm primary primary')
    (h : g.suffix primary start v i = some (some w, k)) :
    ∃ used, used ≠ [] ∧ i.rest = used ++ k.rest ∧ ∀ (base v' : Term) start' j used' tail,
      (base.withPath v).unplaced = v'.unplaced → j.rest = used' ++ tail → Alike used used' →
        ∃ w' last, g'.suffix primary' start' v' j = some (some w', ⟨tail, last⟩) ∧
          (base.withPath w).unplaced = w'.unplaced := by
  obtain ⟨_ | ⟨t, rest⟩, last⟩ := i
  · nomatch h
  obtain ⟨ht, attr, id, rfl, hattr, rfl⟩ | ⟨ht, read, hread, rfl⟩ |
    ⟨ht, index, closing, stop, hclosing, hread, rfl⟩ := suffix_cases h
  · refine ⟨[t, attr], nofun, rfl, fun base v' start' ⟨rest', last'⟩ used' tail hv hj halike => ?_⟩
    obtain ⟨t', used', rfl, ht', hrest⟩ := List.map_eq_cons_iff.mp halike.symm
    obtain ⟨attr', used', rfl, hattr', hnone⟩ := List.map_eq_cons_iff.mp hrest
    obtain rfl := List.map_eq_nil_iff.mp hnone
    obtain rfl : rest' = t' :: attr' :: tail := hj
    have hdot := (eq_of_unplaced (by rw [ht]; rfl) ht'.symm).symm.trans ht
    have hname := (eq_of_unplaced (by rw [hattr]; rfl) hattr'.symm).symm.trans hattr
    refine ⟨_, _, suffix_attribute hdot hname tail last', ?_⟩
    simp [Term.withPath, Form.onto, Term.unplaced, Form.unplaced, hv]
  · obtain ⟨used, hused, -⟩ := seals_arguments hg hp t.start 0 _ _ _ hread
    refine ⟨t :: used, nofun, congrArg (t :: ·) hused, ?_⟩
    intro base v' start' ⟨rest', last'⟩ used' tail hv hj halike
    obtain ⟨t', used', rfl, ht', halike⟩ := List.map_eq_cons_iff.mp halike.symm
    obtain rfl : rest' = t' :: (used' ++ tail) := hj
    have hopening := (eq_of_unplaced (by rw [ht]; rfl) ht'.symm).symm.trans ht
    obtain ⟨used₁, hused₁, -, hseals⟩ := seals_arguments hg hp t.start t'.start _ _ _ hread
    obtain rfl : used₁ = used := List.append_cancel_right (hused₁.symm.trans hused)
    obtain ⟨read', stop, hread', hsame⟩ :=
      hseals ⟨used' ++ tail, t'.stop⟩ used' tail rfl halike.symm
    obtain ⟨hplain, hkeywords, -⟩ := Grammar.Arguments.mk.inj hsame
    refine ⟨_, _, suffix_call hopening hread' last', ?_⟩
    simp [Term.withPath, Form.onto, Term.unplaced, Form.unplaced, hv, hplain, hkeywords]
  · obtain ⟨used, hused, -, hmirror⟩ := mirrors_indices hg _ _ _ hread
    refine ⟨t :: (used ++ [closing]), nofun, by simpa using hused, ?_⟩
    intro base v' start' ⟨rest', last'⟩ used' tail hv hj halike
    obtain ⟨t', used', rfl, ht', halike⟩ := List.map_eq_cons_iff.mp halike.symm
    obtain ⟨inside, behind, rfl, hinside, hbehind⟩ := List.map_eq_append_iff.mp (halike.trans List.map_append)
    obtain ⟨closing', behind, rfl, hclosing', hnone⟩ := List.map_eq_cons_iff.mp hbehind
    obtain rfl := List.map_eq_nil_iff.mp hnone
    obtain rfl : rest' = t' :: (inside ++ closing' :: tail) := by simpa using hj
    have hopening := (eq_of_unplaced (by rw [ht]; rfl) ht'.symm).symm.trans ht
    have hmeets : Meets false (closing :: k.rest) (closing' :: tail) :=
      .closes hclosing'.symm (by rw [hclosing]; rfl)
    obtain ⟨index', stop', hread', hsame⟩ :=
      hmirror ⟨_, t'.stop⟩ inside (closing' :: tail) rfl hinside.symm hmeets
    have hend := (eq_of_unplaced (by rw [hclosing]; rfl) hclosing'.symm).symm.trans hclosing
    refine ⟨_, _, suffix_subscript hopening hend hread' last', ?_⟩
    simp [Term.withPath, Form.onto, Term.unplaced, Form.unplaced, hv, hsame]

/-- Suffixes are read behind another value too, one after the other. -/
theorem Suffixes.exists_withPath (hg : MirrorsGrammar g g') (hp : MirrorsTerm primary primary')
    (h : Suffixes g primary start v i x k) :
    ∃ used, i.rest = used ++ k.rest ∧ ∀ (base v' : Term) start' j used' tail,
      (base.withPath v).unplaced = v'.unplaced → j.rest = used' ++ tail → Alike used used' →
        ∃ x' last, Suffixes g' primary' start' v' j x' ⟨tail, last⟩ ∧
          (base.withPath x).unplaced = x'.unplaced := by
  induction h with
  | done v i =>
    refine ⟨[], rfl, fun base v' start' j used' tail hv hj halike => ?_⟩
    obtain rfl := List.map_eq_nil_iff.mp halike.symm
    obtain ⟨rest, last⟩ := j
    obtain rfl : rest = tail := hj
    exact ⟨v', last, .done v' _, hv⟩
  | more hstep _ ih =>
    obtain ⟨a, -, ha, hfirst⟩ := exists_suffix_onto hg hp hstep
    obtain ⟨b, hb, hlater⟩ := ih
    refine ⟨a ++ b, by rw [ha, hb, List.append_assoc], fun base v' start' j used' tail hv hj halike => ?_⟩
    obtain ⟨a', b', rfl, ha', hb'⟩ := List.map_eq_append_iff.mp (halike.symm.trans List.map_append)
    rw [List.append_assoc] at hj
    obtain ⟨w', last, hstep', hw⟩ := hfirst base v' start' j a' (b' ++ tail) hv hj ha'.symm
    obtain ⟨x', last', hrest, hx⟩ := hlater base w' start' ⟨b' ++ tail, last⟩ b' tail hw rfl hb'.symm
    exact ⟨x', last', .more hstep' hrest, hx⟩

/-- The loop behind an atom reads suffixes as long as there are some, and what it does behind them is
what it gives. -/
theorem repeating_of_suffixes (hg : MirrorsGrammar g g) (hp : MirrorsTerm primary primary)
    (h : Suffixes g primary start v i x k) {found : Option (Term × Input)}
    (hend : ∀ count, rounds failure (g.suffix primary start) (count + 1) x k = found) :
    repeating (g.suffix primary start) v i = found := by
  have hrounds (count : Nat) (hcount : i.rest.length < count) :
      rounds failure (g.suffix primary start) count v i = found := by
    induction h generalizing count with
    | done v i =>
      obtain ⟨count, rfl⟩ := Nat.exists_eq_add_one_of_ne_zero (Nat.ne_zero_of_lt hcount)
      exact hend count
    | @more v w x i j k hstep _ ih =>
      obtain ⟨count, rfl⟩ := Nat.exists_eq_add_one_of_ne_zero (Nat.ne_zero_of_lt hcount)
      obtain ⟨used, hsome, hused, -⟩ := exists_suffix_onto hg hp hstep
      have hshort : j.rest.length < i.rest.length := by
        have := List.length_pos_iff.mpr hsome
        rw [hused, List.length_append]
        omega
      rw [rounds, bind_eq hstep]
      exact ih hend count (by omega)
  exact hrounds _ (Nat.lt_succ_self _)

theorem suffixes_of_rounds {count : Nat}
    (h : rounds failure (g.suffix primary start) count v i = some (x, k)) :
    Suffixes g primary start v i x k ∧ g.suffix primary start x k = some (none, k) := by
  induction count generalizing v i with
  | zero => nomatch h
  | succ count ih =>
    obtain ⟨⟨next?, m⟩, hstep, hrest⟩ := Option.bind_eq_some_iff.mp h
    cases next? with
    | some w =>
      obtain ⟨hsuffixes, hstop⟩ := ih hrest
      exact ⟨.more hstep hsuffixes, hstop⟩
    | none =>
      obtain ⟨rfl, rfl⟩ := Prod.mk.inj (Option.some.inj hrest)
      obtain rfl := suffix_none hstep
      exact ⟨.done v m, hstep⟩

end

/-- The paths that `r` gives are ones that `r'` gives. -/
def Within (r r' : Reader Term) : Prop :=
  ∀ i x j, x.isPath → r i = some (x, j) → r' i = some (x, j)

abbrev Pathless (r : Reader Term) : Prop := Yields (fun t => t.isPath = false) r

theorem Pathless.not_isPath {r : Reader Term} (h : Pathless r) {i j : Input} {x : Term}
    (hr : r i = some (x, j)) : ¬x.isPath := fun hx => nomatch hx.symm.trans (h i x j hr)

theorem pathless_close {start : Nat} {form : Form} (h : form.isPath = false) :
    Pathless (close start form) := Yields.bind fun _ => Yields.pure h

/-- A reader takes nothing if it gives nothing. -/
def Idles {α : Type} (r : Reader (Option α)) : Prop := ∀ i j, r i = some (none, j) → j = i

section
variable {α β : Type} {r : Reader (Option α)}

theorem idles_pure : Idles (pure none : Reader (Option α)) := fun _ _ h =>
  (Prod.mk.inj (Option.some.inj h)).2.symm

theorem Yields.idles (h : Yields (· ≠ none) r) : Idles r := fun i j hr => absurd rfl (h i none j hr)

theorem Idles.peek {k : Option LexemeKind → Reader (Option α)} (h : ∀ kind?, Idles (k kind?)) :
    Idles (peek >>= k) := fun i j hr => h _ i j hr

theorem Idles.bind {k : Option α → Reader (Option β)} (h : Idles r) (hnone : Idles (k none))
    (hsome : ∀ x, Yields (· ≠ none) (k (some x))) : Idles (r >>= k) := by
  intro i j hr
  obtain ⟨⟨x?, m⟩, hx, hk⟩ := Option.bind_eq_some_iff.mp hr
  cases x? with
  | none =>
    obtain rfl := h _ _ hx
    exact hnone m j hk
  | some x => exact absurd rfl (hsome x m none j hk)

theorem accept_idle {kind : LexemeKind} {i j : Input} (h : accept kind i = some (false, j)) :
    j = i := by
  by_cases hi : Next (some kind) i
  · obtain ⟨t, m, -, -, haccept⟩ := accept_of_next hi
    nomatch haccept.symm.trans h
  · exact (Prod.mk.inj (Option.some.inj (h.symm.trans (accept_of_not hi)))).2

theorem Idles.accept {kind : LexemeKind} {k : Bool → Reader (Option α)}
    (htaken : Yields (· ≠ none) (k true)) (h : Idles (k false)) : Idles (accept kind >>= k) := by
  intro i j hr
  obtain ⟨⟨found, m⟩, hfound, hk⟩ := Option.bind_eq_some_iff.mp hr
  cases found with
  | true => exact absurd rfl (htaken m none j hk)
  | false =>
    obtain rfl := accept_idle hfound
    exact h m j hk

end

section
variable {α : Type} {operand r r' r'' : Reader Term} {i j : Input}

theorem Pathless.within (h : Pathless r) : Within r r' :=
  fun _ _ _ hx hr => absurd hx (h.not_isPath hr)

theorem within_refl : Within r r := fun _ _ _ _ hr => hr

theorem Within.trans (h : Within r r') (h' : Within r' r'') : Within r r'' :=
  fun i x j hx hr => h' i x j hx (h i x j hx hr)

theorem Within.here {k : Nat → Reader Term} (h : ∀ start, Within (k start) r) :
    Within (here >>= k) r := fun i x j hx hr => h _ i x j hx hr

theorem Within.peek {k : Option LexemeKind → Reader Term} (h : ∀ kind?, Within (k kind?) r) :
    Within (Reader.peek >>= k) r := fun i x j hx hr => h _ i x j hx hr

/-- A path is no operand that a loop has put into another term. -/
theorem Within.repeating {step : Term → Reader (Option Term)} (h : Within operand r)
    (hidle : ∀ left, Idles (step left))
    (hstep : ∀ left, Yields (fun next? => ∀ next ∈ next?, next.isPath = false) (step left)) :
    Within (operand >>= Reader.repeating step) r := by
  intro i x j hx hr
  obtain ⟨⟨first, m⟩, hfirst, hrest⟩ := Option.bind_eq_some_iff.mp hr
  obtain ⟨⟨next?, m'⟩, hone, hmore⟩ := Option.bind_eq_some_iff.mp hrest
  cases next? with
  | none =>
    obtain ⟨rfl, rfl⟩ := Prod.mk.inj (Option.some.inj hmore)
    obtain rfl := hidle _ _ _ hone
    exact h i first m' hx hfirst
  | some next =>
    have hnone : x.isPath = false :=
      Yields.rounds (fun left _ => hstep left) _ (hstep first m _ m' hone next rfl) m' x j hmore
    rw [hnone] at hx
    nomatch hx

theorem item_of_many_nil {item : Reader (Option α)} (h : many item i = some ([], j)) :
    item i = some (none, j) := by
  obtain ⟨⟨found, m⟩, hfound, hrest⟩ := Option.bind_eq_some_iff.mp h
  obtain ⟨hnone, rfl⟩ := Prod.mk.inj (Option.some.inj hrest)
  obtain ⟨⟨next?, m'⟩, hone, hmore⟩ := Option.bind_eq_some_iff.mp hfound
  obtain ⟨⟨x?, k⟩, hx, hnext⟩ := Option.bind_eq_some_iff.mp hone
  obtain ⟨rfl, rfl⟩ := Prod.mk.inj (Option.some.inj hnext)
  cases x? with
  | none =>
    obtain ⟨rfl, rfl⟩ := Prod.mk.inj (Option.some.inj hmore)
    exact hx
  | some x =>
    have hstep (found : List α) : Yields (fun next? => ∀ next ∈ next?, next ≠ [])
        (do pure ((← item).map (· :: found))) := by
      refine .bind fun x? => .pure fun next hnext => ?_
      obtain ⟨x, -, rfl⟩ := Option.map_eq_some_iff.mp hnext
      exact List.cons_ne_nil x found
    have hsome : found ≠ [] :=
      Yields.rounds (fun found _ => hstep found) _ (List.cons_ne_nil x []) k found m hmore
    exact absurd (List.reverse_eq_nil_iff.mp hnone) hsome

theorem Within.many {item : Reader (Option α)} {s : Term → List α → Reader Term}
    (h : Within operand r) (hidle : Idles item) (hs : ∀ first more, Pathless (s first more)) :
    Within (operand >>= fun first => Reader.many item >>= fun more =>
      if more.isEmpty then pure first else s first more) r := by
  intro i x j hx hr
  obtain ⟨⟨first, m⟩, hfirst, hrest⟩ := Option.bind_eq_some_iff.mp hr
  obtain ⟨⟨more, m'⟩, hmore, hend⟩ := Option.bind_eq_some_iff.mp hrest
  cases more with
  | nil =>
    obtain ⟨rfl, rfl⟩ := Prod.mk.inj (Option.some.inj hend)
    obtain rfl := hidle _ _ (item_of_many_nil hmore)
    exact h i first m' hx hfirst
  | cons => exact absurd hx ((hs _ _).not_isPath hend)

/-- A path does not start with a lexeme that makes another term. -/
theorem Within.accept {kind : LexemeKind} {k : Bool → Reader Term} (htaken : Pathless (k true))
    (h : Within (k false) r) : Within (Reader.accept kind >>= k) r := by
  intro i x j hx hr
  obtain ⟨⟨found, m⟩, hfound, hrest⟩ := Option.bind_eq_some_iff.mp hr
  cases found with
  | true => exact absurd hx (htaken.not_isPath hrest)
  | false =>
    obtain rfl := accept_idle hfound
    exact h m x j hx hrest

/-- Nor is there one behind it. -/
theorem Within.acceptBehind {kind : LexemeKind} {s : Term → Reader Term} (h : Within operand r)
    (hs : ∀ first, Pathless (s first)) :
    Within (operand >>= fun first => Reader.accept kind >>= fun found =>
      if found then s first else pure first) r := by
  intro i x j hx hr
  obtain ⟨⟨first, m⟩, hfirst, hrest⟩ := Option.bind_eq_some_iff.mp hr
  obtain ⟨⟨found, m'⟩, hfound, hend⟩ := Option.bind_eq_some_iff.mp hrest
  cases found with
  | true => exact absurd hx ((hs first).not_isPath hend)
  | false =>
    obtain ⟨rfl, rfl⟩ := Prod.mk.inj (Option.some.inj hend)
    obtain rfl := accept_idle hfound
    exact h i first m' hx hfirst

end

section
variable {g : Grammar} {primary operand r : Reader Term}

theorem Within.binaryLoop (h : Within operand r) (op? : LexemeKind → Option BinaryOp) :
    Within (Grammar.binaryLoop operand op?) r := by
  refine .here fun start => h.repeating (fun left => .peek fun kind? => ?_) fun left => .bind fun kind? => ?_
  · cases kind?.bind op? with
    | none => exact idles_pure
    | some op => exact Yields.idles (.bind fun _ => .bind fun _ => .bind fun _ => .pure nofun)
  · cases kind?.bind op? with
    | none => exact .pure nofun
    | some op =>
      refine .bind fun _ => .bind fun right => .bind_of (pathless_close rfl) fun _ ht => .pure ?_
      exact fun _ hnext => Option.some.inj hnext ▸ ht

theorem within_bitOr (h : Within g.factor r) : Within g.bitOr r :=
  (((((h.binaryLoop _).binaryLoop _).binaryLoop _).binaryLoop _).binaryLoop _).binaryLoop _

theorem idles_compareOp : Idles Grammar.compareOp := by
  refine .peek fun kind? => ?_
  split
  case h_8 => exact Yields.idles (.bind fun _ => .bind fun _ => .pure nofun)
  case h_9 => exact Yields.idles (.bind fun _ => .bind fun _ => .pure nofun)
  case h_10 => exact idles_pure
  all_goals exact Yields.idles (.bind fun _ => .pure nofun)

theorem within_comparison (h : Within g.factor r) : Within g.comparison r := by
  refine .here fun start => (within_bitOr h).many ?_ fun first more => pathless_close rfl
  exact idles_compareOp.bind idles_pure fun op => .bind fun _ => .pure nofun

theorem within_inversionOf (h : Within g.factor r) : Within g.inversionOf r :=
  .here fun _ => .accept (.bind fun _ => pathless_close rfl) (within_comparison h)

theorem Within.boolLoop (h : Within operand r) (word : String) (op : BoolOp) :
    Within (Grammar.boolLoop operand word op) r := by
  refine .here fun start => h.many ?_ fun first more => pathless_close rfl
  exact .accept (.bind fun _ => .pure nofun) idles_pure

theorem within_disjunction (h : Within g.factor r) : Within g.disjunction r :=
  ((within_inversionOf h).boolLoop _ _).boolLoop _ _

theorem within_expressionOf (h : Within g.factor r) : Within g.expressionOf r := by
  refine Within.peek fun kind? => ?_
  split
  · exact Pathless.within
      (.bind fun _ => .bind fun _ => .bind fun _ => .bind fun _ => .bind fun _ => pathless_close rfl)
  · refine .here fun start => (within_disjunction h).acceptBehind fun body => ?_
    exact .bind fun _ => .bind fun _ => .bind fun _ => pathless_close rfl

theorem within_factorOf : Within (g.factorOf primary) primary := by
  have hpower : Within (g.power primary) primary := by
    refine .here fun start => ?_
    extract_lets rest
    have hraised (base exponent : Term) :
        Pathless (close start (.binary .power base exponent)) := pathless_close rfl
    have hawait (base : Term) (hbase : base.isPath = false) : Pathless (rest base) :=
      .bind fun _ => .ite (fun _ => .bind fun _ => hraised _ _) fun _ => .pure hbase
    refine .accept (.bind fun _ => .bind_of (pathless_close rfl) hawait) ?_
    exact within_refl.acceptBehind fun base => .bind fun _ => hraised _ _
  refine .here fun start => .peek fun kind? => ?_
  split
  case h_4 => exact hpower
  all_goals exact Pathless.within (.bind fun _ => .bind fun _ => pathless_close rfl)

/-- A path that is read as an expression is read as a primary. -/
theorem within_expression (inner : FieldReader) (depth : Nat) :
    Within (grammarAt inner (depth + 1)).1.expression (grammarAt inner depth).2 := by
  refine within_expressionOf ?_
  cases depth with
  | zero => exact fun _ _ _ _ hr => nomatch hr
  | succ depth => exact within_factorOf

theorem exists_name_of_atom {g : Grammar} {inner : FieldReader} {primary : Reader Term} {t : Lexeme}
    {ts : List Lexeme} {last : Nat} {first : Term} {j : Input} (ht : ∀ s, t.kind ≠ .symbol s)
    (hfirst : first.isPath) (h : g.atom inner primary ⟨t :: ts, last⟩ = some (first, j)) :
    ∃ id, t.kind = .name id ∧ first = .mk t.start t.stop (.name id) ∧ j = ⟨ts, t.stop⟩ := by
  obtain ⟨kind, s, e⟩ := t
  cases kind with
  | name id =>
    obtain ⟨rfl, rfl⟩ := Prod.mk.inj (Option.some.inj h)
    exact ⟨id, rfl, rfl, rfl⟩
  | symbol text => exact absurd rfl (ht text)
  | string literal =>
    obtain ⟨⟨literals, m⟩, -, h⟩ := Option.bind_eq_some_iff.mp h
    dsimp only at h
    cases hform : stringsForm? inner literals with
    | none =>
      rw [hform] at h
      cases h
    | some form =>
      rw [hform] at h
      have hnone : Pathless (close s form) := by
        obtain ⟨value, rfl⟩ | ⟨pieces, rfl⟩ := cases_of_stringsForm? hform <;>
          exact pathless_close rfl
      exact absurd hfirst (hnone.not_isPath h)
  | number value =>
    obtain ⟨rfl, -⟩ := Prod.mk.inj (Option.some.inj h)
    cases hfirst
  | keyword word =>
    have hnext : next ⟨⟨.keyword word, s, e⟩ :: ts, last⟩ = some (.keyword word, ⟨ts, e⟩) := rfl
    unfold Grammar.atom at h
    rw [bind_eq (here_eq _), bind_eq (peek_of_next rfl)] at h
    dsimp only [List.head?_cons, Option.map_some] at h
    rw [bind_eq hnext] at h
    generalize hkind : LexemeKind.keyword word = kind at h
    split at h
    case h_10 => cases h
    case h_3 | h_4 | h_5 =>
      obtain ⟨rfl, -⟩ := Prod.mk.inj (Option.some.inj h)
      cases hfirst
    all_goals cases hkind
  | lineEnd => cases h

theorem Suffixes.isPath_eq {g : Grammar} {start : Nat} {v x : Term} {i k : Input}
    (h : Suffixes g primary start v i x k) : x.isPath = v.isPath := by
  induction h with
  | done => rfl
  | @more v w x i j k hstep _ ih =>
    rw [ih]
    obtain ⟨_ | ⟨t, rest⟩, last⟩ := i
    · nomatch hstep
    obtain ⟨-, attr, id, -, -, rfl⟩ | ⟨-, read, -, rfl⟩ | ⟨-, index, closing, stop, -, -, rfl⟩ :=
      suffix_cases hstep
    all_goals rfl

/-- A path that is read as an expression, and starts with no bracket, is read as its name with one
suffix after the other. -/
theorem exists_suffixes_of_expression {inner : FieldReader} {depth last : Nat} {t : Lexeme}
    {ts : List Lexeme} {x : Term} {j : Input} (ht : ∀ s, t.kind ≠ .symbol s) (hx : x.isPath)
    (h : (grammarAt inner (depth + 2)).1.expression ⟨t :: ts, last⟩ = some (x, j)) :
    ∃ id, t.kind = .name id ∧ Suffixes (grammarAt inner depth).1 (grammarAt inner depth).2 t.start
      (.mk t.start t.stop (.name id)) ⟨ts, t.stop⟩ x j := by
  have hprimary : (grammarAt inner depth).1.primaryOf inner (grammarAt inner depth).2 ⟨t :: ts, last⟩ =
      some (x, j) := within_expression inner (depth + 1) _ _ _ hx h
  rw [Grammar.primaryOf_eq, bind_eq (here_eq _)] at hprimary
  obtain ⟨⟨first, m⟩, hatom, hrepeating⟩ := Option.bind_eq_some_iff.mp hprimary
  obtain ⟨hsuffixes, -⟩ := suffixes_of_rounds hrepeating
  obtain ⟨id, hid, rfl, rfl⟩ := exists_name_of_atom ht (hsuffixes.isPath_eq ▸ hx) hatom
  exact ⟨id, hid, hsuffixes⟩

section
variable {inner : FieldReader} {depth : Nat} {t : Lexeme} {ts : List Lexeme} {id : String}
  {x : Term} {j : Input} (hinner : FieldsAlike inner inner) (ht : t.kind = .name id)
  (h : Suffixes (grammarAt inner depth).1 (grammarAt inner depth).2 t.start
    (.mk t.start t.stop (.name id)) ⟨ts, t.stop⟩ x j) (last : Nat)
include hinner ht h

theorem primary_of_suffixes {found : Option (Term × Input)}
    (hend : ∀ count, rounds failure ((grammarAt inner depth).1.suffix (grammarAt inner depth).2 t.start)
      (count + 1) x j = found) :
    (grammarAt inner (depth + 1)).2 ⟨t :: ts, last⟩ = found := by
  obtain ⟨hg, hp⟩ := mirrors_grammarAt hinner depth
  have hatom : (grammarAt inner depth).1.atom inner (grammarAt inner depth).2 ⟨t :: ts, last⟩ =
      some (.mk t.start t.stop (.name id), ⟨ts, t.stop⟩) := by
    obtain ⟨kind, s, e⟩ := t
    obtain rfl : kind = .name id := ht
    rfl
  show (grammarAt inner depth).1.primaryOf inner (grammarAt inner depth).2 _ = _
  rw [Grammar.primaryOf_eq, bind_eq (here_eq _), bind_eq hatom]
  exact repeating_of_suffixes hg hp h hend

/-- A name with suffixes behind it that nothing else follows is read as an expression. -/
theorem expression_of_suffixes (hj : Next (some .lineEnd) j) :
    (grammarAt inner (depth + 2)).1.expression ⟨t :: ts, last⟩ = some (x, j) := by
  have hi : Next (some t.kind) ⟨t :: ts, last⟩ := rfl
  have hk : isOperator t.kind = false := ht ▸ rfl
  have hprimary : (grammarAt inner (depth + 1)).2 ⟨t :: ts, last⟩ = some (x, j) :=
    primary_of_suffixes hinner ht h last fun count => bind_eq (suffix_lineEnd hj)
  exact expressionOf_of_factor hi hk hj rfl nofun (factorOf_of_primary hi hk hj rfl hprimary)

/-- Where a suffix has started and does not go on, no expression is read. -/
theorem expression_eq_none_of_suffixes
    (hstop : (grammarAt inner depth).1.suffix (grammarAt inner depth).2 t.start x j = none) :
    (grammarAt inner (depth + 2)).1.expression ⟨t :: ts, last⟩ = none := by
  have hi : Next (some t.kind) ⟨t :: ts, last⟩ := rfl
  have hk : isOperator t.kind = false := ht ▸ rfl
  have hprimary : (grammarAt inner (depth + 1)).2 ⟨t :: ts, last⟩ = none :=
    primary_of_suffixes hinner ht h last fun count => bind_eq_none hstop
  exact expressionOf_eq_none hi hk (factorOf_eq_none hi hk hprimary)

end
end
end ViewTree.Embedded
