import ViewTree.Proofs.Pasting.Operators

/-!
What stands between brackets, on the same lexemes elsewhere. Main statements: tuples, lists, sets,
dictionaries, subscripts and arguments are read alike by grammars that mirror each other
(`mirrors_parenthesized`, `mirrors_bracketed`, `mirrors_braced`, `mirrors_indices`), and arguments up
to their closing parenthesis whatever stands behind that (`seals_arguments`).
-/
namespace ViewTree.Embedded
open Reader

variable {g g' : Grammar}

/-- Whether `namesNext` sees a name that is bound. -/
def binds : Option LexemeKind → Option LexemeKind → Bool
  | some (.name _), some (.symbol ":=") => true
  | _, _ => false

theorem binds_of_not {a b : Option LexemeKind}
    (h : ∀ id, a = some (.name id) → b = some (.symbol ":=") → False) : binds a b = false := by
  unfold binds
  split
  · exact (h _ rfl rfl).elim
  · rfl

theorem namesNext_bind {α : Type} (k : Bool → Reader α) :
    Grammar.namesNext >>= k = (do k (binds (← peek) (← peekSecond))) := by
  unfold Grammar.namesNext
  rw [bind_assoc]
  refine congrArg (peek >>= ·) (funext fun a => ?_)
  rw [bind_assoc]
  refine congrArg (peekSecond >>= ·) (funext fun b => ?_)
  split
  · rfl
  · next h =>
    rw [binds_of_not h]
    rfl

theorem not_name_of_endsExpression {k : LexemeKind} (hk : endsExpression k) (id : String) :
    some k ≠ some (.name id) := by
  rcases cases_of_endsExpression hk with rfl | rfl | rfl | rfl <;> nofun

/-- A name with a lexeme behind it that ends no expression is seen in both places. -/
theorem Pairs.name_iff {bare : Bool} {a a₂ b b₂ : Option LexemeKind} (h : Pairs bare a a₂ b b₂)
    {k : LexemeKind} (hk : isPlain k) (hends : ¬endsExpression k) (id : String) :
    a = some (.name id) ∧ a₂ = some k ↔ b = some (.name id) ∧ b₂ = some k := by
  cases h with
  | ends hfirst hsecond =>
    exact ⟨fun h => absurd h.1 (not_name_of_endsExpression hfirst id),
      fun h => absurd h.1 (not_name_of_endsExpression hsecond id)⟩
  | @closes _ first second _ _ hkind hcloses =>
    have hheads : Heads false (some first) (some second) := .same (congrArg some hkind)
    have hfirst : ¬some first = some (.name id) := by
      rintro ⟨⟩
      nomatch hcloses
    have hsecond : ¬some second = some (.name id) := fun h =>
      hfirst ((hheads.eq_iff rfl nofun).mpr h)
    exact ⟨fun h => absurd h.1 hfirst, fun h => absurd h.1 hsecond⟩
  | same h h₂ =>
    have hheads : Heads false a b := .same h
    exact and_congr (hheads.eq_iff rfl nofun) (h₂.eq_iff hk fun _ => hends)

theorem Pairs.binds_eq {bare : Bool} {a a₂ b b₂ : Option LexemeKind} (h : Pairs bare a a₂ b b₂) :
    binds a a₂ = binds b b₂ := by
  have hiff := h.name_iff (k := .symbol ":=") rfl (by decide)
  unfold binds
  split
  · next id =>
    obtain ⟨rfl, rfl⟩ := (hiff id).mp ⟨rfl, rfl⟩
    rfl
  · next hnot =>
    split
    · next id =>
      obtain ⟨ha, ha₂⟩ := (hiff id).mpr ⟨rfl, rfl⟩
      exact (hnot id ha ha₂).elim
    · rfl

theorem mirrors_namesNext {α γ : Type} {bare : Bool} {idle : α → Prop} {f : α → γ}
    {k k' : Bool → Reader α} (h : ∀ found, Mirrors bare idle f (k found) (k' found)) :
    Mirrors bare idle f (Grammar.namesNext >>= k) (Grammar.namesNext >>= k') := by
  rw [namesNext_bind, namesNext_bind]
  exact mirrors_pair fun a a₂ b b₂ hpairs => by rw [hpairs.binds_eq]; exact h _

theorem mirrors_named (h : MirrorsGrammar g g') : MirrorsTerm g.named g'.named := by
  refine mirrors_namesNext fun found => .ite (fun _ => ?_) fun _ => h.expression
  refine mirrors_here fun start start' => mirrors_name.taking fun target target' htarget => ?_
  refine (mirrors_symbol _).taking fun _ _ _ => h.expression.bind fun value value' hvalue => ?_
  refine mirrors_close ?_ start start'
  rw [Form.unplaced, Form.unplaced, hvalue, show target = target' from htarget]

theorem mirrors_item (h : MirrorsGrammar g g') : MirrorsTerm g.item g'.item := by
  refine mirrors_here fun start start' => mirrors_accept rfl nofun ?_ (mirrors_named h)
  refine (mirrors_bitOr h.factor).bind fun value value' hvalue => mirrors_close ?_ start start'
  rw [Form.unplaced, Form.unplaced, hvalue]

theorem mirrors_plainItem (h : MirrorsGrammar g g') : MirrorsTerm g.plainItem g'.plainItem := by
  refine mirrors_here fun start start' => mirrors_accept rfl nofun ?_ h.expression
  refine (mirrors_bitOr h.factor).bind fun value value' hvalue => mirrors_close ?_ start start'
  rw [Form.unplaced, Form.unplaced, hvalue]

abbrev MirrorsInside (r r' : Reader Term) : Prop := Mirrors false (fun _ => True) Term.unplaced r r'

theorem mirrors_itemsTerm {item item' : Reader Term} (h : MirrorsInside item item') :
    MirrorsInside (Grammar.itemsTerm item) (Grammar.itemsTerm item') := by
  refine mirrors_here fun start start' =>
    (mirrors_items h fun _ _ => endsItems_congr).bind fun (found, commas) (found', commas') hfound => ?_
  obtain ⟨hfound, rfl⟩ := Prod.mk.inj hfound
  have htuple : (Form.tuple found).unplaced = (Form.tuple found').unplaced := by
    rw [Form.unplaced, Form.unplaced, Term.allUnplaced_eq, Term.allUnplaced_eq, hfound]
  match found, found', hfound with
  | [], [], _ => exact mirrors_close htuple start start'
  | [one], [one'], hone =>
    cases commas with
    | true => exact mirrors_close htuple start start'
    | false => exact mirrors_pure (List.cons.inj hone).1 trivial
  | _ :: _ :: _, _ :: _ :: _, _ => exact mirrors_close htuple start start'
  | [_], _ :: _ :: _, hmap => simp at hmap
  | _ :: _ :: _, [_], hmap => simp at hmap

theorem mirrors_yieldTerm (h : MirrorsGrammar g g') : MirrorsInside g.yieldTerm g'.yieldTerm := by
  refine mirrors_here fun start start' => (mirrors_keyword _).taking fun _ _ _ =>
    mirrors_accept rfl nofun ?_ ?_
  · refine h.expression.within.bind fun value value' hvalue => mirrors_close ?_ start start'
    rw [Form.unplaced, Form.unplaced, hvalue]
  · refine mirrors_peek fun a b hab => ?_
    rw [hab.all_eq fun _ _ => endsItems_congr]
    refine .ite (fun _ => mirrors_close rfl start start') fun _ => ?_
    refine (mirrors_itemsTerm (mirrors_plainItem h).within).bind fun value value' hvalue =>
      mirrors_close ?_ start start'
    simp [Form.unplaced, hvalue]

/-- A term as a target, if it can be one. -/
theorem mirrors_ofTarget? {value value' : Term} (hvalue : value.unplaced = value'.unplaced)
    (starred : Bool) (start start' : Nat) : MirrorsTerm
    (match Grammar.target? value with
      | some found => if starred then close start (.starred found) else pure found
      | none => failure)
    (match Grammar.target? value' with
      | some found => if starred then close start' (.starred found) else pure found
      | none => failure) := by
  have hsame := Grammar.target?_congr hvalue
  cases htarget : Grammar.target? value with
  | none => exact mirrors_failure
  | some found =>
    rw [htarget] at hsame
    obtain ⟨found', hfound, hunplaced⟩ := Option.map_eq_some_iff.mp hsame.symm
    rw [hfound]
    refine .ite (fun _ => mirrors_close ?_ start start') fun _ => mirrors_pure hunplaced.symm trivial
    rw [Form.unplaced, Form.unplaced, hunplaced]

theorem mirrors_target {primary primary' : Reader Term} (h : MirrorsTerm primary primary') :
    MirrorsTerm (Grammar.target primary) (Grammar.target primary') := by
  refine mirrors_here fun start start' => mirrors_accept rfl (by decide) ?_ ?_
  · exact h.bind fun _ _ hvalue => mirrors_ofTarget? hvalue true start start'
  · exact h.bind fun _ _ hvalue => mirrors_ofTarget? hvalue false start start'

section
variable {primary primary' : Reader Term}

theorem mirrors_clause (h : MirrorsGrammar g g') (hp : MirrorsTerm primary primary') :
    Mirrors false (· = none) (Option.map Clause.unplaced) (g.clause primary)
      (g'.clause primary') := by
  have hdisjunction : MirrorsInside g.disjunction g'.disjunction := (mirrors_disjunction h).within
  have hcondition : Mirrors false (· = none) (Option.map Term.unplaced)
      (do if ← accept (.keyword "if") then pure (some (← g.disjunction)) else pure none)
      (do if ← accept (.keyword "if") then pure (some (← g'.disjunction)) else pure none) := by
    refine mirrors_accept rfl nofun ?_ (mirrors_pure rfl rfl)
    exact hdisjunction.bind fun value value' hvalue => mirrors_pure (congrArg some hvalue) trivial
  have hclause (isAsync : Bool) : Mirrors false (fun _ => False) (Option.map Clause.unplaced)
      (do
        keyword "for"
        let found ← Grammar.itemsTerm (Grammar.target primary)
        keyword "in"
        let source ← g.disjunction
        let conditions ← many do
          if ← accept (.keyword "if") then pure (some (← g.disjunction)) else pure none
        pure (some (Clause.mk isAsync found source conditions)))
      (do
        keyword "for"
        let found ← Grammar.itemsTerm (Grammar.target primary')
        keyword "in"
        let source ← g'.disjunction
        let conditions ← many do
          if ← accept (.keyword "if") then pure (some (← g'.disjunction)) else pure none
        pure (some (Clause.mk isAsync found source conditions))) := by
    refine (mirrors_keyword _).taking fun _ _ _ => ?_
    refine (mirrors_itemsTerm (mirrors_target hp).within).bind fun found found' hfound => ?_
    refine (mirrors_keyword _).taking fun _ _ _ => hdisjunction.bind fun source source' hsource => ?_
    refine (mirrors_many hcondition).bind fun conditions conditions' hconditions =>
      mirrors_pure ?_ trivial
    simp [Clause.unplaced, hfound, hsource, hconditions]
  refine mirrors_accept rfl nofun ?_ ?_
  · refine mirrors_peek fun a b _ => ?_
    exact (hclause true).mono fun _ => False.elim
  · refine mirrors_peek fun a b hab => ?_
    have hfor : a = some (.keyword "for") ↔ b = some (.keyword "for") := hab.eq_iff rfl nofun
    refine .ite_of (by simp [hfor]) (fun _ => ?_) fun _ => mirrors_pure rfl rfl
    exact (hclause false).mono fun _ => False.elim

theorem mirrors_clauses (h : MirrorsGrammar g g') (hp : MirrorsTerm primary primary') :
    Mirrors false (fun _ => True) (List.map Clause.unplaced) (g.clauses primary)
      (g'.clauses primary') := mirrors_many (mirrors_clause h hp)

theorem mirrors_loops (h : MirrorsGrammar g g') (hp : MirrorsTerm primary primary') {first first' : Term}
    (hfirst : first.unplaced = first'.unplaced) {α γ : Type} {idle : α → Prop} {f : α → γ}
    {k k' : List Clause → Reader α}
    (hk : ∀ loops loops', loops.map Clause.unplaced = loops'.map Clause.unplaced →
      Mirrors true (fun _ => False) f (k loops) (k' loops')) :
    Mirrors true idle f
      (if first.isStarred then pure [] >>= k else g.clauses primary >>= k)
      (if first'.isStarred then pure [] >>= k' else g'.clauses primary' >>= k') :=
  .ite_of (by rw [Term.isStarred_congr hfirst]) (fun _ => (hk [] [] rfl).mono fun _ => False.elim)
    fun _ => (mirrors_clauses h hp).inside hk

/-- A closing bracket, and the term that it ends. -/
theorem mirrors_closing (text : String) {form form' : Form} (hform : form.unplaced = form'.unplaced)
    (start start' : Nat) :
    Mirrors true (fun _ => False) Term.unplaced
      (do
        symbol text
        close start form)
      (do
        symbol text
        close start' form') :=
  (mirrors_symbol text).taking fun _ _ _ => mirrors_close hform start start'

theorem mirrors_parenthesized (h : MirrorsGrammar g g') (hp : MirrorsTerm primary primary')
    (start start' : Nat) :
    Mirrors true (fun _ => True) Term.unplaced (g.parenthesized primary start)
      (g'.parenthesized primary' start') := by
  refine mirrors_accept_taking rfl (mirrors_close rfl start start') ?_
  refine mirrors_peek_taking fun a b hab => ?_
  have hheads : Heads false a b := .same hab
  refine .ite_of (hheads.eq_iff rfl nofun) (fun _ => ?_) fun _ => ?_
  · refine (mirrors_yieldTerm h).inside fun value value' hvalue => ?_
    exact (mirrors_symbol _).taking fun _ _ _ => mirrors_pure hvalue trivial
  refine (mirrors_item h).bind fun first first' hfirst => ?_
  refine mirrors_loops h hp hfirst fun loops loops' hloops => ?_
  refine .ite_of (by rw [isEmpty_congr hloops]) (fun _ => ?_) fun _ => ?_
  · exact mirrors_closing _ (by simp [Form.unplaced, hfirst, hloops]) start start'
  refine (mirrors_itemsAfter (mirrors_item h).within (fun _ _ => endsItems_congr) hfirst).inside ?_
  intro (found, commas) (found', commas') hfound
  obtain ⟨hfound, rfl⟩ := Prod.mk.inj hfound
  refine (mirrors_symbol _).taking fun _ _ _ => .ite (fun _ => ?_) fun _ => ?_
  · exact mirrors_close (by simp [Form.unplaced, hfound]) start start'
  · exact .ite_of (by rw [Term.isStarred_congr hfirst]) (fun _ => mirrors_failure)
      fun _ => mirrors_pure hfirst trivial

theorem mirrors_bracketed (h : MirrorsGrammar g g') (hp : MirrorsTerm primary primary')
    (start start' : Nat) :
    Mirrors true (fun _ => True) Term.unplaced (g.bracketed primary start)
      (g'.bracketed primary' start') := by
  refine mirrors_accept_taking rfl (mirrors_close rfl start start') ?_
  refine (mirrors_item h).bind fun first first' hfirst => ?_
  refine mirrors_loops h hp hfirst fun loops loops' hloops => ?_
  refine .ite_of (by rw [isEmpty_congr hloops]) (fun _ => ?_) fun _ => ?_
  · exact mirrors_closing _ (by simp [Form.unplaced, hfirst, hloops]) start start'
  refine (mirrors_itemsAfter (mirrors_item h).within (fun _ _ => endsItems_congr) hfirst).inside ?_
  intro (found, commas) (found', commas') hfound
  exact mirrors_closing _ (by simp [Form.unplaced, (Prod.mk.inj hfound).1]) start start'

theorem mirrors_entry (h : MirrorsGrammar g g') :
    Mirrors true (fun _ => True) Entry.unplaced g.entry g'.entry := by
  refine mirrors_accept rfl nofun ?_ ?_
  · refine (mirrors_bitOr h.factor).bind fun value value' hvalue => mirrors_pure ?_ trivial
    simp [Entry.unplaced, hvalue]
  · refine h.expression.bind fun key key' hkey => (mirrors_symbol _).taking fun _ _ _ => ?_
    refine h.expression.bind fun value value' hvalue => mirrors_pure ?_ trivial
    simp [Entry.unplaced, hkey, hvalue]

theorem mirrors_dictAfter (h : MirrorsGrammar g g') (start start' : Nat) {first first' : Entry}
    (hfirst : first.unplaced = first'.unplaced) :
    Mirrors true (fun _ => False) Term.unplaced (g.dictAfter start first)
      (g'.dictAfter start' first') := by
  refine (mirrors_itemsAfter (mirrors_entry h).within (fun _ _ => endsItems_congr) hfirst).inside ?_
  intro (found, commas) (found', commas') hfound
  exact mirrors_closing _ (by simp [Form.unplaced, (Prod.mk.inj hfound).1]) start start'

theorem mirrors_braced (h : MirrorsGrammar g g') (hp : MirrorsTerm primary primary')
    (start start' : Nat) :
    Mirrors true (fun _ => True) Term.unplaced (g.braced primary start)
      (g'.braced primary' start') := by
  refine mirrors_accept_taking rfl (mirrors_close rfl start start') ?_
  refine mirrors_peek fun a b hab => ?_
  refine .ite_of (hab.eq_iff rfl fun _ => by decide) (fun _ => ?_) fun _ => ?_
  · exact (mirrors_entry h).bind fun first first' => mirrors_dictAfter h start start'
  refine mirrors_namesNext fun named => (mirrors_item h).bind fun first first' hfirst => ?_
  have hstarred := Term.isStarred_congr hfirst
  refine mirrors_accept_taking rfl (.ite_of (by rw [hstarred]) (fun _ => ?dict) fun _ => ?_)
    (.ite_of (by rw [hstarred]) (fun hnone => ?none) fun _ => ?_)
  case dict =>
    refine h.expression.bind fun value value' hvalue => ?_
    refine (mirrors_clauses h hp).inside fun loops loops' hloops => ?_
    refine .ite_of (by rw [isEmpty_congr hloops]) (fun _ => ?_) fun _ => ?_
    · exact mirrors_closing _ (by simp [Form.unplaced, hfirst, hvalue, hloops]) start start'
    · exact mirrors_dictAfter h start start' (by simp [Entry.unplaced, hfirst, hvalue])
  case none => simp at hnone
  all_goals
    refine mirrors_loops h hp hfirst fun loops loops' hloops => ?_
    refine .ite_of (by rw [isEmpty_congr hloops]) (fun _ => ?_) fun _ => ?_
    · exact mirrors_closing _ (by simp [Form.unplaced, hfirst, hloops]) start start'
    refine (mirrors_itemsAfter (mirrors_item h).within (fun _ _ => endsItems_congr) hfirst).inside ?_
    intro (found, commas) (found', commas') hfound
    exact mirrors_closing _ (by simp [Form.unplaced, (Prod.mk.inj hfound).1]) start start'

theorem mirrors_index (h : MirrorsGrammar g g') : MirrorsInside g.index g'.index := by
  have hexpression : MirrorsInside g.expression g'.expression := h.expression.within
  unfold Grammar.index
  extract_lets bound bound'
  have hbound : Mirrors false (fun _ => True) (Option.map Term.unplaced) bound bound' := by
    have hsome : Mirrors false (fun _ => True) (Option.map Term.unplaced)
        (do pure (some (← g.expression))) (do pure (some (← g'.expression))) :=
      hexpression.bind fun value value' hvalue => mirrors_pure (congrArg some hvalue) trivial
    refine mirrors_peek fun a b hab => ?_
    rcases hab.cases with rfl | ⟨s, s', -, rfl, rfl⟩ | ⟨hbare, -⟩
    · split
      case h_4 => exact hsome
      all_goals exact mirrors_pure rfl trivial
    · exact hsome
    · nomatch hbare
  refine mirrors_here fun start start' => mirrors_accept rfl nofun ?_ ?_
  · refine hexpression.bind fun value value' hvalue => mirrors_close ?_ start start'
    rw [Form.unplaced, Form.unplaced, hvalue]
  refine mirrors_namesNext fun named => .ite (fun _ => (mirrors_named h).within) fun _ => ?_
  refine hbound.bind fun lower lower' hlower => mirrors_accept rfl nofun ?_ ?_
  · refine hbound.bind fun upper upper' hupper => mirrors_accept rfl nofun ?_ ?_
    · refine hbound.bind fun step step' hstep => mirrors_close ?_ start start'
      simp [Form.unplaced, hlower, hupper, hstep]
    · refine mirrors_close ?_ start start'
      simp [Form.unplaced, hlower, hupper]
  · cases lower with
    | none =>
      obtain rfl := Option.map_eq_none_iff.mp hlower.symm
      exact mirrors_failure
    | some value =>
      obtain ⟨value', rfl, hvalue⟩ := Option.map_eq_some_iff.mp hlower.symm
      exact mirrors_pure hvalue.symm trivial

theorem mirrors_indices (h : MirrorsGrammar g g') : MirrorsInside g.indices g'.indices := by
  refine mirrors_here fun start start' => (mirrors_items (mirrors_index h)
    fun _ _ => endsItems_congr).bind fun (found, commas) (found', commas') hfound => ?_
  obtain ⟨hfound, rfl⟩ := Prod.mk.inj hfound
  have htuple : (Form.tuple found).unplaced = (Form.tuple found').unplaced := by
    rw [Form.unplaced, Form.unplaced, Term.allUnplaced_eq, Term.allUnplaced_eq, hfound]
  match found, found', hfound with
  | [], [], _ => exact mirrors_close htuple start start'
  | [one], [one'], hmap =>
    have hone : one.unplaced = one'.unplaced := (List.cons.inj hmap).1
    cases commas with
    | true => exact mirrors_close htuple start start'
    | false =>
      exact .ite_of (by rw [Term.isStarred_congr hone]) (fun _ => mirrors_close htuple start start')
        fun _ => mirrors_pure hone trivial
  | _ :: _ :: _, _ :: _ :: _, _ => exact mirrors_close htuple start start'
  | [_], _ :: _ :: _, hmap => simp at hmap
  | _ :: _ :: _, [_], hmap => simp at hmap

def Grammar.Arguments.unplaced (read : Grammar.Arguments) : Grammar.Arguments :=
  ⟨read.plain.map Term.unplaced, read.keywords.map Keyword.unplaced, read.spread⟩

/-- A name with an equals sign behind it, or anything else. -/
theorem mirrors_keywordNext {α γ : Type} {bare : Bool} {idle : α → Prop} {f : α → γ}
    {k k' : String → Reader α} {r r' : Reader α} (hk : ∀ id, Mirrors bare idle f (k id) (k' id))
    (hr : Mirrors bare idle f r r') {a a₂ b b₂ : Option LexemeKind} : Pairs bare a a₂ b b₂ →
    Mirrors bare idle f
      (match a, a₂ with
        | some (.name id), some (.symbol "=") => k id
        | _, _ => r)
      (match b, b₂ with
        | some (.name id), some (.symbol "=") => k' id
        | _, _ => r') := by
  intro hpairs
  have hiff := hpairs.name_iff (k := .symbol "=") rfl (by decide)
  split
  · next id =>
    obtain ⟨rfl, rfl⟩ := (hiff id).mp ⟨rfl, rfl⟩
    exact hk id
  · next hnot =>
    split
    · next id =>
      obtain ⟨ha, ha₂⟩ := (hiff id).mpr ⟨rfl, rfl⟩
      exact (hnot id ha ha₂).elim
    · exact hr

theorem mirrors_argument (h : MirrorsGrammar g g') {read read' : Grammar.Arguments}
    (hread : read.unplaced = read'.unplaced) :
    Mirrors false (fun _ => True) Grammar.Arguments.unplaced (g.argument read)
      (g'.argument read') := by
  have hexpression : MirrorsInside g.expression g'.expression := h.expression.within
  obtain ⟨plain, keywords, spread⟩ := read
  obtain ⟨plain', keywords', spread'⟩ := read'
  obtain ⟨hplain, hkeywords, hspread⟩ := Grammar.Arguments.mk.inj hread
  obtain rfl : spread = spread' := hspread
  have hkeyword (name : Option String) (spread : Bool) {value value' : Term}
      (hvalue : value.unplaced = value'.unplaced) :
      Grammar.Arguments.unplaced ⟨plain, .mk name value :: keywords, spread⟩ =
        Grammar.Arguments.unplaced ⟨plain', .mk name value' :: keywords', spread⟩ := by
    simp [Grammar.Arguments.unplaced, Keyword.unplaced, hvalue, hplain, hkeywords]
  have hvalue {value value' : Term} (hvalue : value.unplaced = value'.unplaced) :
      Grammar.Arguments.unplaced ⟨value :: plain, keywords, spread⟩ =
        Grammar.Arguments.unplaced ⟨value' :: plain', keywords', spread⟩ := by
    simp [Grammar.Arguments.unplaced, hvalue, hplain, hkeywords]
  refine mirrors_here fun start start' => mirrors_accept rfl nofun ?_ ?_
  · exact hexpression.bind fun value value' h => mirrors_pure (hkeyword none true h) trivial
  refine mirrors_accept rfl nofun ?_ ?_
  · refine .ite (fun _ => ?_) (absurd rfl)
    refine .ite (fun _ => mirrors_failure_bind) fun _ => hexpression.bind fun value value' h => ?_
    refine (mirrors_close ?_ start start').bind fun found found' h => mirrors_pure (hvalue h) trivial
    rw [Form.unplaced, Form.unplaced, h]
  refine .ite nofun fun _ => mirrors_pair fun a a₂ b b₂ hpairs => ?_
  refine mirrors_keywordNext (fun id => ?_) ?_ hpairs
  · refine mirrors_next.taking fun _ _ _ => mirrors_next.taking fun _ _ _ => ?_
    exact hexpression.bind fun value value' h => mirrors_pure (hkeyword (some id) spread h) trivial
  · refine .ite_of (by rw [isEmpty_congr hkeywords]) (fun _ => mirrors_failure_bind) fun _ => ?_
    exact (mirrors_named h).within.bind fun value value' h => mirrors_pure (hvalue h) trivial

theorem seals_loops (h : MirrorsGrammar g g') (hp : MirrorsTerm primary primary') {first first' : Term}
    (hfirst : first.unplaced = first'.unplaced) {α γ : Type} {f : α → γ}
    {k k' : List Clause → Reader α}
    (hk : ∀ loops loops', loops.map Clause.unplaced = loops'.map Clause.unplaced →
      Seals f (k loops) (k' loops')) :
    Seals f (if first.isStarred then pure [] >>= k else g.clauses primary >>= k)
      (if first'.isStarred then pure [] >>= k' else g'.clauses primary' >>= k') :=
  .ite_of (by rw [Term.isStarred_congr hfirst]) (fun _ => hk [] [] rfl)
    fun _ => (mirrors_clauses h hp).seals hk

/-- A group is read alike whatever stands behind its parenthesis. -/
theorem seals_parenthesized (h : MirrorsGrammar g g') (hp : MirrorsTerm primary primary')
    (start start' : Nat) :
    Seals Term.unplaced (g.parenthesized primary start) (g'.parenthesized primary' start') := by
  have hclosed {form form' : Form} (hform : form.unplaced = form'.unplaced) : Seals Term.unplaced
      (symbol ")" >>= fun _ => close start form) (symbol ")" >>= fun _ => close start' form') :=
    seals_closing rfl fun i j => ⟨_, _, i.last, j.last, rfl, rfl, congrArg (Term.mk 0 0) hform⟩
  have hpure {value value' : Term} (hvalue : value.unplaced = value'.unplaced) : Seals Term.unplaced
      (symbol ")" >>= fun _ => pure value) (symbol ")" >>= fun _ => pure value') :=
    seals_closing rfl fun i j => ⟨_, _, i.last, j.last, rfl, rfl, hvalue⟩
  refine seals_accept rfl (fun i j => ⟨_, _, i.last, j.last, rfl, rfl, rfl⟩) ?_
  refine seals_peek fun a b hab => ?_
  have hheads : Heads false a b := .same hab
  refine .ite_of (hheads.eq_iff rfl nofun) (fun _ => ?_) fun _ => ?_
  · exact (mirrors_yieldTerm h).seals fun value value' hvalue => hpure hvalue
  refine (mirrors_item h).within.seals fun first first' hfirst => ?_
  refine seals_loops h hp hfirst fun loops loops' hloops => ?_
  refine .ite_of (by rw [isEmpty_congr hloops]) (fun _ => ?_) fun _ => ?_
  · exact hclosed (by simp [Form.unplaced, hfirst, hloops])
  refine (mirrors_itemsAfter (mirrors_item h).within (fun _ _ => endsItems_congr) hfirst).seals ?_
  intro (found, commas) (found', commas') hfound
  obtain ⟨hfound, rfl⟩ := Prod.mk.inj hfound
  cases commas with
  | true => exact hclosed (by simp [Form.unplaced, hfound])
  | false =>
    dsimp only
    rw [Term.isStarred_congr hfirst]
    by_cases hstarred : first'.isStarred
    · -- a star alone between parentheses is no term
      simp only [hstarred, if_true]
      exact seals_bind_failure
    · simp only [hstarred]
      exact hpure hfirst

theorem mirrors_nextArgument (h : MirrorsGrammar g g') {read read' : Grammar.Arguments}
    (hread : read.unplaced = read'.unplaced) :
    Mirrors false (· = none) (Option.map Grammar.Arguments.unplaced) (nextArgument g read)
      (nextArgument g' read') := by
  refine mirrors_accept rfl nofun ?_ (.ite (fun _ => mirrors_pure rfl rfl) (absurd rfl))
  refine .ite nofun fun _ => mirrors_peek fun a b hab => ?_
  refine .ite_of (hab.eq_iff rfl nofun) (fun _ => ?_) fun _ => ?_
  · exact mirrors_pure (congrArg some hread) trivial
  · exact (mirrors_argument h hread).bind fun next next' hnext =>
      mirrors_pure (congrArg some hnext) trivial

theorem seals_argumentsFrom (h : MirrorsGrammar g g') {first first' : Grammar.Arguments}
    (hfirst : first.unplaced = first'.unplaced) :
    Seals Grammar.Arguments.unplaced (argumentsFrom g first) (argumentsFrom g' first') := by
  refine (mirrors_repeating (fun _ _ => mirrors_nextArgument h) hfirst).seals fun read read' hread => ?_
  obtain ⟨hplain, hkeywords, hspread⟩ := Grammar.Arguments.mk.inj hread
  refine seals_closing rfl fun i j => ⟨_, _, i.last, j.last, rfl, rfl, ?_⟩
  simp [Grammar.Arguments.unplaced, hplain, hkeywords, hspread]

/-- Arguments are read alike whatever stands behind their parenthesis. -/
theorem seals_arguments (h : MirrorsGrammar g g') (hp : MirrorsTerm primary primary')
    (start start' : Nat) :
    Seals Grammar.Arguments.unplaced (g.arguments primary start) (g'.arguments primary' start') := by
  refine seals_accept rfl (fun i j => ⟨_, _, i.last, j.last, rfl, rfl, rfl⟩) ?_
  refine .ite_of Iff.rfl nofun fun _ => (mirrors_argument h rfl).seals fun first first' hfirst => ?_
  have hmore := seals_argumentsFrom h hfirst
  obtain ⟨plain, keywords, spread⟩ := first
  obtain ⟨plain', keywords', spread'⟩ := first'
  obtain ⟨hplain, -, -⟩ := Grammar.Arguments.mk.inj hfirst
  match plain, plain', hplain with
  | [], [], _ => exact hmore
  | [one], [one'], hmap =>
    have hone : one.unplaced = one'.unplaced := (List.cons.inj hmap).1
    refine seals_loops h hp hone fun loops loops' hloops => ?_
    match loops, loops', hloops with
    | [], [], _ => exact hmore
    | _ :: _, _ :: _, hloops =>
      refine seals_closing rfl fun i j => ⟨_, _, i.last, j.last, rfl, rfl, ?_⟩
      simpa [Grammar.Arguments.unplaced, Term.unplaced, Form.unplaced, hone] using hloops
  | _ :: _ :: _, _ :: _ :: _, _ => exact hmore
  | [_], _ :: _ :: _, hmap => simp at hmap
  | _ :: _ :: _, [_], hmap => simp at hmap

end

end ViewTree.Embedded
