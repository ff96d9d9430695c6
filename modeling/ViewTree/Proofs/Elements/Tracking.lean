import ViewTree.Proofs.Capture.Group
import ViewTree.Proofs.Elements.Fields

/-!
What readers take, and how much of the strings. A reader takes lexemes from the front and knows where
the last one stopped. Main statement: where all strings are short, a grammar reads the same with any
reader of fields that reads short contents alike (`tracks_grammarAt`).
-/
namespace ViewTree.Embedded
open Reader

/-- From one input to a later one: the lexemes between them have been taken. -/
def Advances (i j : Input) : Prop :=
  ∃ used, i.rest = used ++ j.rest ∧ j.last = used.getLast?.elim i.last (·.stop)

theorem advances_refl (i : Input) : Advances i i := ⟨[], rfl, rfl⟩

theorem Advances.trans {i j k : Input} (h : Advances i j) (h' : Advances j k) : Advances i k := by
  obtain ⟨a, ha, hlast⟩ := h
  obtain ⟨b, hb, hlast'⟩ := h'
  refine ⟨a ++ b, by rw [ha, hb, List.append_assoc], ?_⟩
  rw [hlast', hlast, List.getLast?_append]
  cases b.getLast? <;> rfl

theorem Advances.mem {i j : Input} (h : Advances i j) {t : Lexeme} (ht : t ∈ j.rest) : t ∈ i.rest := by
  obtain ⟨used, hused, -⟩ := h
  exact hused ▸ List.mem_append_right used ht

/-- The lexeme is no string of `bound` characters or more. -/
def IsShort (bound : Nat) (t : Lexeme) : Prop := ∀ s, t.kind = .string s → s.body.length < bound

/-- `r` takes lexemes from the front, and `r'` reads the same where all strings are short. -/
def Tracks {α : Type} (bound : Nat) (r r' : Reader α) : Prop :=
  ∀ i x j, r i = some (x, j) →
    Advances i j ∧ ((∀ t ∈ i.rest, IsShort bound t) → r' i = some (x, j))

section
variable {α β σ : Type} {bound : Nat} {r r' s s' : Reader α} {k k' : α → Reader β}

theorem tracks_pure (x : α) : Tracks bound (pure x) (pure x) := by
  intro i y j hr
  obtain ⟨-, rfl⟩ := Prod.mk.inj (Option.some.inj hr)
  exact ⟨advances_refl i, fun _ => hr⟩

theorem tracks_failure : Tracks bound failure r' := fun _ _ _ hr => nomatch hr

theorem tracks_failure_bind {s : Reader β} :
    Tracks bound ((failure : Reader α) >>= k) s := fun _ _ _ hr => nomatch hr

theorem Tracks.bind (h : Tracks bound r r') (hk : ∀ x, Tracks bound (k x) (k' x)) :
    Tracks bound (r >>= k) (r' >>= k') := by
  intro i y j hr
  obtain ⟨⟨x, m⟩, hx, hkx⟩ := Option.bind_eq_some_iff.mp hr
  obtain ⟨hfirst, hsame⟩ := h i x m hx
  obtain ⟨hlater, hsame'⟩ := hk x m y j hkx
  refine ⟨hfirst.trans hlater, fun hshort => ?_⟩
  exact Option.bind_eq_some_iff.mpr
    ⟨(x, m), hsame hshort, hsame' fun t ht => hshort t (hfirst.mem ht)⟩

theorem Tracks.ite {p : Prop} [Decidable p] (hr : Tracks bound r r') (hs : Tracks bound s s') :
    Tracks bound (if p then r else s) (if p then r' else s') := by
  by_cases hp : p
  · rw [if_pos hp, if_pos hp]
    exact hr
  · rw [if_neg hp, if_neg hp]
    exact hs

/-- A reader that only looks. -/
theorem tracks_look (h : ∀ i, ∃ x, r i = some (x, i)) : Tracks bound r r := by
  intro i x j hr
  obtain ⟨y, hy⟩ := h i
  obtain ⟨-, rfl⟩ := Prod.mk.inj (Option.some.inj (hy.symm.trans hr))
  exact ⟨advances_refl i, fun _ => hr⟩

theorem tracks_get : Tracks bound (get : Reader Input) get := tracks_look fun i => ⟨i, rfl⟩

theorem tracks_peek : Tracks bound peek peek := tracks_look fun _ => ⟨_, rfl⟩

theorem tracks_peekSecond : Tracks bound peekSecond peekSecond := tracks_look fun _ => ⟨_, rfl⟩

theorem tracks_here : Tracks bound here here := tracks_look fun _ => ⟨_, rfl⟩

theorem tracks_close (start : Nat) (form : Form) :
    Tracks bound (close start form) (close start form) := tracks_look fun _ => ⟨_, rfl⟩

theorem tracks_next : Tracks bound next next := by
  rintro ⟨rest, last⟩ x j hr
  cases rest with
  | nil => nomatch hr
  | cons t rest =>
    obtain ⟨-, rfl⟩ := Prod.mk.inj (Option.some.inj hr)
    exact ⟨⟨[t], rfl, rfl⟩, fun _ => hr⟩

theorem tracks_expect (kind : LexemeKind) : Tracks bound (expect kind) (expect kind) :=
  tracks_next.bind fun _ => .ite (tracks_pure ()) tracks_failure

theorem tracks_symbol (text : String) : Tracks bound (symbol text) (symbol text) := tracks_expect _

theorem tracks_keyword (word : String) : Tracks bound (keyword word) (keyword word) := tracks_expect _

theorem tracks_name : Tracks bound name name := by
  refine tracks_next.bind fun kind => ?_
  split
  · exact tracks_pure _
  · exact tracks_failure

theorem tracks_accept (kind : LexemeKind) : Tracks bound (accept kind) (accept kind) :=
  tracks_peek.bind fun _ => .ite (tracks_next.bind fun _ => tracks_pure true) (tracks_pure false)

theorem tracks_rounds {step step' : σ → Reader (Option σ)} (h : ∀ s, Tracks bound (step s) (step' s))
    (count : Nat) (s : σ) : Tracks bound (rounds failure step count s) (rounds failure step' count s) := by
  induction count generalizing s with
  | zero => exact tracks_failure
  | succ count ih =>
    refine (h s).bind fun next? => ?_
    cases next? with
    | none => exact tracks_pure s
    | some t => exact ih t

theorem tracks_repeating {step step' : σ → Reader (Option σ)}
    (h : ∀ s, Tracks bound (step s) (step' s)) (s : σ) :
    Tracks bound (repeating step s) (repeating step' s) :=
  tracks_get.bind fun _ => tracks_rounds h _ s

theorem tracks_many {item item' : Reader (Option α)} (h : Tracks bound item item') :
    Tracks bound (many item) (many item') :=
  (tracks_repeating (fun _ => h.bind fun _ => tracks_pure _) []).bind fun _ => tracks_pure _

theorem tracks_itemsAfter {item item' : Reader α} (h : Tracks bound item item') (first : α)
    (ends : LexemeKind → Bool) : Tracks bound (itemsAfter first item ends) (itemsAfter first item' ends) := by
  refine (tracks_repeating (fun found => ?_) _).bind fun _ => tracks_pure _
  refine (tracks_accept _).bind fun _ => .ite (tracks_pure _) (tracks_peek.bind fun _ => ?_)
  exact .ite (tracks_pure _) (h.bind fun _ => tracks_pure _)

theorem tracks_items {item item' : Reader α} (h : Tracks bound item item') (ends : LexemeKind → Bool) :
    Tracks bound (items item ends) (items item' ends) := h.bind fun first => tracks_itemsAfter h first ends

end

/-- A grammar that reads the same as another one where all strings are short. -/
structure TracksGrammar (bound : Nat) (g g' : Grammar) : Prop where
  expression : Tracks bound g.expression g'.expression
  inversion : Tracks bound g.inversion g'.inversion
  factor : Tracks bound g.factor g'.factor

section
variable {bound : Nat} {g g' : Grammar} {operand operand' primary primary' : Reader Term}

theorem tracks_namesNext : Tracks bound Grammar.namesNext Grammar.namesNext := by
  refine tracks_peek.bind fun first? => tracks_peekSecond.bind fun second? => ?_
  split <;> exact tracks_pure _

theorem tracks_named (h : TracksGrammar bound g g') : Tracks bound g.named g'.named := by
  refine tracks_namesNext.bind fun _ => .ite ?_ h.expression
  exact tracks_here.bind fun _ => tracks_name.bind fun _ => (tracks_symbol _).bind fun _ =>
    h.expression.bind fun _ => tracks_close _ _

theorem tracks_binaryLoop (h : Tracks bound operand operand') (op? : LexemeKind → Option BinaryOp) :
    Tracks bound (Grammar.binaryLoop operand op?) (Grammar.binaryLoop operand' op?) := by
  refine tracks_here.bind fun start => h.bind fun first => tracks_repeating (fun left => ?_) first
  refine tracks_peek.bind fun kind? => ?_
  cases kind?.bind op? with
  | none => exact tracks_pure none
  | some op => exact tracks_next.bind fun _ => h.bind fun _ => (tracks_close _ _).bind fun _ => tracks_pure _

theorem tracks_bitOr (h : Tracks bound g.factor g'.factor) : Tracks bound g.bitOr g'.bitOr :=
  tracks_binaryLoop (tracks_binaryLoop (tracks_binaryLoop (tracks_binaryLoop (tracks_binaryLoop
    (tracks_binaryLoop h _) _) _) _) _) _

theorem tracks_compareOp : Tracks bound Grammar.compareOp Grammar.compareOp := by
  refine tracks_peek.bind fun kind? => ?_
  dsimp only
  split
  case h_8 => exact tracks_next.bind fun _ => (tracks_keyword _).bind fun _ => tracks_pure _
  case h_9 => exact tracks_next.bind fun _ => (tracks_accept _).bind fun _ => tracks_pure _
  case h_10 => exact tracks_pure none
  all_goals exact tracks_next.bind fun _ => tracks_pure _

theorem tracks_comparison (h : Tracks bound g.factor g'.factor) :
    Tracks bound g.comparison g'.comparison := by
  have hbitOr := tracks_bitOr h
  refine tracks_here.bind fun start => hbitOr.bind fun first => (tracks_many ?_).bind fun more =>
    .ite (tracks_pure first) (tracks_close _ _)
  refine tracks_compareOp.bind fun op? => ?_
  cases op? with
  | none => exact tracks_pure none
  | some op => exact hbitOr.bind fun _ => tracks_pure _

theorem tracks_inversionOf (h : TracksGrammar bound g g') :
    Tracks bound g.inversionOf g'.inversionOf :=
  tracks_here.bind fun _ => (tracks_accept _).bind fun _ =>
    .ite (h.inversion.bind fun _ => tracks_close _ _) (tracks_comparison h.factor)

theorem tracks_boolLoop (h : Tracks bound operand operand') (word : String) (op : BoolOp) :
    Tracks bound (Grammar.boolLoop operand word op) (Grammar.boolLoop operand' word op) := by
  refine tracks_here.bind fun start => h.bind fun first => (tracks_many ?_).bind fun more =>
    .ite (tracks_pure first) (tracks_close _ _)
  exact (tracks_accept _).bind fun _ => .ite (h.bind fun _ => tracks_pure _) (tracks_pure none)

theorem tracks_disjunction (h : TracksGrammar bound g g') :
    Tracks bound g.disjunction g'.disjunction :=
  tracks_boolLoop (tracks_boolLoop (tracks_inversionOf h) _ _) _ _

theorem tracks_item (h : TracksGrammar bound g g') : Tracks bound g.item g'.item :=
  tracks_here.bind fun _ => (tracks_accept _).bind fun _ =>
    .ite ((tracks_bitOr h.factor).bind fun _ => tracks_close _ _) (tracks_named h)

theorem tracks_plainItem (h : TracksGrammar bound g g') : Tracks bound g.plainItem g'.plainItem :=
  tracks_here.bind fun _ => (tracks_accept _).bind fun _ =>
    .ite ((tracks_bitOr h.factor).bind fun _ => tracks_close _ _) h.expression

theorem tracks_itemsTerm {item item' : Reader Term} (h : Tracks bound item item') :
    Tracks bound (Grammar.itemsTerm item) (Grammar.itemsTerm item') := by
  refine tracks_here.bind fun start => (tracks_items h _).bind fun found => ?_
  obtain ⟨found, commas⟩ := found
  dsimp only
  split
  · exact tracks_pure _
  · exact tracks_close _ _

theorem tracks_yieldTerm (h : TracksGrammar bound g g') : Tracks bound g.yieldTerm g'.yieldTerm := by
  refine tracks_here.bind fun _ => (tracks_keyword _).bind fun _ => (tracks_accept _).bind fun _ => ?_
  refine .ite (h.expression.bind fun _ => tracks_close _ _) (tracks_peek.bind fun _ => ?_)
  exact .ite (tracks_close _ _) ((tracks_itemsTerm (tracks_plainItem h)).bind fun _ => tracks_close _ _)

theorem tracks_target (h : Tracks bound primary primary') :
    Tracks bound (Grammar.target primary) (Grammar.target primary') := by
  refine tracks_here.bind fun _ => (tracks_accept _).bind fun _ => h.bind fun value => ?_
  split
  · exact .ite (tracks_close _ _) (tracks_pure _)
  · exact tracks_failure

theorem tracks_clause (h : TracksGrammar bound g g') (hp : Tracks bound primary primary') :
    Tracks bound (g.clause primary) (g'.clause primary') := by
  have hdisjunction := tracks_disjunction h
  refine (tracks_accept _).bind fun _ => tracks_peek.bind fun _ => .ite ?_ (tracks_pure none)
  refine (tracks_keyword _).bind fun _ => (tracks_itemsTerm (tracks_target hp)).bind fun _ => ?_
  refine (tracks_keyword _).bind fun _ => hdisjunction.bind fun _ => (tracks_many ?_).bind fun _ =>
    tracks_pure _
  exact (tracks_accept _).bind fun _ => .ite (hdisjunction.bind fun _ => tracks_pure _) (tracks_pure none)

theorem tracks_clauses (h : TracksGrammar bound g g') (hp : Tracks bound primary primary') :
    Tracks bound (g.clauses primary) (g'.clauses primary') := tracks_many (tracks_clause h hp)

/-- The loops of a comprehension, and what is read behind them. -/
theorem tracks_loops {α : Type} (h : TracksGrammar bound g g') (hp : Tracks bound primary primary')
    (first : Term) {k k' : List Clause → Reader α} (hk : ∀ loops, Tracks bound (k loops) (k' loops)) :
    Tracks bound (if first.isStarred then pure [] >>= k else g.clauses primary >>= k)
      (if first.isStarred then pure [] >>= k' else g'.clauses primary' >>= k') :=
  .ite ((tracks_pure []).bind hk) ((tracks_clauses h hp).bind hk)

theorem tracks_parenthesized (h : TracksGrammar bound g g') (hp : Tracks bound primary primary')
    (start : Nat) : Tracks bound (g.parenthesized primary start) (g'.parenthesized primary' start) := by
  refine (tracks_accept _).bind fun _ => .ite (tracks_close _ _) (tracks_peek.bind fun _ => .ite ?_ ?_)
  · exact (tracks_yieldTerm h).bind fun _ => (tracks_symbol _).bind fun _ => tracks_pure _
  refine (tracks_item h).bind fun first => tracks_loops h hp first fun loops => .ite ?_ ?_
  · exact (tracks_symbol _).bind fun _ => tracks_close _ _
  · exact (tracks_itemsAfter (tracks_item h) first _).bind fun _ => (tracks_symbol _).bind fun _ =>
      .ite (tracks_close _ _) (.ite tracks_failure (tracks_pure _))

theorem tracks_bracketed (h : TracksGrammar bound g g') (hp : Tracks bound primary primary')
    (start : Nat) : Tracks bound (g.bracketed primary start) (g'.bracketed primary' start) := by
  refine (tracks_accept _).bind fun _ => .ite (tracks_close _ _) ?_
  refine (tracks_item h).bind fun first => tracks_loops h hp first fun loops => .ite ?_ ?_
  · exact (tracks_symbol _).bind fun _ => tracks_close _ _
  · exact (tracks_itemsAfter (tracks_item h) first _).bind fun _ => (tracks_symbol _).bind fun _ =>
      tracks_close _ _

theorem tracks_entry (h : TracksGrammar bound g g') : Tracks bound g.entry g'.entry :=
  (tracks_accept _).bind fun _ => .ite ((tracks_bitOr h.factor).bind fun _ => tracks_pure _)
    (h.expression.bind fun _ => (tracks_symbol _).bind fun _ => h.expression.bind fun _ => tracks_pure _)

theorem tracks_dictAfter (h : TracksGrammar bound g g') (start : Nat) (first : Entry) :
    Tracks bound (g.dictAfter start first) (g'.dictAfter start first) :=
  (tracks_itemsAfter (tracks_entry h) first _).bind fun _ => (tracks_symbol _).bind fun _ =>
    tracks_close _ _

theorem tracks_braced (h : TracksGrammar bound g g') (hp : Tracks bound primary primary')
    (start : Nat) : Tracks bound (g.braced primary start) (g'.braced primary' start) := by
  refine (tracks_accept _).bind fun _ => .ite (tracks_close _ _) (tracks_peek.bind fun _ => .ite ?_ ?_)
  · exact (tracks_entry h).bind fun first => tracks_dictAfter h start first
  refine tracks_namesNext.bind fun binds => (tracks_item h).bind fun first => ?_
  refine (tracks_accept _).bind fun _ => .ite ?_ (tracks_loops h hp first fun loops => .ite
    ((tracks_symbol _).bind fun _ => tracks_close _ _)
    ((tracks_itemsAfter (tracks_item h) first _).bind fun _ => (tracks_symbol _).bind fun _ =>
      tracks_close _ _))
  refine h.expression.bind fun value => (tracks_clauses h hp).bind fun loops => .ite ?_ ?_
  · exact (tracks_symbol _).bind fun _ => tracks_close _ _
  · exact tracks_dictAfter h start _

theorem tracks_index (h : TracksGrammar bound g g') : Tracks bound g.index g'.index := by
  unfold Grammar.index
  extract_lets limit limit'
  have hlimit : Tracks bound limit limit' := by
    refine tracks_peek.bind fun kind? => ?_
    split
    case h_4 => exact h.expression.bind fun _ => tracks_pure _
    all_goals exact tracks_pure none
  refine tracks_here.bind fun start => (tracks_accept _).bind fun _ => .ite ?_ ?_
  · exact h.expression.bind fun _ => tracks_close _ _
  refine tracks_namesNext.bind fun _ => .ite (tracks_named h) (hlimit.bind fun lower => ?_)
  refine (tracks_accept _).bind fun _ => .ite (hlimit.bind fun upper => ?_) ?_
  · exact (tracks_accept _).bind fun _ => .ite (hlimit.bind fun _ => tracks_close _ _) (tracks_close _ _)
  · cases lower with
    | none => exact tracks_failure
    | some value => exact tracks_pure value

theorem tracks_indices (h : TracksGrammar bound g g') : Tracks bound g.indices g'.indices := by
  refine tracks_here.bind fun start => (tracks_items (tracks_index h) _).bind fun found => ?_
  obtain ⟨found, commas⟩ := found
  dsimp only
  split
  · exact .ite (tracks_close _ _) (tracks_pure _)
  · exact tracks_close _ _

theorem tracks_argument (h : TracksGrammar bound g g') (read : Grammar.Arguments) :
    Tracks bound (g.argument read) (g'.argument read) := by
  refine tracks_here.bind fun start => (tracks_accept _).bind fun _ => .ite ?_ ?_
  · exact h.expression.bind fun _ => tracks_pure _
  refine (tracks_accept _).bind fun _ => .ite (.ite tracks_failure_bind ?_) ?_
  · exact h.expression.bind fun _ => (tracks_close _ _).bind fun _ => tracks_pure _
  refine tracks_peek.bind fun first? => tracks_peekSecond.bind fun second? => ?_
  split
  · exact tracks_next.bind fun _ => tracks_next.bind fun _ => h.expression.bind fun _ => tracks_pure _
  · exact .ite tracks_failure_bind ((tracks_named h).bind fun _ => tracks_pure _)

theorem tracks_arguments (h : TracksGrammar bound g g') (hp : Tracks bound primary primary')
    (start : Nat) : Tracks bound (g.arguments primary start) (g'.arguments primary' start) := by
  refine (tracks_accept _).bind fun _ => .ite (tracks_pure _) ?_
  refine (tracks_argument h _).bind fun first => ?_
  extract_lets rest rest'
  have hrest (loops : List Clause) : Tracks bound (rest loops) (rest' loops) := by
    unfold rest rest'
    split
    · exact (tracks_symbol _).bind fun _ => (tracks_close _ _).bind fun _ => tracks_pure _
    · refine (tracks_repeating (fun read => ?_) first).bind fun _ => (tracks_symbol _).bind fun _ =>
        tracks_pure _
      refine (tracks_accept _).bind fun _ => .ite (tracks_pure none) (tracks_peek.bind fun _ => ?_)
      exact .ite (tracks_pure _) ((tracks_argument h read).bind fun _ => tracks_pure _)
  split
  · exact tracks_loops h hp _ hrest
  · exact (tracks_pure []).bind hrest

theorem tracks_parameter (h : TracksGrammar bound g g') (read : Grammar.Parameters) :
    Tracks bound (g.parameter read) (g'.parameter read) := by
  refine .ite tracks_failure_bind ((tracks_accept _).bind fun _ => .ite ?_ ?_)
  · exact .ite tracks_failure_bind (tracks_pure _)
  refine (tracks_accept _).bind fun _ => .ite ?_ ((tracks_accept _).bind fun _ => .ite ?_ ?_)
  · exact .ite tracks_failure_bind (tracks_name.bind fun _ => tracks_pure _)
  · refine .ite tracks_failure_bind (tracks_peek.bind fun _ => ?_)
    split
    · exact tracks_pure _
    · exact tracks_name.bind fun _ => tracks_pure _
  · refine tracks_name.bind fun id => (tracks_accept _).bind fun _ => .ite ?_ ?_
    · exact h.expression.bind fun _ => .ite tracks_failure_bind (tracks_pure _)
    · exact (tracks_pure none).bind fun _ => .ite tracks_failure_bind (tracks_pure _)

theorem tracks_parameters (h : TracksGrammar bound g g') :
    Tracks bound g.parameters g'.parameters := by
  refine (tracks_repeating (fun (read, more) => ?_) _).bind fun (read, more) =>
    .ite tracks_failure_bind (tracks_pure _)
  refine tracks_peek.bind fun _ => .ite (tracks_pure none) ?_
  exact (tracks_parameter h read).bind fun _ => (tracks_accept _).bind fun _ => tracks_pure _

theorem tracks_lambda (h : TracksGrammar bound g g') : Tracks bound g.lambda g'.lambda :=
  tracks_here.bind fun _ => (tracks_keyword _).bind fun _ => (tracks_parameters h).bind fun _ =>
    (tracks_symbol _).bind fun _ => h.expression.bind fun _ => tracks_close _ _

theorem tracks_expressionOf (h : TracksGrammar bound g g') :
    Tracks bound g.expressionOf g'.expressionOf := by
  have hdisjunction := tracks_disjunction h
  refine tracks_peek.bind fun _ => .ite (tracks_lambda h) (tracks_here.bind fun _ => ?_)
  refine hdisjunction.bind fun _ => (tracks_accept _).bind fun _ => .ite ?_ (tracks_pure _)
  exact hdisjunction.bind fun _ => (tracks_keyword _).bind fun _ => h.expression.bind fun _ =>
    tracks_close _ _

theorem tracks_stringLiterals : Tracks bound Grammar.stringLiterals Grammar.stringLiterals := by
  refine tracks_many (tracks_peek.bind fun kind? => ?_)
  split
  · exact tracks_next.bind fun _ => tracks_pure _
  · exact tracks_pure none

theorem stringLiteral?_cases {i j : Input} {found? : Option StringLiteral}
    (h : stringLiteral? i = some (found?, j)) :
    (found? = none ∧ j = i) ∨
      ∃ s t, found? = some s ∧ i.rest = t :: j.rest ∧ t.kind = .string s := by
  obtain ⟨_ | ⟨⟨kind, start, stop⟩, rest⟩, last⟩ := i
  · obtain ⟨rfl, rfl⟩ := Prod.mk.inj (Option.some.inj h)
    exact .inl ⟨rfl, rfl⟩
  cases kind with
  | string s =>
    obtain ⟨rfl, rfl⟩ := Prod.mk.inj (Option.some.inj h)
    exact .inr ⟨s, _, rfl, rfl, rfl⟩
  | _ =>
    obtain ⟨rfl, rfl⟩ := Prod.mk.inj (Option.some.inj h)
    exact .inl ⟨rfl, rfl⟩

/-- The string literals that are read are among the lexemes. -/
theorem exists_mem_of_stringLiterals {i j : Input} {found : List StringLiteral}
    (h : Grammar.stringLiterals i = some (found, j)) :
    ∀ s ∈ found, ∃ t ∈ i.rest, t.kind = .string s := by
  have hrounds (count : Nat) (before : List StringLiteral) (i j : Input) (found : List StringLiteral)
      (h : rounds (m := Reader) failure
        (fun found => do pure ((← stringLiteral?).map (· :: found))) count before i =
          some (found, j)) : ∀ s ∈ found, s ∈ before ∨ ∃ t ∈ i.rest, t.kind = .string s := by
    induction count generalizing before i with
    | zero => nomatch h
    | succ count ih =>
      obtain ⟨⟨next?, m⟩, hstep, hmore⟩ := Option.bind_eq_some_iff.mp h
      obtain ⟨⟨found?, k⟩, hfound, hnext⟩ := Option.bind_eq_some_iff.mp hstep
      obtain ⟨rfl, rfl⟩ := Prod.mk.inj (Option.some.inj hnext)
      obtain ⟨rfl, rfl⟩ | ⟨s, t, rfl, ht, hkind⟩ := stringLiteral?_cases hfound
      · obtain ⟨rfl, -⟩ := Prod.mk.inj (Option.some.inj hmore)
        exact fun s hs => .inl hs
      · intro s' hs'
        rcases ih (s :: before) k hmore s' hs' with hbefore | ⟨t', ht', hkind'⟩
        · rcases List.mem_cons.mp hbefore with rfl | hbefore
          · exact .inr ⟨t, ht ▸ List.mem_cons_self, hkind⟩
          · exact .inl hbefore
        · exact .inr ⟨t', ht ▸ List.mem_cons_of_mem t ht', hkind'⟩
  obtain ⟨⟨all, m⟩, hall, hend⟩ := Option.bind_eq_some_iff.mp h
  obtain ⟨rfl, rfl⟩ := Prod.mk.inj (Option.some.inj hend)
  intro s hs
  rcases hrounds _ [] i m all hall s (List.mem_reverse.mp hs) with hnone | hsome
  · nomatch hnone
  · exact hsome

theorem tracks_atom (h : TracksGrammar bound g g') (hp : Tracks bound primary primary')
    {inner inner' : FieldReader} (hinner : FieldsWithin bound inner inner') :
    Tracks bound (g.atom inner primary) (g'.atom inner' primary') := by
  refine tracks_here.bind fun start => tracks_peek.bind fun kind? => ?_
  split
  · intro i x j hr
    obtain ⟨⟨found, m⟩, hfound, hform⟩ := Option.bind_eq_some_iff.mp hr
    obtain ⟨htaken, hsame⟩ := @tracks_stringLiterals bound i found m hfound
    dsimp only at hform
    cases hvalue : stringsForm? inner found with
    | none =>
      rw [hvalue] at hform
      nomatch hform
    | some form =>
      rw [hvalue] at hform
      obtain ⟨hclosed, -⟩ := @tracks_close bound start form m x j hform
      refine ⟨htaken.trans hclosed, fun hshort => ?_⟩
      have hliterals : ∀ s ∈ found, s.body.length < bound := by
        intro s hs
        obtain ⟨t, ht, hkind⟩ := exists_mem_of_stringLiterals hfound s hs
        exact hshort t ht s hkind
      obtain ⟨form', hform', rfl⟩ :=
        gives_stringsForm?_of_short hinner hliterals form hvalue
      rw [bind_eq hfound, hform']
      exact hform
  · refine tracks_next.bind fun kind => ?_
    split
    case h_7 => exact tracks_parenthesized h hp start
    case h_8 => exact tracks_bracketed h hp start
    case h_9 => exact tracks_braced h hp start
    case h_10 => exact tracks_failure
    all_goals exact tracks_close _ _

theorem tracks_primaryOf (h : TracksGrammar bound g g') (hp : Tracks bound primary primary')
    {inner inner' : FieldReader} (hinner : FieldsWithin bound inner inner') :
    Tracks bound (g.primaryOf inner primary) (g'.primaryOf inner' primary') := by
  refine tracks_here.bind fun start => (tracks_atom h hp hinner).bind fun first =>
    tracks_repeating (fun value => tracks_peek.bind fun kind? => ?_) first
  split
  · exact tracks_next.bind fun _ => tracks_name.bind fun _ => (tracks_close _ _).bind fun _ => tracks_pure _
  · exact tracks_here.bind fun opening => tracks_next.bind fun _ => (tracks_arguments h hp opening).bind
      fun _ => (tracks_close _ _).bind fun _ => tracks_pure _
  · exact tracks_next.bind fun _ => (tracks_indices h).bind fun _ => (tracks_symbol _).bind fun _ =>
      (tracks_close _ _).bind fun _ => tracks_pure _
  · exact tracks_pure none

theorem tracks_power (h : Tracks bound g.factor g'.factor) (hp : Tracks bound primary primary') :
    Tracks bound (g.power primary) (g'.power primary') := by
  unfold Grammar.power
  refine tracks_here.bind fun start => ?_
  extract_lets rest rest'
  have hrest (base : Term) : Tracks bound (rest base) (rest' base) :=
    (tracks_accept _).bind fun _ => .ite (h.bind fun _ => tracks_close _ _) (tracks_pure base)
  refine (tracks_accept _).bind fun _ => .ite ?_ (hp.bind hrest)
  exact hp.bind fun _ => (tracks_close _ _).bind hrest

theorem tracks_factorOf (h : Tracks bound g.factor g'.factor) (hp : Tracks bound primary primary') :
    Tracks bound (g.factorOf primary) (g'.factorOf primary') := by
  unfold Grammar.factorOf
  refine tracks_here.bind fun start => ?_
  extract_lets signed signed'
  have hsigned (op : UnaryOp) : Tracks bound (signed op) (signed' op) :=
    tracks_next.bind fun _ => h.bind fun _ => tracks_close _ _
  refine tracks_peek.bind fun kind? => ?_
  split
  case h_4 => exact tracks_power h hp
  all_goals exact hsigned _

/-- Where all strings are short, the same is read with any reader of fields that reads short contents
alike. -/
theorem tracks_grammarAt {inner inner' : FieldReader} (hinner : FieldsWithin bound inner inner')
    (depth : Nat) :
    TracksGrammar bound (grammarAt inner depth).1 (grammarAt inner' depth).1 ∧
      Tracks bound (grammarAt inner depth).2 (grammarAt inner' depth).2 := by
  induction depth with
  | zero => exact ⟨⟨tracks_failure, tracks_failure, tracks_failure⟩, tracks_failure⟩
  | succ depth ih =>
    obtain ⟨h, hp⟩ := ih
    have hprimary := tracks_primaryOf h hp hinner
    exact ⟨⟨tracks_expressionOf h, tracks_inversionOf h, tracks_factorOf h.factor hprimary⟩, hprimary⟩

end
end ViewTree.Embedded
