import ViewTree.Embedded.Grammar
import ViewTree.Proofs.Capture.Readers

/-!
What the productions of the grammar take. Main statement: a production takes a piece that leaves the
level as it was, and a grammar as deep as the piece is long reads it as a deeper one does
(`follows_grammarAt`).
-/
namespace ViewTree.Embedded
open Reader

/-- Readers that take a piece which may stand behind any lexeme. -/
abbrev Whole {α : Type} (count : Nat) (r r' : Reader α) : Prop :=
  Follows count ⟨.start, false⟩ (fun _ => ⟨.begun, false⟩) r r'

/-- A grammar of depth `n` reads what another one does in pieces of few lexemes. -/
structure Reads (n : Nat) (g g' : Grammar) : Prop where
  expression : Follows (n - 1) ⟨.start, true⟩ (fun _ => ⟨.begun, false⟩) g.expression g'.expression
  inversion : Whole (n - 1) g.inversion g'.inversion
  factor : Whole n g.factor g'.factor

namespace Reads
variable {n : Nat} {g g' : Grammar}

theorem begun (h : Reads n g g') :
    Follows n ⟨.begun, true⟩ (fun _ => ⟨.begun, false⟩) g.expression g'.expression :=
  h.expression.lift .begun (by simp only [Zone.spent, Zone.owed]; omega)

theorem listed (h : Reads n g g') :
    Follows n ⟨.listed, true⟩ (fun _ => ⟨.listed, false⟩) g.expression g'.expression :=
  h.expression.lift .listed (by simp only [Zone.spent, Zone.owed]; omega)

theorem inside (h : Reads n g g') :
    Follows (n + 1) ⟨.inside, true⟩ (fun _ => ⟨.inside, false⟩) g.expression g'.expression :=
  h.expression.lift .inside (by simp only [Zone.spent, Zone.owed]; omega)

end Reads

section
variable {α : Type} {count : Nat} {r r' : Reader α}

theorem FollowsOn.behind {c : Bool} (h : Whole count r r') :
    Follows count ⟨.begun, c⟩ (fun _ => ⟨.begun, false⟩) r r' :=
  (h.lift .begun (Nat.le_add_right count 1)).cleared

theorem follows_binaryLoop {operand operand' : Reader Term} (h : Whole count operand operand')
    {op? : LexemeKind → Option BinaryOp}
    (hop : ∀ k op, op? k = some op → ∃ c, Mode.after? ⟨.begun, false⟩ k = some ⟨.begun, c⟩) :
    Whole count (Grammar.binaryLoop operand op?) (Grammar.binaryLoop operand' op?) := by
  refine follows_here fun start => h.bind fun first => ?_
  refine follows_repeating (fun left => follows_peek fun kind? => ?_) first
  cases kind? with
  | none => exact follows_pure none
  | some k =>
    simp only [Option.bind_some]
    cases hk : op? k with
    | none => exact follows_pure none
    | some op =>
      obtain ⟨c, hafter⟩ := hop k op hk
      refine follows_next hafter (h.behind.bind fun right => ?_)
      exact (follows_close start _).bind fun found => follows_pure _

theorem follows_bitOr {g g' : Grammar} (h : Whole count g.factor g'.factor) :
    Whole count g.bitOr g'.bitOr := by
  have honly (text : String) (op : BinaryOp)
      (htext : Mode.after? ⟨.begun, false⟩ (.symbol text) = some ⟨.begun, true⟩) :
      ∀ k found, Grammar.only text op k = some found →
        ∃ c, Mode.after? ⟨.begun, false⟩ k = some ⟨.begun, c⟩ := by
    intro k found hfound
    unfold Grammar.only at hfound
    split at hfound
    · next hk => exact ⟨true, hk ▸ htext⟩
    · nomatch hfound
  refine follows_binaryLoop (follows_binaryLoop (follows_binaryLoop (follows_binaryLoop
    (follows_binaryLoop (follows_binaryLoop h ?_) ?_) ?_) (honly _ _ rfl)) (honly _ _ rfl))
    (honly _ _ rfl)
  · intro k op hop
    unfold Grammar.termOp? at hop
    split at hop
    all_goals first | exact ⟨_, rfl⟩ | nomatch hop
  · intro k op hop
    unfold Grammar.sumOp? at hop
    split at hop
    all_goals first | exact ⟨_, rfl⟩ | nomatch hop
  · intro k op hop
    unfold Grammar.shiftOp? at hop
    split at hop
    all_goals first | exact ⟨_, rfl⟩ | nomatch hop

theorem follows_compareOp : Follows count ⟨.begun, false⟩ (fun _ => ⟨.begun, false⟩)
    Grammar.compareOp Grammar.compareOp := by
  refine follows_peek fun kind? => ?_
  dsimp only
  split
  case h_8 => 
    refine follows_next rfl ((follows_keyword rfl).bind fun _ => follows_idle _)
  case h_9 =>
    refine follows_next rfl (follows_accept rfl ?_ ?_)
    · exact follows_idle _
    · exact follows_idle _
  case h_10 => exact follows_pure none
  all_goals exact follows_next rfl (follows_idle _)

theorem follows_comparison {g g' : Grammar} (h : Whole count g.factor g'.factor) :
    Whole count g.comparison g'.comparison := by
  have hbitOr := follows_bitOr h
  refine follows_here fun start => hbitOr.bind fun first => ?_
  refine (follows_many ?_).bind fun more => ?_
  · refine follows_compareOp.bind fun op? => ?_
    cases op? with
    | none => exact follows_pure none
    | some op => exact hbitOr.behind.bind fun operand => follows_pure _
  · exact FollowsOn.ite (fun _ => follows_pure first) fun _ => follows_close start _

theorem follows_inversionOf {n : Nat} {g g' : Grammar} (h : Reads n g g') :
    Whole n g.inversionOf g'.inversionOf := by
  refine follows_here fun start => follows_accept rfl ?_ ?_
  · refine FollowsOn.ite (fun _ => ?_) fun hnot => absurd rfl hnot
    refine ((h.inversion.lift .begun ?_).cleared).bind fun operand => follows_close start _
    simp only [Zone.spent, Zone.owed]
    omega
  · exact FollowsOn.ite (fun hnot => absurd hnot Bool.false_ne_true) fun _ =>
      follows_comparison h.factor

theorem follows_boolLoop {operand operand' : Reader Term} (h : Whole count operand operand')
    {word : String} (hword : Mode.after? ⟨.begun, false⟩ (.keyword word) = some ⟨.begun, true⟩)
    (op : BoolOp) :
    Whole count (Grammar.boolLoop operand word op) (Grammar.boolLoop operand' word op) := by
  refine follows_here fun start => h.bind fun first => (follows_many ?_).bind fun more => ?_
  · refine follows_accept hword ?_ ?_
    · exact FollowsOn.ite (fun _ => h.behind.bind fun other => follows_pure _) nofun
    · exact FollowsOn.ite nofun fun _ => follows_pure none
  · exact FollowsOn.ite (fun _ => follows_pure first) fun _ => follows_close start _

theorem follows_disjunction {n : Nat} {g g' : Grammar} (h : Reads n g g') :
    Whole n g.disjunction g'.disjunction :=
  follows_boolLoop (follows_boolLoop (follows_inversionOf h) rfl .and) rfl .or

theorem follows_parameter {n : Nat} {g g' : Grammar} (h : Reads n g g') (read : Grammar.Parameters) :
    Follows n ⟨.listed, false⟩ (fun _ => ⟨.listed, false⟩) (g.parameter read)
      (g'.parameter read) := by
  unfold Grammar.parameter
  refine FollowsOn.ite (fun _ => follows_failure) fun _ => ?_
  refine follows_accept rfl ?_ ?_
  · refine FollowsOn.ite (fun _ => ?_) nofun
    exact FollowsOn.ite (fun _ => follows_failure) fun _ => follows_idle _
  refine FollowsOn.ite nofun fun _ => follows_accept rfl ?_ ?_
  · refine FollowsOn.ite (fun _ => ?_) nofun
    refine FollowsOn.ite (fun _ => follows_failure) fun _ => ?_
    exact follows_name.bind fun id => follows_idle _
  refine FollowsOn.ite nofun fun _ => follows_accept rfl ?_ ?_
  · refine FollowsOn.ite (fun _ => ?_) nofun
    refine FollowsOn.ite (fun _ => follows_failure) fun _ => follows_peek fun kind? => ?_
    dsimp only
    split
    · exact follows_idle _
    · exact (follows_name.bind fun id => follows_idle _).on
  · refine FollowsOn.ite nofun fun _ => follows_name.bind fun id => ?_
    extract_lets rest
    have hrest (c : Bool) (default : Option Term) : Follows n ⟨.listed, c⟩
        (fun _ => ⟨.listed, false⟩) (rest default) (rest default) :=
      FollowsOn.ite (fun _ => follows_failure_bind) fun _ => follows_idle _
    refine follows_accept rfl ?_ ?_
    · refine FollowsOn.ite (fun _ => ?_) nofun
      exact h.listed.bind fun value => hrest false (some value)
    · exact FollowsOn.ite nofun fun _ => hrest true none

theorem follows_parameters {n : Nat} {g g' : Grammar} (h : Reads n g g') :
    Follows n ⟨.listed, false⟩ (fun _ => ⟨.listed, false⟩) g.parameters g'.parameters := by
  have hstep (read : Grammar.Parameters) : Follows n ⟨.listed, false⟩ (fun _ => ⟨.listed, false⟩)
      (do
        let read ← g.parameter read
        pure (some (read, ← accept (.symbol ","))))
      (do
        let read ← g'.parameter read
        pure (some (read, ← accept (.symbol ",")))) := by
    refine (follows_parameter h read).bind fun read => follows_accept rfl ?_ ?_
    · exact follows_idle _
    · exact follows_pure _
  refine (follows_repeating (fun (read, more) => ?step) (({} : Grammar.Parameters), true)).bind
    fun (read, more) => ?_
  case step =>
    refine follows_peek fun kind? => ?_
    exact FollowsOn.ite (fun _ => follows_pure none) fun _ => (hstep read).on
  exact FollowsOn.ite (fun _ => follows_failure_bind) fun _ => follows_pure _

theorem follows_lambda {n : Nat} {g g' : Grammar} (h : Reads n g g') :
    Follows n ⟨.start, true⟩ (fun _ => ⟨.begun, false⟩) g.lambda g'.lambda := by
  refine follows_here fun start => (follows_keyword rfl).bind fun _ => ?_
  refine (follows_parameters h).bind fun params => (follows_symbol rfl).bind fun _ => ?_
  exact h.begun.bind fun body => follows_close start _

theorem follows_expressionOf {n : Nat} {g g' : Grammar} (h : Reads n g g') :
    Follows n ⟨.start, true⟩ (fun _ => ⟨.begun, false⟩) g.expressionOf g'.expressionOf := by
  have hdisjunction := follows_disjunction h
  refine follows_peek fun kind? => FollowsOn.ite (fun _ => (follows_lambda h).on) fun _ => ?_
  refine (follows_here fun start => hdisjunction.cleared.bind fun body => ?_).on
  refine follows_accept rfl ?_ ?_
  · refine FollowsOn.ite (fun _ => ?_) nofun
    refine hdisjunction.behind.bind fun test => (follows_keyword rfl).bind fun _ => ?_
    exact h.begun.bind fun other => follows_close start _
  · exact FollowsOn.ite nofun fun _ => follows_pure body

theorem FollowsOn.inside {n : Nat} {c : Bool} (h : Whole n r r') :
    Follows (n + 1) ⟨.inside, c⟩ (fun _ => ⟨.inside, false⟩) r r' :=
  (h.lift .inside (by simp only [Zone.spent, Zone.owed]; omega)).cleared

/-- Readers of a piece between brackets. -/
abbrev Inner {α : Type} (count : Nat) (r r' : Reader α) : Prop :=
  Follows count ⟨.inside, true⟩ (fun _ => ⟨.inside, false⟩) r r'

theorem follows_namesNext {m : Mode} :
    Follows count m (fun _ => m) Grammar.namesNext Grammar.namesNext := by
  refine follows_peek fun first? => (follows_look fun i => ⟨_, rfl⟩).bind fun second? => ?_
  split
  · exact follows_pure true
  · exact follows_pure false

theorem follows_named {n : Nat} {g g' : Grammar} (h : Reads n g g') :
    Inner (n + 1) g.named g'.named := by
  refine follows_namesNext.bind fun binds => FollowsOn.ite (fun _ => ?_) fun _ => h.inside
  refine follows_here fun start => follows_name.bind fun target => ?_
  refine (follows_symbol rfl).bind fun _ => h.inside.bind fun value => follows_close start _

theorem follows_item {n : Nat} {g g' : Grammar} (h : Reads n g g') :
    Inner (n + 1) g.item g'.item := by
  refine follows_here fun start => follows_accept rfl ?_ ?_
  · refine FollowsOn.ite (fun _ => ?_) nofun
    exact (follows_bitOr h.factor).inside.bind fun value => follows_close start _
  · exact FollowsOn.ite nofun fun _ => follows_named h

theorem follows_plainItem {n : Nat} {g g' : Grammar} (h : Reads n g g') :
    Inner (n + 1) g.plainItem g'.plainItem := by
  refine follows_here fun start => follows_accept rfl ?_ ?_
  · refine FollowsOn.ite (fun _ => ?_) nofun
    exact (follows_bitOr h.factor).inside.bind fun value => follows_close start _
  · exact FollowsOn.ite nofun fun _ => h.inside

theorem follows_itemsTerm {item item' : Reader Term} (h : Inner count item item') :
    Inner count (Grammar.itemsTerm item) (Grammar.itemsTerm item') := by
  refine follows_here fun start => (follows_items h endsItems).bind fun (found, commas) => ?_
  dsimp only
  split
  · exact follows_pure _
  · exact follows_close start _

theorem follows_yieldTerm {n : Nat} {g g' : Grammar} (h : Reads n g g') :
    Inner (n + 1) g.yieldTerm g'.yieldTerm := by
  refine follows_here fun start => (follows_keyword rfl).bind fun _ => follows_accept rfl ?_ ?_
  · refine FollowsOn.ite (fun _ => ?_) nofun
    exact h.inside.bind fun value => follows_close start _
  · refine FollowsOn.ite nofun fun _ => follows_peek fun kind? => ?_
    refine FollowsOn.ite (fun _ => ?_) fun _ => ?_
    · exact follows_end start _
    · exact ((follows_itemsTerm (follows_plainItem h)).bind fun value => follows_close start _).on

theorem follows_target {n : Nat} {primary primary' : Reader Term} (h : Whole n primary primary') :
    Inner (n + 1) (Grammar.target primary) (Grammar.target primary') := by
  refine follows_here fun start => follows_accept rfl ?_ ?_
  all_goals
    refine h.inside.bind fun value => ?_
    cases Grammar.target? value with
    | none => exact follows_failure
    | some found => exact FollowsOn.ite (fun _ => follows_close start _) fun _ => follows_pure _

theorem follows_clause {n : Nat} {g g' : Grammar} (h : Reads n g g') {primary primary' : Reader Term}
    (hp : Whole n primary primary') :
    Follows (n + 1) ⟨.inside, false⟩ (fun _ => ⟨.inside, false⟩) (g.clause primary)
      (g'.clause primary') := by
  have hdisjunction := follows_disjunction h
  refine follows_accept rfl ?_ ?_
  all_goals
    refine follows_peek fun kind? => FollowsOn.ite (fun _ => ?_) fun _ => follows_idle _
    refine ((follows_keyword rfl).bind fun _ => ?_).on
    refine (follows_itemsTerm (follows_target hp)).bind fun found => ?_
    refine (follows_keyword rfl).bind fun _ => hdisjunction.inside.bind fun source => ?_
    refine (follows_many ?_).bind fun conditions => follows_pure _
    refine follows_accept rfl ?_ ?_
    · refine FollowsOn.ite (fun _ => ?_) nofun
      exact hdisjunction.inside.bind fun condition => follows_pure _
    · exact FollowsOn.ite nofun fun _ => follows_pure none

theorem follows_clauses {n : Nat} {g g' : Grammar} (h : Reads n g g')
    {primary primary' : Reader Term} (hp : Whole n primary primary') :
    Follows (n + 1) ⟨.inside, false⟩ (fun _ => ⟨.inside, false⟩) (g.clauses primary)
      (g'.clauses primary') := follows_many (follows_clause h hp)

/-- Readers of what stands behind an opening bracket, up to the closing one. -/
abbrev Closing {α : Type} (count : Nat) (r r' : Reader α) : Prop :=
  Follows count ⟨.inside, true⟩ (fun _ => ⟨.begun, false⟩) r r'

section
variable {n : Nat} {g g' : Grammar} {primary primary' : Reader Term}

theorem follows_loops (h : Reads n g g') (hp : Whole n primary primary') (p : Prop) [Decidable p]
    {k k' : List Clause → Reader α}
    (hk : ∀ loops, Follows (n + 1) ⟨.inside, false⟩ (fun _ => ⟨.begun, false⟩) (k loops) (k' loops)) :
    Follows (n + 1) ⟨.inside, false⟩ (fun _ => ⟨.begun, false⟩)
      (if p then pure [] >>= k else g.clauses primary >>= k)
      (if p then pure [] >>= k' else g'.clauses primary' >>= k') :=
  FollowsOn.ite (fun _ => hk []) fun _ => (follows_clauses h hp).bind hk

theorem follows_parenthesized (h : Reads n g g') (hp : Whole n primary primary') (start : Nat) :
    Closing (n + 1) (g.parenthesized primary start) (g'.parenthesized primary' start) := by
  refine follows_accept rfl ?_ ?_
  · refine FollowsOn.ite (fun _ => ?_) nofun
    exact follows_end start _
  refine FollowsOn.ite nofun fun _ => follows_peek fun kind? => ?_
  refine FollowsOn.ite (fun _ => ?_) fun _ => ?_
  · exact ((follows_yieldTerm h).bind fun value => (follows_symbol rfl).bind fun _ => follows_idle _).on
  refine ((follows_item h).bind fun first => ?_).on
  refine follows_loops h hp _ fun loops => FollowsOn.ite (fun _ => ?_) fun _ => ?_
  · refine (follows_symbol rfl).bind fun _ => ?_
    exact follows_end start _
  refine (follows_itemsAfter (follows_item h) first endsItems).bind fun (found, commas) => ?_
  refine (follows_symbol rfl).bind fun _ => FollowsOn.ite (fun _ => ?_) fun _ => ?_
  · exact follows_end start _
  · exact FollowsOn.ite (fun _ => follows_failure) fun _ => follows_idle _

theorem follows_bracketed (h : Reads n g g') (hp : Whole n primary primary') (start : Nat) :
    Closing (n + 1) (g.bracketed primary start) (g'.bracketed primary' start) := by
  refine follows_accept rfl ?_ ?_
  · exact FollowsOn.ite (fun _ => follows_end start _) nofun
  refine FollowsOn.ite nofun fun _ => (follows_item h).bind fun first => ?_
  refine follows_loops h hp _ fun loops => FollowsOn.ite (fun _ => ?_) fun _ => ?_
  · exact (follows_symbol rfl).bind fun _ => follows_end start _
  refine (follows_itemsAfter (follows_item h) first endsItems).bind fun (found, _) => ?_
  exact (follows_symbol rfl).bind fun _ => follows_end start _

theorem follows_entry (h : Reads n g g') : Inner (n + 1) g.entry g'.entry := by
  refine follows_accept rfl ?_ ?_
  · refine FollowsOn.ite (fun _ => ?_) nofun
    exact (follows_bitOr h.factor).inside.bind fun value => follows_pure _
  · refine FollowsOn.ite nofun fun _ => h.inside.bind fun key => ?_
    exact (follows_symbol rfl).bind fun _ => h.inside.bind fun value => follows_pure _

theorem follows_dictAfter (h : Reads n g g') (start : Nat) (first : Entry) :
    Follows (n + 1) ⟨.inside, false⟩ (fun _ => ⟨.begun, false⟩) (g.dictAfter start first)
      (g'.dictAfter start first) := by
  refine (follows_itemsAfter (follows_entry h) first endsItems).bind fun (found, _) => ?_
  exact (follows_symbol rfl).bind fun _ => follows_end start _

theorem follows_braced (h : Reads n g g') (hp : Whole n primary primary') (start : Nat) :
    Closing (n + 1) (g.braced primary start) (g'.braced primary' start) := by
  refine follows_accept rfl ?_ ?_
  · exact FollowsOn.ite (fun _ => follows_end start _) nofun
  refine FollowsOn.ite nofun fun _ => follows_peek fun kind? => ?_
  refine FollowsOn.ite (fun _ => ?_) fun _ => ?_
  · exact ((follows_entry h).bind fun first => follows_dictAfter h start first).on
  refine (follows_namesNext.bind fun binds => (follows_item h).bind fun first => ?_).on
  refine follows_accept rfl (FollowsOn.ite (fun _ => ?dict) fun _ => ?_)
    (FollowsOn.ite (fun hnone => ?none) fun _ => ?_)
  case dict =>
    refine h.inside.bind fun value => (follows_clauses h hp).bind fun loops => ?_
    refine FollowsOn.ite (fun _ => ?_) fun _ => follows_dictAfter h start _
    exact (follows_symbol rfl).bind fun _ => follows_end start _
  case none => simp at hnone
  all_goals
    refine (follows_loops h hp _ fun loops => FollowsOn.ite (fun _ => ?_) fun _ => ?_).cleared
    · exact (follows_symbol rfl).bind fun _ => follows_end start _
    refine (follows_itemsAfter (follows_item h) first endsItems).bind fun (found, _) => ?_
    exact (follows_symbol rfl).bind fun _ => follows_end start _

theorem follows_index (h : Reads n g g') : Inner (n + 1) g.index g'.index := by
  unfold Grammar.index
  extract_lets bound bound'
  have hbound : Inner (n + 1) bound bound' := by
    refine follows_peek fun kind? => ?_
    split
    case h_4 => exact (h.inside.bind fun value => follows_pure _).on
    all_goals exact follows_idle none
  refine follows_here fun start => follows_accept rfl ?_ ?_
  · refine FollowsOn.ite (fun _ => ?_) nofun
    exact h.inside.bind fun value => follows_close start _
  refine FollowsOn.ite nofun fun _ => follows_namesNext.bind fun binds => ?_
  refine FollowsOn.ite (fun _ => follows_named h) fun _ => hbound.bind fun lower => ?_
  refine follows_accept rfl ?_ ?_
  · refine FollowsOn.ite (fun _ => ?_) nofun
    refine hbound.bind fun upper => follows_accept rfl ?_ ?_
    · exact FollowsOn.ite (fun _ => hbound.bind fun step => follows_close start _) nofun
    · exact FollowsOn.ite nofun fun _ => follows_close start _
  · refine FollowsOn.ite nofun fun _ => ?_
    cases lower with
    | none => exact follows_failure
    | some value => exact follows_pure value

theorem follows_indices (h : Reads n g g') : Inner (n + 1) g.indices g'.indices := by
  refine follows_here fun start => (follows_items (follows_index h) endsItems).bind ?_
  intro (found, commas)
  dsimp only
  split
  · exact FollowsOn.ite (fun _ => follows_close start _) fun _ => follows_pure _
  · exact follows_close start _

theorem follows_argument (h : Reads n g g') (read : Grammar.Arguments) :
    Inner (n + 1) (g.argument read) (g'.argument read) := by
  refine follows_here fun start => follows_accept rfl ?_ ?_
  · refine FollowsOn.ite (fun _ => ?_) nofun
    exact h.inside.bind fun value => follows_pure _
  refine FollowsOn.ite nofun fun _ => follows_accept rfl ?_ ?_
  · refine FollowsOn.ite (fun _ => ?_) nofun
    refine FollowsOn.ite (fun _ => follows_failure_bind) fun _ => ?_
    exact h.inside.bind fun value => (follows_close start _).bind fun found => follows_pure _
  · refine FollowsOn.ite nofun fun _ => follows_peek fun first? => follows_peekSecond ?_
    intro second?
    split
    · exact follows_next_next rfl rfl (h.inside.bind fun value => follows_pure _)
    · refine FollowsOn.ite (fun _ => follows_failure_bind) fun _ => ?_
      exact ((follows_named h).bind fun value => follows_pure _).on

def nextArgument (g : Grammar) (read : Grammar.Arguments) : Reader (Option Grammar.Arguments) := do
  if !(← accept (.symbol ",")) then pure none
  else if (← peek) = some (.symbol ")") then pure (some read)
  else pure (some (← g.argument read))

/-- What reads the arguments behind the first one, and the parenthesis that closes them. -/
def argumentsFrom (g : Grammar) (first : Grammar.Arguments) : Reader Grammar.Arguments := do
  let read ← repeating (nextArgument g) first
  symbol ")"
  pure ⟨read.plain.reverse, read.keywords.reverse, read.spread⟩

theorem follows_nextArgument (h : Reads n g g') (read : Grammar.Arguments) :
    Follows (n + 1) ⟨.inside, false⟩ (fun _ => ⟨.inside, false⟩) (nextArgument g read)
      (nextArgument g' read) := by
  refine follows_accept rfl ?_ ?_
  · refine FollowsOn.ite nofun fun _ => follows_peek fun kind? => ?_
    refine FollowsOn.ite (fun _ => follows_idle _) fun _ => ?_
    exact ((follows_argument h read).bind fun read => follows_pure _).on
  · exact FollowsOn.ite (fun _ => follows_pure none) nofun

theorem follows_arguments (h : Reads n g g') (hp : Whole n primary primary') (start : Nat) :
    Closing (n + 1) (g.arguments primary start) (g'.arguments primary' start) := by
  refine follows_accept rfl ?_ ?_
  · exact FollowsOn.ite (fun _ => follows_idle _) nofun
  refine FollowsOn.ite nofun fun _ => (follows_argument h {}).bind fun first => ?_
  extract_lets rest rest'
  have hfrom : Follows (n + 1) ⟨.inside, false⟩ (fun _ => ⟨.begun, false⟩) (argumentsFrom g first)
      (argumentsFrom g' first) :=
    (follows_repeating (follows_nextArgument h) first).bind fun read =>
      (follows_symbol rfl).bind fun _ => follows_idle _
  have hrest (loops : List Clause) : Follows (n + 1) ⟨.inside, false⟩ (fun _ => ⟨.begun, false⟩)
      (rest loops) (rest' loops) := by
    dsimp only [rest, rest']
    split
    · refine (follows_symbol rfl).bind fun _ => (follows_close start _).bind fun found => ?_
      exact follows_idle _
    · exact hfrom
  split
  · exact FollowsOn.ite (fun _ => hrest []) fun _ => (follows_clauses h hp).bind hrest
  · exact hrest []

def stringLiteral? : Reader (Option StringLiteral) := do
  match ← peek with
  | some (.string s) =>
    let _ ← next
    pure (some s)
  | _ => pure none

theorem stringLiteral?_of_next {s : StringLiteral} {i : Input} (h : Next (some (.string s)) i) :
    ∃ t j, i.rest = t :: j.rest ∧ t.kind = .string s ∧ stringLiteral? i = some (some s, j) := by
  obtain ⟨rest, last⟩ := i
  match rest with
  | [] => nomatch h
  | ⟨kind, start, stop⟩ :: rest =>
    obtain rfl : kind = .string s := Option.some.inj h
    exact ⟨_, ⟨rest, stop⟩, rfl, rfl, rfl⟩

theorem follows_stringLiterals {s : StringLiteral} :
    FollowsOn (Next (some (.string s))) count ⟨.start, false⟩ (fun _ => ⟨.begun, false⟩)
      Grammar.stringLiterals Grammar.stringLiterals := by
  have hstep (found : List StringLiteral) : Follows count ⟨.begun, false⟩ (fun _ => ⟨.begun, false⟩)
      (do pure ((← stringLiteral?).map (· :: found)))
      (do pure ((← stringLiteral?).map (· :: found))) := by
    refine FollowsOn.bind (follows_peek fun kind? => ?_) fun next => follows_pure _
    split
    · exact follows_next rfl (follows_idle _)
    · exact follows_pure none
  refine FollowsOn.bind (follows_get fun i hi => ?_) fun found => follows_pure _
  -- the first round takes a literal, so the loop behind it has begun
  obtain ⟨t, j, ht, hkind, hread⟩ := stringLiteral?_of_next hi
  have hfirst : ∀ i' x i'', i' = i →
      (do pure ((← stringLiteral?).map (· :: []))) i' = some (x, i'') → x = some [s] ∧ i'' = j := by
    rintro i' x i'' rfl hr
    obtain ⟨⟨y, j'⟩, hy, hx⟩ := Option.bind_eq_some_iff.mp hr
    obtain ⟨rfl, rfl⟩ := Prod.mk.inj (Option.some.inj (hread.symm.trans hy))
    obtain ⟨rfl, rfl⟩ := Prod.mk.inj (Option.some.inj hx)
    exact ⟨rfl, rfl⟩
  have htake : FollowsOn (· = i) count ⟨.start, false⟩ (fun _ => ⟨.begun, true⟩)
      (do pure ((← stringLiteral?).map (· :: []))) (do pure ((← stringLiteral?).map (· :: []))) := by
    refine follows_take fun i' x i'' hi' hr => ⟨t, ?_, by rw [hkind]; rfl⟩
    rw [hi', (hfirst i' x i'' hi' hr).2, ht]
  refine htake.bind_of fun i' x i'' hi' hr => ?_
  obtain ⟨rfl, -⟩ := hfirst i' x i'' hi' hr
  exact (follows_rounds hstep i.rest.length [s]).cleared

theorem follows_atom (h : Reads n g g') (inner : FieldReader) (hp : Whole n primary primary') :
    Whole (n + 1) (g.atom inner primary) (g'.atom inner primary') := by
  refine follows_here fun start => follows_peek fun kind? => ?_
  split
  · refine follows_stringLiterals.bind fun found => ?_
    split
    · exact follows_close start _
    · exact follows_failure
  · refine follows_next_of fun kind => ?_
    split
    case h_7 => exact .inl ⟨_, rfl, follows_parenthesized h hp start⟩
    case h_8 => exact .inl ⟨_, rfl, follows_bracketed h hp start⟩
    case h_9 => exact .inl ⟨_, rfl, follows_braced h hp start⟩
    case h_10 => exact .inr rfl
    all_goals exact .inl ⟨_, rfl, follows_end start _⟩

theorem follows_primaryOf (h : Reads n g g') (inner : FieldReader) (hp : Whole n primary primary') :
    Whole (n + 1) (g.primaryOf inner primary) (g'.primaryOf inner primary') := by
  refine follows_here fun start => (follows_atom h inner hp).bind fun first => ?_
  refine follows_repeating (fun value => follows_peek fun kind? => ?_) first
  split
  · refine follows_next rfl (follows_name.bind fun attr => ?_)
    exact (follows_end start _).bind fun found => follows_pure _
  · refine (follows_here fun opening => follows_next rfl ?_)
    refine (follows_arguments h hp opening).bind fun read => ?_
    exact (follows_close start _).bind fun found => follows_pure _
  · refine follows_next rfl ((follows_indices h).bind fun found => (follows_symbol rfl).bind ?_)
    intro _
    exact (follows_end start _).bind fun found => follows_pure _
  · exact follows_pure none

theorem FollowsOn.next {c : Bool} (h : Whole n r r') :
    Follows (n + 1) ⟨.begun, c⟩ (fun _ => ⟨.begun, false⟩) r r' :=
  (h.lift .begun (Nat.le_refl (n + 1))).cleared

theorem follows_power (h : Whole n g.factor g'.factor) (hp : Whole (n + 1) primary primary') :
    Whole (n + 1) (g.power primary) (g'.power primary') := by
  unfold Grammar.power
  refine follows_here fun start => ?_
  extract_lets rest rest'
  have hrest (base : Term) : Follows (n + 1) ⟨.begun, false⟩ (fun _ => ⟨.begun, false⟩) (rest base)
      (rest' base) := by
    refine follows_accept rfl ?_ ?_
    · exact FollowsOn.ite (fun _ => h.next.bind fun exponent => follows_close start _) nofun
    · exact FollowsOn.ite nofun fun _ => follows_pure base
  refine follows_accept rfl ?_ ?_
  · refine FollowsOn.ite (fun _ => ?_) nofun
    exact hp.behind.bind fun value => (follows_close start _).bind hrest
  · exact FollowsOn.ite nofun fun _ => hp.bind hrest

theorem follows_factorOf (h : Whole n g.factor g'.factor) (hp : Whole (n + 1) primary primary') :
    Whole (n + 1) (g.factorOf primary) (g'.factorOf primary') := by
  refine follows_here fun start => follows_peek fun kind? => ?_
  split
  case h_4 => exact (follows_power h hp).on
  all_goals exact follows_next rfl (h.next.bind fun operand => follows_close start _)

end

/-- A grammar of any depth, read with one of depth `n`. -/
theorem follows_grammarAt (inner : FieldReader) (depth n : Nat) :
    Reads n (grammarAt inner depth).1 (grammarAt inner n).1 ∧
      Whole n (grammarAt inner depth).2 (grammarAt inner n).2 := by
  induction depth generalizing n with
  | zero => exact ⟨⟨follows_failure, follows_failure, follows_failure⟩, follows_failure⟩
  | succ depth ih =>
    cases n with
    | zero =>
      obtain ⟨h, hp⟩ := ih 0
      have hprimary := follows_primaryOf h inner hp
      have hexpression := follows_expressionOf h
      have hinversion := follows_inversionOf h
      have hfactor := follows_factorOf h.factor hprimary
      exact ⟨⟨hexpression.zero, hinversion.zero, hfactor.zero⟩, hprimary.zero⟩
    | succ n =>
      obtain ⟨h, hp⟩ := ih n
      have hprimary := follows_primaryOf h inner hp
      have hexpression := follows_expressionOf h
      have hinversion := follows_inversionOf h
      have hfactor := follows_factorOf h.factor hprimary
      exact ⟨⟨hexpression, hinversion, hfactor⟩, hprimary⟩

end
end ViewTree.Embedded
