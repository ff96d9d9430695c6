import ViewTree.Embedded.Expression
import ViewTree.Proofs.Capture.Productions

/-!
An expression between parentheses. Main statement: what the grammar reads as an expression up to the
closing parenthesis is what the group reads as (`readTerm?_of_isExpression`).
-/
namespace ViewTree.Embedded
open Reader

/-- The text between parentheses is an expression: it holds no character that ends texts, and the
grammar, at some depth, reads as an expression all its lexemes up to the closing parenthesis. -/
structure IsExpression (text : String) (term : Term) : Prop where
  not_ended : ∀ c ∈ text.toList, c.toNat ≠ 0
  reads : ∃ (depth : Nat) (opening closing ending : Lexeme) (lexemes : List Lexeme) (last : Nat),
    scan (grouped text) = some (opening :: lexemes ++ [closing, ending]) ∧
      closing.kind = .symbol ")" ∧ ending.kind = .lineEnd ∧
      (grammarAt (readField (grouped text).length) depth).1.expression
        ⟨lexemes ++ [closing, ending], opening.stop⟩ = some (term, ⟨[closing, ending], last⟩)

variable {α β : Type}

theorem bind_eq {r : Reader α} {k : α → Reader β} {i j : Input} {x : α} (h : r i = some (x, j)) :
    (r >>= k) i = k x j := by
  show (r i).bind _ = _
  rw [h]
  rfl

theorem bind_eq_none {r : Reader α} {k : α → Reader β} {i : Input} (h : r i = none) :
    (r >>= k) i = none := by
  show (r i).bind _ = _
  rw [h]
  rfl

theorem here_eq (i : Input) : here i = some (i.rest.head?.elim 0 (·.start), i) := rfl

theorem peekSecond_eq (i : Input) : peekSecond i = some (i.rest[1]?.map (·.kind), i) := rfl

theorem peek_of_next {kind? : Option LexemeKind} {i : Input} (h : Next kind? i) :
    peek i = some (kind?, i) := congrArg (fun k? => some (k?, i)) h

theorem expect_eq {t : Lexeme} {kind : LexemeKind} (ht : t.kind = kind) (rest : List Lexeme)
    (last : Nat) : expect kind ⟨t :: rest, last⟩ = some ((), ⟨rest, t.stop⟩) := by
  show (if t.kind = kind then pure () else failure : Reader Unit) ⟨rest, t.stop⟩ = _
  rw [if_pos ht]
  rfl

theorem symbol_eq {t : Lexeme} {text : String} (ht : t.kind = .symbol text) (rest : List Lexeme)
    (last : Nat) : symbol text ⟨t :: rest, last⟩ = some ((), ⟨rest, t.stop⟩) := expect_eq ht rest last

theorem accept_eq {t : Lexeme} {kind : LexemeKind} (ht : t.kind = kind) (rest : List Lexeme)
    (last : Nat) : accept kind ⟨t :: rest, last⟩ = some (true, ⟨rest, t.stop⟩) := by
  have hnext : Next (some kind) ⟨t :: rest, last⟩ := congrArg some ht
  unfold accept
  rw [bind_eq (peek_of_next hnext), if_pos rfl]
  rfl

/-- Lexemes that no expression starts with. -/
def isStray (k : LexemeKind) : Bool :=
  k = .symbol "*" || k = .symbol "**" || k = .symbol ")" || k = .keyword "yield"

theorem kinds_of_isStray {k : LexemeKind} (h : isStray k) :
    k = .symbol "*" ∨ k = .symbol "**" ∨ k = .symbol ")" ∨ k = .keyword "yield" := by
  simpa [isStray, or_assoc] using h

theorem accept_of_other {k : LexemeKind} {i : Input} (hi : Next (some k) i) (kind : LexemeKind)
    (h : k ≠ kind) : accept kind i = some (false, i) :=
  accept_of_not fun hkind => h (Option.some.inj (hi.symm.trans hkind))

/-- Lexemes that an operator in front of what it applies to starts with. -/
def isOperator (k : LexemeKind) : Bool :=
  k = .keyword "await" || k = .keyword "not" || k = .keyword "lambda" || k = .symbol "+" ||
    k = .symbol "-" || k = .symbol "~"

theorem isOperator_of_isStray {k : LexemeKind} (h : isStray k) : isOperator k = false := by
  rcases kinds_of_isStray h with rfl | rfl | rfl | rfl <;> decide

section
variable {g : Grammar} {primary : Reader Term} {inner : FieldReader} {k : LexemeKind} {i : Input}

theorem factorOf_eq (hi : Next (some k) i) (hk : isOperator k = false) :
    g.factorOf primary i = g.power primary i := by
  unfold Grammar.factorOf
  dsimp only
  rw [bind_eq (here_eq i), bind_eq (peek_of_next hi)]
  generalize hkind : some k = kind?
  split
  case h_4 => rfl
  all_goals
    obtain rfl := Option.some.inj hkind
    exact absurd hk (by decide)

theorem primaryOf_of_stray (hk : isStray k) (hi : Next (some k) i) :
    g.primaryOf inner primary i = none := by
  have hatom : g.atom inner primary i = none := by
    obtain ⟨rest, last⟩ := i
    match rest with
    | [] => nomatch hi
    | ⟨kind, start, stop⟩ :: rest =>
      obtain rfl : kind = k := Option.some.inj hi
      rcases kinds_of_isStray hk with rfl | rfl | rfl | rfl <;> rfl
  unfold Grammar.primaryOf
  rw [bind_eq (here_eq i), bind_eq_none hatom]

theorem factorOf_eq_none (hi : Next (some k) i) (hk : isOperator k = false)
    (hprimary : primary i = none) : g.factorOf primary i = none := by
  have hpower : g.power primary i = none := by
    have hawait : k ≠ .keyword "await" := fun h => absurd hk (h ▸ by decide)
    unfold Grammar.power
    dsimp only
    rw [bind_eq (here_eq i), bind_eq (accept_of_other hi _ hawait), if_neg nofun,
      bind_eq_none hprimary]
  rw [factorOf_eq hi hk, hpower]

theorem bitOr_eq_none (hfactor : g.factor i = none) : g.bitOr i = none := by
  have hloop {operand : Reader Term} {op? : LexemeKind → Option BinaryOp}
      (h : operand i = none) : Grammar.binaryLoop operand op? i = none := by
    unfold Grammar.binaryLoop
    rw [bind_eq (here_eq i), bind_eq_none h]
  exact hloop (hloop (hloop (hloop (hloop (hloop hfactor)))))

theorem expressionOf_eq_none (hi : Next (some k) i) (hk : isOperator k = false)
    (hfactor : g.factor i = none) : g.expressionOf i = none := by
  have hcomparison : g.comparison i = none := by
    unfold Grammar.comparison
    rw [bind_eq (here_eq i), bind_eq_none (bitOr_eq_none hfactor)]
  have hnot : k ≠ .keyword "not" := fun h => absurd hk (h ▸ by decide)
  have hinversion : g.inversionOf i = none := by
    unfold Grammar.inversionOf
    rw [bind_eq (here_eq i), bind_eq (accept_of_other hi _ hnot), if_neg nofun, hcomparison]
  have hdisjunction : g.disjunction i = none := by
    unfold Grammar.disjunction Grammar.boolLoop
    rw [bind_eq (here_eq i), bind_eq_none]
    rw [bind_eq (here_eq i), bind_eq_none hinversion]
  have hlambda : some k ≠ some (LexemeKind.keyword "lambda") :=
    fun h => absurd hk (Option.some.inj h ▸ by decide)
  unfold Grammar.expressionOf
  rw [bind_eq (peek_of_next hi), if_neg hlambda, bind_eq (here_eq i), bind_eq_none hdisjunction]

end

/-- No expression starts with a star, two of them, a closing parenthesis or a `yield`. -/
theorem not_stray_of_expression {inner : FieldReader} {depth : Nat} {i i' : Input} {term : Term}
    {k : LexemeKind} (h : (grammarAt inner depth).1.expression i = some (term, i'))
    (hi : Next (some k) i) : ¬isStray k := by
  intro hk
  have hother := isOperator_of_isStray hk
  have hfactor : ∀ depth, (grammarAt inner depth).1.factor i = none
    | 0 => rfl
    | _ + 1 => factorOf_eq_none hi hother (primaryOf_of_stray hk hi)
  match depth with
  | 0 => nomatch h
  | depth + 1 =>
    have hnone := expressionOf_eq_none hi hother (hfactor depth)
    nomatch h.symm.trans hnone

def Yields (Q : α → Prop) (r : Reader α) : Prop := ∀ i x i', r i = some (x, i') → Q x

namespace Yields
variable {Q : α → Prop} {Q' : β → Prop} {r s : Reader α} {k : α → Reader β}

theorem pure {x : α} (h : Q x) : Yields Q (pure x) := by
  intro i y i' hr
  obtain ⟨rfl, -⟩ := Prod.mk.inj (Option.some.inj hr)
  exact h

theorem bind_of (hr : Yields Q r) (h : ∀ x, Q x → Yields Q' (k x)) : Yields Q' (r >>= k) := by
  intro i y i' hi
  obtain ⟨⟨x, j⟩, hx, hk⟩ := Option.bind_eq_some_iff.mp hi
  exact h x (hr i x j hx) j y i' hk

theorem bind (h : ∀ x, Yields Q' (k x)) : Yields Q' (r >>= k) :=
  bind_of (Q := fun _ => True) (fun _ _ _ _ => trivial) fun x _ => h x

theorem failure : Yields Q failure := fun _ _ _ hr => nomatch hr

theorem ite {p : Prop} [Decidable p] (hr : p → Yields Q r) (hs : ¬p → Yields Q s) :
    Yields Q (if p then r else s) := by
  by_cases hp : p
  · rw [if_pos hp]
    exact hr hp
  · rw [if_neg hp]
    exact hs hp

theorem rounds {step : α → Reader (Option α)}
    (h : ∀ x, Q x → Yields (fun next? => ∀ next ∈ next?, Q next) (step x)) (n : Nat) {x : α}
    (hx : Q x) : Yields Q (ViewTree.rounds Alternative.failure step n x) := by
  induction n generalizing x with
  | zero => exact failure
  | succ n ih =>
    refine bind_of (h x hx) fun next? hnext => ?_
    cases next? with
    | none => exact pure hx
    | some next => exact ih (hnext next rfl)

theorem repeating {step : α → Reader (Option α)}
    (h : ∀ x, Q x → Yields (fun next? => ∀ next ∈ next?, Q next) (step x)) {x : α} (hx : Q x) :
    Yields Q (repeating step x) := bind fun _ => rounds h _ hx

end Yields

/-- Strings next to each other are a literal, or a text with replacement fields. -/
theorem cases_of_stringsForm? {inner : FieldReader} {literals : List StringLiteral} {form : Form}
    (h : stringsForm? inner literals = some form) :
    (∃ value, form = .literal value) ∨ ∃ pieces, form = .format pieces := by
  unfold stringsForm? at h
  split at h
  · obtain ⟨values, -, hform⟩ := Option.bind_eq_some_iff.mp h
    exact .inl ⟨_, (Option.some.inj hform).symm⟩
  split at h
  · nomatch h
  obtain ⟨pieces, -, hform⟩ := Option.bind_eq_some_iff.mp h
  dsimp only at hform
  split at hform
  · exact .inr ⟨_, (Option.some.inj hform).symm⟩
  · exact .inl ⟨_, (Option.some.inj hform).symm⟩

abbrev Unstarred (r : Reader Term) : Prop := Yields (fun t => t.isStarred = false) r

namespace Unstarred
open Yields

theorem close {start : Nat} {form : Form} (h : ∀ stop, (Term.mk start stop form).isStarred = false) :
    Unstarred (close start form) := bind fun i => pure (h i.last)

theorem closeSome {start : Nat} {form : Form}
    (h : ∀ stop, (Term.mk start stop form).isStarred = false) :
    Yields (fun t? => ∀ t ∈ t?, t.isStarred = false) (do pure (some (← Reader.close start form))) :=
  bind_of (close h) fun _ ht => pure fun _ hsome => Option.some.inj hsome ▸ ht

theorem binaryLoop {operand : Reader Term} (h : Unstarred operand)
    (op? : LexemeKind → Option BinaryOp) : Unstarred (Grammar.binaryLoop operand op?) := by
  refine bind fun start => bind_of h fun first hfirst => repeating (fun left _ => ?_) hfirst
  refine bind fun kind? => ?_
  cases kind?.bind op? with
  | none => exact pure nofun
  | some op => exact bind fun _ => bind fun right => closeSome fun _ => rfl

theorem boolLoop {operand : Reader Term} (h : Unstarred operand) (word : String) (op : BoolOp) :
    Unstarred (Grammar.boolLoop operand word op) := by
  refine bind fun start => bind_of h fun first hfirst => bind fun more => ?_
  exact ite (fun _ => pure hfirst) fun _ => close fun _ => rfl

variable {g : Grammar} {primary : Reader Term} {inner : FieldReader}

theorem expressionOf (h : Unstarred g.factor) : Unstarred g.expressionOf := by
  have hbitOr : Unstarred g.bitOr :=
    binaryLoop (binaryLoop (binaryLoop (binaryLoop (binaryLoop (binaryLoop h _) _) _) _) _) _
  have hcomparison : Unstarred g.comparison :=
    bind fun start => bind_of hbitOr fun first hfirst => bind fun more =>
      ite (fun _ => pure hfirst) fun _ => close fun _ => rfl
  have hinversion : Unstarred g.inversionOf :=
    bind fun start => bind fun _ =>
      ite (fun _ => bind fun operand => close fun _ => rfl) fun _ => hcomparison
  have hdisjunction : Unstarred g.disjunction := boolLoop (boolLoop hinversion _ _) _ _
  refine bind fun kind? => ite (fun _ => ?_) fun _ => ?_
  · exact bind fun start => bind fun _ => bind fun params => bind fun _ => bind fun body =>
      close fun _ => rfl
  · refine bind fun start => bind_of hdisjunction fun body hbody => bind fun found => ?_
    refine ite (fun _ => ?_) fun _ => pure hbody
    exact bind fun test => bind fun _ => bind fun other => close fun _ => rfl

theorem parenthesized (start : Nat) : Unstarred (g.parenthesized primary start) := by
  have hyield : Unstarred g.yieldTerm :=
    bind fun start => bind fun _ => bind fun found => ite
      (fun _ => bind fun value => close fun _ => rfl)
      fun _ => bind fun kind? => ite (fun _ => close fun _ => rfl)
        fun _ => bind fun value => close fun _ => rfl
  refine bind fun found => ite (fun _ => close fun _ => rfl) fun _ => bind fun kind? => ?_
  refine ite (fun _ => bind_of hyield fun value hvalue => bind fun _ => pure hvalue) fun _ => ?_
  refine bind fun first => ?_
  extract_lets rest
  have hrest (loops : List Clause) : Unstarred (rest loops) := by
    refine ite (fun _ => bind fun _ => close fun _ => rfl) fun _ => bind fun (items, commas) => ?_
    refine bind fun _ => ite (fun _ => close fun _ => rfl) fun _ => ?_
    exact ite (fun _ => failure) fun hstarred => pure (by simpa using hstarred)
  exact ite (fun _ => bind hrest) fun _ => bind hrest

theorem bracketed (start : Nat) : Unstarred (g.bracketed primary start) := by
  refine bind fun found => ite (fun _ => close fun _ => rfl) fun _ => bind fun first => ?_
  extract_lets rest
  have hrest (loops : List Clause) : Unstarred (rest loops) :=
    ite (fun _ => bind fun _ => close fun _ => rfl) fun _ => bind fun (items, commas) =>
      bind fun _ => close fun _ => rfl
  exact ite (fun _ => bind hrest) fun _ => bind hrest

theorem braced (start : Nat) : Unstarred (g.braced primary start) := by
  have hdict (first : Entry) : Unstarred (g.dictAfter start first) :=
    bind fun (items, commas) => bind fun _ => close fun _ => rfl
  refine bind fun found => ite (fun _ => close fun _ => rfl) fun _ => bind fun kind? => ?_
  refine ite (fun _ => bind hdict) fun _ => bind fun binds => bind fun first => bind fun found => ?_
  refine ite (fun _ => bind fun value => bind fun loops => ?_) fun _ => ?_
  · exact ite (fun _ => bind fun _ => close fun _ => rfl) fun _ => hdict _
  extract_lets rest
  have hrest (loops : List Clause) : Unstarred (rest loops) :=
    ite (fun _ => bind fun _ => close fun _ => rfl) fun _ => bind fun (items, commas) =>
      bind fun _ => close fun _ => rfl
  exact ite (fun _ => bind hrest) fun _ => bind hrest

theorem atom : Unstarred (g.atom inner primary) := by
  refine bind fun start => bind fun kind? => ?_
  split
  · refine bind fun literals => ?_
    cases hform : stringsForm? inner literals with
    | none => exact failure
    | some form =>
      obtain ⟨value, rfl⟩ | ⟨pieces, rfl⟩ := cases_of_stringsForm? hform <;> exact close fun _ => rfl
  · refine bind fun kind => ?_
    split
    case h_7 => exact parenthesized start
    case h_8 => exact bracketed start
    case h_9 => exact braced start
    case h_10 => exact failure
    all_goals exact close fun _ => rfl

theorem factorOf : Unstarred (g.factorOf (g.primaryOf inner primary)) := by
  have hprimary : Unstarred (g.primaryOf inner primary) := by
    refine bind fun start => bind_of atom fun first hfirst => repeating (fun value _ => ?_) hfirst
    refine bind fun kind? => ?_
    split
    · exact bind fun _ => bind fun attr => closeSome fun _ => rfl
    · exact bind fun opening => bind fun _ => bind fun read => closeSome fun _ => rfl
    · exact bind fun _ => bind fun found => bind fun _ => closeSome fun _ => rfl
    · exact pure nofun
  have hpower : Unstarred (g.power (g.primaryOf inner primary)) := by
    refine bind fun start => ?_
    extract_lets rest
    have hrest (base : Term) (hbase : base.isStarred = false) : Unstarred (rest base) :=
      bind fun found => ite (fun _ => bind fun exponent => close fun _ => rfl) fun _ => pure hbase
    refine bind fun found => ite (fun _ => ?_) fun _ => bind_of hprimary hrest
    exact bind fun value => bind_of (close fun _ => rfl) hrest
  refine bind fun start => bind fun kind? => ?_
  split
  case h_4 => exact hpower
  all_goals exact bind fun _ => bind fun operand => close fun _ => rfl

end Unstarred

theorem unstarred_expression (inner : FieldReader) (depth : Nat) :
    Unstarred (grammarAt inner depth).1.expression := by
  have hfactor : ∀ depth, Unstarred (grammarAt inner depth).1.factor
    | 0 => Yields.failure
    | _ + 1 => Unstarred.factorOf
  match depth with
  | 0 => exact Yields.failure
  | depth + 1 => exact Unstarred.expressionOf (hfactor depth)

theorem repeating_stop {σ : Type} {step : σ → Reader (Option σ)} {x : σ} {i : Input}
    (h : step x i = some (none, i)) : repeating step x i = some (x, i) := by
  have hrounds : rounds failure step (i.rest.length + 1) x i = some (x, i) := by
    rw [rounds, bind_eq h]
    rfl
  exact hrounds

theorem many_stop {item : Reader (Option α)} {i : Input} (h : item i = some (none, i)) :
    many item i = some ([], i) := by
  have hstep : (do pure ((← item).map (· :: []))) i = some (none, i) := bind_eq h
  unfold many
  rw [bind_eq (repeating_stop hstep)]
  rfl

theorem itemsAfter_stop {item : Reader α} {i : Input} {ends : LexemeKind → Bool} {k : LexemeKind}
    (hi : Next (some k) i) (hk : k ≠ .symbol ",") (first : α) :
    itemsAfter first item ends i = some (([first], false), i) := by
  unfold itemsAfter
  rw [bind_eq (repeating_stop _)]
  · rfl
  · dsimp only
    rw [bind_eq (accept_of_other hi _ hk), if_pos (show (!false) = true from rfl)]
    rfl

theorem items_stop {item : Reader α} {i j : Input} {ends : LexemeKind → Bool} {k : LexemeKind}
    {x : α} (hread : item i = some (x, j)) (hj : Next (some k) j) (hk : k ≠ .symbol ",") :
    items item ends i = some (([x], false), j) := by
  unfold items
  rw [bind_eq hread, itemsAfter_stop hj hk]

theorem itemsTerm_stop {item : Reader Term} {i j : Input} {term : Term} {k : LexemeKind}
    (hread : item i = some (term, j)) (hj : Next (some k) j) (hk : k ≠ .symbol ",") :
    Grammar.itemsTerm item i = some (term, j) := by
  unfold Grammar.itemsTerm
  rw [bind_eq (here_eq _), bind_eq (items_stop hread hj hk)]
  rfl

/-- Lexemes that stand behind an operand of a conditional expression. -/
def endsOperand (k : LexemeKind) : Bool :=
  k = .lineEnd || k = .keyword "if" || k = .keyword "else" || k = .symbol ")"

theorem kinds_of_endsOperand {k : LexemeKind} (h : endsOperand k) :
    k = .lineEnd ∨ k = .keyword "if" ∨ k = .keyword "else" ∨ k = .symbol ")" := by
  simpa [endsOperand, or_assoc] using h

section
variable {g : Grammar} {primary : Reader Term} {inner : FieldReader} {i j : Input} {term : Term}
  {last : Nat}

theorem named_of_expression (hread : g.expression i = some (term, j))
    (hnamed : Grammar.namesNext i = some (false, i)) : g.named i = some (term, j) := by
  unfold Grammar.named
  rw [bind_eq hnamed, if_neg nofun, hread]

theorem item_of_expression (hread : g.expression i = some (term, j))
    (hstray : ∀ k, Next (some k) i → ¬isStray k) (hnamed : Grammar.namesNext i = some (false, i)) :
    g.item i = some (term, j) := by
  unfold Grammar.item
  rw [bind_eq (here_eq i), bind_eq (accept_of_not fun hi => hstray _ hi rfl), if_neg nofun,
    named_of_expression hread hnamed]

theorem plainItem_of_expression (hread : g.expression i = some (term, j))
    (hstray : ∀ k, Next (some k) i → ¬isStray k) : g.plainItem i = some (term, j) := by
  unfold Grammar.plainItem
  rw [bind_eq (here_eq i), bind_eq (accept_of_not fun hi => hstray _ hi rfl), if_neg nofun, hread]

theorem clauses_stop {k : LexemeKind} (hi : Next (some k) i) (hasync : k ≠ .keyword "async")
    (hfor : k ≠ .keyword "for") : g.clauses primary i = some ([], i) := by
  refine many_stop ?_
  unfold Grammar.clause
  rw [bind_eq (accept_of_other hi _ hasync), bind_eq (peek_of_next hi)]
  rw [if_neg (by simpa using hfor)]
  rfl

/-- An item alone between parentheses. -/
theorem parenthesized_of_item {closing : Lexeme} {rest : List Lexeme}
    (hread : g.item i = some (term, ⟨closing :: rest, last⟩)) (hclosing : closing.kind = .symbol ")")
    (hstray : ∀ k, Next (some k) i → ¬isStray k) (hterm : term.isStarred = false) (start : Nat) :
    g.parenthesized primary start i = some (term, ⟨rest, closing.stop⟩) := by
  have hj : Next (some (.symbol ")")) ⟨closing :: rest, last⟩ := congrArg some hclosing
  have hnone (k : LexemeKind) (hk : isStray k) : ¬Next (some k) i := fun hi => hstray k hi hk
  have hyield : ¬i.rest.head?.map (·.kind) = some (.keyword "yield") := hnone _ rfl
  unfold Grammar.parenthesized
  rw [bind_eq (accept_of_not (hnone _ rfl)), if_neg nofun, bind_eq (peek_of_next rfl), if_neg hyield,
    bind_eq hread]
  dsimp only
  rw [hterm, if_neg nofun, bind_eq (clauses_stop hj nofun nofun), if_neg (by decide),
    bind_eq (itemsAfter_stop hj nofun term)]
  dsimp only
  rw [bind_eq (symbol_eq hclosing _ _), if_neg nofun, if_neg nofun]
  rfl

theorem parenthesized_of_expression {closing : Lexeme} {rest : List Lexeme}
    (hread : g.expression i = some (term, ⟨closing :: rest, last⟩)) (hclosing : closing.kind = .symbol ")")
    (hstray : ∀ k, Next (some k) i → ¬isStray k) (hnamed : Grammar.namesNext i = some (false, i))
    (hterm : term.isStarred = false) (start : Nat) :
    g.parenthesized primary start i = some (term, ⟨rest, closing.stop⟩) :=
  parenthesized_of_item (item_of_expression hread hstray hnamed) hclosing hstray hterm start

/-- An atom with nothing behind it that belongs to it. -/
theorem primaryOf_of_atom {e : LexemeKind} (hj : Next (some e) j) (he : endsOperand e)
    (hread : g.atom inner primary i = some (term, j)) :
    g.primaryOf inner primary i = some (term, j) := by
  unfold Grammar.primaryOf
  rw [bind_eq (here_eq _), bind_eq hread]
  refine repeating_stop ?_
  rw [bind_eq (peek_of_next hj)]
  rcases kinds_of_endsOperand he with rfl | rfl | rfl | rfl <;> rfl

theorem atom_of_group {opening : Lexeme} (hopening : opening.kind = .symbol "(") (rest : List Lexeme)
    (last : Nat) : g.atom inner primary ⟨opening :: rest, last⟩ =
      g.parenthesized primary opening.start ⟨rest, opening.stop⟩ := by
  obtain ⟨kind, start, stop⟩ := opening
  subst hopening
  rfl

theorem primaryOf_of_group {opening : Lexeme} {rest : List Lexeme} {e : LexemeKind}
    (hopening : opening.kind = .symbol "(") (hj : Next (some e) j) (he : endsOperand e)
    (hread : g.parenthesized primary opening.start ⟨rest, opening.stop⟩ = some (term, j)) :
    g.primaryOf inner primary ⟨opening :: rest, last⟩ = some (term, j) :=
  primaryOf_of_atom hj he ((atom_of_group hopening rest last).trans hread)

theorem factorOf_of_primary {k e : LexemeKind} (hi : Next (some k) i) (hk : isOperator k = false)
    (hj : Next (some e) j) (he : endsOperand e) (hread : primary i = some (term, j)) :
    g.factorOf primary i = some (term, j) := by
  have hawait : k ≠ .keyword "await" := fun h => absurd hk (h ▸ by decide)
  have hpower : e ≠ .symbol "**" := fun h => absurd he (h ▸ by decide)
  rw [factorOf_eq hi hk]
  unfold Grammar.power
  dsimp only
  rw [bind_eq (here_eq i), bind_eq (accept_of_other hi _ hawait), if_neg nofun,
    bind_eq hread, bind_eq (accept_of_other hj _ hpower), if_neg nofun]
  rfl

theorem binaryLoop_stop {operand : Reader Term} {op? : LexemeKind → Option BinaryOp} {e : LexemeKind}
    (hread : operand i = some (term, j)) (hj : Next (some e) j) (hop : op? e = none) :
    Grammar.binaryLoop operand op? i = some (term, j) := by
  unfold Grammar.binaryLoop
  rw [bind_eq (here_eq i), bind_eq hread]
  refine repeating_stop ?_
  rw [bind_eq (peek_of_next hj), Option.bind_some, hop]
  rfl

theorem boolLoop_stop {operand : Reader Term} {e : LexemeKind} {word : String}
    (hread : operand i = some (term, j)) (hj : Next (some e) j) (hword : e ≠ .keyword word)
    (op : BoolOp) : Grammar.boolLoop operand word op i = some (term, j) := by
  unfold Grammar.boolLoop
  rw [bind_eq (here_eq i), bind_eq hread, bind_eq (many_stop _), if_pos List.isEmpty_nil]
  · rfl
  · rw [bind_eq (accept_of_other hj _ hword), if_neg nofun]
    rfl

/-- An operand of a conditional expression that holds no comparison. -/
theorem disjunction_of_bitOr {k e : LexemeKind} (hi : Next (some k) i) (hnot : k ≠ .keyword "not")
    (hj : Next (some e) j) (he : endsOperand e) (hread : g.bitOr i = some (term, j)) :
    g.disjunction i = some (term, j) := by
  have hand : e ≠ .keyword "and" := fun h => absurd he (h ▸ by decide)
  have hor : e ≠ .keyword "or" := fun h => absurd he (h ▸ by decide)
  have hcompareOp : Grammar.compareOp j = some (none, j) := by
    unfold Grammar.compareOp
    dsimp only
    rw [bind_eq (peek_of_next hj)]
    rcases kinds_of_endsOperand he with rfl | rfl | rfl | rfl <;> rfl
  have hcomparison : g.comparison i = some (term, j) := by
    unfold Grammar.comparison
    rw [bind_eq (here_eq i), bind_eq hread, bind_eq (many_stop _), if_pos List.isEmpty_nil]
    · rfl
    · rw [bind_eq hcompareOp]
      rfl
  have hinversion : g.inversionOf i = some (term, j) := by
    unfold Grammar.inversionOf
    rw [bind_eq (here_eq i), bind_eq (accept_of_other hi _ hnot), if_neg nofun, hcomparison]
  exact boolLoop_stop (boolLoop_stop hinversion hj hand _) hj hor _

/-- An operand of a conditional expression that is no more than a factor. -/
theorem disjunction_of_factor {k e : LexemeKind} (hi : Next (some k) i) (hk : isOperator k = false)
    (hj : Next (some e) j) (he : endsOperand e) (hread : g.factor i = some (term, j)) :
    g.disjunction i = some (term, j) := by
  have hnot : k ≠ .keyword "not" := fun h => absurd hk (h ▸ by decide)
  refine disjunction_of_bitOr hi hnot hj he ?_
  rcases kinds_of_endsOperand he with rfl | rfl | rfl | rfl <;>
    exact binaryLoop_stop (binaryLoop_stop (binaryLoop_stop (binaryLoop_stop (binaryLoop_stop
      (binaryLoop_stop hread hj rfl) hj rfl) hj rfl) hj rfl) hj rfl) hj rfl

theorem expressionOf_of_disjunction {k e : LexemeKind} (hi : Next (some k) i)
    (hlambda : k ≠ .keyword "lambda") (hj : Next (some e) j) (hif : e ≠ .keyword "if")
    (hread : g.disjunction i = some (term, j)) : g.expressionOf i = some (term, j) := by
  unfold Grammar.expressionOf
  rw [bind_eq (peek_of_next hi), if_neg fun h => hlambda (Option.some.inj h), bind_eq (here_eq i),
    bind_eq hread, bind_eq (accept_of_other hj _ hif), if_neg nofun]
  rfl

theorem expressionOf_of_factor {k e : LexemeKind} (hi : Next (some k) i) (hk : isOperator k = false)
    (hj : Next (some e) j) (he : endsOperand e) (hif : e ≠ .keyword "if")
    (hread : g.factor i = some (term, j)) : g.expressionOf i = some (term, j) := by
  have hlambda : k ≠ .keyword "lambda" := fun h => absurd hk (h ▸ by decide)
  exact expressionOf_of_disjunction hi hlambda hj hif (disjunction_of_factor hi hk hj he hread)

end

/-- The lexemes of a group: its opening parenthesis, then those up to the end. -/
theorem scan_cons (cs : List Char) :
    scan ('(' :: cs) = (scanFrom 1 [")"] false cs).map (⟨.symbol "(", 0, 1⟩ :: ·) := by
  have hlexeme : lexeme? 0 ('(' :: cs) = some (.symbol "(", 1) := by
    rfl
  have hnest : nest? [] (.symbol "(") = some [")"] := rfl
  unfold scan
  rw [scanFrom, if_neg (by decide), if_neg (by decide), if_neg (by decide), if_neg (by decide),
    hlexeme]
  dsimp only
  rw [hnest]
  rfl

/-- No expression starts with a name that is bound, or that something is assigned to. -/
theorem second_ne_of_walk? {lexemes rest : List Lexeme} {behind : Lexeme} {w : Nesting}
    (hwalk : Nesting.walk? ⟨0, 0, false⟩ lexemes = some w) (hname : ∀ id, behind.kind ≠ .name id)
    {s : String} (hs : s = ":=" ∨ s = "=") (hbehind : behind.kind ≠ .symbol s) {id : String}
    (hfirst : (lexemes ++ behind :: rest).head?.map (·.kind) = some (.name id)) :
    (lexemes ++ behind :: rest)[1]?.map (·.kind) ≠ some (.symbol s) := by
  intro hsecond
  rcases lexemes with _ | ⟨t, _ | ⟨u, lexemes⟩⟩
  · exact hname id (Option.some.inj hfirst)
  · exact hbehind (Option.some.inj hsecond)
  · have ht : t.kind = .name id := Option.some.inj hfirst
    have hu : u.kind = .symbol s := Option.some.inj hsecond
    have hstep : Nesting.walk? ⟨0, 0, false⟩ (t :: u :: lexemes) = none := by
      rcases hs with rfl | rfl <;>
        simp [Nesting.walk?, ht, hu, Nesting.step?, closerOf?, isCloser]
    cases hwalk.symm.trans hstep

theorem namesNext_of_walk? {lexemes rest : List Lexeme} {behind : Lexeme} {w : Nesting} {last : Nat}
    (hwalk : Nesting.walk? ⟨0, 0, false⟩ lexemes = some w) (hname : ∀ id, behind.kind ≠ .name id)
    (hbehind : behind.kind ≠ .symbol ":=") :
    Grammar.namesNext ⟨lexemes ++ behind :: rest, last⟩ =
      some (false, ⟨lexemes ++ behind :: rest, last⟩) := by
  unfold Grammar.namesNext
  rw [bind_eq (peek_of_next rfl), bind_eq (peekSecond_eq _)]
  dsimp only
  generalize hfirst : (lexemes ++ behind :: rest).head?.map (·.kind) = first?
  generalize hsecond : (lexemes ++ behind :: rest)[1]?.map (·.kind) = second?
  split
  · exact absurd hsecond (second_ne_of_walk? hwalk hname (.inl rfl) hbehind hfirst)
  · rfl

theorem itemsTerm_of_group {inner : FieldReader} {depth : Nat} {opening closing ending : Lexeme}
    {lexemes : List Lexeme} {term : Term} {last : Nat} (hopening : opening.kind = .symbol "(")
    (hclosing : closing.kind = .symbol ")") (hending : ending.kind = .lineEnd)
    (hwalk : ∃ w, Nesting.walk? ⟨0, 0, false⟩ lexemes = some w)
    (hread : (grammarAt inner depth).1.expression ⟨lexemes ++ [closing, ending], opening.stop⟩ =
      some (term, ⟨[closing, ending], last⟩)) :
    Grammar.itemsTerm (grammarAt inner (depth + 2)).1.expression
      ⟨opening :: lexemes ++ [closing, ending], 0⟩ = some (term, ⟨[ending], closing.stop⟩) := by
  obtain ⟨w, hwalk⟩ := hwalk
  have hnamed : Grammar.namesNext ⟨lexemes ++ [closing, ending], opening.stop⟩ =
      some (false, ⟨lexemes ++ [closing, ending], opening.stop⟩) :=
    namesNext_of_walk? hwalk (by simp [hclosing]) (by simp [hclosing])
  have hstarred := unstarred_expression inner _ _ _ _ hread
  have hgroup (start : Nat) : (grammarAt inner depth).1.parenthesized (grammarAt inner depth).2 start
      ⟨lexemes ++ [closing, ending], opening.stop⟩ = some (term, ⟨[ending], closing.stop⟩) :=
    parenthesized_of_expression hread hclosing (fun k => not_stray_of_expression hread) hnamed
      hstarred start
  have hi : Next (some (.symbol "(")) ⟨opening :: lexemes ++ [closing, ending], 0⟩ :=
    congrArg some hopening
  have hj : Next (some .lineEnd) ⟨[ending], closing.stop⟩ := congrArg some hending
  have hprimary : (grammarAt inner (depth + 1)).2 ⟨opening :: lexemes ++ [closing, ending], 0⟩ =
      some (term, ⟨[ending], closing.stop⟩) := primaryOf_of_group hopening hj rfl (hgroup _)
  have hfactor : (grammarAt inner (depth + 1)).1.factor
      ⟨opening :: lexemes ++ [closing, ending], 0⟩ = some (term, ⟨[ending], closing.stop⟩) :=
    factorOf_of_primary hi rfl hj rfl hprimary
  have hexpression : (grammarAt inner (depth + 2)).1.expression
      ⟨opening :: lexemes ++ [closing, ending], 0⟩ = some (term, ⟨[ending], closing.stop⟩) :=
    expressionOf_of_factor hi rfl hj rfl nofun hfactor
  exact itemsTerm_stop hexpression hj nofun

/-- The lexemes of an expression leave no bracket and no lambda open. -/
theorem exists_lexemes_of_isExpression {text : String} {term : Term} (h : IsExpression text term) :
    ∃ (lexemes : List Lexeme) (closing ending : Lexeme),
      scanFrom 1 [")"] false (text.toList ++ [')']) = some (lexemes ++ [closing, ending]) ∧
        closing.kind = .symbol ")" ∧ ending.kind = .lineEnd ∧
        ∀ depth, ∃ joined, Nesting.walk? ⟨depth, 0, false⟩ lexemes = some ⟨depth, 0, joined⟩ := by
  obtain ⟨depth, opening, closing, ending, lexemes, last, hscan, hclosing, hending, hread⟩ := h.reads
  have hcons : scan (grouped text) = _ := scan_cons (text.toList ++ [')'])
  rw [hscan] at hcons
  obtain ⟨later, hlater, hlexemes⟩ := Option.map_eq_some_iff.mp hcons.symm
  obtain ⟨-, rfl⟩ := List.cons.inj hlexemes
  generalize readField (grouped text).length = inner at hread
  obtain ⟨used, hused, hpassage, -⟩ := (follows_grammarAt inner depth depth).1.expression _ _ _
    trivial hread
  obtain rfl : lexemes = used := List.append_cancel_right hused
  refine ⟨lexemes, closing, ending, hlater, hclosing, hending, fun depth => ?_⟩
  obtain ⟨⟨depth', lambdas, joined⟩, hwalk, hcounts, -⟩ :=
    hpassage.walks depth 0 ⟨depth, 0, false⟩ ⟨rfl, fun _ => rfl⟩
  obtain ⟨rfl, rfl⟩ := Prod.mk.inj hcounts
  exact ⟨joined, hwalk⟩

/-- What the grammar reads between the parentheses of a group, at whatever depth, is what the group
reads as. -/
theorem readTerm?_of_isExpression {text : String} {term : Term} (h : IsExpression text term) :
    readTerm? text = some term := by
  obtain ⟨depth, opening, closing, ending, lexemes, last, hscan, hclosing, hending, hread⟩ := h.reads
  have hopening : opening.kind = .symbol "(" := by
    have hcons : scan (grouped text) = _ := scan_cons (text.toList ++ [')'])
    rw [hscan] at hcons
    obtain ⟨later, -, hlexemes⟩ := Option.map_eq_some_iff.mp hcons.symm
    exact (List.cons.inj hlexemes).1 ▸ rfl
  generalize hinner : readField (grouped text).length = inner at hread
  obtain ⟨used, hused, hpassage, hdeep⟩ := (follows_grammarAt inner depth (lexemes.length + 2)).1
    |>.expression _ _ _ trivial hread
  obtain rfl : lexemes = used := List.append_cancel_right hused
  -- two levels below the outermost one the grammar is still deep enough for what is between
  have hdeep : (grammarAt inner (lexemes.length + 2)).1.expression
      ⟨lexemes ++ [closing, ending], opening.stop⟩ = some (term, ⟨[closing, ending], last⟩) := by
    refine hdeep ?_
    show 0 + lexemes.length + 0 ≤ _
    omega
  obtain ⟨w, hwalk, -⟩ := hpassage.walks 0 0 ⟨0, 0, false⟩ ⟨rfl, fun _ => rfl⟩
  have hitems := itemsTerm_of_group hopening hclosing hending ⟨w, hwalk⟩ hdeep
  have hall : readAll? inner (fun g _ => Grammar.itemsTerm g.expression)
      (opening :: lexemes ++ [closing, ending]) = some (term, ⟨[ending], closing.stop⟩) := by
    unfold readAll?
    rw [show (opening :: lexemes ++ [closing, ending]).length + 1 = lexemes.length + 2 + 2 by simp]
    exact hitems
  have hend : atEnd ⟨[ending], closing.stop⟩ = true := by simp [atEnd, hending]
  unfold readTerm? readText?
  rw [hscan, hinner, Option.bind_eq_bind, Option.bind_some, hall, Option.bind_eq_bind,
    Option.bind_some]
  show (if atEnd _ then _ else _) = _
  rw [if_pos hend]
  rfl

end ViewTree.Embedded
