import ViewTree.Proofs.Elements.Slices
import ViewTree.Proofs.Elements.Tracking
import ViewTree.Proofs.Pasting.Paths

/-!
Where terms come from. A production either makes a term of its own, from its first lexeme to the last
one that it takes, or gives what a smaller production gives. Main statements: an expression is a term of
its own or an atom (`stems_expression`), and an atom is a term of its own or stands between parentheses
(`cases_of_atom`).
-/
namespace ViewTree.Embedded
open Reader

/-- Whatever a reader gives, and wherever it stops, has the property. -/
def Reaches {α : Type} (Q : α → Input → Prop) (r : Reader α) : Prop :=
  ∀ i x j, r i = some (x, j) → Q x j

/-- The term goes from `start` to the last lexeme that was taken, and is no tuple. -/
def IsOwn (start : Nat) (x : Term) (j : Input) : Prop :=
  x.start = start ∧ x.stop = j.last ∧ x.elements? = none

abbrev Builds (start : Nat) (r : Reader Term) : Prop := Reaches (IsOwn start) r

/-- A step makes a term of its own, or none. -/
abbrev BuildsSome (start : Nat) (r : Reader (Option Term)) : Prop :=
  Reaches (fun next? j => ∀ next ∈ next?, IsOwn start next j) r

section
variable {α β : Type} {Q : α → Input → Prop} {Q' : β → Input → Prop} {r s : Reader α}
  {k : α → Reader β} {start : Nat}

theorem Reaches.bind (h : ∀ x, Reaches Q' (k x)) : Reaches Q' (r >>= k) := by
  intro i y j hr
  obtain ⟨⟨x, m⟩, -, hk⟩ := Option.bind_eq_some_iff.mp hr
  exact h x m y j hk

theorem Reaches.ite {p : Prop} [Decidable p] (hr : p → Reaches Q r) (hs : ¬p → Reaches Q s) :
    Reaches Q (if p then r else s) := by
  by_cases hp : p
  · rw [if_pos hp]
    exact hr hp
  · rw [if_neg hp]
    exact hs hp

theorem reaches_failure : Reaches Q failure := fun _ _ _ hr => nomatch hr

theorem builds_close {form : Form} (h : ∀ stop, (Term.mk start stop form).elements? = none) :
    Builds start (close start form) := by
  intro i x j hr
  obtain ⟨rfl, rfl⟩ := Prod.mk.inj (Option.some.inj hr)
  exact ⟨rfl, rfl, h _⟩

theorem buildsSome_close {form : Form} (h : ∀ stop, (Term.mk start stop form).elements? = none) :
    BuildsSome start (do pure (some (← close start form))) := by
  intro i x? j hr
  obtain ⟨rfl, rfl⟩ := Prod.mk.inj (Option.some.inj hr)
  intro x hx
  obtain rfl := Option.some.inj hx
  exact ⟨rfl, rfl, h _⟩

theorem buildsSome_none : BuildsSome start (pure none) := by
  intro i x? j hr
  obtain ⟨rfl, -⟩ := Prod.mk.inj (Option.some.inj hr)
  nofun

end

/-- Where the first lexeme starts at `start`, what `r` reads is a term of its own, or `r'` reads it. -/
def Stems (start : Nat) (r r' : Reader Term) : Prop :=
  ∀ i x j, startOf i.rest = start → r i = some (x, j) → IsOwn start x j ∨ r' i = some (x, j)

section
variable {α : Type} {start : Nat} {operand r r' r'' : Reader Term}

theorem Reaches.stems (h : Builds start r) : Stems start r r' := fun i x j _ hr => .inl (h i x j hr)

theorem stems_refl : Stems start r r := fun _ _ _ _ hr => .inr hr

theorem Stems.trans (h : Stems start r r') (h' : Stems start r' r'') : Stems start r r'' :=
  fun i x j hi hr => (h i x j hi hr).elim .inl (h' i x j hi)

theorem Stems.here {k : Nat → Reader Term} (h : Stems start (k start) r) :
    Stems start (here >>= k) r := by
  rintro i x j rfl hr
  exact h i x j rfl hr

theorem Stems.peek {k : Option LexemeKind → Reader Term} (h : ∀ kind?, Stems start (k kind?) r) :
    Stems start (Reader.peek >>= k) r := fun i x j hi hr => h _ i x j hi hr

theorem isOwn_of_rounds {step : Term → Reader (Option Term)} (hidle : ∀ left, Idles (step left))
    (hstep : ∀ left, BuildsSome start (step left)) {count : Nat} {left x : Term} {i j : Input}
    (hleft : IsOwn start left i) (h : rounds failure step count left i = some (x, j)) :
    IsOwn start x j := by
  induction count generalizing left i with
  | zero => nomatch h
  | succ count ih =>
    obtain ⟨⟨next?, m⟩, hnext, hmore⟩ := Option.bind_eq_some_iff.mp h
    cases next? with
    | none =>
      obtain ⟨rfl, rfl⟩ := Prod.mk.inj (Option.some.inj hmore)
      obtain rfl := hidle _ _ _ hnext
      exact hleft
    | some next => exact ih (hstep left i _ m hnext next rfl) hmore

/-- A loop makes terms of its own, or gives what it starts with. -/
theorem Stems.repeating {step : Term → Reader (Option Term)} (h : Stems start operand r)
    (hidle : ∀ left, Idles (step left)) (hstep : ∀ left, BuildsSome start (step left)) :
    Stems start (operand >>= Reader.repeating step) r := by
  intro i x j hi hr
  obtain ⟨⟨first, m⟩, hfirst, hrest⟩ := Option.bind_eq_some_iff.mp hr
  obtain ⟨⟨next?, m'⟩, hone, hmore⟩ := Option.bind_eq_some_iff.mp hrest
  cases next? with
  | none =>
    obtain ⟨rfl, rfl⟩ := Prod.mk.inj (Option.some.inj hmore)
    obtain rfl := hidle _ _ _ hone
    exact h i first m' hi hfirst
  | some next => exact .inl (isOwn_of_rounds hidle hstep (hstep first m _ m' hone next rfl) hmore)

theorem Stems.many {item : Reader (Option α)} {s : Term → List α → Reader Term}
    (h : Stems start operand r) (hidle : Idles item) (hs : ∀ first more, Builds start (s first more)) :
    Stems start (operand >>= fun first => Reader.many item >>= fun more =>
      if more.isEmpty then pure first else s first more) r := by
  intro i x j hi hr
  obtain ⟨⟨first, m⟩, hfirst, hrest⟩ := Option.bind_eq_some_iff.mp hr
  obtain ⟨⟨more, m'⟩, hmore, hend⟩ := Option.bind_eq_some_iff.mp hrest
  cases more with
  | nil =>
    obtain ⟨rfl, rfl⟩ := Prod.mk.inj (Option.some.inj hend)
    obtain rfl := hidle _ _ (item_of_many_nil hmore)
    exact h i first m' hi hfirst
  | cons => exact .inl (hs _ _ _ _ _ hend)

theorem Stems.accept {kind : LexemeKind} {k : Bool → Reader Term} (htaken : Builds start (k true))
    (h : Stems start (k false) r) : Stems start (Reader.accept kind >>= k) r := by
  intro i x j hi hr
  obtain ⟨⟨found, m⟩, hfound, hrest⟩ := Option.bind_eq_some_iff.mp hr
  cases found with
  | true => exact .inl (htaken _ _ _ hrest)
  | false =>
    obtain rfl := accept_idle hfound
    exact h m x j hi hrest

theorem Stems.acceptBehind {kind : LexemeKind} {s : Term → Reader Term} (h : Stems start operand r)
    (hs : ∀ first, Builds start (s first)) :
    Stems start (operand >>= fun first => Reader.accept kind >>= fun found =>
      if found then s first else pure first) r := by
  intro i x j hi hr
  obtain ⟨⟨first, m⟩, hfirst, hrest⟩ := Option.bind_eq_some_iff.mp hr
  obtain ⟨⟨found, m'⟩, hfound, hend⟩ := Option.bind_eq_some_iff.mp hrest
  cases found with
  | true => exact .inl (hs _ _ _ _ hend)
  | false =>
    obtain ⟨rfl, rfl⟩ := Prod.mk.inj (Option.some.inj hend)
    obtain rfl := accept_idle hfound
    exact h i first m' hi hfirst

theorem builds_acceptBehind {kind : LexemeKind} {s : Term → Reader Term} (h : Builds start operand)
    (hs : ∀ first, Builds start (s first)) :
    Builds start (operand >>= fun first => Reader.accept kind >>= fun found =>
      if found then s first else pure first) := by
  intro i x j hr
  obtain ⟨⟨first, m⟩, hfirst, hrest⟩ := Option.bind_eq_some_iff.mp hr
  obtain ⟨⟨found, m'⟩, hfound, hend⟩ := Option.bind_eq_some_iff.mp hrest
  cases found with
  | true => exact hs _ _ _ _ hend
  | false =>
    obtain ⟨rfl, rfl⟩ := Prod.mk.inj (Option.some.inj hend)
    obtain rfl := accept_idle hfound
    exact h i first m' hfirst

end

section
variable {g : Grammar} {primary operand r : Reader Term} {start : Nat}

theorem Stems.binaryLoop (h : Stems start operand r) (op? : LexemeKind → Option BinaryOp) :
    Stems start (Grammar.binaryLoop operand op?) r := by
  refine .here (h.repeating (fun left => .peek fun kind? => ?_) fun left => .bind fun kind? => ?_)
  · cases kind?.bind op? with
    | none => exact idles_pure
    | some op => exact Yields.idles (.bind fun _ => .bind fun _ => .bind fun _ => .pure nofun)
  · cases kind?.bind op? with
    | none => exact buildsSome_none
    | some op => exact .bind fun _ => .bind fun _ => buildsSome_close fun _ => rfl

theorem stems_bitOr (h : Stems start g.factor r) : Stems start g.bitOr r :=
  (((((h.binaryLoop _).binaryLoop _).binaryLoop _).binaryLoop _).binaryLoop _).binaryLoop _

theorem stems_comparison : Stems start g.comparison g.bitOr := by
  refine .here (stems_refl.many ?_ fun first more => builds_close fun _ => rfl)
  exact idles_compareOp.bind idles_pure fun op => .bind fun _ => .pure nofun

theorem stems_inversionOf : Stems start g.inversionOf g.bitOr :=
  .here (.accept (.bind fun _ => builds_close fun _ => rfl) stems_comparison)

theorem Stems.boolLoop (h : Stems start operand r) (word : String) (op : BoolOp) :
    Stems start (Grammar.boolLoop operand word op) r := by
  refine .here (h.many ?_ fun first more => builds_close fun _ => rfl)
  exact .accept (.bind fun _ => .pure nofun) idles_pure

theorem stems_disjunction : Stems start g.disjunction g.bitOr :=
  (stems_inversionOf.boolLoop _ _).boolLoop _ _

theorem stems_lambda : Stems start g.lambda r :=
  .here (Reaches.stems (.bind fun _ => .bind fun _ => .bind fun _ => .bind fun _ =>
    builds_close fun _ => rfl))

theorem stems_expressionOf : Stems start g.expressionOf g.bitOr := by
  refine .peek fun kind? => ?_
  split
  · exact stems_lambda
  · refine .here (stems_disjunction.acceptBehind fun body => ?_)
    exact .bind fun _ => .bind fun _ => .bind fun _ => builds_close fun _ => rfl

theorem stems_power : Stems start (g.power primary) primary := by
  refine .here ?_
  have hraised (base exponent : Term) : Builds start (close start (.binary .power base exponent)) :=
    builds_close fun _ => rfl
  refine .accept (.bind fun value => ?_) (stems_refl.acceptBehind fun base => .bind fun _ => hraised _ _)
  exact builds_acceptBehind (builds_close fun _ => rfl) fun base => .bind fun _ => hraised _ _

theorem stems_factorOf : Stems start (g.factorOf primary) primary := by
  refine .here (.peek fun kind? => ?_)
  split
  case h_4 => exact stems_power
  all_goals exact Reaches.stems (.bind fun _ => .bind fun _ => builds_close fun _ => rfl)

theorem buildsSome_suffix (left : Term) : BuildsSome start (g.suffix primary start left) := by
  refine .bind fun kind? => ?_
  split
  · exact .bind fun _ => .bind fun _ => buildsSome_close fun _ => rfl
  · exact .bind fun _ => .bind fun _ => .bind fun _ => buildsSome_close fun _ => rfl
  · exact .bind fun _ => .bind fun _ => .bind fun _ => buildsSome_close fun _ => rfl
  · exact buildsSome_none

theorem stems_primaryOf {inner : FieldReader} :
    Stems start (g.primaryOf inner primary) (g.atom inner primary) := by
  rw [Grammar.primaryOf_eq]
  exact .here (stems_refl.repeating (fun left i j hr => suffix_none hr) buildsSome_suffix)

/-- What an expression is read as is a term of its own, or an atom. -/
theorem stems_expression (inner : FieldReader) (depth : Nat) :
    Stems start (grammarAt inner (depth + 2)).1.expression
      ((grammarAt inner depth).1.atom inner (grammarAt inner depth).2) :=
  stems_expressionOf.trans (stems_bitOr (stems_factorOf.trans stems_primaryOf))

theorem builds_bracketed : Builds start (g.bracketed primary start) := by
  refine .bind fun _ => .ite (fun _ => builds_close fun _ => rfl) fun _ => .bind fun first => ?_
  extract_lets rest
  have hrest (loops : List Clause) : Builds start (rest loops) :=
    .ite (fun _ => .bind fun _ => builds_close fun _ => rfl) fun _ => .bind fun (items, commas) =>
      .bind fun _ => builds_close fun _ => rfl
  exact .ite (fun _ => .bind hrest) fun _ => .bind hrest

theorem builds_braced : Builds start (g.braced primary start) := by
  have hdict (first : Entry) : Builds start (g.dictAfter start first) :=
    .bind fun (items, commas) => .bind fun _ => builds_close fun _ => rfl
  refine .bind fun _ => .ite (fun _ => builds_close fun _ => rfl) fun _ => .bind fun kind? => ?_
  refine .ite (fun _ => .bind hdict) fun _ => .bind fun binds => .bind fun first => .bind fun _ => ?_
  refine .ite (fun _ => .bind fun value => .bind fun loops => ?_) fun _ => ?_
  · exact .ite (fun _ => .bind fun _ => builds_close fun _ => rfl) fun _ => hdict _
  extract_lets rest
  have hrest (loops : List Clause) : Builds start (rest loops) :=
    .ite (fun _ => .bind fun _ => builds_close fun _ => rfl) fun _ => .bind fun (items, commas) =>
      .bind fun _ => builds_close fun _ => rfl
  exact .ite (fun _ => .bind hrest) fun _ => .bind hrest

theorem cases_of_atom {inner : FieldReader} {i j : Input} {x : Term}
    (h : g.atom inner primary i = some (x, j)) :
    IsOwn (startOf i.rest) x j ∨ ∃ opening rest, i.rest = opening :: rest ∧
      opening.kind = .symbol "(" ∧
        g.parenthesized primary opening.start ⟨rest, opening.stop⟩ = some (x, j) := by
  obtain ⟨_ | ⟨⟨kind, start, stop⟩, rest⟩, last⟩ := i
  · cases h
  by_cases hopening : kind = .symbol "("
  · subst hopening
    exact .inr ⟨_, rest, rfl, rfl, h⟩
  refine .inl ?_
  unfold Grammar.atom at h
  rw [bind_eq (here_eq _), bind_eq (peek_of_next rfl)] at h
  dsimp only [List.head?_cons, Option.map_some] at h
  generalize hkind : some kind = kind? at h
  split at h
  · refine (Reaches.bind fun literals => ?_ : Builds start _) _ _ _ h
    cases hform : stringsForm? inner literals with
    | none => exact reaches_failure
    | some form =>
      obtain ⟨value, rfl⟩ | ⟨pieces, rfl⟩ := cases_of_stringsForm? hform <;>
        exact builds_close fun _ => rfl
  · have hnext : next ⟨⟨kind, start, stop⟩ :: rest, last⟩ = some (kind, ⟨rest, stop⟩) := rfl
    rw [bind_eq hnext] at h
    split at h
    case h_7 => exact absurd rfl hopening
    case h_8 => exact builds_bracketed _ _ _ h
    case h_9 => exact builds_braced _ _ _ h
    case h_10 => cases h
    all_goals
      obtain ⟨rfl, rfl⟩ := Prod.mk.inj (Option.some.inj h)
      exact ⟨rfl, rfl, rfl⟩

end
end ViewTree.Embedded
