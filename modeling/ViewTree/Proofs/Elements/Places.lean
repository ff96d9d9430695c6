import ViewTree.Proofs.Elements.Origins
import ViewTree.Proofs.Elements.Spans

/-!
Where elements of tuples stand. Every element is read from balanced lexemes that stand in front of a
lexeme that ends an expression; put between parentheses, they are read as the element. Its span is
theirs: parentheses around an expression do not belong to it, those of a tuple do. Main statement: this
holds of all elements of a tuple that is read as an expression, at every depth (`placed_expression`).
-/
namespace ViewTree.Embedded
open Reader

section
variable {α : Type} {item : Reader α} {i j m : Input} {ends : LexemeKind → Bool}

/-- Behind balanced lexemes `x` is read, up to `j` or a comma. -/
def ReadsItem (item : Reader α) (i j : Input) (x : α) : Prop :=
  ∃ before i' j', Crosses before i i' ∧ item i' = some (x, j') ∧
    (j' = j ∨ Next (some (.symbol ",")) j')

theorem ReadsItem.comma {x : α} (h : ReadsItem item i j x) (hj : Next (some (.symbol ",")) j)
    (k : Input) : ReadsItem item i k x := by
  obtain ⟨before, i', j', hcross, hread, hend⟩ := h
  exact ⟨before, i', j', hcross, hread, .inr (hend.elim (fun h => h ▸ hj) id)⟩

theorem readsItem_of_rounds (hitem : Spans 1 item) {count : Nat} {s s' : List α × Bool}
    {used : List Lexeme} (hused : Crosses used i m) (hs : ∀ x ∈ s.1, ReadsItem item i m x)
    (h : rounds failure (itemStep item ends) count s m = some (s', j)) :
    ∀ x ∈ s'.1, ReadsItem item i j x := by
  induction count generalizing s m used with
  | zero => nomatch h
  | succ count ih =>
    obtain ⟨⟨next?, k⟩, hstep, hmore⟩ := Option.bind_eq_some_iff.mp h
    obtain ⟨rfl, rfl⟩ | ⟨comma, rest, hm, hcomma, hnext⟩ := cases_of_itemStep hstep
    · obtain ⟨rfl, rfl⟩ := Prod.mk.inj (Option.some.inj hmore)
      exact hs
    obtain ⟨rest', last⟩ := m
    obtain rfl : rest' = comma :: rest := hm
    have hbehind := hused.trans (crosses_flat (by rw [hcomma]; rfl) rest last)
    have hs (k : Input) (x : α) (hx : x ∈ s.1) : ReadsItem item i k x :=
      (hs x hx).comma (congrArg some hcomma) k
    obtain ⟨rfl, rfl⟩ | ⟨y, hy, rfl⟩ := hnext
    · exact ih (s := (s.1, true)) hbehind (hs _) hmore
    · obtain ⟨taken, htaken, -⟩ := hitem _ y k hy
      refine ih (hbehind.trans htaken) (List.forall_mem_cons.mpr ⟨?_, hs k⟩) hmore
      exact ⟨_, _, k, hbehind, hy, .inl rfl⟩

theorem readsItem_of_items (hitem : Spans 1 item) {found : List α} {commas : Bool}
    (h : items item ends i = some ((found, commas), j)) : ∀ x ∈ found, ReadsItem item i j x := by
  obtain ⟨⟨first, m⟩, hfirst, hmore⟩ := Option.bind_eq_some_iff.mp h
  replace hmore : itemsAfter first item ends m = some ((found, commas), j) := hmore
  rw [itemsAfter_eq] at hmore
  obtain ⟨⟨s, k⟩, hrepeating, hend⟩ := Option.bind_eq_some_iff.mp hmore
  obtain ⟨hpair, rfl⟩ := Prod.mk.inj (Option.some.inj hend)
  obtain ⟨rfl, -⟩ := Prod.mk.inj hpair
  obtain ⟨used, hused, -⟩ := hitem i first m hfirst
  have hone : ReadsItem item i m first := ⟨[], i, m, crosses_refl i, hfirst, .inl rfl⟩
  intro x hx
  exact readsItem_of_rounds hitem hused (List.forall_mem_singleton.mpr hone) hrepeating x
    (List.mem_reverse.mp hx)

theorem cases_of_itemsTerm {item : Reader Term} (hitem : Spans 1 item) {x : Term}
    (h : Grammar.itemsTerm item i = some (x, j)) :
    item i = some (x, j) ∨
      ∃ found, x = .mk (startOf i.rest) j.last (.tuple found) ∧ ∀ y ∈ found, ReadsItem item i j y := by
  unfold Grammar.itemsTerm at h
  rw [bind_eq (here_eq i)] at h
  obtain ⟨⟨⟨found, commas⟩, m⟩, hitems, hend⟩ := Option.bind_eq_some_iff.mp h
  have hreads := readsItem_of_items hitem hitems
  dsimp only at hend
  split at hend
  · obtain ⟨rfl, rfl⟩ := Prod.mk.inj (Option.some.inj hend)
    obtain ⟨⟨first, k⟩, hfirst, hmore⟩ := Option.bind_eq_some_iff.mp hitems
    obtain ⟨hone, rfl⟩ := itemsAfter_idle hmore
    obtain rfl := (List.cons.inj hone).1
    exact .inl hfirst
  · obtain ⟨rfl, rfl⟩ := Prod.mk.inj (Option.some.inj hend)
    exact .inr ⟨found, rfl, hreads⟩

end

section
variable {g : Grammar} {primary : Reader Term} {i j : Input} {x : Term}

/-- What an item is read from: a star and an operand, a name that is bound, or an expression. -/
theorem cases_of_item (h : g.item i = some (x, j)) :
    (∃ star rest value, i.rest = star :: rest ∧ star.kind = .symbol "*" ∧
        g.bitOr ⟨rest, star.stop⟩ = some (value, j) ∧ x = .mk star.start j.last (.starred value)) ∨
      (IsOwn (startOf i.rest) x j ∧ x.isStarred = false ∧ ∃ id, Next (some (.name id)) i) ∨
        g.expression i = some (x, j) := by
  unfold Grammar.item at h
  rw [bind_eq (here_eq i)] at h
  by_cases hstar : Next (some (.symbol "*")) i
  · obtain ⟨_ | ⟨star, rest⟩, last⟩ := i
    · nomatch hstar
    have hkind : star.kind = .symbol "*" := Option.some.inj hstar
    rw [bind_eq (accept_eq hkind rest last), if_pos rfl] at h
    obtain ⟨⟨value, m⟩, hvalue, hend⟩ := Option.bind_eq_some_iff.mp h
    obtain ⟨rfl, rfl⟩ := Prod.mk.inj (Option.some.inj hend)
    exact .inl ⟨star, rest, value, rfl, hkind, hvalue, rfl⟩
  rw [bind_eq (accept_of_not hstar), if_neg nofun] at h
  obtain ⟨⟨binds, m⟩, hbinds, hend⟩ := Option.bind_eq_some_iff.mp h
  obtain rfl := namesNext_idle hbinds
  cases binds with
  | false => exact .inr (.inr hend)
  | true =>
    obtain ⟨⟨target, k⟩, htarget, hend⟩ := Option.bind_eq_some_iff.mp hend
    obtain ⟨t, ht, hid⟩ := exists_of_name htarget
    obtain ⟨⟨⟨⟩, k'⟩, -, hend⟩ := Option.bind_eq_some_iff.mp hend
    obtain ⟨⟨value, k''⟩, -, hend⟩ := Option.bind_eq_some_iff.mp hend
    obtain ⟨rfl, rfl⟩ := Prod.mk.inj (Option.some.inj hend)
    refine .inr (.inl ⟨⟨rfl, rfl, rfl⟩, rfl, target, ?_⟩)
    rw [Next, ht]
    exact congrArg some hid

theorem builds_yieldTerm (h : g.yieldTerm i = some (x, j)) : IsOwn (startOf i.rest) x j := by
  have hbuilds (start : Nat) : Builds start (do
      keyword "yield"
      if ← accept (.keyword "from") then
        let value ← g.expression
        close start (.yieldFrom value)
      else if (← peek).all endsItems then close start (.yield none)
      else
        let value ← Grammar.itemsTerm g.plainItem
        close start (.yield (some value))) := by
    refine .bind fun _ => .bind fun _ => .ite (fun _ => .bind fun _ => builds_close fun _ => rfl) ?_
    exact fun _ => .bind fun _ => .ite (fun _ => builds_close fun _ => rfl) fun _ => .bind fun _ =>
      builds_close fun _ => rfl
  exact hbuilds _ i x j h

/-- Behind the first item a comprehension may follow; otherwise the rest is read without loops. -/
theorem cases_of_loops {start : Nat} {first : Term} {rest : List Clause → Reader Term}
    (hloops : ∀ loop loops, Builds start (rest (loop :: loops)))
    (h : (if first.isStarred then rest [] else g.clauses primary >>= rest) i = some (x, j)) :
    IsOwn start x j ∨ rest [] i = some (x, j) := by
  split at h
  · exact .inr h
  · obtain ⟨⟨loops, k⟩, hclauses, hbehind⟩ := Option.bind_eq_some_iff.mp h
    cases loops with
    | nil =>
      obtain rfl := idles_clause _ _ (item_of_many_nil hclauses)
      exact .inr hbehind
    | cons loop loops => exact .inl (hloops loop loops k x j hbehind)

/-- Behind an opening parenthesis stands a generator, the elements of a tuple, or one term. -/
theorem cases_of_parenthesized (hitem : Spans 1 g.item) {start : Nat}
    (h : g.parenthesized primary start i = some (x, j)) :
    IsOwn start x j ∨
      (∃ found inside k, x = .mk start j.last (.tuple found) ∧ Crosses inside i k ∧
        symbol ")" k = some ((), j) ∧ ∀ y ∈ found, ReadsItem g.item i k y) ∨
        ∃ k, (g.yieldTerm i = some (x, k) ∨ g.item i = some (x, k)) ∧ symbol ")" k = some ((), j) := by
  unfold Grammar.parenthesized at h
  by_cases hclosing : Next (some (.symbol ")")) i
  · obtain ⟨_ | ⟨closing, rest⟩, last⟩ := i
    · nomatch hclosing
    have hkind : closing.kind = .symbol ")" := Option.some.inj hclosing
    rw [bind_eq (accept_eq hkind rest last), if_pos rfl] at h
    obtain ⟨rfl, rfl⟩ := Prod.mk.inj (Option.some.inj h)
    exact .inr (.inl ⟨[], [], _, rfl, crosses_refl _, symbol_eq hkind rest last, nofun⟩)
  rw [bind_eq (accept_of_not hclosing), if_neg nofun, bind_eq (peek_of_next rfl)] at h
  split at h
  · obtain ⟨⟨value, k⟩, hvalue, hend⟩ := Option.bind_eq_some_iff.mp h
    obtain ⟨⟨⟨⟩, j'⟩, hsymbol, hend⟩ := Option.bind_eq_some_iff.mp hend
    obtain ⟨rfl, rfl⟩ := Prod.mk.inj (Option.some.inj hend)
    exact .inr (.inr ⟨k, .inl hvalue, hsymbol⟩)
  obtain ⟨⟨first, m⟩, hfirst, hrest⟩ := Option.bind_eq_some_iff.mp h
  let rest (loops : List Clause) : Reader Term := do
    if !loops.isEmpty then
      symbol ")"
      close start (.generator first loops)
    else
      let after ← itemsAfter first g.item
      symbol ")"
      if after.2 then close start (.tuple after.1)
      else if first.isStarred then failure
      else pure first
  have hrest : (if first.isStarred then rest [] else g.clauses primary >>= rest) m = some (x, j) := hrest
  refine (cases_of_loops (fun _ _ => .bind fun _ => builds_close fun _ => rfl) hrest).imp id fun hrest => ?_
  obtain ⟨⟨⟨found, commas⟩, k⟩, hmore, hrest⟩ := Option.bind_eq_some_iff.mp hrest
  obtain ⟨⟨⟨⟩, j'⟩, hsymbol, hend⟩ := Option.bind_eq_some_iff.mp hrest
  cases commas with
  | true =>
    obtain ⟨rfl, rfl⟩ := Prod.mk.inj (Option.some.inj hend)
    have hitems : items g.item endsItems i = some ((found, true), k) :=
      Option.bind_eq_some_iff.mpr ⟨_, hfirst, hmore⟩
    obtain ⟨inside, hinside, -⟩ := spans_items hitem endsItems _ _ _ hitems
    exact .inl ⟨found, inside, k, rfl, hinside, hsymbol, readsItem_of_items hitem hitems⟩
  | false =>
    obtain ⟨-, rfl⟩ := itemsAfter_idle hmore
    replace hend : (if first.isStarred then failure else pure first : Reader Term) j' = some (x, j) := hend
    split at hend
    · nomatch hend
    · obtain ⟨rfl, rfl⟩ := Prod.mk.inj (Option.some.inj hend)
      exact .inr ⟨k, .inr hfirst, hsymbol⟩

end

/-- Lexemes that no operand of an operator starts with. -/
def isForeign (k : LexemeKind) : Bool := isStray k || k = .keyword "not" || k = .keyword "lambda"

theorem kinds_of_isForeign {k : LexemeKind} (h : isForeign k) :
    k = .symbol "*" ∨ k = .symbol "**" ∨ k = .symbol ")" ∨ k = .keyword "yield" ∨
      k = .keyword "not" ∨ k = .keyword "lambda" := by
  simpa [isForeign, isStray, or_assoc] using h

theorem factor_eq_none {inner : FieldReader} {k : LexemeKind} {i : Input} (hk : isForeign k)
    (hi : Next (some k) i) : ∀ depth, (grammarAt inner depth).1.factor i = none
  | 0 => rfl
  | depth + 1 => by
    show Grammar.factorOf _ (Grammar.primaryOf _ inner _) i = none
    generalize (grammarAt inner depth).1 = g
    generalize (grammarAt inner depth).2 = primary
    have hatom : g.atom inner primary i = none := by
      obtain ⟨_ | ⟨⟨kind, start, stop⟩, rest⟩, last⟩ := i
      · nomatch hi
      obtain rfl : kind = k := Option.some.inj hi
      rcases kinds_of_isForeign hk with rfl | rfl | rfl | rfl | rfl | rfl <;> rfl
    have hprimary : g.primaryOf inner primary i = none := by
      unfold Grammar.primaryOf
      rw [bind_eq (here_eq i), bind_eq_none hatom]
    have hpower : g.power (g.primaryOf inner primary) i = none := by
      have hawait : k ≠ .keyword "await" := by
        rcases kinds_of_isForeign hk with rfl | rfl | rfl | rfl | rfl | rfl <;> decide
      unfold Grammar.power
      dsimp only
      rw [bind_eq (here_eq i), bind_eq (accept_of_other hi _ hawait), if_neg nofun, bind_eq_none hprimary]
    unfold Grammar.factorOf
    dsimp only
    rw [bind_eq (here_eq i), bind_eq (peek_of_next hi)]
    rcases kinds_of_isForeign hk with rfl | rfl | rfl | rfl | rfl | rfl <;> exact hpower

/-- The closing parenthesis that lexemes are put in front of. -/
def closer : Lexeme := ⟨.symbol ")", 0, 0⟩

def Grouped (inner : FieldReader) (core : List Lexeme) (x : Term) : Prop :=
  ∃ depth start last closing tail found last', closing.kind = .symbol ")" ∧
    (grammarAt inner depth).1.parenthesized (grammarAt inner depth).2 start ⟨core ++ closing :: tail, last⟩ =
      some (found, ⟨tail, last'⟩) ∧ found.unplaced = x.unplaced

section
variable {inner : FieldReader} {depth last : Nat} {core : List Lexeme} {i j : Input} {x : Term}

theorem not_stray_of_item (h : (grammarAt inner depth).1.item i = some (x, j))
    (hx : x.isStarred = false) {k : LexemeKind} (hi : Next (some k) i) : ¬isStray k := by
  obtain ⟨star, rest, value, -, -, -, rfl⟩ | ⟨-, -, id, hid⟩ | hread := cases_of_item h
  · nomatch hx
  · obtain rfl := Option.some.inj (hi.symm.trans hid)
    nofun
  · exact not_stray_of_expression hread hi

/-- A closing parenthesis stands behind expressions, like what stands behind them elsewhere. -/
theorem exists_closed {r : Reader Term} (hr : MirrorsTerm r r) (h : r i = some (x, j))
    (hi : i.rest = core ++ j.rest) {t : Lexeme} {tail : List Lexeme} (hj : j.rest = t :: tail)
    (ht : endsExpression t.kind) :
    ∃ found last, r ⟨core ++ [closer], 0⟩ = some (found, ⟨[closer], last⟩) ∧
      found.unplaced = x.unplaced := by
  obtain ⟨used, hused, -, hmirror⟩ := hr i x j h
  obtain rfl : core = used := List.append_cancel_right (hi.symm.trans hused)
  obtain ⟨found, last, hfound, hsame⟩ := hmirror ⟨core ++ [closer], 0⟩ core [closer] rfl rfl
    (hj ▸ .ends ht rfl)
  exact ⟨found, last, hfound, hsame.symm⟩

theorem grouped_of_closed {found : Term}
    (h : (grammarAt inner depth).1.item ⟨core ++ [closer], 0⟩ = some (found, ⟨[closer], last⟩))
    (hx : x.isStarred = false) (hfound : found.unplaced = x.unplaced) : Grouped inner core x := by
  have hstarred : found.isStarred = false := (Term.isStarred_congr hfound).trans hx
  exact ⟨depth, 0, 0, closer, [], found, closer.stop, rfl,
    parenthesized_of_item h rfl (fun k => not_stray_of_item h hstarred) hstarred 0, hfound⟩

theorem grouped_of_closedExpression {found : Term}
    (h : (grammarAt inner depth).1.expression ⟨core ++ [closer], 0⟩ = some (found, ⟨[closer], last⟩))
    (hfound : found.unplaced = x.unplaced) : Grouped inner core x := by
  have hstarred := unstarred_expression inner _ _ _ _ h
  obtain ⟨used, hused, hpassage, -⟩ :=
    (follows_grammarAt inner depth depth).1.expression _ _ _ trivial h
  obtain rfl : core = used := List.append_cancel_right hused
  obtain ⟨w, hwalk, -⟩ := hpassage.walks 0 0 ⟨0, 0, false⟩ ⟨rfl, fun _ => rfl⟩
  have hnamed : Grammar.namesNext ⟨core ++ [closer], 0⟩ = some (false, ⟨core ++ [closer], 0⟩) :=
    namesNext_of_walk? hwalk nofun nofun
  have hitem := item_of_expression h (fun k => not_stray_of_expression h) hnamed
  exact grouped_of_closed hitem ((Term.isStarred_congr hfound).symm.trans hstarred) hfound

variable (hinner : FieldsAlike inner inner)
include hinner

theorem grouped_of_item (h : (grammarAt inner depth).1.item i = some (x, j))
    (hx : x.isStarred = false) (hi : i.rest = core ++ j.rest) {t : Lexeme} {tail : List Lexeme}
    (hj : j.rest = t :: tail) (ht : endsExpression t.kind) : Grouped inner core x := by
  have hmirrors := (mirrors_grammarAt hinner depth).1
  obtain ⟨found, last, hread, hfound⟩ := exists_closed (mirrors_item hmirrors) h hi hj ht
  exact grouped_of_closed hread hx hfound

theorem grouped_of_expression (h : (grammarAt inner depth).1.expression i = some (x, j))
    (hi : i.rest = core ++ j.rest) {t : Lexeme} {tail : List Lexeme} (hj : j.rest = t :: tail)
    (ht : endsExpression t.kind) : Grouped inner core x := by
  have hmirrors := (mirrors_grammarAt hinner depth).1
  obtain ⟨found, last, hread, hfound⟩ := exists_closed hmirrors.expression h hi hj ht
  exact grouped_of_closedExpression hread hfound

/-- What stands behind a star is an expression between parentheses. -/
theorem grouped_of_bitOr (h : (grammarAt inner depth).1.bitOr i = some (x, j))
    (hi : i.rest = core ++ j.rest) {t : Lexeme} {tail : List Lexeme} (hj : j.rest = t :: tail)
    (ht : endsExpression t.kind) : Grouped inner core x := by
  have hmirrors := (mirrors_grammarAt hinner depth).1
  obtain ⟨found, last, hread, hfound⟩ := exists_closed (mirrors_bitOr hmirrors.factor) h hi hj ht
  obtain ⟨k, hk⟩ : ∃ k, Next (some k) ⟨core ++ [closer], 0⟩ := by
    cases core with
    | nil => exact ⟨_, rfl⟩
    | cons t core => exact ⟨_, rfl⟩
  have hforeign : ¬isForeign k := fun hforeign =>
    nomatch (bitOr_eq_none (factor_eq_none hforeign hk depth)).symm.trans hread
  have hnot : k ≠ .keyword "not" := by
    rintro rfl
    exact hforeign rfl
  have hlambda : k ≠ .keyword "lambda" := by
    rintro rfl
    exact hforeign rfl
  have hclosed : Next (some (.symbol ")")) ⟨[closer], last⟩ := rfl
  have hexpression : (grammarAt inner (depth + 1)).1.expression ⟨core ++ [closer], 0⟩ =
      some (found, ⟨[closer], last⟩) := expressionOf_of_disjunction hk hlambda hclosed nofun
    (disjunction_of_bitOr hk hnot hclosed rfl hread)
  exact grouped_of_closedExpression hexpression hfound

end

/-- Behind these lexemes something that closes is still to come, whatever was around. -/
def Inside (front : List Lexeme) : Prop :=
  ∀ pending still, nestAll? pending front = some still → still ≠ []

theorem inside_of_opening {opening : Lexeme} (hopening : opening.kind = .symbol "(")
    {before : List Lexeme} (h : Balanced before) : Inside (opening :: before) := by
  intro pending still hstill
  obtain ⟨next, hnext, hrest⟩ := Option.bind_eq_some_iff.mp hstill
  obtain ⟨rfl, -⟩ := h.nests next still hrest
  have hnext : nest? pending opening.kind = some still := hnext
  rw [hopening] at hnext
  replace hnext : (if pending.length < maxNesting then some (")" :: pending) else none) = some still :=
    hnext
  split at hnext
  · exact Option.some.inj hnext ▸ List.cons_ne_nil _ _
  · nomatch hnext

theorem Inside.append {b : List Lexeme} (h : Inside b) (a : List Lexeme) : Inside (a ++ b) := by
  intro pending still hstill
  rw [nestAll?_append] at hstill
  obtain ⟨middle, -, hrest⟩ := Option.bind_eq_some_iff.mp hstill
  exact h middle still hrest

/-- The span of the term is that of balanced lexemes, which stand behind `front` and in front of a lexeme
that ends an expression. -/
structure Spot (all front core behind : List Lexeme) (x : Term) : Prop where
  text : all = front ++ (core ++ behind)
  start : x.start = startOf core
  stop : x.stop = stopOf core
  taken : core ≠ []
  balanced : Balanced core
  ends : ∃ t tail, behind = t :: tail ∧ endsExpression t.kind

theorem Spot.append {all front core behind : List Lexeme} {x : Term} (h : Spot all front core behind x)
    (a : List Lexeme) : Spot (a ++ all) (a ++ front) core behind x :=
  { h with text := by rw [h.text, List.append_assoc] }

theorem stopOf_of_crosses {core : List Lexeme} {i j : Input} (h : Crosses core i j) (hcore : core ≠ []) :
    j.last = stopOf core := by
  rw [h.last, stopOf, List.getLast?_eq_some_getLast hcore]
  rfl

theorem startOf_append {core : List Lexeme} (hcore : core ≠ []) (rest : List Lexeme) :
    startOf (core ++ rest) = startOf core := by
  obtain ⟨t, core, rfl⟩ := List.exists_cons_of_ne_nil hcore
  rfl

/-- The term stands between parentheses that belong to it. -/
def IsEnclosed (all : List Lexeme) (x : Term) : Prop :=
  ∃ a opening inside closing b, all = a ++ (opening :: inside ++ closing :: b) ∧
    opening.kind = .symbol "(" ∧ closing.kind = .symbol ")" ∧ x.start = opening.start ∧
      x.stop = closing.stop

theorem IsEnclosed.append {all : List Lexeme} {x : Term} (h : IsEnclosed all x) (front : List Lexeme) :
    IsEnclosed (front ++ all) x := by
  obtain ⟨a, opening, inside, closing, b, rfl, hrest⟩ := h
  exact ⟨front ++ a, opening, inside, closing, b, by rw [List.append_assoc], hrest⟩

/-- The lexemes are an element: read as the term between parentheses, behind the star if it has one. -/
inductive IsElement (inner : FieldReader) : List Lexeme → Term → Prop where
  | plain {core x} (h : Grouped inner core x) (hx : x.isStarred = false) : IsElement inner core x
  | starred {star core start stop value} (hstar : star.kind = .symbol "*") (hcore : core ≠ [])
      (h : Grouped inner core value) : IsElement inner (star :: core) (.mk start stop (.starred value))

/-- Behind `front` stands an element; if it is a tuple, with its parentheses. -/
structure StandsBehind (inner : FieldReader) (all front : List Lexeme) (x : Term) : Prop where
  spot : ∃ core behind, Spot all front core behind x ∧ IsElement inner core x
  enclosed : x.elements?.isSome → IsEnclosed all x

theorem StandsBehind.append {inner : FieldReader} {all front : List Lexeme} {x : Term}
    (h : StandsBehind inner all front x) (a : List Lexeme) :
    StandsBehind inner (a ++ all) (a ++ front) x where
  spot := by
    obtain ⟨core, behind, hspot, helement⟩ := h.spot
    exact ⟨core, behind, hspot.append a, helement⟩
  enclosed := fun hx => (h.enclosed hx).append a

/-- Where a term is read from: the whole, or a part between parentheses. Elements of a tuple stand
between its parentheses. -/
structure IsPlaced (inner : FieldReader) (i j : Input) (x : Term) : Prop where
  spot : (x.start = startOf i.rest ∧ x.stop = j.last) ∨
    ∃ front core behind, Inside front ∧ Spot i.rest front core behind x ∧ Grouped inner core x
  elements : ∀ items, x.elements? = some items → IsEnclosed i.rest x ∧
    ∀ y ∈ items, ∃ front, Inside front ∧ StandsBehind inner i.rest front y

theorem isPlaced_of_isOwn {inner : FieldReader} {i j : Input} {x : Term}
    (h : IsOwn (startOf i.rest) x j) : IsPlaced inner i j x where
  spot := .inl ⟨h.1, h.2.1⟩
  elements := fun _ hitems => nomatch h.2.2.symm.trans hitems

section
variable {inner : FieldReader} {depth last : Nat} {core : List Lexeme} {i j m : Input} {x : Term}

/-- A term that is read up to a lexeme that ends an expression is an element. -/
theorem standsBehind_of_isPlaced (h : IsPlaced inner i j x) (hcross : Crosses core i j) (hcore : core ≠ [])
    (hj : ∃ t tail, j.rest = t :: tail ∧ endsExpression t.kind) (hgrouped : Grouped inner core x)
    (hx : x.isStarred = false) : ∃ front, (front = [] ∨ Inside front) ∧ StandsBehind inner i.rest front x := by
  have henclosed : x.elements?.isSome → IsEnclosed i.rest x := by
    intro hsome
    obtain ⟨items, hitems⟩ := Option.isSome_iff_exists.mp hsome
    exact (h.elements items hitems).1
  obtain ⟨hstart, hstop⟩ | ⟨front, core', behind, hinside, hspot, hgrouped⟩ := h.spot
  · refine ⟨[], .inl rfl, ⟨core, j.rest, ?_, .plain hgrouped hx⟩, henclosed⟩
    refine ⟨hcross.text, ?_, hstop.trans (stopOf_of_crosses hcross hcore), hcore, hcross.balanced, hj⟩
    rw [hstart, hcross.text, startOf_append hcore]
  · exact ⟨front, .inr hinside, ⟨core', behind, hspot, .plain hgrouped hx⟩, henclosed⟩

/-- Parentheses around a term do not belong to it. -/
theorem IsPlaced.enclose {opening closing : Lexeme} {rest tail : List Lexeme} {last last' : Nat}
    (h : IsPlaced inner ⟨rest, opening.stop⟩ m x) (hcross : Crosses core ⟨rest, opening.stop⟩ m)
    (hcore : core ≠ []) (hgrouped : Grouped inner core x) (hopening : opening.kind = .symbol "(")
    (hm : m.rest = closing :: tail) (hclosing : closing.kind = .symbol ")") :
    IsPlaced inner ⟨opening :: rest, last⟩ ⟨tail, last'⟩ x where
  spot := by
    refine .inr ?_
    obtain ⟨hstart, hstop⟩ | ⟨front, core', behind, hinside, hspot, hgrouped⟩ := h.spot
    · refine ⟨[opening], core, m.rest, inside_of_opening hopening balanced_nil, ?_, hgrouped⟩
      have hends : ∃ t tail, m.rest = t :: tail ∧ endsExpression t.kind :=
        ⟨closing, tail, hm, by rw [hclosing]; rfl⟩
      refine ⟨congrArg (opening :: ·) hcross.text, ?_, hstop.trans (stopOf_of_crosses hcross hcore), hcore,
        hcross.balanced, hends⟩
      have htext : rest = core ++ m.rest := hcross.text
      rw [hstart, htext, startOf_append hcore]
    · exact ⟨[opening] ++ front, core', behind, hinside.append _, hspot.append [opening], hgrouped⟩
  elements := by
    intro items hitems
    obtain ⟨henclosed, helements⟩ := h.elements items hitems
    refine ⟨henclosed.append [opening], fun y hy => ?_⟩
    obtain ⟨front, hinside, hstands⟩ := helements y hy
    exact ⟨[opening] ++ front, hinside.append _, hstands.append [opening]⟩

/-- Behind an item stands a comma, or what the list ends with. -/
theorem ReadsItem.exists_ends {α : Type} {item : Reader α} {y : α} (h : ReadsItem item i j y)
    (hj : ∃ t tail, j.rest = t :: tail ∧ endsExpression t.kind) :
    ∃ before i' j', Crosses before i i' ∧ item i' = some (y, j') ∧
      ∃ t tail, j'.rest = t :: tail ∧ endsExpression t.kind := by
  obtain ⟨before, i', j', hcross, hread, rfl | hcomma⟩ := h
  · exact ⟨before, i', j', hcross, hread, hj⟩
  · refine ⟨before, i', j', hcross, hread, ?_⟩
    obtain ⟨_ | ⟨comma, tail⟩, last⟩ := j'
    · nomatch hcomma
    · have hkind : comma.kind = .symbol "," := Option.some.inj hcomma
      exact ⟨comma, tail, rfl, by rw [hkind]; rfl⟩

variable (hinner : FieldsAlike inner inner)
  (hplaced : ∀ i x j, (grammarAt inner depth).1.expression i = some (x, j) → IsPlaced inner i j x)
include hinner hplaced

theorem standsBehind_of_item (h : (grammarAt inner depth).1.item i = some (x, j))
    (hj : ∃ t tail, j.rest = t :: tail ∧ endsExpression t.kind) :
    ∃ front, (front = [] ∨ Inside front) ∧ StandsBehind inner i.rest front x := by
  have hspans := spansGrammar_grammarAt inner depth
  obtain ⟨t, tail, ht, hends⟩ := hj
  have hone (hx : x.isStarred = false) (hat : IsPlaced inner i j x) :
      ∃ front, (front = [] ∨ Inside front) ∧ StandsBehind inner i.rest front x := by
    obtain ⟨core, hcross, hcount⟩ := spans_item hspans i x j h
    exact standsBehind_of_isPlaced hat hcross (List.length_pos_iff.mp hcount) ⟨t, tail, ht, hends⟩
      (grouped_of_item hinner h hx hcross.text ht hends) hx
  obtain ⟨star, rest, value, hi, hstar, hvalue, rfl⟩ | ⟨hown, hx, -⟩ | hread := cases_of_item h
  · obtain ⟨core, hcross, hcount⟩ := hspans.bitOr _ _ _ hvalue
    obtain ⟨rest', last⟩ := i
    obtain rfl : rest' = star :: rest := hi
    have hall := (crosses_flat (by rw [hstar]; rfl) rest last).trans hcross
    have hcore : [star] ++ core ≠ [] := List.cons_ne_nil _ _
    refine ⟨[], .inl rfl, ⟨star :: core, j.rest, ?_, ?_⟩, nofun⟩
    · exact ⟨hall.text, rfl, stopOf_of_crosses hall hcore, hcore, hall.balanced, t, tail, ht, hends⟩
    · exact .starred hstar (List.length_pos_iff.mp hcount)
        (grouped_of_bitOr hinner hvalue hcross.text ht hends)
  · exact hone hx (isPlaced_of_isOwn hown)
  · exact hone (unstarred_expression inner depth _ _ _ hread) (hplaced i x j hread)

theorem isPlaced_of_parenthesized {opening : Lexeme} {rest : List Lexeme}
    (hopening : opening.kind = .symbol "(")
    (h : (grammarAt inner depth).1.parenthesized (grammarAt inner depth).2 opening.start
      ⟨rest, opening.stop⟩ = some (x, j)) : IsPlaced inner ⟨opening :: rest, last⟩ j x := by
  have hspans := spansGrammar_grammarAt inner depth
  obtain hown | ⟨found, inside, k, rfl, hinside, hsymbol, hfound⟩ | ⟨k, hterm, hsymbol⟩ :=
    cases_of_parenthesized (spans_item hspans) h
  · exact isPlaced_of_isOwn hown
  · obtain ⟨closing, hk, hclosing⟩ := exists_of_symbol hsymbol
    have hlast : j.last = closing.stop := by
      obtain ⟨rest', last'⟩ := k
      obtain rfl : rest' = closing :: j.rest := hk
      have hclose := symbol_eq hclosing j.rest last'
      exact congrArg Input.last (Prod.mk.inj (Option.some.inj (hsymbol.symm.trans hclose))).2
    have hends : ∃ t tail, k.rest = t :: tail ∧ endsExpression t.kind :=
      ⟨closing, j.rest, hk, by rw [hclosing]; rfl⟩
    refine ⟨.inl ⟨rfl, rfl⟩, fun items hitems => ?_⟩
    obtain rfl := Option.some.inj hitems
    refine ⟨⟨[], opening, inside, closing, j.rest, ?_, hopening, hclosing, rfl, hlast⟩, fun y hy => ?_⟩
    · exact congrArg (opening :: ·) (hinside.text.trans (congrArg (inside ++ ·) hk))
    · obtain ⟨before, i', j', hbefore, hread, hbehind⟩ := (hfound y hy).exists_ends hends
      obtain ⟨front, hfront, hstands⟩ := standsBehind_of_item hinner hplaced hread hbehind
      have htext : opening :: rest = opening :: before ++ i'.rest := congrArg (opening :: ·) hbefore.text
      refine ⟨opening :: before ++ front, ?_, htext ▸ hstands.append (opening :: before)⟩
      obtain rfl | hinside := hfront
      · rw [List.append_nil]
        exact inside_of_opening hopening hbefore.balanced
      · exact hinside.append _
  · obtain ⟨closing, hk, hclosing⟩ := exists_of_symbol hsymbol
    obtain ⟨rest', last'⟩ := j
    obtain ⟨core, hcross, hcount⟩ : ∃ core, Crosses core ⟨rest, opening.stop⟩ k ∧ 1 ≤ core.length := by
      obtain hyield | hitem := hterm
      · exact spans_yieldTerm hspans _ x k hyield
      · exact spans_item hspans _ x k hitem
    have hgrouped : Grouped inner core x := by
      have htext : rest = core ++ closing :: rest' := hcross.text.trans (congrArg (core ++ ·) hk)
      exact ⟨depth, opening.start, opening.stop, closing, rest', x, last', hclosing, htext ▸ h, rfl⟩
    refine IsPlaced.enclose ?_ hcross (List.length_pos_iff.mp hcount) hgrouped hopening hk hclosing
    obtain hyield | hitem := hterm
    · exact isPlaced_of_isOwn (builds_yieldTerm hyield)
    · obtain ⟨star, _, value, -, -, -, rfl⟩ | ⟨hown, -, -⟩ | hread := cases_of_item hitem
      · exact absurd (Unstarred.parenthesized _ _ _ _ h) nofun
      · exact isPlaced_of_isOwn hown
      · exact hplaced _ _ _ hread

end

/-- Elements of tuples that are read as expressions stand between the parentheses of the tuples. -/
theorem placed_expression {inner : FieldReader} (hinner : FieldsAlike inner inner) (depth : Nat) :
    ∀ i x j, (grammarAt inner depth).1.expression i = some (x, j) → IsPlaced inner i j x := by
  induction depth using Nat.strongRecOn with
  | _ depth ih =>
    intro i x j h
    match depth, h with
    | 0, h => nomatch h
    | 1, h =>
      have hnone : Stems (startOf i.rest) (grammarAt inner 1).1.expression failure :=
        stems_expressionOf.trans (stems_bitOr stems_refl)
      obtain hown | hfailure := hnone i x j rfl h
      · exact isPlaced_of_isOwn hown
      · nomatch hfailure
    | depth + 2, h =>
      obtain hown | hatom := stems_expression inner depth i x j rfl h
      · exact isPlaced_of_isOwn hown
      obtain hown | ⟨opening, rest, hi, hopening, hread⟩ := cases_of_atom hatom
      · exact isPlaced_of_isOwn hown
      · obtain ⟨rest', last⟩ := i
        obtain rfl : rest' = opening :: rest := hi
        exact isPlaced_of_parenthesized hinner (ih depth (by omega)) hopening hread

end ViewTree.Embedded
