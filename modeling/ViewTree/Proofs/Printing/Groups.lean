import ViewTree.Proofs.Printing.Atoms

/-!
Items, groups and displays on lexemes whose kinds are known: what stands between brackets, and the terms that
stand between parentheses only. Main statements: `ReadsAt.grouped`, `readsAt_tuple`, `readsAt_list`,
`readsAt_set` and `readsAt_dict`.
-/
namespace ViewTree.Embedded
open Reader Grammar

/-- The lexemes are read as a term, or as one behind a star. -/
inductive ItemAt : List LexemeKind → Term → Prop where
  | term {ks y} (h : ReadsAt 4 ks y) : ItemAt ks y
  | starred {ks y} (h : ReadsAt 9 ks y) : ItemAt (.symbol "*" :: ks) (.mk 0 0 (.starred y))

section
variable {β δ : Type} {f : β → δ} {B : LexemeKind → Prop} {l : Level} {kinds : List LexemeKind} {y : Term}
  {z : δ}

/-- The name in front, if there is one, is bound to nothing. -/
theorem consumes_namesNext {k : LexemeKind} (hk : ∀ id, k = .name id → Begins B kinds (Under 20))
    {r : Bool → Reader β} (h : Consumes f B (r false) (k :: kinds) z) :
    Consumes f B (namesNext >>= r) (k :: kinds) z := by
  rw [namesNext_bind]
  refine consumes_peekTwo hk fun first second hsecond => ?_
  have hnone : binds (some first) second = false := binds_of_not fun id hfirst hbound => by
    obtain ⟨next, hnext, hunder⟩ := hsecond id (Option.some.inj hfirst)
    obtain rfl := Option.some.inj (hbound.symm.trans hnext)
    exact absurd hunder (by decide)
  rw [hnone]
  exact h

/-- The first lexeme of a term. -/
theorem ReadsAt.exists_first (h : ReadsAt l kinds y) {a : List LexemeKind} (hls : Begins B a (Under 20)) :
    ∃ k ks, kinds ++ a = k :: ks ∧ ∀ id, k = .name id → Begins B ks (Under 20) := by
  obtain ⟨first, ks, rfl, -⟩ := h.opens
  refine ⟨first, ks ++ a, rfl, fun id hid => ?_⟩
  cases ks with
  | nil => exact hls
  | cons second ks =>
    subst hid
    exact begins_under (h.unbound id second ks rfl)

/-- No term starts with a name that is bound. -/
theorem ReadsAt.consumes_namesNext (h : ReadsAt l kinds y) {ls : List LexemeKind}
    (hls : Begins B ls (Under 20)) {k : Bool → Reader β} (hk : Consumes f B (k false) (kinds ++ ls) z) :
    Consumes f B (namesNext >>= k) (kinds ++ ls) z := by
  obtain ⟨first, ks, hks, hfirst⟩ := h.exists_first hls
  rw [hks] at hk ⊢
  exact Embedded.consumes_namesNext hfirst hk

theorem ReadsAt.consumes_namesNext_last (h : ReadsAt l kinds y) (hB : ∀ k, B k → Under 20 k)
    {k : Bool → Reader β} (hk : Consumes f B (k false) kinds z) : Consumes f B (namesNext >>= k) kinds z := by
  rw [← List.append_nil kinds] at hk ⊢
  exact h.consumes_namesNext (show Begins B [] (Under 20) from hB) hk

variable {inner : FieldReader} {depth : Nat}

theorem ReadsAt.named {i : FieldReader} {d : Nat} (h : ReadsAt 4 kinds y) (hdepth : kinds.length < d) :
    Consumes Term.unplaced (Under 4) (grammarAt i d).1.named kinds y :=
  h.consumes_namesNext_last (under_of_le (by decide)) (h.expression hdepth)

theorem ItemAt.consumes_item (h : ItemAt kinds y) (hdepth : kinds.length < depth) :
    Consumes Term.unplaced (Under 4) (grammarAt inner depth).1.item kinds y := by
  refine consumes_here fun start => ?_
  cases h with
  | term h => exact consumes_accept_other (h.begins_ne (by decide)) (h.named hdepth)
  | starred h =>
    refine consumes_accept rfl ?_
    have hbelow := Nat.le_of_lt (Nat.lt_of_succ_lt hdepth)
    exact ((h.bitOr hbelow).mono (under_of_le (by decide))).bind_nil fun x hx =>
      consumes_close (by rw [Form.unplaced, hx]) start

theorem ItemAt.consumes_plainItem (h : ItemAt kinds y) (hdepth : kinds.length < depth) :
    Consumes Term.unplaced (Under 4) (grammarAt inner depth).1.plainItem kinds y := by
  refine consumes_here fun start => ?_
  cases h with
  | term h => exact consumes_accept_other (h.begins_ne (by decide)) (h.expression hdepth)
  | starred h =>
    refine consumes_accept rfl ?_
    have hbelow := Nat.le_of_lt (Nat.lt_of_succ_lt hdepth)
    exact ((h.bitOr hbelow).mono (under_of_le (by decide))).bind_nil fun x hx =>
      consumes_close (by rw [Form.unplaced, hx]) start

/-- What no item starts with. -/
theorem ItemAt.begins (h : ItemAt kinds y) {P : LexemeKind → Prop} (hstar : P (.symbol "*"))
    (hP : ∀ k, 4 ≤ opens k → P k) : Begins B kinds P := by
  cases h with
  | term h => exact h.begins hP
  | starred h => exact begins_plain rfl hstar

theorem endsItems_of_opens {k : LexemeKind} (h : 4 ≤ opens k) : endsItems k = false := by
  have hne {l : LexemeKind} (hl : opens l < 4) : k ≠ l := by
    rintro rfl
    exact Nat.not_le.mpr hl h
  cases k with
  | lineEnd => exact absurd rfl (hne (l := .lineEnd) (by decide))
  | keyword word =>
    refine decide_eq_false ?_
    rintro rfl
    exact hne (l := .keyword "in") (by decide) rfl
  | symbol s =>
    have hs {d : String} (hl : opens (.symbol d) < 4) : s ≠ d := fun hsame => hne hl (hsame ▸ rfl)
    simp [endsItems, isCloser, hs (d := ")") (by decide), hs (d := "]") (by decide),
      hs (d := "\x7d") (by decide)]
  | _ => rfl

/-- A single item without a comma. -/
theorem consumes_itemsTerm_one {item : Reader Term} (hB : ∀ k, B k → k ≠ .symbol ",")
    (h : Consumes Term.unplaced B item kinds y) : Consumes Term.unplaced B (itemsTerm item) kinds y := by
  refine consumes_here fun start => (consumes_items_one hB h).bind_nil fun (found, commas) hfound => ?_
  obtain ⟨hitems, rfl⟩ := Prod.mk.inj hfound
  obtain ⟨one, rfl, hone⟩ := List.map_eq_singleton_iff.mp hitems
  exact consumes_pure hone

/-- Several items, or one with a comma. -/
theorem consumes_itemsTerm_tuple {item : Reader Term} {B C : LexemeKind → Prop} {ks : List LexemeKind}
    {kss : List (List LexemeKind)} {ys : List Term} (hBC : ∀ k, B k → C k)
    (hB : ∀ k, B k → k ≠ .symbol ",") (hends : ∀ k, B k → endsItems k) (hC : C (.symbol ","))
    (hfirst : Consumes Term.unplaced C item ks y)
    (h : List.Forall₂ (fun ks y => Consumes Term.unplaced C item ks y ∧
      Begins C ks (endsItems · = false)) kss ys) :
    Consumes Term.unplaced B (itemsTerm item) (tupleKinds (ks :: kss)) (.mk 0 0 (.tuple (y :: ys))) := by
  refine consumes_here fun start => ?_
  refine (consumes_items_tuple hBC hB hends hC hfirst h).bind_nil fun (found, commas) hfound => ?_
  obtain ⟨hitems, rfl⟩ := Prod.mk.inj hfound
  have hclose : Consumes Term.unplaced B (close start (.tuple found)) [] (.mk 0 0 (.tuple (y :: ys))) :=
    consumes_close (by rw [Form.unplaced, Term.allUnplaced_eq]; exact congrArg Form.tuple hitems) start
  cases found with
  | nil => exact hclose
  | cons one more => cases more <;> exact hclose

theorem consumes_clauses_none {g : Grammar} {primary : Reader Term} :
    Consumes (List.map Clause.unplaced) (Under 2) (g.clauses primary) [] [] := by
  refine consumes_many_none ?_
  refine consumes_accept_other (fun k hk => ne_of_rank_lt hk (by decide)) ?_
  refine consumes_peek (fun _ hk => hk) fun k hk => ?_
  have hfor : k ≠ .keyword "for" := ne_of_rank_lt hk (by decide)
  rw [if_neg (by simpa using hfor)]
  exact consumes_pure rfl

theorem readsAt_of_brackets {opener closer : String} (hopens : 18 ≤ opens (.symbol opener))
    (hstar : y.isStarred = false)
    (h : ∀ inner depth start, kinds.length < depth →
      Consumes Term.unplaced (Under 19)
        ((grammarAt inner depth).1.atomFrom (grammarAt inner depth).2 start (.symbol opener))
        (kinds ++ [.symbol closer]) y) :
    ReadsAt 18 (.symbol opener :: kinds ++ [.symbol closer]) y := by
  refine readsAt_of_atom ⟨_, _, rfl, hopens⟩ nofun hstar fun inner depth hdepth => ?_
  have hlength : kinds.length < depth := by
    simp only [List.length_cons, List.length_append, List.length_nil] at hdepth
    omega
  exact consumes_atom rfl fun start => h inner depth start hlength

/-- Behind an item no comprehension starts. -/
theorem consumes_no_clauses {g : Grammar} {primary : Reader Term} {first : Term}
    {k : List Clause → Reader β} (hnext : Begins B kinds (Under 2)) (h : Consumes f B (k []) kinds z) :
    Consumes f B (if first.isStarred then (do let loops ← pure []; k loops)
      else (do let loops ← g.clauses primary; k loops)) kinds z := by
  split
  · exact h
  · refine consumes_clauses_none.nil_bind hnext fun loops hloops => ?_
    obtain rfl := List.map_eq_nil_iff.mp hloops
    exact h

theorem ItemAt.listed {kss : List (List LexemeKind)} {ys : List Term} (h : List.Forall₂ ItemAt kss ys)
    (hdepth : (led (.symbol ",") kss).length ≤ depth) :
    List.Forall₂ (fun ks y => Consumes Term.unplaced (Under 4) (grammarAt inner depth).1.item ks y ∧
      Begins (Under 4) ks (endsItems · = false)) kss ys :=
  forall₂_of_led (.symbol ",") h hdepth fun _ _ hlength hitem =>
    ⟨hitem.consumes_item hlength, hitem.begins rfl fun _ => endsItems_of_opens⟩

theorem comma_of_under {n : Level} (hn : n ≤ 1) : ∀ k, Under n k → k ≠ .symbol "," :=
  fun _ hk => ne_of_rank_lt hk hn

theorem consumes_listed {first : Term} {kss : List (List LexemeKind)} {ys : List Term}
    (hfirst : first.unplaced = y) (h : List.Forall₂ ItemAt kss ys)
    (hdepth : (led (.symbol ",") kss).length ≤ depth) :
    Consumes (unplacedItems Term.unplaced) (Under 1) (itemsAfter first (grammarAt inner depth).1.item)
      (led (.symbol ",") kss) (y :: ys, !ys.isEmpty) :=
  hfirst ▸ consumes_itemsAfter (under_of_le (by decide)) (comma_of_under (Nat.le_refl 1)) (by decide)
    (ItemAt.listed h hdepth)

/-- An item that is no star, alone between parentheses. -/
theorem readsAt_group (hsome : kinds ≠ []) (hstar : y.isStarred = false)
    (hopens : Begins Any kinds (· ≠ .symbol ")")) (hyield : Begins Any kinds (· ≠ .keyword "yield"))
    (h : ∀ inner depth, kinds.length < depth →
      Consumes Term.unplaced (Under 4) (grammarAt inner depth).1.item kinds y) :
    ReadsAt 18 (.symbol "(" :: kinds ++ [.symbol ")"]) y := by
  refine readsAt_of_brackets (by decide) hstar fun inner depth start hdepth => ?_
  unfold atomFrom parenthesized
  refine consumes_unless ((hopens.elsewhere hsome).append hsome) ?_
  refine consumes_peek ((hyield.elsewhere hsome).append hsome) fun k hk => ?_
  refine consumes_ite_neg (fun hsame => hk (Option.some.inj hsame)) ?_
  refine (h inner depth hdepth).bind (begins_under (by decide)) fun first hfirst => ?_
  refine consumes_no_clauses (begins_under (by decide)) (consumes_ite_neg (by decide) ?_)
  refine (consumes_listed hfirst .nil (Nat.zero_le depth)).bind (begins_under (by decide))
    fun (found, commas) hfound => consumes_symbol ?_
  obtain rfl : commas = false := (Prod.mk.inj hfound).2
  have hstar : first.isStarred = false := by rw [← first.isStarred_unplaced, hfirst, hstar]
  rw [if_neg Bool.false_ne_true, hstar, if_neg Bool.false_ne_true]
  exact consumes_pure hfirst

theorem ReadsAt.grouped (h : ReadsAt 4 kinds y) : ReadsAt 18 (.symbol "(" :: kinds ++ [.symbol ")"]) y :=
  readsAt_group h.ne_nil h.unstarred (h.begins_ne (by decide)) (h.begins_ne (by decide))
    fun _ _ hdepth => (ItemAt.term h).consumes_item hdepth

theorem consumes_namesNext_true {id : String} {r : Bool → Reader β}
    (h : Consumes f B (r true) (.name id :: .symbol ":=" :: kinds) z) :
    Consumes f B (namesNext >>= r) (.name id :: .symbol ":=" :: kinds) z := by
  rw [namesNext_bind]
  exact consumes_peekTwo_plain rfl rfl h

/-- A name that is bound to a term. -/
theorem readsAt_named {id : String} (h : ReadsAt 4 kinds y) :
    ReadsAt 18 (.symbol "(" :: (.name id :: .symbol ":=" :: kinds) ++ [.symbol ")"])
      (.mk 0 0 (.named id y)) := by
  refine readsAt_group (List.cons_ne_nil _ _) rfl (begins_plain rfl nofun) (begins_plain rfl nofun)
    fun inner depth hdepth => ?_
  simp only [List.length_cons] at hdepth
  refine consumes_here fun start => consumes_unless (begins_plain rfl nofun) ?_
  refine consumes_namesNext_true (consumes_ite_pos rfl ?_)
  refine consumes_here fun start => consumes_name (consumes_symbol ?_)
  exact (h.expression (by omega)).bind_nil fun x hx => consumes_close (by rw [Form.unplaced, hx]) start

/-- What yields between parentheses. -/
theorem readsAt_of_yieldTerm (hstar : y.isStarred = false)
    (h : ∀ inner depth, kinds.length < depth →
      Consumes Term.unplaced (· = .symbol ")") (grammarAt inner depth).1.yieldTerm
        (.keyword "yield" :: kinds) y) :
    ReadsAt 18 (.symbol "(" :: (.keyword "yield" :: kinds) ++ [.symbol ")"]) y := by
  refine readsAt_of_brackets (by decide) hstar fun inner depth start hdepth => ?_
  rw [List.length_cons] at hdepth
  unfold atomFrom parenthesized
  refine consumes_unless (begins_plain rfl nofun) ?_
  refine consumes_peek (begins_plain (P := (· = .keyword "yield")) rfl rfl) fun k hk => ?_
  refine consumes_ite_pos (congrArg some hk) ?_
  exact (h inner depth (by omega)).bind (begins_plain rfl rfl) fun x hx => consumes_symbol (consumes_pure hx)

theorem readsAt_yield_none :
    ReadsAt 18 (.symbol "(" :: [.keyword "yield"] ++ [.symbol ")"]) (.mk 0 0 (.yield none)) := by
  refine readsAt_of_yieldTerm rfl fun inner depth _ => consumes_here fun start => consumes_keyword ?_
  refine consumes_unless (fun k hk => by rintro rfl; cases hk) ?_
  refine consumes_peek (fun _ hk => hk) ?_
  rintro _ rfl
  exact consumes_ite_pos rfl (consumes_close rfl start)

theorem readsAt_yield (h : ItemAt kinds y) :
    ReadsAt 18 (.symbol "(" :: (.keyword "yield" :: kinds) ++ [.symbol ")"]) (.mk 0 0 (.yield (some y))) := by
  refine readsAt_of_yieldTerm rfl fun inner depth hdepth => consumes_here fun start => consumes_keyword ?_
  refine consumes_unless (h.begins nofun ?_) ?_
  · rintro _ hk rfl
    exact absurd hk (by decide)
  refine consumes_peek (h.begins (P := (endsItems · = false)) rfl fun _ => endsItems_of_opens) fun k hk => ?_
  refine consumes_ite_neg (by rw [Option.all_some, hk]; exact Bool.false_ne_true) ?_
  refine (consumes_itemsTerm_one ?_ ((h.consumes_plainItem hdepth).mono ?_)).bind_nil fun x hx =>
    consumes_close (by rw [Form.unplaced, Term.optionUnplaced_eq, Option.map_some, hx]) start
  all_goals
    rintro _ rfl
    decide

theorem readsAt_yieldFrom (h : ReadsAt 4 kinds y) :
    ReadsAt 18 (.symbol "(" :: (.keyword "yield" :: .keyword "from" :: kinds) ++ [.symbol ")"])
      (.mk 0 0 (.yieldFrom y)) := by
  refine readsAt_of_yieldTerm rfl fun inner depth hdepth => consumes_here fun start => consumes_keyword ?_
  rw [List.length_cons] at hdepth
  refine consumes_when rfl ?_
  refine ((h.expression (by omega)).mono ?_).bind_nil fun x hx =>
    consumes_close (by rw [Form.unplaced, hx]) start
  rintro _ rfl
  decide

theorem ItemAt.ne_nil (h : ItemAt kinds y) : kinds ≠ [] := by
  cases h with
  | term h => exact h.ne_nil
  | starred => exact List.cons_ne_nil _ _

theorem readsAt_tuple {kss : List (List LexemeKind)} {ys : List Term} (h : List.Forall₂ ItemAt kss ys) :
    ReadsAt 18 (.symbol "(" :: tupleKinds kss ++ [.symbol ")"]) (.mk 0 0 (.tuple ys)) := by
  refine readsAt_of_brackets (by decide) rfl fun inner depth start hdepth => ?_
  unfold atomFrom parenthesized
  cases h with
  | nil => exact consumes_accept rfl (consumes_close rfl start)
  | @cons ks y kss ys hitem hitems =>
    have hlength := length_led_le kss
    rw [tupleKinds, List.length_append] at hdepth
    rw [tupleKinds, List.append_assoc]
    have hbegins {k : LexemeKind} (hstar : .symbol "*" ≠ k) (hk : opens k < 4) :
        Begins (Under 19) (ks ++ (tupleRest kss ++ [.symbol ")"])) (· ≠ k) := by
      refine (hitem.begins hstar fun k' hk' => ?_).append hitem.ne_nil
      rintro rfl
      exact Nat.not_le.mpr hk hk'
    refine consumes_unless (hbegins nofun (by decide)) ?_
    refine consumes_peek (hbegins (k := .keyword "yield") nofun (by decide)) fun k hk => ?_
    refine consumes_ite_neg (fun hsame => hk (Option.some.inj hsame)) ?_
    refine (hitem.consumes_item (by omega)).bind (begins_tupleRest (by decide)) fun first hfirst => ?_
    refine consumes_no_clauses (begins_tupleRest (by decide)) (consumes_ite_neg (by decide) ?_)
    have hrest : Consumes (unplacedItems Term.unplaced) (· = .symbol ")")
        (itemsAfter first (grammarAt inner depth).1.item) (tupleRest kss) (first.unplaced :: ys, true) := by
      refine consumes_tupleRest (C := Under 4) ?_ ?_ ?_ (by decide) (ItemAt.listed hitems (by omega))
      all_goals
        rintro _ rfl
        decide
    refine hrest.bind (begins_plain rfl rfl) fun (found, commas) hfound => consumes_symbol ?_
    obtain ⟨hitems, rfl⟩ := Prod.mk.inj hfound
    refine consumes_ite_pos rfl (consumes_close ?_ start)
    rw [Form.unplaced, Term.allUnplaced_eq]
    exact congrArg Form.tuple (hitems.trans (by rw [hfirst]))

theorem readsAt_list {kss : List (List LexemeKind)} {ys : List Term} (h : List.Forall₂ ItemAt kss ys) :
    ReadsAt 18 (.symbol "[" :: commas kss ++ [.symbol "]"]) (.mk 0 0 (.list ys)) := by
  refine readsAt_of_brackets (by decide) rfl fun inner depth start hdepth => ?_
  unfold atomFrom bracketed
  cases h with
  | nil => exact consumes_accept rfl (consumes_close rfl start)
  | @cons ks y kss ys hitem hitems =>
    rw [commas, List.length_append] at hdepth
    rw [commas, List.append_assoc]
    refine consumes_unless ((hitem.begins nofun ?_).append hitem.ne_nil) ?_
    · rintro _ hk rfl
      exact absurd hk (by decide)
    refine (hitem.consumes_item (by omega)).bind (begins_led rfl (by decide) (begins_under (by decide)))
      fun first hfirst => ?_
    refine consumes_no_clauses (begins_led rfl (by decide) (begins_under (by decide)))
      (consumes_ite_neg (by decide) ?_)
    refine (consumes_listed hfirst hitems (by omega)).bind (begins_under (by decide))
      fun (found, _) hfound => consumes_symbol (consumes_close ?_ start)
    rw [Form.unplaced, Term.allUnplaced_eq]
    exact congrArg Form.list (Prod.mk.inj hfound).1
/-- No item starts with a name that is bound. -/
theorem ItemAt.consumes_namesNext (h : ItemAt kinds y) {ls : List LexemeKind}
    (hls : Begins B ls (Under 20)) {k : Bool → Reader β} (hk : Consumes f B (k false) (kinds ++ ls) z) :
    Consumes f B (namesNext >>= k) (kinds ++ ls) z := by
  cases h with
  | term h => exact h.consumes_namesNext hls hk
  | starred => exact Embedded.consumes_namesNext (fun _ h => LexemeKind.noConfusion h) hk

end

/-- The lexemes are read as an entry of a dictionary. -/
inductive EntryAt : List LexemeKind → Entry → Prop where
  | pair {ks ls key value} (hkey : ReadsAt 4 ks key) (hvalue : ReadsAt 4 ls value) :
    EntryAt (ks ++ .symbol ":" :: ls) (.mk (some key) value)
  | spread {ks value} (h : ReadsAt 9 ks value) : EntryAt (.symbol "**" :: ks) (.mk none value)

theorem readsAt_set {ks : List LexemeKind} {kss : List (List LexemeKind)} {y : Term} {ys : List Term}
    (hfirst : ItemAt ks y) (h : List.Forall₂ ItemAt kss ys) :
    ReadsAt 18 (.symbol "\x7b" :: commas (ks :: kss) ++ [.symbol "\x7d"]) (.mk 0 0 (.set (y :: ys))) := by
  refine readsAt_of_brackets (by decide) rfl fun inner depth start hdepth => ?_
  rw [commas, List.length_append] at hdepth
  rw [commas, List.append_assoc]
  unfold atomFrom braced
  have hnext {n : Level} (hn : 1 < n) :
      Begins (Under 19) (led (.symbol ",") kss ++ [.symbol "\x7d"]) (Under n) :=
    begins_led rfl hn (begins_under (Nat.lt_of_le_of_lt (Nat.zero_le 1) hn))
  have hbegins {k : LexemeKind} (hk : ¬4 ≤ opens k) (hstar : .symbol "*" ≠ k) :
      Begins (Under 19) (ks ++ (led (.symbol ",") kss ++ [.symbol "\x7d"])) (· ≠ k) := by
    refine (hfirst.begins hstar fun k' hk' => ?_).append hfirst.ne_nil
    rintro rfl
    exact hk hk'
  refine consumes_unless (hbegins (by decide) nofun) ?_
  refine consumes_peek (hbegins (k := .symbol "**") (by decide) nofun) fun k hk => ?_
  refine consumes_ite_neg (fun hsame => hk (Option.some.inj hsame)) ?_
  refine hfirst.consumes_namesNext (hnext (by decide)) ?_
  refine (hfirst.consumes_item (by omega)).bind (hnext (by decide)) fun first hfirst => ?_
  refine consumes_accept_other ((hnext (by decide)).imp fun k (hk : Under 3 k) =>
    ne_of_rank_lt hk (by decide)) ?_
  rw [Bool.and_false]
  refine consumes_ite_neg Bool.false_ne_true ?_
  refine consumes_no_clauses (hnext (by decide)) (consumes_ite_neg (by decide) ?_)
  refine (consumes_listed hfirst h (by omega)).bind (begins_under (by decide))
    fun (found, _) hfound => consumes_symbol (consumes_close ?_ start)
  rw [Form.unplaced, Term.allUnplaced_eq]
  exact congrArg Form.set (Prod.mk.inj hfound).1

section
variable {inner : FieldReader} {depth : Nat} {kinds : List LexemeKind} {e : Entry}

theorem EntryAt.consumes_entry {i : FieldReader} {d : Nat} (h : EntryAt kinds e) (hdepth : kinds.length < d) :
    Consumes Entry.unplaced (Under 4) (grammarAt i d).1.entry kinds e := by
  cases h with
  | @pair ks ls key value hkey hvalue =>
    rw [List.length_append, List.length_cons] at hdepth
    refine consumes_unless ((hkey.begins_ne (by decide)).append hkey.ne_nil) ?_
    refine (hkey.expression (by omega)).bind (begins_under (by decide)) fun x hx => consumes_symbol ?_
    refine (hvalue.expression (by omega)).bind_nil fun v hv => consumes_pure ?_
    simp [Entry.unplaced, hx, hv]
  | spread h =>
    rw [List.length_cons] at hdepth
    refine consumes_when rfl ?_
    refine ((h.bitOr (by omega)).mono (under_of_le (by decide))).bind_nil fun v hv => consumes_pure ?_
    simp [Entry.unplaced, hv]

theorem EntryAt.begins (h : EntryAt kinds e) {B P : LexemeKind → Prop} (hspread : P (.symbol "**"))
    (hP : ∀ k, 4 ≤ opens k → P k) : Begins B kinds P := by
  cases h with
  | pair hkey => exact (hkey.begins hP).append hkey.ne_nil
  | spread h => exact begins_plain rfl hspread

theorem EntryAt.ne_nil (h : EntryAt kinds e) : kinds ≠ [] := by
  cases h <;> simp

theorem consumes_dictAfter {first : Entry} {kss : List (List LexemeKind)} {es : List Entry}
    (hfirst : first.unplaced = e) (h : List.Forall₂ EntryAt kss es)
    (hdepth : (led (.symbol ",") kss).length ≤ depth) (start : Nat) :
    Consumes Term.unplaced (Under 19) ((grammarAt inner depth).1.dictAfter start first)
      (led (.symbol ",") kss ++ [.symbol "\x7d"]) (.mk 0 0 (.dict (e :: es))) := by
  subst hfirst
  have hentries := forall₂_of_led (.symbol ",") h hdepth fun ks e hlength hentry =>
    And.intro (hentry.consumes_entry (i := inner) hlength)
      (hentry.begins (B := Under 4) (P := (endsItems · = false)) rfl fun _ => endsItems_of_opens)
  refine (consumes_itemsAfter (B := Under 1) (under_of_le (by decide)) (comma_of_under (Nat.le_refl 1))
    (by decide) hentries).bind (begins_under (by decide)) fun (found, _) hfound => ?_
  refine consumes_symbol (consumes_close ?_ start)
  rw [Form.unplaced, Entry.allUnplaced_eq]
  exact congrArg Form.dict (Prod.mk.inj hfound).1

theorem readsAt_dict {kss : List (List LexemeKind)} {es : List Entry} (h : List.Forall₂ EntryAt kss es) :
    ReadsAt 18 (.symbol "\x7b" :: commas kss ++ [.symbol "\x7d"]) (.mk 0 0 (.dict es)) := by
  refine readsAt_of_brackets (by decide) rfl fun inner depth start hdepth => ?_
  unfold atomFrom braced
  cases h with
  | nil => exact consumes_accept rfl (consumes_close rfl start)
  | @cons ks e kss es hentry h =>
    rw [commas, List.length_append] at hdepth
    rw [commas, List.append_assoc]
    have hnext {n : Level} (hn : 1 < n) :
        Begins (Under 19) (led (.symbol ",") kss ++ [.symbol "\x7d"]) (Under n) :=
      begins_led rfl hn (begins_under (Nat.lt_of_le_of_lt (Nat.zero_le 1) hn))
    refine consumes_unless ((hentry.begins nofun ?_).append hentry.ne_nil) ?_
    · rintro _ hk rfl
      exact absurd hk (by decide)
    cases hentry with
    | @pair ks ls key value hkey hvalue =>
      rw [List.length_append, List.length_cons] at hdepth
      rw [List.append_assoc]
      refine consumes_peek ((hkey.begins_ne (k := .symbol "**") (by decide)).append hkey.ne_nil)
        fun k hk => ?_
      refine consumes_ite_neg (fun hsame => hk (Option.some.inj hsame)) ?_
      refine hkey.consumes_namesNext (begins_under (by decide)) ?_
      refine ((ItemAt.term hkey).consumes_item (by omega)).bind (begins_under (by decide)) fun x hx => ?_
      refine consumes_accept rfl (consumes_ite_pos ?_ ?_)
      · simp [← x.isStarred_unplaced, hx, hkey.unstarred]
      refine (hvalue.expression (by omega)).bind (hnext (by decide)) fun v hv => ?_
      refine consumes_clauses_none.nil_bind (hnext (by decide)) fun loops hloops => ?_
      obtain rfl := List.map_eq_nil_iff.mp hloops
      exact consumes_ite_neg (by decide)
        (consumes_dictAfter (by simp [Entry.unplaced, hx, hv]) h (by omega) start)
    | spread hvalue =>
      refine consumes_peek (begins_plain (P := (· = .symbol "**")) rfl rfl) fun k hk => ?_
      refine consumes_ite_pos (congrArg some hk) ?_
      refine ((EntryAt.spread hvalue).consumes_entry (by omega)).bind (hnext (by decide)) fun x hx => ?_
      exact consumes_dictAfter hx h (by omega) start

end
end ViewTree.Embedded
