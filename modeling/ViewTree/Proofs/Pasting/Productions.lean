import ViewTree.Proofs.Pasting.Brackets

/-!
The grammar on the same lexemes elsewhere. Main statement: grammars that read fields alike read the
same lexemes alike, wherever they stand and whatever stands behind them (`mirrors_grammarAt`).
-/
namespace ViewTree.Embedded
open Reader

variable {g g' : Grammar} {primary primary' : Reader Term}

theorem mirrors_stringLiterals :
    Mirrors true (fun _ => True) (List.map StringLiteral.unplaced) Grammar.stringLiterals
      Grammar.stringLiterals := by
  refine mirrors_many (mirrors_peek fun a b hab => ?_)
  have hstring (s s' : StringLiteral) (hs : s.unplaced = s'.unplaced) :
      Mirrors true (· = none) (Option.map StringLiteral.unplaced)
        (do
          let _ ← next
          pure (some s))
        (do
          let _ ← next
          pure (some s')) :=
    mirrors_next.taking fun _ _ _ => mirrors_pure (congrArg some hs) trivial
  rcases hab.cases with rfl | ⟨s, s', hs, rfl, rfl⟩ | ⟨-, k, l, hk, hl, rfl, rfl⟩
  · split
    · exact hstring _ _ rfl
    · exact mirrors_pure rfl rfl
  · exact hstring s s' hs
  · rcases cases_of_endsExpression hk with rfl | rfl | rfl | rfl <;>
      rcases cases_of_endsExpression hl with rfl | rfl | rfl | rfl <;> exact mirrors_pure rfl rfl

/-- An atom that is no string. -/
theorem mirrors_bareAtom (h : MirrorsGrammar g g') (hp : MirrorsTerm primary primary')
    (start start' : Nat) : MirrorsTerm
    (do
      match ← next with
      | .name id => close start (.name id)
      | .number value => close start (.literal value)
      | .keyword "None" => close start (.literal .none)
      | .keyword "True" => close start (.literal (.bool true))
      | .keyword "False" => close start (.literal (.bool false))
      | .symbol "..." => close start (.literal .ellipsis)
      | .symbol "(" => g.parenthesized primary start
      | .symbol "[" => g.bracketed primary start
      | .symbol "\x7b" => g.braced primary start
      | _ => failure)
    (do
      match ← next with
      | .name id => close start' (.name id)
      | .number value => close start' (.literal value)
      | .keyword "None" => close start' (.literal .none)
      | .keyword "True" => close start' (.literal (.bool true))
      | .keyword "False" => close start' (.literal (.bool false))
      | .symbol "..." => close start' (.literal .ellipsis)
      | .symbol "(" => g'.parenthesized primary' start'
      | .symbol "[" => g'.bracketed primary' start'
      | .symbol "\x7b" => g'.braced primary' start'
      | _ => failure) := by
  refine mirrors_next.taking fun k l hkl => ?_
  cases k with
  | string s => exact mirrors_failure
  | lineEnd => exact mirrors_failure
  | name id | number value =>
    obtain rfl := eq_of_unplaced rfl hkl
    exact mirrors_close rfl start start'
  | keyword word | symbol text =>
    obtain rfl := eq_of_unplaced rfl hkl
    split
    all_goals first
      | exact mirrors_close rfl start start'
      | exact mirrors_parenthesized h hp start start'
      | exact mirrors_bracketed h hp start start'
      | exact mirrors_braced h hp start start'
      | exact mirrors_failure

/-- Strings that stand next to each other. -/
theorem mirrors_stringAtom {inner inner' : FieldReader} (hinner : FieldsAlike inner inner')
    (start start' : Nat) : MirrorsTerm
    (do
      match stringsForm? inner (← Grammar.stringLiterals) with
      | some form => close start form
      | none => failure)
    (do
      match stringsForm? inner' (← Grammar.stringLiterals) with
      | some form => close start' form
      | none => failure) := by
  refine mirrors_stringLiterals.bind fun found found' hfound => ?_
  have hform := gives_stringsForm? hinner hfound
  cases hfirst : stringsForm? inner found with
  | none => exact mirrors_failure
  | some form =>
    obtain ⟨form', hform', hsame⟩ := hform form hfirst
    rw [hform']
    exact mirrors_close hsame start start'

theorem mirrors_atom (h : MirrorsGrammar g g') (hp : MirrorsTerm primary primary')
    {inner inner' : FieldReader} (hinner : FieldsAlike inner inner') :
    MirrorsTerm (g.atom inner primary) (g'.atom inner' primary') := by
  refine mirrors_here fun start start' => mirrors_peek fun a b hab => ?_
  rcases hab.cases with rfl | ⟨s, s', hs, rfl, rfl⟩ | ⟨-, k, l, hk, hl, rfl, rfl⟩
  · split
    · exact mirrors_stringAtom hinner start start'
    · exact mirrors_bareAtom h hp start start'
  · exact mirrors_stringAtom hinner start start'
  · rcases cases_of_endsExpression hk with rfl | rfl | rfl | rfl <;>
      rcases cases_of_endsExpression hl with rfl | rfl | rfl | rfl <;>
        exact mirrors_bareAtom h hp start start'

theorem mirrors_primaryOf (h : MirrorsGrammar g g') (hp : MirrorsTerm primary primary')
    {inner inner' : FieldReader} (hinner : FieldsAlike inner inner') :
    MirrorsTerm (g.primaryOf inner primary) (g'.primaryOf inner' primary') := by
  refine mirrors_here fun start start' => (mirrors_atom h hp hinner).bind fun first first' hfirst => ?_
  refine mirrors_repeating (fun value value' hvalue => mirrors_peek fun a b hab => ?_) hfirst
  have hfound {form form' : Form} (hform : form.unplaced = form'.unplaced) :
      Mirrors true (fun _ => True) (Option.map Term.unplaced)
        (do pure (some (← close start form))) (do pure (some (← close start' form'))) :=
    (mirrors_close hform start start').bind fun found found' hfound =>
      mirrors_pure (congrArg some hfound) trivial
  rcases hab.cases with rfl | ⟨s, s', -, rfl, rfl⟩ | ⟨-, k, l, hk, hl, rfl, rfl⟩
  · split
    · refine mirrors_next.taking fun _ _ _ => mirrors_name.bind fun attr attr' hattr => hfound ?_
      rw [Form.unplaced, Form.unplaced, hvalue, show attr = attr' from hattr]
    · refine mirrors_here fun opening opening' => mirrors_next.taking fun _ _ _ => ?_
      refine (seals_arguments h hp opening opening').mirrors.taking fun read read' hread => hfound ?_
      obtain ⟨hplain, hkeywords, -⟩ := Grammar.Arguments.mk.inj hread
      simp [Form.unplaced, hvalue, hplain, hkeywords]
    · refine mirrors_next.taking fun _ _ _ => (mirrors_indices h).inside fun found found' hindex => ?_
      refine (mirrors_symbol _).taking fun _ _ _ => hfound ?_
      rw [Form.unplaced, Form.unplaced, hvalue, hindex]
    · exact mirrors_pure rfl rfl
  · exact mirrors_pure rfl rfl
  · rcases cases_of_endsExpression hk with rfl | rfl | rfl | rfl <;>
      rcases cases_of_endsExpression hl with rfl | rfl | rfl | rfl <;> exact mirrors_pure rfl rfl

theorem mirrors_power (h : MirrorsTerm g.factor g'.factor) (hp : MirrorsTerm primary primary') :
    MirrorsTerm (g.power primary) (g'.power primary') := by
  unfold Grammar.power
  refine mirrors_here fun start start' => ?_
  extract_lets rest rest'
  have hrest (base base' : Term) (hbase : base.unplaced = base'.unplaced) :
      MirrorsTerm (rest base) (rest' base') := by
    refine mirrors_accept rfl nofun ?_ (mirrors_pure hbase trivial)
    refine h.bind fun exponent exponent' hexponent => mirrors_close ?_ start start'
    rw [Form.unplaced, Form.unplaced, hbase, hexponent]
  refine mirrors_accept rfl nofun ?_ (hp.bind hrest)
  refine hp.bind fun value value' hvalue => (mirrors_close ?_ start start').bind hrest
  rw [Form.unplaced, Form.unplaced, hvalue]

theorem mirrors_factorOf (h : MirrorsTerm g.factor g'.factor) (hp : MirrorsTerm primary primary') :
    MirrorsTerm (g.factorOf primary) (g'.factorOf primary') := by
  unfold Grammar.factorOf
  refine mirrors_here fun start start' => ?_
  extract_lets signed signed'
  have hsigned (op : UnaryOp) : MirrorsTerm (signed op) (signed' op) := by
    refine mirrors_next.taking fun _ _ _ => h.bind fun operand operand' hoperand =>
      mirrors_close ?_ start start'
    rw [Form.unplaced, Form.unplaced, hoperand]
  have hpower := mirrors_power h hp
  refine mirrors_peek fun a b hab => ?_
  rcases hab.cases with rfl | ⟨s, s', -, rfl, rfl⟩ | ⟨-, k, l, hk, hl, rfl, rfl⟩
  · split
    case h_4 => exact hpower
    all_goals exact hsigned _
  · exact hpower
  · rcases cases_of_endsExpression hk with rfl | rfl | rfl | rfl <;>
      rcases cases_of_endsExpression hl with rfl | rfl | rfl | rfl <;> exact hpower

theorem mirrors_grammarAt {inner inner' : FieldReader} (hinner : FieldsAlike inner inner')
    (depth : Nat) :
    MirrorsGrammar (grammarAt inner depth).1 (grammarAt inner' depth).1 ∧
      MirrorsTerm (grammarAt inner depth).2 (grammarAt inner' depth).2 := by
  induction depth with
  | zero => exact ⟨⟨mirrors_failure, mirrors_failure, mirrors_failure⟩, mirrors_failure⟩
  | succ depth ih =>
    obtain ⟨h, hp⟩ := ih
    have hprimary := mirrors_primaryOf h hp hinner
    exact ⟨⟨mirrors_expressionOf h, mirrors_inversionOf h, mirrors_factorOf h.factor hprimary⟩,
      hprimary⟩

/-- What is read from all of a text is read from it wherever it stands. -/
theorem gives_of_mirrors {α γ : Type} {idle : α → Prop} {f : α → γ} {r r' : Reader α}
    (h : Mirrors false idle f r r') {ts us : List Lexeme} (halike : Alike ts us) (last last' : Nat) :
    Gives f ((r ⟨ts, last⟩).map (·.1)) ((r' ⟨us, last'⟩).map (·.1)) := by
  intro x hx
  obtain ⟨⟨x, left⟩, hread, rfl⟩ := Option.map_eq_some_iff.mp hx
  obtain ⟨used, hused, -, hmirror⟩ := h _ x left hread
  obtain rfl : ts = used ++ left.rest := hused
  obtain ⟨used', tail, rfl, halike₁, halike₂⟩ :=
    List.map_eq_append_iff.mp (halike.symm.trans List.map_append)
  obtain ⟨y, last, hy, hxy⟩ :=
    hmirror ⟨used' ++ tail, last'⟩ used' tail rfl halike₁.symm (.of_alike halike₂.symm)
  exact ⟨y, by rw [hy]; rfl, hxy⟩

/-- A field that is read is read alike in another place and among deeper texts. -/
theorem fieldsAlike_readField {depth depth' : Nat} (hdepth : depth ≤ depth') :
    FieldsAlike (readField depth) (readField depth') := by
  induction depth generalizing depth' with
  | zero => exact fun _ _ _ => gives_none
  | succ depth ih =>
    obtain ⟨depth', rfl⟩ : ∃ n, depth' = n + 1 := ⟨depth' - 1, by omega⟩
    intro offset offset' cs
    unfold readField
    refine gives_bind fun lexemes => ?_
    extract_lets moved moved'
    have halike : Alike moved moved' := by
      simp only [Alike, moved, moved', List.map_map]
      refine List.map_congr_left fun t _ => ?_
      dsimp only [Function.comp_apply]
      cases t.kind <;> rfl
    have hgrammar := (mirrors_grammarAt (ih (Nat.le_of_succ_le_succ hdepth)) (moved.length + 1)).1
    have hread := gives_of_mirrors (mirrors_itemsTerm (mirrors_plainItem hgrammar).within) halike 0 0
    have hvalue (found : Option (Term × Input)) : (found >>= fun x => pure x.1) = found.map (·.1) := by
      cases found <;> rfl
    have hlength : moved'.length = moved.length := by simp [moved, moved']
    show Gives _ (readAll? _ _ _ >>= fun x => pure x.1) (readAll? _ _ _ >>= fun x => pure x.1)
    rw [hvalue, hvalue, readAll?, readAll?, hlength]
    exact hread

end ViewTree.Embedded
