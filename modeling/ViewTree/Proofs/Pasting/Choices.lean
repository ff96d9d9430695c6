import ViewTree.Proofs.Pasting.Inline

/-!
Conditional expressions whose operands are single lexemes or groups. Whatever stands between the
parentheses of a group, nothing around them can make it part of something else. Main statement: such
operands with `if` and `else` between them are read as the conditional expression that nests to the
right (`IsChain.exists_expression`).
-/
namespace ViewTree.Embedded
open Reader

section
variable {inner : FieldReader} {depth last : Nat} {opening closing ending : Lexeme}
  {between rest : List Lexeme} {term : Term} {j : Input}

/-- An expression that starts with a parenthesis starts with a group. -/
theorem exists_atom_of_expression (hopening : opening.kind = .symbol "(")
    (h : (grammarAt inner depth).1.expression ⟨opening :: rest, last⟩ = some (term, j)) :
    ∃ d found k, depth = d + 2 ∧ (grammarAt inner d).1.atom inner (grammarAt inner d).2
      ⟨opening :: rest, last⟩ = some (found, k) := by
  have hi : Next (some (.symbol "(")) ⟨opening :: rest, last⟩ := congrArg some hopening
  match depth with
  | 0 => nomatch h
  | 1 =>
    have hnone : (grammarAt inner 1).1.expression ⟨opening :: rest, last⟩ = none :=
      expressionOf_eq_none hi rfl rfl
    cases hnone.symm.trans h
  | d + 2 =>
    cases hatom : (grammarAt inner d).1.atom inner (grammarAt inner d).2 ⟨opening :: rest, last⟩ with
    | some found => exact ⟨d, found.1, found.2, rfl, hatom⟩
    | none =>
      have hprimary : (grammarAt inner (d + 1)).2 ⟨opening :: rest, last⟩ = none := by
        show (grammarAt inner d).1.primaryOf inner (grammarAt inner d).2 _ = _
        unfold Grammar.primaryOf
        rw [bind_eq (here_eq _), bind_eq_none hatom]
      have hnone : (grammarAt inner (d + 2)).1.expression ⟨opening :: rest, last⟩ = none :=
        expressionOf_eq_none hi rfl (factorOf_eq_none hi rfl hprimary)
      cases hnone.symm.trans h

theorem exists_atom_of_group (hopening : opening.kind = .symbol "(")
    (hending : ending.kind = .lineEnd) (hnest : nestAll? [] between = some [])
    (h : (grammarAt inner depth).1.expression ⟨opening :: between ++ [closing, ending], last⟩ =
      some (term, j)) :
    ∃ d stop, (grammarAt inner d).1.atom inner (grammarAt inner d).2
      ⟨opening :: between ++ [closing, ending], last⟩ = some (term, ⟨[ending], stop⟩) := by
  obtain ⟨d, found, ⟨rest, stop⟩, rfl, hatom⟩ := exists_atom_of_expression hopening h
  obtain ⟨hg, hp⟩ := follows_grammarAt inner d d
  obtain ⟨used, hused, hpassage, -⟩ := follows_atom hg inner hp _ _ _ trivial hatom
  obtain ⟨-, rfl⟩ := eq_of_passage hopening hending hnest hused hpassage
  have hi : Next (some (.symbol "(")) ⟨opening :: between ++ [closing, ending], last⟩ :=
    congrArg some hopening
  have hend : Next (some .lineEnd) ⟨[ending], stop⟩ := congrArg some hending
  have hexpression : (grammarAt inner (d + 2)).1.expression
      ⟨opening :: between ++ [closing, ending], last⟩ = some (found, ⟨[ending], stop⟩) :=
    expressionOf_of_factor hi rfl hend rfl nofun
      (factorOf_of_primary hi rfl hend rfl (primaryOf_of_atom hend rfl hatom))
  obtain ⟨rfl, -⟩ := Prod.mk.inj (Option.some.inj (hexpression.symm.trans h))
  exact ⟨d, stop, hatom⟩

end

/-- Among texts of so many characters and more, the lexemes are read as an operand of a conditional
expression, wherever they stand and whichever lexeme ends them. -/
structure IsOperand (n : Nat) (us : List Lexeme) (term : Term) : Prop where
  noLambda : us.head?.map (·.kind) ≠ some (.keyword "lambda")
  reads : ∀ {n' depth : Nat} {t : Lexeme}, n ≤ n' → us.length ≤ depth → endsOperand t.kind →
    ∀ tail last, ∃ found last', (grammarAt (readField n') (depth + 1)).1.disjunction
      ⟨us ++ t :: tail, last⟩ = some (found, ⟨t :: tail, last'⟩) ∧ found.unplaced = term.unplaced

theorem disjunction_of_atom {inner : FieldReader} {depth : Nat} {i j : Input} {k e : LexemeKind}
    {term : Term} (hi : Next (some k) i) (hk : isOperator k = false) (hj : Next (some e) j)
    (he : endsOperand e)
    (h : (grammarAt inner depth).1.atom inner (grammarAt inner depth).2 i = some (term, j)) :
    (grammarAt inner (depth + 1)).1.disjunction i = some (term, j) :=
  disjunction_of_factor hi hk hj he
    (factorOf_of_primary hi hk hj he (primaryOf_of_atom hj he h))

/-- A group is an operand: nothing that stands behind its parenthesis is seen in it. -/
theorem isOperand_of_group {text : String} {term : Term} {between us : List Lexeme}
    {opening closing ending : Lexeme} (hread : readTerm? text = some term)
    (hscan : scan (grouped text) = some (opening :: between ++ [closing, ending]))
    (hopening : opening.kind = .symbol "(") (hending : ending.kind = .lineEnd)
    (hnest : nestAll? [] between = some []) (halike : Alike us (opening :: between ++ [closing])) :
    IsOperand (grouped text).length us term := by
  obtain ⟨depth₀, last₀, hexpression⟩ :=
    exists_expression_of_group hread hscan hopening hending hnest
  obtain ⟨d₀, stop, hatom⟩ := exists_atom_of_group hopening hending hnest hexpression
  obtain ⟨first, vs, rfl, hfirst, hrest⟩ := List.map_eq_cons_iff.mp halike
  have hfirst : first.kind = .symbol "(" := by
    rw [← hopening]
    exact (eq_of_unplaced (by rw [hopening]; rfl) hfirst.symm).symm
  refine ⟨by simp [hfirst], fun {n' depth t} hn hdepth ht tail last => ?_⟩
  -- the atom is read at the depth that there is
  obtain ⟨hg, hp⟩ := follows_grammarAt (readField (grouped text).length) d₀ depth
  obtain ⟨used, hused, -, hdeep⟩ := follows_atom hg _ hp _ _ _ trivial hatom
  have hused : opening :: between ++ [closing] = used := by
    refine List.append_cancel_right ((?_ : _ = used ++ [ending]))
    rw [← hused, List.append_assoc]
    rfl
  have hlength : used.length = (first :: vs).length := by
    rw [← hused]
    simpa using (congrArg List.length halike).symm
  have hatom := hdeep (by show 0 + used.length + 0 ≤ depth + 1; omega)
  rw [List.cons_append, atom_of_group hopening] at hatom
  -- and so it is among other lexemes, whatever is behind it
  obtain ⟨hg, hp⟩ := mirrors_grammarAt (fieldsAlike_readField hn) depth
  obtain ⟨own, hown, -, hseals⟩ := seals_parenthesized hg hp opening.start first.start _ _ _ hatom
  have hown : between ++ [closing] = own := by
    refine List.append_cancel_right ((?_ : _ = own ++ [ending]))
    rw [← hown, List.append_assoc]
    rfl
  obtain ⟨found, last', hfound, hsame⟩ :=
    hseals ⟨vs ++ t :: tail, first.stop⟩ vs (t :: tail) rfl (hown ▸ hrest.symm)
  have hnext : Next (some (.symbol "(")) ⟨first :: vs ++ t :: tail, last⟩ := congrArg some hfirst
  exact ⟨found, last', disjunction_of_atom hnext rfl rfl ht
    ((atom_of_group hfirst (vs ++ t :: tail) last).trans hfound), hsame.symm⟩

theorem decodeText?_of_plain {named : String → Option Nat} {cs : List Char} (h : '\\' ∉ cs) :
    decodeText? named cs = some (cs.map Char.toNat) := by
  induction cs with
  | nil => rw [decodeText?, List.map_nil]
  | cons c cs ih =>
    obtain ⟨hc, hcs⟩ := not_or.mp (mt List.mem_cons.mpr h)
    rw [decodeText?, ih hcs, Option.map_some, List.map_cons]
    rintro rfl
    exact hc rfl

def textTerm (cs : List Char) : Term := .mk 0 0 (.literal (.text (cs.map Char.toNat) false))

theorem stringsForm?_of_plain {inner : FieldReader} {s : StringLiteral}
    (hmarks : s.marks = .ofLetters []) (hplain : '\\' ∉ s.body) :
    stringsForm? inner [s] = some (.literal (.text (s.body.map Char.toNat) false)) := by
  obtain ⟨marks, body, offset⟩ := s
  obtain rfl : marks = .ofLetters [] := hmarks
  have hpiece : textPiece? false body =
      some (if body.isEmpty then [] else [.text (body.map Char.toNat)]) := by
    unfold textPiece?
    split
    · rfl
    · rw [if_neg nofun, decodeText?_of_plain hplain]
      rfl
  have hpieces : [⟨.ofLetters [], body, offset⟩].mapM (literalPieces? inner) =
      some [if body.isEmpty then [] else [.text (body.map Char.toNat)]] := by
    rw [List.mapM_cons, List.mapM_nil]
    show (textPiece? false body).bind _ = _
    rw [hpiece]
    rfl
  unfold stringsForm?
  rw [if_neg (by simp [StringMarks.ofLetters]), if_neg (by simp [StringMarks.ofLetters]),
    Option.bind_eq_bind, hpieces, Option.bind_some]
  cases body with
  | nil => rfl
  | cons c body => simp [joinTexts, StringMarks.ofLetters]

theorem stringLiterals_of_one {t u : Lexeme} {s : StringLiteral} (hu : u.kind = .string s)
    (ht : endsOperand t.kind) (tail : List Lexeme) (last : Nat) :
    Grammar.stringLiterals ⟨u :: t :: tail, last⟩ = some ([s], ⟨t :: tail, u.stop⟩) := by
  obtain ⟨kind, start, stop⟩ := u
  obtain rfl : kind = .string s := hu
  obtain ⟨kind, start', stop'⟩ := t
  rcases kinds_of_endsOperand ht with rfl | rfl | rfl | rfl <;> rfl

theorem isOperand_of_string {u : Lexeme} {s : StringLiteral} (hu : u.kind = .string s)
    (hmarks : s.marks = .ofLetters []) (hplain : '\\' ∉ s.body) (n : Nat) :
    IsOperand n [u] (textTerm s.body) := by
  refine ⟨by simp [hu], fun {n' depth t} _ hdepth ht tail last => ?_⟩
  have hi : Next (some (.string s)) ⟨u :: t :: tail, last⟩ := congrArg some hu
  have hj : Next (some t.kind) ⟨t :: tail, u.stop⟩ := rfl
  have hatom : (grammarAt (readField n') depth).1.atom (readField n') (grammarAt (readField n') depth).2
      ⟨u :: t :: tail, last⟩ = some (.mk u.start u.stop
        (.literal (.text (s.body.map Char.toNat) false)), ⟨t :: tail, u.stop⟩) := by
    unfold Grammar.atom
    rw [bind_eq (here_eq _), bind_eq (peek_of_next hi)]
    dsimp only
    rw [bind_eq (stringLiterals_of_one hu ht tail last), stringsForm?_of_plain hmarks hplain]
    rfl
  exact ⟨_, _, disjunction_of_atom hi rfl hj ht hatom, rfl⟩

/-- The lexemes of operands with `if` and `else` between them, and the conditional expression that
they are. -/
inductive IsChain (n : Nat) : Term → List Lexeme → Prop where
  | last {term us} (h : IsOperand n us term) : IsChain n term us
  | choice {body test other us t vs u ts} (hbody : IsOperand n us body) (ht : t.kind = .keyword "if")
      (htest : IsOperand n vs test) (hu : u.kind = .keyword "else") (hother : IsChain n other ts) :
      IsChain n (.mk 0 0 (.choice test body other)) (us ++ t :: (vs ++ u :: ts))

theorem IsOperand.peek_ne {n : Nat} {us : List Lexeme} {term : Term} (h : IsOperand n us term)
    {t : Lexeme} (ht : endsOperand t.kind) (tail : List Lexeme) :
    (us ++ t :: tail).head?.map (·.kind) ≠ some (.keyword "lambda") := by
  cases us with
  | nil =>
    intro hlambda
    have hkind : t.kind = .keyword "lambda" := Option.some.inj hlambda
    exact absurd ht (hkind ▸ by decide)
  | cons u us => exact h.noLambda

/-- Operands with `if` and `else` between them are read as a conditional expression that nests to the
right. -/
theorem IsChain.exists_expression {n n' : Nat} {term : Term} {ts : List Lexeme} (h : IsChain n term ts)
    (hn : n ≤ n') {depth : Nat} (hdepth : ts.length + 1 < depth) {t : Lexeme} (ht : t.kind = .lineEnd)
    (tail : List Lexeme) (last : Nat) :
    ∃ found last', (grammarAt (readField n') depth).1.expression ⟨ts ++ t :: tail, last⟩ =
      some (found, ⟨t :: tail, last'⟩) ∧ found.unplaced = term.unplaced := by
  induction h generalizing depth last with
  | @last term us h =>
    obtain ⟨d, rfl⟩ : ∃ d, depth = d + 2 := ⟨depth - 2, by omega⟩
    have hends : endsOperand t.kind := ht ▸ rfl
    obtain ⟨found, last', hfound, hsame⟩ := h.reads hn (by omega : _ ≤ d) hends tail last
    have hj : Next (some .lineEnd) ⟨t :: tail, last'⟩ := congrArg some ht
    refine ⟨found, last', ?_, hsame⟩
    show (grammarAt (readField n') (d + 1)).1.expressionOf _ = _
    unfold Grammar.expressionOf
    rw [bind_eq (peek_of_next rfl), if_neg (h.peek_ne hends tail), bind_eq (here_eq _), bind_eq hfound,
      bind_eq (accept_of_other hj (.keyword "if") nofun), if_neg nofun]
    rfl
  | @choice body test other us v vs w ts hbody hv htest hw hother ih =>
    obtain ⟨d, rfl⟩ : ∃ d, depth = d + 2 := ⟨depth - 2, by omega⟩
    simp only [List.length_append, List.length_cons] at hdepth
    have hends : endsOperand v.kind := hv ▸ rfl
    rw [List.append_assoc, List.cons_append, List.append_assoc, List.cons_append]
    obtain ⟨body', last₁, hbody', hsame₁⟩ :=
      hbody.reads hn (by omega : _ ≤ d) hends (vs ++ w :: (ts ++ t :: tail)) last
    obtain ⟨test', last₂, htest', hsame₂⟩ :=
      htest.reads hn (by omega : _ ≤ d) (t := w) (hw ▸ rfl) (ts ++ t :: tail) v.stop
    obtain ⟨other', last₃, hother', hsame₃⟩ := ih (by omega : _ ≤ d + 1) w.stop
    have helse : keyword "else" ⟨w :: (ts ++ t :: tail), last₂⟩ =
        some ((), ⟨ts ++ t :: tail, w.stop⟩) := expect_eq hw _ _
    let start := (us ++ v :: (vs ++ w :: (ts ++ t :: tail))).head?.elim 0 (·.start)
    refine ⟨.mk start last₃ (.choice test' body' other'), last₃, ?_, ?_⟩
    · show (grammarAt (readField n') (d + 1)).1.expressionOf _ = _
      unfold Grammar.expressionOf
      rw [bind_eq (peek_of_next rfl), if_neg (hbody.peek_ne hends _), bind_eq (here_eq _),
        bind_eq hbody', bind_eq (accept_eq hv _ _), if_pos rfl, bind_eq htest',
        bind_eq helse, bind_eq hother']
      rfl
    · simp [Term.unplaced, Form.unplaced, hsame₁, hsame₂, hsame₃]

end ViewTree.Embedded
