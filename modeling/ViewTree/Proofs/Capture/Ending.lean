import ViewTree.Proofs.Capture.Group
import ViewTree.Proofs.Capture.Pieces
import ViewTree.Proofs.Capture.Starts
import ViewTree.Tree.Embed

/-!
Where an expression ends among the tokens. Main statements: the tokens and the lexemes of an
expression agree (`aligned_of_isExpression`), and what leaves no bracket and no lambda open is taken
up to the comma or brace behind it (`expressionEnd_of_walk?`).
-/
namespace ViewTree
open Embedded Mark Lexer TreeReader

/-- The lexer cuts the text into tokens from its first character to its last; none of them is an
attribute or a documentation comment. -/
def IsCut (cs : List Char) : Prop :=
  ∃ ts, lex cs 0 cs.length = .ok ts ∧
    (∀ t ∈ ts.items, t.kind ≠ .attrOpen ∧ t.kind ≠ .docComment) ∧
      ts.items.head?.map (·.offset) = some 0 ∧ ts.items.getLast?.map (·.stop) = some cs.length

/-- The text is cut in the same way wherever it stands. -/
theorem IsCut.exists_run {cs : List Char} (h : IsCut cs) (p : Position) :
    ∃ ts, run p cs = .ok ts ∧ (∀ t ∈ ts.items, t.kind ≠ .attrOpen ∧ t.kind ≠ .docComment) ∧
      ts.items.head?.map (·.offset) = some p.offset ∧
        ts.items.getLast?.map (·.stop) = some (p.offset + cs.length) := by
  obtain ⟨ts, hlex, hkinds, hfirst, hlast⟩ := h
  have hslice : Text.slice cs 0 cs.length = cs := by simp [Text.slice]
  unfold lex at hlex
  rw [hslice] at hlex
  obtain ⟨us, hrun, hsame⟩ := run_elsewhere hlex p
  have hkind := congrArg (List.map Prod.fst) hsame
  have hhead := congrArg List.head? hsame
  have hlast' := congrArg List.getLast? hsame
  simp only [List.map_map, Function.comp_def, List.head?_map, List.getLast?_map] at hkind hhead hlast'
  refine ⟨us, hrun, fun t ht => ?_, ?_, ?_⟩
  · have hmem : t.kind ∈ ts.items.map (·.kind) := hkind ▸ List.mem_map_of_mem ht
    obtain ⟨s, hs, hst⟩ := List.mem_map.mp hmem
    rw [← hst]
    exact hkinds s hs
  · obtain ⟨t, ht, hoffset⟩ := Option.map_eq_some_iff.mp hfirst
    rw [ht] at hhead
    obtain ⟨u, hu, hsame⟩ := Option.map_eq_some_iff.mp hhead
    have hmoved : u.offset + 0 = t.offset + p.offset := congrArg (·.2.1) hsame
    rw [hu, Option.map_some, Option.some_inj]
    omega
  · obtain ⟨t, ht, hstop⟩ := Option.map_eq_some_iff.mp hlast
    rw [ht] at hlast'
    obtain ⟨u, hu, hsame⟩ := Option.map_eq_some_iff.mp hlast'
    have hmoved : u.stop + 0 = t.stop + p.offset := congrArg (·.2.2) hsame
    rw [hu, Option.map_some, Option.some_inj]
    omega

theorem run_parenthesis (p : Position) :
    ∃ t eof, run p [')'] = .ok ⟨[t], eof⟩ ∧ t.kind = .rparen := by
  have hstep : step ')' [] = .ok (some .rparen, 0) := by rfl
  rw [run_ok hstep, List.drop_nil, run_nil]
  exact ⟨_, _, rfl, rfl⟩

/-- The tokens of an expression and its lexemes, each with the closing parenthesis. -/
theorem aligned_of_isExpression {value : List Char} {term : Term}
    (h : IsExpression (String.ofList value) term) (hreturn : '\r' ∉ value) {p : Position}
    {ts : Tokens} (hrun : run p value = .ok ts)
    (hkinds : ∀ t ∈ ts.items, t.kind ≠ .attrOpen ∧ t.kind ≠ .docComment)
    (hlast : ts.items.getLast?.map (·.stop) = some (p.offset + value.length)) :
    ∃ (t : Token) (lexemes : List Lexeme) (closing ending : Lexeme), t.kind = .rparen ∧
      closing.kind = .symbol ")" ∧
        Aligned (ts.items ++ [t]) (lexemes ++ [closing, ending]) ∧
        (∃ joined, Nesting.walk? ⟨0, 0, false⟩ lexemes = some ⟨0, 0, joined⟩) ∧
          ofTokens ts.items = ofLexemes lexemes := by
  obtain ⟨lexemes, closing, ending, hscan, hclosing, hending, hwalk⟩ :=
    exists_lexemes_of_isExpression h
  rw [String.toList_ofList] at hscan
  obtain ⟨t, eof, hparenthesis, ht⟩ := run_parenthesis (p.after value)
  have hall : run p (value ++ [')']) = .ok ⟨ts.items ++ [t], eof⟩ := by
    rw [run_append hrun hkinds (.inr hlast) (by decide) [], hparenthesis]
    rfl
  have hreturn' : '\r' ∉ value ++ [')'] := by
    simpa using hreturn
  have hkinds' : ∀ u ∈ ts.items ++ [t], u.kind ≠ .attrOpen ∧ u.kind ≠ .docComment := by
    intro u hu
    rcases List.mem_append.mp hu with hu | hu
    · exact hkinds u hu
    · rw [List.mem_singleton.mp hu, ht]
      decide
  obtain ⟨joined, hdeep⟩ := hwalk 1
  have hwhole : Nesting.walk? ⟨1, 0, false⟩ (lexemes ++ [closing, ending]) = some ⟨0, 0, false⟩ := by
    rw [Nesting.walk?_append, hdeep]
    simp [Nesting.walk?, hclosing, hending, Nesting.step?, closerOf?, isCloser, Nesting.joins]
  have hapart : Apart ⟨1, 0, false⟩ '(' (value ++ [')']) := fun _ => ⟨rfl, by rintro ⟨⟩⟩
  have hmarks := ofText?_of_scanFrom hreturn' hscan hwhole hapart
  have hsame := ofTokens_of_run hall (fun u hu => (hkinds' u hu).1) (fun _ => rfl) hmarks
  have hone : ofTokens [t] = [.closing] := by
    simp [ofTokens, ofToken?, ht, TokenKind.isOpening, TokenKind.isClosing]
  have hone' : ofLexemes [closing, ending] = [.closing] := by
    simp [ofLexemes, ofLexeme?, hclosing, hending, closerOf?, isCloser]
  refine ⟨t, lexemes, closing, ending, ht, hclosing, ?_, hwalk 0, ?_⟩
  · exact ⟨p, _, eof, 1, [")"], false, hreturn', List.cons_ne_nil _ _, hall, hscan⟩
  · rw [ofTokens_append, ofLexemes_append, hone, hone'] at hsame
    exact List.append_cancel_right hsame

/-- Taking a token moves the counts as its mark does. -/
theorem expressionEnd_cons {depth lambdas depth' lambdas' : Nat} {t : Token}
    (h : Mark.walk? (depth, lambdas) (ofToken? t).toList = some (depth', lambdas'))
    (last : Option Token) (rest : List Token) :
    expressionEnd [TokenKind.comma].contains depth lambdas last (t :: rest) =
      expressionEnd [TokenKind.comma].contains depth' lambdas' (some t) rest := by
  unfold ofToken? at h
  rw [expressionEnd]
  by_cases hopening : t.kind.isOpening
  · have hplain : t.kind.isClosing = false ∧ t.kind ≠ .comma ∧ t.kind ≠ .identifier ∧
        t.kind ≠ .colon := by
      revert hopening
      cases t.kind <;> decide
    rw [if_pos hopening] at h
    obtain ⟨rfl, rfl⟩ := Prod.mk.inj (Option.some.inj h)
    simp [hopening, hplain]
  rw [if_neg hopening] at h
  by_cases hclosing : t.kind.isClosing
  · have hplain : t.kind ≠ .comma ∧ t.kind ≠ .identifier ∧ t.kind ≠ .colon := by
      revert hclosing
      cases t.kind <;> decide
    rw [if_pos hclosing] at h
    by_cases hdepth : depth = 0
    · simp [Mark.walk?, Mark.step?, hdepth] at h
    · simp only [Mark.walk?, Option.toList_some, List.foldlM_cons, Mark.step?, if_neg hdepth] at h
      obtain ⟨rfl, rfl⟩ := Prod.mk.inj (Option.some.inj h)
      simp [hopening, hclosing, hdepth]
  rw [if_neg hclosing] at h
  by_cases hcomma : t.kind = .comma
  · rw [if_pos hcomma] at h
    by_cases hends : (depth = 0 && lambdas = 0) = true
    · simp [Mark.walk?, Mark.step?, hends] at h
    · simp only [Mark.walk?, Option.toList_some, List.foldlM_cons, Mark.step?, if_neg hends] at h
      obtain ⟨rfl, rfl⟩ := Prod.mk.inj (Option.some.inj h)
      grind [TokenKind.isOpening, TokenKind.isClosing]
  rw [if_neg hcomma] at h
  by_cases hcolon : t.kind = .colon
  · rw [if_pos hcolon] at h
    obtain ⟨rfl, rfl⟩ := Prod.mk.inj (Option.some.inj h)
    grind [TokenKind.isOpening, TokenKind.isClosing]
  rw [if_neg hcolon] at h
  by_cases hlambda : (t.kind = .identifier && t.text = "lambda") = true
  · rw [if_pos hlambda] at h
    obtain ⟨rfl, rfl⟩ := Prod.mk.inj (Option.some.inj h)
    grind [TokenKind.isOpening, TokenKind.isClosing]
  · rw [if_neg hlambda] at h
    obtain ⟨rfl, rfl⟩ := Prod.mk.inj (Option.some.inj h)
    grind [TokenKind.isOpening, TokenKind.isClosing]

/-- What leaves nothing open is taken up to the comma or brace behind it. -/
theorem expressionEnd_of_walk? {depth lambdas : Nat} {ts : List Token} {d : Token}
    (hwalk : Mark.walk? (depth, lambdas) (ofTokens ts) = some (0, 0))
    (hd : d.kind = .comma ∨ d.kind = .rbrace) (last : Option Token) (rest : List Token) :
    expressionEnd [TokenKind.comma].contains depth lambdas last (ts ++ d :: rest) =
      (ts.getLast?.or last, d :: rest) := by
  induction ts generalizing depth lambdas last with
  | nil =>
    obtain ⟨rfl, rfl⟩ := Prod.mk.inj (Option.some.inj hwalk)
    rcases hd with hd | hd
    · simp [expressionEnd, hd, TokenKind.isClosing]
    · simp [expressionEnd, hd, TokenKind.isClosing]
  | cons t ts ih =>
    have hsplit : ofTokens (t :: ts) = (ofToken? t).toList ++ ofTokens ts := by
      unfold ofTokens
      rw [List.filterMap_cons]
      cases ofToken? t <;> rfl
    rw [hsplit, Mark.walk?, List.foldlM_append] at hwalk
    obtain ⟨⟨depth', lambdas'⟩, hstep, hrest⟩ := Option.bind_eq_some_iff.mp hwalk
    rw [List.cons_append, expressionEnd_cons hstep, ih hrest, List.getLast?_cons]
    cases ts.getLast? <;> rfl

theorem captureExpression_of_end {stops : List TokenKind} {context : Context} {cursor : Cursor}
    {last : Token} {rest : List Token} {text : String} {term : Term}
    (hend : expressionEnd stops.contains 0 0 none cursor.rest = (some last, rest))
    (htext : String.ofList (Text.slice context.text cursor.token.offset last.stop) = text)
    (hended : ∀ c ∈ text.toList, c.toNat ≠ 0) (hterm : readTerm? text = some term) (what : String)
    (hint : Option String) :
    captureExpression stops what hint context cursor =
      .ok (⟨text, cursor.token.place, term⟩, ⟨some last, rest, cursor.eof⟩) := by
  have hnone : ¬text.toList.any endsTexts = true := by
    simpa [endsTexts] using hended
  have hread (c : Cursor) : expression text cursor.token hint context c =
      .ok (⟨text, cursor.token.place, term⟩, c) := by
    unfold expression
    rw [if_neg hnone, hterm]
    rfl
  have hget (r : Cursor → TreeReader Expr) : (get >>= r) context cursor = r cursor context cursor := rfl
  rw [← hread ⟨some last, rest, cursor.eof⟩, ← htext, captureExpression, hget, hend]
  rfl

end ViewTree
