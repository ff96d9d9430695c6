import ViewTree.Proofs.Capture.Occurrence
import ViewTree.Proofs.Evaluation
import ViewTree.Tree.Reader

/-!
Expressions as values of properties. Main statement: an expression in front of a comma or a closing
brace is read whole, and reading goes on at what stands behind it, unless a word of it is taken for
the start of another component (`Occurrence.reads_value`). Brackets around the value keep it from
being cut (`Occurrence.whole_of_isExpression`), but each attribute in front hides one of them
(`not_reads_value_cutView`).
-/
namespace ViewTree
open Embedded Mark Lexer TreeReader

namespace TreeReader
variable {α β : Type} {context : Context} {previous : Option Token} {t : Token} {rest : List Token}
  {eof : Token} {kind : TokenKind}

theorem bind_ok {r : TreeReader α} {k : α → TreeReader β} {c d : Cursor} {x : α}
    (h : r context c = .ok (x, d)) : (r >>= k) context c = k x context d := by
  show (r context c >>= fun y => k y.1 context y.2) = _
  rw [h]
  rfl

theorem accept_of_kind (h : t.kind = kind) :
    accept kind context ⟨previous, t :: rest, eof⟩ = .ok (true, ⟨some t, rest, eof⟩) := by
  have hnext : isNext kind context ⟨previous, t :: rest, eof⟩ =
      .ok (true, ⟨previous, t :: rest, eof⟩) := by
    show Except.ok (decide (t.kind = kind), _) = _
    rw [decide_eq_true h]
  unfold accept
  rw [bind_ok hnext]
  rfl

theorem accept_of_ne (h : t.kind ≠ kind) :
    accept kind context ⟨previous, t :: rest, eof⟩ = .ok (false, ⟨previous, t :: rest, eof⟩) := by
  have hnext : isNext kind context ⟨previous, t :: rest, eof⟩ =
      .ok (false, ⟨previous, t :: rest, eof⟩) := by
    show Except.ok (decide (t.kind = kind), _) = _
    rw [decide_eq_false h]
  unfold accept
  rw [bind_ok hnext]
  rfl

theorem expect_of_kind (h : t.kind = kind) :
    expect kind context ⟨previous, t :: rest, eof⟩ = .ok (t, ⟨some t, rest, eof⟩) := by
  show (if t.kind = kind then advance else _ : TreeReader Token) context _ = _
  rw [if_pos h]
  rfl

theorem writtenName?_eq_none {c : Cursor}
    (hplain : c.token.kind.isName → (c.ahead 1).kind ≠ .equals)
    (hmutable : c.token.kind = .mutWord → (c.ahead 1).kind.isName → (c.ahead 2).kind ≠ .equals) :
    NodeReaders.writtenName? context c = .ok (none, c) := by
  have hnext : isNext .mutWord context c = .ok (decide (c.token.kind = .mutWord), c) := rfl
  have hcurrent : current context c = .ok (c.token, c) := rfl
  have hahead (n : Nat) : ahead n context c = .ok (c.ahead n, c) := rfl
  unfold NodeReaders.writtenName?
  dsimp only
  rw [bind_ok hnext, bind_ok (hahead 1), bind_ok (hahead 2), if_neg, bind_ok hcurrent,
    bind_ok (hahead 1), if_neg]
  · rfl
  · simpa using hplain
  · simpa using hmutable

/-- A property with its value behind a colon, where the value is no node with its name in front. -/
theorem namedProperty_of_capture {settings : Settings} {text : List Char} {name : Token}
    {marks rest : List Token} {optional : Bool} {lead : Lead} {c : Cursor} {value : Expr}
    (hmarks : marks.map (·.kind) = if optional then [.question, .colon] else [.colon])
    (hlead : lead.node = []) (hname : name.text ≠ settings.bindingMethod)
    (hwritten : ∀ previous,
      NodeReaders.writtenName? ⟨text, settings⟩ ⟨previous, rest, eof⟩ =
        .ok (none, ⟨previous, rest, eof⟩))
    (hcapture : ∀ previous what hint,
      captureExpression [.comma] what hint ⟨text, settings⟩ ⟨previous, rest, eof⟩ = .ok (value, c))
    (r : NodeReaders) :
    r.namedProperty lead ⟨text, settings⟩ ⟨previous, name :: (marks ++ rest), eof⟩ =
      (do
        let modifiers ← Attribute.modifiers lead.property optional
        pure ⟨name.text, modifiers, name.place, .method value⟩ : TreeReader Property)
          ⟨text, settings⟩ c := by
  have hvalue (previous : Option Token) :
      NodeReaders.valueProperty name lead optional ⟨text, settings⟩ ⟨previous, rest, eof⟩ =
        (do
          let modifiers ← Attribute.modifiers lead.property optional
          pure ⟨name.text, modifiers, name.place, .method value⟩ : TreeReader Property)
            ⟨text, settings⟩ c := by
    have hreject (d : Cursor) :
        NodeReaders.rejectNodeAttributes lead name.text ⟨text, settings⟩ d = .ok ((), d) := by
      unfold NodeReaders.rejectNodeAttributes
      rw [hlead]
      rfl
    have hread (d : Cursor) : (read : TreeReader Context) ⟨text, settings⟩ d =
        .ok (⟨text, settings⟩, d) := rfl
    unfold NodeReaders.valueProperty
    rw [bind_ok (hreject _), bind_ok (hread _)]
    dsimp only
    rw [if_neg (by simp [hname]), bind_ok (hcapture _ _ _)]
    simp only [if_neg hname]
  have hadvance : advance ⟨text, settings⟩ ⟨previous, name :: (marks ++ rest), eof⟩ =
      .ok (name, ⟨some name, marks ++ rest, eof⟩) := rfl
  unfold NodeReaders.namedProperty
  rw [bind_ok hadvance]
  cases optional with
  | true =>
    rw [if_pos rfl] at hmarks
    obtain ⟨q, others, rfl, hq, hothers⟩ := List.map_eq_cons_iff.mp hmarks
    obtain ⟨colon, rfl, hcolon⟩ := List.map_eq_singleton_iff.mp hothers
    rw [List.cons_append, bind_ok (accept_of_kind hq), if_pos rfl, List.cons_append,
      bind_ok (expect_of_kind hcolon)]
    exact hvalue (some colon)
  | false =>
    obtain ⟨colon, rfl, hcolon⟩ := List.map_eq_singleton_iff.mp hmarks
    have hother {kind : TokenKind} (h : .colon ≠ kind) : colon.kind ≠ kind := hcolon ▸ h
    have hget : (get : TreeReader Cursor) ⟨text, settings⟩ ⟨some name, colon :: rest, eof⟩ =
        .ok (⟨some name, colon :: rest, eof⟩, ⟨some name, colon :: rest, eof⟩) := rfl
    have hnext {kind : TokenKind} (h : .colon ≠ kind) :
        isNext kind ⟨text, settings⟩ ⟨some name, colon :: rest, eof⟩ =
          .ok (false, ⟨some name, colon :: rest, eof⟩) := by
      show Except.ok (decide (colon.kind = kind), _) = _
      rw [decide_eq_false (hother h)]
    rw [List.cons_append, List.nil_append, bind_ok (accept_of_ne (hother (by decide))), if_neg nofun,
      bind_ok hget, bind_ok (hnext (by decide))]
    rw [if_neg nofun, pure_bind]
    dsimp only
    rw [bind_ok (hnext (by decide)), if_neg nofun, bind_ok (accept_of_ne (hother (by decide))),
      if_neg nofun, bind_ok (accept_of_kind hcolon), if_pos rfl, bind_ok (hwritten _)]
    exact hvalue (some colon)

end TreeReader

namespace Occurrence
variable {text value : List Char}

section
variable {o : Occurrence text value} {p : Position} {own : Tokens} {d : Token} {later : List Token}
  {term : Term}

/-- An expression is captured whole, whatever stands behind its delimiter. -/
theorem captureExpression_of_splits (h : o.Splits p own d later)
    (hexpression : IsExpression (String.ofList value) term) (hreturn : '\r' ∉ value)
    (settings : Settings) (behind : List Token) (previous : Option Token) (eof : Token)
    (what : String) (hint : Option String) :
    captureExpression [.comma] what hint ⟨text, settings⟩
        ⟨previous, own.items ++ d :: behind, eof⟩ =
      .ok (⟨String.ofList value, placeAt text o.first.offset, term⟩,
        ⟨own.items.getLast?, d :: behind, eof⟩) := by
  obtain ⟨last, hlast, hstop⟩ := Option.map_eq_some_iff.mp h.last_eq
  obtain ⟨-, lexemes, -, -, -, -, -, ⟨joined, hwalk⟩, hsame⟩ :=
    aligned_of_isExpression hexpression hreturn h.run_eq h.kinds h.last_eq
  have hmarks : Mark.walk? (0, 0) (ofTokens own.items) = some (0, 0) := by
    rw [hsame]
    exact Nesting.walk?_counts hwalk
  have hend : expressionEnd [TokenKind.comma].contains 0 0 none (own.items ++ d :: behind) =
      (some last, d :: behind) := by
    have hsplit := expressionEnd_of_walk? hmarks h.kind_cases none behind
    rw [hlast] at hsplit
    exact hsplit
  have hfirst : (⟨previous, own.items ++ d :: behind, eof⟩ : Cursor).token = o.first := by
    have hrest := h.rest_eq
    have hhead := h.head_eq
    generalize own.items = items at hrest hhead
    cases items with
    | nil => nomatch hhead
    | cons t items => exact (List.cons.inj hrest).1.symm
  have htext : Text.slice text o.first.offset last.stop = value := by
    rw [hstop, h.offset_eq]
    exact slice_of_prefix (o.text_eq.trans (List.append_assoc ..))
  have hcursor : String.ofList (Text.slice text
      (⟨previous, own.items ++ d :: behind, eof⟩ : Cursor).token.offset last.stop) =
        String.ofList value := by
    rw [hfirst, htext]
  have hcapture : captureExpression [.comma] what hint ⟨text, settings⟩
      ⟨previous, own.items ++ d :: behind, eof⟩ = _ :=
    captureExpression_of_end hend hcursor hexpression.not_ended
      (readTerm?_of_isExpression hexpression) what hint
  rw [hfirst, h.place_eq] at hcapture
  rw [hcapture, hlast]

/-- No expression is taken for a node with its name in front. -/
theorem writtenName?_of_splits (h : o.Splits p own d later)
    (hexpression : IsExpression (String.ofList value) term) (hreturn : '\r' ∉ value)
    (context : Context) (behind : List Token) (previous : Option Token) (eof : Token) :
    NodeReaders.writtenName? context ⟨previous, own.items ++ d :: behind, eof⟩ =
      .ok (none, ⟨previous, own.items ++ d :: behind, eof⟩) := by
  obtain ⟨t, lexemes, closing, ending, -, hclosing, haligned, ⟨joined, hwalk⟩, -⟩ :=
    aligned_of_isExpression hexpression hreturn h.run_eq h.kinds h.last_eq
  have hd : d.kind ≠ .equals ∧ d.kind.isName = false := by
    rcases h.kind_cases with hkind | hkind <;> rw [hkind] <;> decide
  have hhead := h.head_eq
  generalize own.items = items at hhead haligned
  match items with
  | [] => nomatch hhead
  | [a] =>
    exact writtenName?_eq_none (fun _ => hd.1) fun _ hname =>
      absurd hname (ne_true_of_eq_false hd.2)
  | [a, b] =>
    exact writtenName?_eq_none (haligned.not_assigned hwalk ⟨rfl, rfl⟩ hclosing) fun _ _ => hd.1
  | a :: b :: c :: more =>
    exact writtenName?_eq_none (haligned.not_assigned hwalk ⟨rfl, rfl⟩ hclosing)
      (haligned.not_assigned_mut hwalk ⟨rfl, rfl⟩ hclosing)

end

/-- Let a text between parentheses be an expression that the lexer cuts into tokens, with no
carriage return in it. Wherever it stands as the value of a property and no word of it is taken for the
start of another component, its tokens are in the chunk of the property, it is captured with its exact
text and the place of its first character, and reading goes on at the comma or brace behind it. -/
theorem reads_value {value : String} {term : Term} (hexpression : IsExpression value term)
    (hreturn : '\r' ∉ value.toList) (hcut : IsCut value.toList)
    (o : Occurrence text value.toList) (hwhole : o.Whole) (settings : Settings) :
    ∃ chunk ∈ Chunk.split o.tokens, ∃ (earlier own behind : List Token) (d : Token),
      chunk.tokens = ⟨earlier ++ o.name :: (o.marks ++ (own ++ d :: behind)), o.tokens.eof⟩ ∧
      TokenKind.ofChar? o.delimiter = some d.kind ∧
      d.offset = o.first.offset + value.length + o.blanks.length ∧
      (∀ previous what hint,
        captureExpression [.comma] what hint ⟨text, settings⟩
            ⟨previous, own ++ d :: behind, o.tokens.eof⟩ =
          .ok (⟨value, placeAt text o.first.offset, term⟩,
            ⟨own.getLast?, d :: behind, o.tokens.eof⟩)) ∧
      ∀ (r : NodeReaders) (lead : Lead) (previous : Option Token),
        lead.node = [] → o.name.text ≠ settings.bindingMethod →
          r.namedProperty lead ⟨text, settings⟩
              ⟨previous, o.name :: (o.marks ++ (own ++ d :: behind)), o.tokens.eof⟩ =
            (do
              let modifiers ← Attribute.modifiers lead.property o.optional
              pure ⟨o.name.text, modifiers, o.name.place,
                .method ⟨value, placeAt text o.first.offset, term⟩⟩ : TreeReader Property)
              ⟨text, settings⟩ ⟨own.getLast?, d :: behind, o.tokens.eof⟩ := by
  obtain ⟨p, own, d, later, hsplits⟩ := o.exists_splits hcut
  obtain ⟨chunk, hchunk, earlier, behind, hparts⟩ := hsplits.exists_chunk hwhole
  have hvalue : String.ofList value.toList = value := String.ofList_toList
  have hexpression' : IsExpression (String.ofList value.toList) term := by
    rw [hvalue]
    exact hexpression
  have hcapture (previous : Option Token) (what : String) (hint : Option String) :
      captureExpression [.comma] what hint ⟨text, settings⟩
          ⟨previous, own.items ++ d :: behind, o.tokens.eof⟩ =
        .ok (⟨value, placeAt text o.first.offset, term⟩,
          ⟨own.items.getLast?, d :: behind, o.tokens.eof⟩) := by
    have hall := captureExpression_of_splits hsplits hexpression' hreturn settings behind previous
      o.tokens.eof what hint
    rw [hvalue] at hall
    exact hall
  refine ⟨chunk, hchunk, earlier, own.items, behind, d, hparts, hsplits.kind_eq, hsplits.at_offset,
    hcapture, ?_⟩
  intro r lead previous hlead hname
  exact namedProperty_of_capture o.marks_eq hlead hname
    (fun previous => writtenName?_of_splits hsplits hexpression' hreturn _ behind previous _)
    (fun previous => hcapture previous) r

/-- The mark of a token changes the number of open brackets as the token does. -/
theorem depthBehind_of_walk? {depth lambdas depth' lambdas' : Nat} {t : Token}
    (h : Mark.walk? (depth, lambdas) (ofToken? t).toList = some (depth', lambdas')) (outer : Nat) :
    depthBehind (outer + depth) t.kind = outer + depth' := by
  unfold ofToken? at h
  unfold depthBehind
  by_cases hopening : t.kind.isOpening
  · rw [if_pos hopening] at h ⊢
    obtain ⟨rfl, -⟩ := Prod.mk.inj (Option.some.inj h)
    rfl
  rw [if_neg hopening] at h ⊢
  by_cases hclosing : t.kind.isClosing
  · rw [if_pos hclosing] at h ⊢
    by_cases hdepth : depth = 0
    · simp [Mark.walk?, Mark.step?, hdepth] at h
    · simp only [Mark.walk?, Option.toList_some, List.foldlM_cons, Mark.step?, if_neg hdepth] at h
      obtain ⟨rfl, -⟩ := Prod.mk.inj (Option.some.inj h)
      omega
  -- all other marks leave the brackets as they are
  · rw [if_neg hclosing] at h ⊢
    have hsame : depth' = depth := by
      split at h
      · by_cases hends : (depth = 0 && lambdas = 0) = true
        · simp [Mark.walk?, Mark.step?, hends] at h
        · simp only [Mark.walk?, Option.toList_some, List.foldlM_cons, Mark.step?, if_neg hends] at h
          exact (Prod.mk.inj (Option.some.inj h)).1.symm
      · split at h
        · exact (Prod.mk.inj (Option.some.inj h)).1.symm
        · split at h <;> exact (Prod.mk.inj (Option.some.inj h)).1.symm
    rw [hsame]

/-- Brackets that are open around tokens keep them together if they close only what they open. -/
theorem keeps_of_walk? {outer depth lambdas : Nat} {ts : List Token} (houter : 0 < outer)
    (h : (Mark.walk? (depth, lambdas) (ofTokens ts)).isSome) :
    Chunk.keeps (outer + depth) (ts.map (·.kind)) := by
  induction ts generalizing depth lambdas with
  | nil => rfl
  | cons t ts ih =>
    have hsplit : ofTokens (t :: ts) = (ofToken? t).toList ++ ofTokens ts := by
      unfold ofTokens
      rw [List.filterMap_cons]
      cases ofToken? t <;> rfl
    rw [hsplit, Mark.walk?, List.foldlM_append] at h
    obtain ⟨counts, hwalk⟩ := Option.isSome_iff_exists.mp h
    obtain ⟨⟨depth', lambdas'⟩, hstep, hrest⟩ := Option.bind_eq_some_iff.mp hwalk
    have hmore := ih (Option.isSome_of_eq_some hrest)
    rw [List.map_cons, Chunk.keeps, depthBehind_of_walk? hstep outer, hmore]
    simp [Nat.add_pos_left houter]

/-- An expression is not cut in two where brackets are open around it, as cutting counts them. -/
theorem whole_of_isExpression {term : Term} (hexpression : IsExpression (String.ofList value) term)
    (hreturn : '\r' ∉ value) (hcut : IsCut value) (o : Occurrence text value)
    (hdepth : 0 < Chunk.depthAfter 0 o.before) : o.Whole := by
  intro own hlex
  obtain ⟨ts, hts, hkinds, -, hlast⟩ := hcut
  obtain rfl := Except.ok.inj (hlex.symm.trans hts)
  have hrun : run (Position.ofOffset value 0) value = .ok own := by
    rw [lex, show Text.slice value 0 value.length = value by simp [Text.slice]] at hlex
    exact hlex
  obtain ⟨-, lexemes, -, -, -, -, -, ⟨joined, hwalk⟩, hsame⟩ :=
    aligned_of_isExpression hexpression hreturn hrun hkinds
      (by rw [hlast, show (Position.ofOffset value 0).offset = 0 from rfl, Nat.zero_add])
  have hmarks := Nesting.walk?_counts hwalk
  rw [← hsame] at hmarks
  have hkeeps := keeps_of_walk? hdepth (Option.isSome_of_eq_some hmarks)
  rwa [Nat.add_zero] at hkeeps

end Occurrence

/-- Whether the grammar reads as an expression all that stands between the parentheses. -/
def isExpression (text : String) : Bool :=
  match scan (grouped text) with
  | some (first :: lexemes) =>
    ((grammarAt (readField (grouped text).length) 9).1.expression ⟨lexemes, first.stop⟩).any
      fun found => found.2.rest.map (·.kind) = [.symbol ")", .lineEnd] &&
        lexemes.drop (lexemes.length - 2) = found.2.rest &&
        text.toList.all fun c => c.toNat ≠ 0
  | _ => false

theorem exists_isExpression {text : String} (h : isExpression text) :
    ∃ term, IsExpression text term := by
  unfold isExpression at h
  split at h
  · next first lexemes hscan =>
    obtain ⟨⟨term, rest, last⟩, hread, htest⟩ := (Option.any_eq_true _ _).mp h
    obtain ⟨hends, hended⟩ := Bool.and_eq_true_iff.mp htest
    obtain ⟨hkinds, hdrop⟩ := Bool.and_eq_true_iff.mp hends
    obtain ⟨closing, others, rfl, hclosing, hothers⟩ :=
      List.map_eq_cons_iff.mp (of_decide_eq_true hkinds)
    obtain ⟨ending, rfl, hending⟩ := List.map_eq_singleton_iff.mp hothers
    have hlexemes : lexemes = lexemes.take (lexemes.length - 2) ++ [closing, ending] := by
      have hlast : lexemes.drop (lexemes.length - 2) = [closing, ending] := of_decide_eq_true hdrop
      rw [← hlast, List.take_append_drop]
    rw [hlexemes] at hscan hread
    refine ⟨term, fun c hc => ?_, 9, first, closing, ending, _, last, hscan, hclosing, hending, hread⟩
    exact of_decide_eq_true (List.all_eq_true.mp hended c hc)
  · nomatch h

def tokensOf (text : String) : Tokens :=
  (lex text.toList 0 text.length).toOption.getD ⟨[], default⟩

theorem lex_tokensOf (text : String) (h : (lex text.toList 0 text.length).toOption.isSome) :
    lex text.toList 0 text.length = .ok (tokensOf text) := by
  unfold tokensOf
  cases hlex : lex text.toList 0 text.length with
  | ok tokens => rfl
  | error e => rw [hlex] at h; nomatch h

/-- A lambda in the default of another one, and a number that a word follows at once. -/
def sortExpression : String := "lambda f=lambda x, y: x, *, g: 1if g else f"

def sortView : String :=
  "view List(model) \x7b\n  Gtk.Box \x7b\n    sort: " ++ sortExpression ++ " ,\n    track\n  \x7d\n\x7d\n"

/-- The expression behind the colon of `sort`. -/
def sortOccurrence : Occurrence sortView.toList sortExpression.toList where
  part := ⟨0, sortView.length, some ⟨.view, "List"⟩⟩
  tokens := tokensOf sortView
  before := (tokensOf sortView).items.take 10
  name := ⟨.identifier, "sort", 3, 5, 35, 39⟩
  optional := false
  marks := [⟨.colon, ":", 3, 9, 39, 40⟩]
  first := ⟨.identifier, "lambda", 3, 11, 41, 47⟩
  others := (tokensOf sortView).items.drop 13
  blanks := [' ']
  delimiter := ','
  behind := "\n    track\n  \x7d\n\x7d\n".toList
  part_mem := by decide
  lexed := lex_tokensOf sortView (by decide +kernel)
  items_eq := by decide +kernel
  name_eq := rfl
  marks_eq := rfl
  text_eq := by decide
  skipped := by simp [isSkipped]
  ends := .inl rfl

theorem reads_value_sortView :
    ∃ term, IsExpression sortExpression term ∧ '\r' ∉ sortExpression.toList ∧
      IsCut sortExpression.toList ∧ sortOccurrence.Whole ∧
      ∃ chunk ∈ Chunk.split (tokensOf sortView), ∃ (earlier own behind : List Token) (d : Token),
        chunk.tokens.items = earlier ++ sortOccurrence.name :: (sortOccurrence.marks ++ (own ++ d :: behind)) ∧
        d.kind = .comma ∧
        (nodeReaders 1).namedProperty ⟨[], [], none⟩ ⟨sortView.toList, {}⟩
            ⟨none, sortOccurrence.name :: (sortOccurrence.marks ++ (own ++ d :: behind)),
              chunk.tokens.eof⟩ =
          .ok (⟨"sort", {}, ⟨3, 5⟩, .method ⟨sortExpression, ⟨3, 11⟩, term⟩⟩,
            ⟨own.getLast?, d :: behind, chunk.tokens.eof⟩) := by
  obtain ⟨term, hterm⟩ : ∃ term, IsExpression sortExpression term := exists_isExpression (by decide +kernel)
  have hreturn : '\r' ∉ sortExpression.toList := by decide
  have hcut : IsCut sortExpression.toList := exists_tokens (by decide +kernel)
  have hdepth : 0 < Chunk.depthAfter 0 sortOccurrence.before := by decide +kernel
  have hterm' : IsExpression (String.ofList sortExpression.toList) term := by
    rw [String.ofList_toList]
    exact hterm
  have hwhole := sortOccurrence.whole_of_isExpression hterm' hreturn hcut hdepth
  obtain ⟨chunk, hchunk, earlier, own, behind, d, hparts, hkind, -, -, hproperty⟩ :=
    Occurrence.reads_value hterm hreturn hcut sortOccurrence hwhole {}
  have hplace : placeAt sortView.toList sortOccurrence.first.offset = ⟨3, 11⟩ := by decide
  rw [hplace] at hproperty
  refine ⟨term, hterm, hreturn, hcut, hwhole, chunk, hchunk, earlier, own, behind, d, ?_,
    (Option.some.inj hkind).symm, ?_⟩
  · rw [hparts]
  · rw [hparts]
    exact hproperty (nodeReaders 1) ⟨[], [], none⟩ none rfl (by decide)

/-- A view with two watched properties, the second of which has the value. -/
def cardView (value : String) : String :=
  "view Card(view) \x7b\n  Gtk.Label \x7b\n    #[watch]\n    set_label: view.title,\n" ++
    "    #[watch]\n    set_name: " ++ value ++ ",\n  \x7d,\n\x7d\n"

instance (value : String) : Spelled (cardView value) :=
  .append (.append (.append .literal .literal) inferInstance) .literal

def cutView : String := cardView "view.name"

instance : Spelled cutView := inferInstanceAs (Spelled (cardView "view.name"))

/-- The expression behind the second colon. -/
def cutOccurrence : Occurrence cutView.toList "view.name".toList where
  part := ⟨0, cutView.length, some ⟨.view, "Card"⟩⟩
  tokens := tokensOf cutView
  before := (tokensOf cutView).items.take 22
  name := ⟨.identifier, "set_name", 6, 5, 89, 97⟩
  optional := false
  marks := [⟨.colon, ":", 6, 13, 97, 98⟩]
  first := ⟨.view, "view", 6, 15, 99, 103⟩
  others := (tokensOf cutView).items.drop 25
  blanks := []
  delimiter := ','
  behind := "\n  \x7d,\n\x7d\n".toList
  part_mem := by decide +kernel
  lexed := by
    dsimp only
    exact lex_tokensOf cutView (by decide +kernel)
  items_eq := by decide +kernel
  name_eq := rfl
  marks_eq := rfl
  text_eq := by decide +kernel
  skipped := List.forall_mem_nil _
  ends := .inl rfl

/-- Behind two attributes, both brackets around the property are taken for closed, and a value that
starts with the name of the parameter is cut off. Any other name is read. -/
theorem not_reads_value_cutView :
    (∃ term, IsExpression "view.name" term) ∧ '\r' ∉ "view.name".toList ∧
      IsCut "view.name".toList ∧ cutOccurrence.name.text = "set_name" ∧
      ((Chunk.split cutOccurrence.tokens).map fun chunk =>
        (chunk.tokens.items.contains cutOccurrence.name,
          chunk.tokens.items.contains cutOccurrence.first)) = [(true, false), (false, true)] ∧
      (readSource? {} cutView).map (List.map (·.result.toOption.isSome)) =
        some [false, false] ∧
      (readSource? {} (cardView "item.name")).map (List.map (·.result.toOption.isSome)) =
        some [true] := by
  have hread : (readSource? {} cutView).map (List.map (·.result.toOption.isSome)) =
      some [false, false] ∧
    (readSource? {} (cardView "item.name")).map (List.map (·.result.toOption.isSome)) =
      some [true] := by
    rw [readSource?_spelled, readSource?_spelled]
    decide +kernel
  exact ⟨exists_isExpression (by decide +kernel), by decide +kernel, exists_tokens (by decide +kernel),
    by decide +kernel, by decide +kernel, hread.1, hread.2⟩

end ViewTree
