import ViewTree.Proofs.Building
import ViewTree.Proofs.Pasting.Choices
import ViewTree.Proofs.Pasting.Lines
import ViewTree.Proofs.Selection

/-!
The expression that the page of a chain is selected by. Main statement: if its conditions are cut alike
by the lexer and the grammar, it is read as the conditional expression that tests each of them in turn,
and gives the label that the first branch whose condition holds was added under
(`exists_readPage?_of_readSource`). Conditions that are not cut alike may leave a line that cannot be
read (`readPage?_eq_none_levelView`).
-/
namespace ViewTree
open Embedded Reader Text

namespace Branches

/-- The label of a branch as a tree. -/
def labelTerm (index : Nat) : Term := textTerm (toString index).toList

theorem toList_pageLabel (index : Nat) :
    (pageLabel index).toList = '"' :: ((toString index).toList ++ ['"']) := by
  rw [pageLabel, String.toList_append, String.toList_append]
  rfl

theorem isDigit_of_mem_label {index : Nat} {c : Char} (h : c ∈ (toString index).toList) :
    c.isDigit := by
  rw [Nat.toString_eq_repr, Nat.toList_repr] at h
  exact Nat.isDigit_of_mem_toDigits (by decide) (by decide) h

end Branches

namespace Embedded

/-- Characters that stand for themselves between quotes. -/
def isPlainChar (c : Char) : Bool := c ≠ '"' && c ≠ '\\' && c ≠ '\n' && c ≠ '\r'

theorem bodyLength?_of_plain {cs : List Char} (h : ∀ c ∈ cs, isPlainChar c) (behind : List Char) :
    bodyLength? '"' (cs ++ '"' :: behind) = some cs.length := by
  induction cs with
  | nil => rfl
  | cons c cs ih =>
    obtain ⟨hc, hcs⟩ := List.forall_mem_cons.mp h
    obtain ⟨⟨⟨hquote, hescape⟩, hfeed⟩, hreturn⟩ : ((c ≠ '"' ∧ c ≠ '\\') ∧ c ≠ '\n') ∧ c ≠ '\r' := by
      simpa [isPlainChar, and_assoc] using hc
    rw [List.cons_append, bodyLength?, if_neg (by simp [hfeed, hreturn]), if_neg hquote, ih hcs]
    · rfl
    · exact fun h _ => hescape h
    · exact fun _ _ h _ => hescape h

theorem unifyLineEnds_of_plain {cs : List Char} (h : ∀ c ∈ cs, isPlainChar c) :
    unifyLineEnds cs = cs := by
  induction cs with
  | nil => rfl
  | cons c cs ih =>
    obtain ⟨hc, hcs⟩ := List.forall_mem_cons.mp h
    have hreturn : c ≠ '\r' := by
      rintro rfl
      exact absurd hc (by decide)
    rw [unifyLineEnds, if_neg hreturn, ih hcs]
    rintro - rfl
    exact fun _ => hreturn rfl

/-- A text between quotes is one lexeme. -/
theorem lexeme?_of_plain {cs : List Char} (h : ∀ c ∈ cs, isPlainChar c) :
    lexeme? 0 ('"' :: (cs ++ ['"'])) = some (.string ⟨.ofLetters [], cs, 1⟩, cs.length + 2) := by
  have hshort : ['"', '"'].isPrefixOf (cs ++ ['"']) = false := by
    cases cs with
    | nil => rfl
    | cons c cs =>
      have hc : c ≠ '"' := by
        rintro rfl
        exact absurd (h '"' List.mem_cons_self) (by decide)
      have hfirst : ('"' == c) = false := beq_false_of_ne hc.symm
      show ('"' == c && _) = false
      rw [hfirst, Bool.false_and]
  have hstring : string? [] 0 ('"' :: (cs ++ ['"'])) =
      some (⟨.ofLetters [], cs, 1⟩, cs.length + 2) := by
    unfold string?
    dsimp only
    rw [hshort]
    simp only [Bool.false_eq_true, if_false, List.drop_one, List.tail_cons]
    rw [bodyLength?_of_plain h, Option.map_some, List.take_left, unifyLineEnds_of_plain h]
  have hlexeme : lexeme? 0 ('"' :: (cs ++ ['"'])) =
      (string? [] 0 ('"' :: (cs ++ ['"']))).map fun found => (.string found.1, found.2) := rfl
  rw [hlexeme, hstring]
  rfl

theorem IsOperand.mono {m n : Nat} {us : List Lexeme} {term : Term} (h : IsOperand m us term)
    (hle : m ≤ n) : IsOperand n us term :=
  ⟨h.noLambda, fun hn => h.reads (Nat.le_trans hle hn)⟩

end Embedded

namespace Branches

theorem isPlainChar_of_mem_label {index : Nat} {c : Char} (h : c ∈ (toString index).toList) :
    isPlainChar c := by
  have hdigit := isDigit_of_mem_label h
  have hother {d : Char} (hd : d.isDigit = false) : c ≠ d := fun hcd => by simp [hcd, hd] at hdigit
  simp [isPlainChar, hother (d := '"') rfl, hother (d := '\\') rfl, hother (d := '\n') rfl,
    hother (d := '\r') rfl]

/-- A label is scanned as one lexeme, which is an operand. -/
theorem exists_passes_label (index n offset : Nat) (fresh : Bool) :
    ∃ u stop, Passes ⟨offset, [], fresh⟩ (pageLabel index).toList [u] ⟨stop, [], false⟩ [] ∧
      IsOperand n [u] (labelTerm index) := by
  have hplain : ∀ c ∈ (toString index).toList, isPlainChar c := fun c => isPlainChar_of_mem_label
  obtain ⟨kind, hkind, hsame⟩ := exists_lexeme?_elsewhere (lexeme?_of_plain hplain) offset
  obtain ⟨s, rfl, hs⟩ : ∃ s, kind = .string s ∧
      s.unplaced = StringLiteral.unplaced ⟨.ofLetters [], (toString index).toList, 1⟩ := by
    cases kind with
    | string s => exact ⟨s, rfl, LexemeKind.string.inj hsame⟩
    | _ => cases hsame
  obtain ⟨marks, body, start⟩ := s
  obtain ⟨rfl, rfl⟩ : marks = .ofLetters [] ∧ body = (toString index).toList := by
    simpa [StringLiteral.unplaced] using hs
  have hdrop : ((toString index).toList ++ ['"']).drop ((toString index).toList.length + 2 - 1) = [] := by
    simp
  rw [toList_pageLabel]
  have hescape : '\\' ∉ (toString index).toList := fun hmem => absurd (hplain _ hmem) (by decide)
  refine ⟨_, offset + max 1 ((toString index).toList.length + 2),
    .lexeme (by decide) hkind rfl ?_,
    isOperand_of_string (s := ⟨.ofLetters [], (toString index).toList, start⟩) rfl rfl hescape n⟩
  rw [hdrop]
  exact .done _ _

theorem exists_readText?_label (index : Nat) :
    ∃ label, readText? (fun g _ => g.expression) (pageLabel index).toList = some label ∧
      label.unplaced = labelTerm index := by
  obtain ⟨u, stop, hu, hoperand⟩ := exists_passes_label index (pageLabel index).toList.length 0 true
  have hline : '\n' ∉ (pageLabel index).toList.getLast? := by
    rw [toList_pageLabel, List.getLast?_cons, List.getLast?_concat]
    decide
  have hroom : [u].length + 2 ≤ 3 := Nat.le_refl _
  obtain ⟨found, last, hfound, hsame⟩ := (IsChain.last hoperand).exists_expression (Nat.le_refl _)
    hroom (rfl : (⟨.lineEnd, stop, stop⟩ : Lexeme).kind = .lineEnd) [] 0
  refine ⟨found, ?_, hsame⟩
  unfold readText?
  rw [hu.scan_line hline]
  show (readAll? _ _ _).bind _ = _
  unfold readAll?
  dsimp only
  rw [show ([u] ++ [⟨.lineEnd, stop, stop⟩] : List Lexeme).length + 1 = 3 by rfl]
  show ((grammarAt _ 3).1.expression ⟨[u] ++ [⟨.lineEnd, stop, stop⟩], 0⟩).bind _ = _
  rw [hfound]
  rfl

/-- The conditional expression that gives the labels from the number on. -/
def pageTerm (index : Nat) : List Term → Term
  | [] => labelTerm index
  | test :: tests => .mk 0 0 (.choice test (labelTerm index) (pageTerm (index + 1) tests))

theorem unplaced_pageTerm (index : Nat) (tests : List Term) :
    (pageTerm index tests).unplaced = pageTerm index (tests.map Term.unplaced) := by
  induction tests generalizing index with
  | nil => rfl
  | cons test tests ih =>
    show Term.mk 0 0 (.choice test.unplaced _ _) = _
    rw [ih]
    rfl

def pageChars (index : Nat) : List Expr → List Char
  | [] => (pageLabel index).toList
  | e :: es => (pageLabel index).toList ++ ' ' :: ("if".toList ++ ' ' :: (grouped e.text ++
      ' ' :: ("else".toList ++ ' ' :: pageChars (index + 1) es)))

theorem toList_pageExpression (conditions : List Expr) :
    (pageExpression conditions).toList = pageChars 0 conditions := by
  have hchars (index : Nat) : (" ".intercalate ((conditions.zipIdx index).map
      (fun c => pageLabel c.2 ++ " if (" ++ c.1.text ++ ") else") ++
        [pageLabel (index + conditions.length)])).toList = pageChars index conditions := by
    induction conditions generalizing index with
    | nil => simp [pageChars]
    | cons e es ih =>
      have hlater := ih (index + 1)
      rw [Nat.add_right_comm, Nat.add_assoc, ← List.length_cons (a := e)] at hlater
      rw [List.zipIdx_cons, List.map_cons, List.cons_append]
      obtain ⟨next, more, hmore⟩ := List.exists_cons_of_ne_nil (l := (es.zipIdx (index + 1)).map
        (fun c => pageLabel c.2 ++ " if (" ++ c.1.text ++ ") else") ++
          [pageLabel (index + (e :: es).length)]) (by simp)
      rw [hmore, String.toList_intercalate] at hlater ⊢
      rw [List.map_cons] at hlater ⊢
      rw [List.map_cons, List.intercalate_cons_cons, hlater]
      simp [pageChars, grouped]
  have hall := hchars 0
  rw [Nat.zero_add] at hall
  exact hall

end Branches

/-- An expression that parentheses around it make a group. -/
structure Expr.IsGrouped (e : Expr) : Prop where
  group : IsGroup e.text
  noReturn : '\r' ∉ e.text.toList
  reads : readTerm? e.text = some e.term

/-- In parentheses it is scanned as an operand. -/
theorem Expr.IsGrouped.exists_passes {e : Expr} (h : e.IsGrouped) {n : Nat}
    (hn : (grouped e.text).length ≤ n) (offset : Nat) :
    ∃ us stop, Passes ⟨offset, [], false⟩ (grouped e.text) us ⟨stop, [], false⟩ [] ∧
      IsOperand n us e.term := by
  obtain ⟨inner, fresh, hscan, hnest, hpasses⟩ := h.group.exists_passes h.noReturn
  have hbetween : nestAll? ([] ++ [")"]) inner = some [")"] := hpasses.nestAll?_eq
  obtain ⟨us, ⟨stop, p, f⟩, hus, hp, hf, halike⟩ :=
    passesAs_grouped hpasses nofun hnest (by decide) hbetween
      (rfl : (⟨.symbol "(", 0, 1⟩ : Lexeme).kind = .symbol "(")
      (rfl : (⟨.symbol ")", e.text.length + 1, e.text.length + 2⟩ : Lexeme).kind = .symbol ")")
      offset false
  obtain rfl : p = [] := hp
  obtain rfl : f = false := hf
  exact ⟨us, stop, hus, (isOperand_of_group h.reads hscan rfl rfl hnest halike).mono hn⟩

namespace Branches

theorem isWord_if : Embedded.IsWord "if" (.keyword "if") :=
  ⟨by decide, by decide, rfl, fun _ => rfl⟩

theorem isWord_else : Embedded.IsWord "else" (.keyword "else") :=
  ⟨by decide, by decide, rfl, fun _ => rfl⟩

/-- The expression is scanned as a chain of operands. -/
theorem exists_passes_page {n : Nat} {es : List Expr} (h : ∀ e ∈ es, e.IsGrouped)
    (hn : ∀ e ∈ es, (grouped e.text).length ≤ n) (index offset : Nat) :
    ∃ ts stop, Passes ⟨offset, [], false⟩ (pageChars index es) ts ⟨stop, [], false⟩ [] ∧
      IsChain n (pageTerm index (es.map (·.term))) ts := by
  induction es generalizing index offset with
  | nil =>
    obtain ⟨u, stop, hu, hoperand⟩ := exists_passes_label index n offset false
    exact ⟨[u], stop, hu, .last hoperand⟩
  | cons e es ih =>
    obtain ⟨he, hes⟩ := List.forall_mem_cons.mp h
    obtain ⟨hne, hnes⟩ := List.forall_mem_cons.mp hn
    obtain ⟨u, o, hu, hlabel⟩ := exists_passes_label index n offset false
    obtain ⟨⟨o₁, p, f⟩, hif, rfl, rfl⟩ := passes_word isWord_if (o + 1) [] false
      (grouped e.text ++ ' ' :: ("else".toList ++ ' ' :: pageChars (index + 1) es))
    obtain ⟨us, o₂, hus, hgroup⟩ := he.exists_passes hne o₁
    obtain ⟨⟨o₃, p, f⟩, helse, rfl, rfl⟩ := passes_word isWord_else (o₂ + 1) [] false
      (pageChars (index + 1) es)
    obtain ⟨ts, stop, hts, hchain⟩ := ih hes hnes (index + 1) o₃
    have hblank {cs : List Char} {o : Nat} {ts : List Lexeme} {k : ScanPoint}
        (h : Passes ⟨o + 1, [], false⟩ cs ts k []) : Passes ⟨o, [], false⟩ (' ' :: cs) ts k [] :=
      .blank (.inl (.inl rfl)) h
    have hstops (cs : List Char) : Stops (' ' :: cs) := stops_cons (by decide) cs
    refine ⟨_, stop, (hu.append (hstops _)).trans (hblank (hif.trans
      ((hus.append (hstops _)).trans (hblank (helse.trans hts))))), ?_⟩
    exact .choice hlabel rfl hgroup rfl hchain

theorem length_le_pageChars {e : Expr} {es : List Expr} (h : e ∈ es) (index : Nat) :
    (grouped e.text).length ≤ (pageChars index es).length := by
  induction es generalizing index with
  | nil => nomatch h
  | cons first es ih =>
    simp only [pageChars, List.length_append, List.length_cons]
    rcases List.mem_cons.mp h with rfl | h
    · omega
    · have := ih h (index + 1)
      omega

theorem getLast?_pageChars (index : Nat) (es : List Expr) :
    (pageChars index es).getLast? = some '"' := by
  induction es generalizing index with
  | nil => rw [pageChars, toList_pageLabel, List.getLast?_cons, List.getLast?_concat]; rfl
  | cons e es ih => simp [pageChars, List.getLast?_append, List.getLast?_cons, ih]

/-- The line that assigns the page of a chain with these conditions. -/
def pageLine (conditions : List Expr) : String := pageLocal ++ " = " ++ pageExpression conditions

/-- The words in front of what is assigned, and the lexemes that they are. -/
def pageWords : List (String × LexemeKind) := [(pageLocal, .name pageLocal), ("=", .symbol "=")]

/-- Reads such a line, and gives what is assigned. -/
def readPage? (line : String) : Option Term :=
  readText? (fun g _ => do
    Slot.expectAll (pageWords.map (·.2))
    Slot.content g .value) line.toList

theorem isWord_of_mem_pageWords : ∀ w ∈ pageWords, Embedded.IsWord w.1 w.2 := by
  intro w hw
  rcases List.mem_pair.mp hw with rfl | rfl
  all_goals exact ⟨by decide, by decide, rfl, fun _ => rfl⟩

theorem toList_pageLine (conditions : List Expr) : (pageLine conditions).toList =
    (String.join (pageWords.map fun w => w.1 ++ " ")).toList ++ pageChars 0 conditions := by
  rw [pageLine, String.toList_append, toList_pageExpression]
  rfl

/-- If parentheses make groups of the conditions, the line is read as the assignment of a conditional
expression that tests them in turn. -/
theorem exists_readPage? {conditions : List Expr} (h : ∀ e ∈ conditions, e.IsGrouped) :
    ∃ found, readPage? (pageLine conditions) = some found ∧
      found.unplaced = pageTerm 0 (conditions.map (·.term.unplaced)) := by
  have hlength : ∀ e ∈ conditions, (grouped e.text).length ≤ (pageLine conditions).toList.length := by
    intro e he
    have := length_le_pageChars he 0
    rw [toList_pageLine, List.length_append]
    omega
  obtain ⟨ws, ⟨o, p, f⟩, hwords, hp, hf, hkinds⟩ :=
    passes_words isWord_of_mem_pageWords 0 [] true (pageChars 0 conditions)
  obtain rfl : p = [] := hp
  obtain rfl : f = false := hf
  obtain ⟨ts, stop, hts, hchain⟩ := exists_passes_page h hlength 0 o
  have hline : '\n' ∉ (pageLine conditions).toList.getLast? := by
    rw [toList_pageLine, List.getLast?_append, getLast?_pageChars]
    decide
  rw [← toList_pageLine] at hwords
  have hscan := (hwords.trans hts).scan_line hline
  rw [List.append_assoc] at hscan
  obtain ⟨ending, hending⟩ : ∃ t : Lexeme, t = ⟨.lineEnd, stop, stop⟩ := ⟨_, rfl⟩
  have hkind : ending.kind = .lineEnd := hending ▸ rfl
  rw [← hending] at hscan
  obtain ⟨last, hexpected⟩ := Slot.expectAll_eq hkinds (ts ++ [ending]) 0
  have hdepth : ts.length + 1 < (ws ++ (ts ++ [ending])).length + 1 := by
    have hlength : ws.length = pageWords.length := by simpa using congrArg List.length hkinds
    simp only [List.length_append, List.length_singleton]
    omega
  obtain ⟨found, last', hfound, hsame⟩ :=
    hchain.exists_expression (Nat.le_refl _) hdepth hkind [] last
  have hcontent := Slot.content_of_expression .value hkind hfound
  have hall : readAll? (readField (pageLine conditions).toList.length)
      (fun g _ => do
        Slot.expectAll (pageWords.map (·.2))
        Slot.content g .value) (ws ++ (ts ++ [ending])) = some (found, ⟨[ending], last'⟩) := by
    unfold readAll?
    dsimp only
    rw [bind_eq hexpected, hcontent]
  refine ⟨found, ?_, ?_⟩
  · unfold readPage? readText?
    rw [hscan, Option.bind_eq_bind, Option.bind_some, hall]
    show (if atEnd _ then _ else _) = _
    rw [if_pos (by simp [atEnd, hkind])]
    rfl
  · rw [hsame, unplaced_pageTerm, List.map_map]
    rfl

end Branches

namespace Embedded

/-- Which operand a conditional expression gives, where `holds` evaluates a test: of two operands only
the one that is chosen is looked at. -/
def Term.selected {m : Type → Type} [Monad m] (holds : Term → m Bool) : Term → m Term
  | .mk _ _ (.choice test body other) => do
    if ← holds test then body.selected holds else other.selected holds
  | t => pure t

end Embedded

namespace Branches

/-- The tests are made in their order, up to the first that holds; its label is selected, and the last
one if none holds. -/
theorem selected_pageTerm {m : Type → Type} [Monad m] [LawfulMonad m] (holds : Term → m Bool)
    (index : Nat) (tests : List Term) :
    (pageTerm index tests).selected holds =
      (fun first? => labelTerm (first?.elim (index + tests.length) (·.2))) <$>
        (tests.zipIdx index).findM? fun test => holds test.1 := by
  have hlabel (index : Nat) : (labelTerm index).selected holds = pure (labelTerm index) := by
    rw [labelTerm, textTerm, Term.selected]
    nofun
  induction tests generalizing index with
  | nil =>
    rw [pageTerm, hlabel]
    simp
  | cons test tests ih =>
    rw [pageTerm, Term.selected, List.zipIdx_cons, List.findM?, map_bind]
    refine bind_congr fun found => ?_
    cases found with
    | true => simp [hlabel]
    | false =>
      simp [ih, List.length_cons, Nat.add_assoc, Nat.add_comm 1]

end Branches

theorem Property.flatMap_exprs_assignAll (stem : String) (s : Naming) (ps : List Property) :
    (assignAll stem s ps).2.flatMap (·.payload.exprs) = ps.flatMap (·.payload.exprs) := by
  induction ps generalizing s with
  | nil => rfl
  | cons p ps ih =>
    obtain ⟨name, modifiers, place, payload⟩ := p
    have hpayload : (payload.assignNames stem s).2.exprs = payload.exprs := by
      cases payload <;> rfl
    simp only [assignAll, List.flatMap_cons, hpayload, ih]

theorem Branch.map_condition_assignAll (stem : String) (s : Naming) (bs : List Branch) :
    (assignAll stem s bs).2.map (·.condition) = bs.map (·.condition) := by
  induction bs generalizing s with
  | nil => rfl
  | cons b bs ih =>
    obtain ⟨condition, widget, place⟩ := b
    simp only [assignAll, List.map_cons, ih]

/-- Naming leaves the expressions of nodes alone. -/
theorem Node.isNameless_exprs : Node.IsNameless Node.exprs where
  widget stem s w := by
    obtain ⟨name, construction, isRoot, doc, place, properties⟩ := w
    simp only [Widget.assignNames, exprs, Property.flatMap_exprs_assignAll]
  choice stem s c := by
    obtain ⟨name, transition, doc, place, branches⟩ := c
    cases branches with
    | chain first others last lastPlace =>
      obtain ⟨condition, widget, firstPlace⟩ := first
      simp only [Choice.assignNames, Branches.assignNames, exprs, Branches.exprs, List.map_cons,
        Branch.map_condition_assignAll]
    | cases subject arms => rfl

/-- The expressions of the nodes of a component that is read were captured, when these are named too. -/
theorem Component.captured_of_readSource {settings : Settings} {source : String}
    {outcomes : List Outcome} (h : readSource? settings source = some outcomes) {o : Outcome}
    (ho : o ∈ outcomes) {c : Component} (hc : o.result = .ok c) {n : Node}
    (hn : n ∈ (c.assignNames settings).walk) : ∀ e ∈ n.exprs, e.Captured := by
  have hmem : n.exprs ∈ (c.assignNames settings).walk.map Node.exprs := List.mem_map_of_mem hn
  rw [map_walk_assignNames Node.isNameless_exprs] at hmem
  obtain ⟨m, hm, hsame⟩ := List.mem_map.mp hmem
  exact hsame ▸ ((sound_of_readSource h ho hc).nodes m hm).captured

theorem Statement.Selects.holds_pageLine {st : Statement} {choice : Choice} (h : st.Selects choice)
    {first : Branch} {others : List Branch} {last : Widget} {place : Place}
    (hchain : choice.branches = .chain first others last place) (settings : Settings) :
    (st.code settings).Holds (Branches.pageLine choice.branches.conditions) := by
  cases h with
  | first | again =>
    unfold Statement.code
    rw [hchain]
    exact (Code.holds_line _).append _

/-- Each branch is added under its label when the choice is built. -/
theorem Choice.exists_addPage {choice : Choice} {i : Nat} {w : Widget}
    (h : choice.branches.widgets[i]? = some w) (settings : Settings) :
    ∃ st ∈ (Node.choice choice).build, st.code settings = Code.line (Statement.callOf choice.name.text
      settings.addPageMethod (w.handle.code ++ ", " ++ pageLabel i)) := by
  refine ⟨.addPage choice.name.text w.handle i, ?_, rfl⟩
  rw [Node.build_choice]
  refine List.mem_cons_of_mem _ (List.mem_flatMap.mpr ⟨(w, i), ?_, ?_⟩)
  · exact List.mk_mem_zipIdx_iff_getElem?.mpr h
  · exact List.mem_append_right _ (List.mem_singleton_self _)

/-- Where a chain of a file chooses its page, at first or again, and its conditions are cut alike, the
assigned expression is read as a conditional expression that nests to the right: its tests are what
the conditions were accepted as, its values the labels that the branches are added under. So the tests
are made in their order up to the first that holds, and its label is selected, or that of the last
branch if none holds. -/
theorem exists_readPage?_of_readSource {settings : Settings} {source : String}
    {outcomes : List Outcome} (h : readSource? settings source = some outcomes) {o : Outcome}
    (ho : o ∈ outcomes) {c : Component} (hc : o.result = .ok c) {choice : Choice}
    (hchoice : .choice choice ∈ (c.assignNames settings).walk) {first : Branch} {others : List Branch}
    {last : Widget} {place : Place} (hchain : choice.branches = .chain first others last place)
    (halike : ∀ e ∈ choice.branches.conditions, CutsAlike e.text) :
    (∀ e ∈ choice.branches.conditions, readTerm? e.text = some e.term) ∧
      (∀ st : Statement, st.Selects choice →
        (st.code settings).Holds (Branches.pageLine choice.branches.conditions)) ∧
      choice.branches.widgets.length = choice.branches.conditions.length + 1 ∧
      (∀ i w, choice.branches.widgets[i]? = some w →
        (∃ st ∈ (Node.choice choice).build, st.code settings = Code.line (Statement.callOf
          choice.name.text settings.addPageMethod (w.handle.code ++ ", " ++ pageLabel i))) ∧
        ∃ label, readText? (fun g _ => g.expression) (pageLabel i).toList = some label ∧
          label.unplaced = Branches.labelTerm i) ∧
      ∃ found, Branches.readPage? (Branches.pageLine choice.branches.conditions) = some found ∧
        found.unplaced = Branches.pageTerm 0 (choice.branches.conditions.map (·.term.unplaced)) ∧
        ∀ {m : Type → Type} [Monad m] [LawfulMonad m] (holds : Term → m Bool),
          found.unplaced.selected holds =
            (fun first? => Branches.labelTerm
              (first?.elim choice.branches.conditions.length (·.2))) <$>
            (choice.branches.conditions.map (·.term.unplaced)).zipIdx.findM?
              fun test => holds test.1 := by
  have hcaptured := Component.captured_of_readSource h ho hc hchoice
  have hconditions : (Node.choice choice).exprs = choice.branches.conditions := by
    rw [Node.exprs, hchain]
    rfl
  rw [hconditions] at hcaptured
  have hgrouped : ∀ e ∈ choice.branches.conditions, e.IsGrouped := fun e he =>
    ⟨(hcaptured e he).nested.isGroup (hcaptured e he).reads (halike e he), (halike e he).noReturn,
      (hcaptured e he).reads.term⟩
  obtain ⟨found, hfound, hsame⟩ := Branches.exists_readPage? hgrouped
  refine ⟨fun e he => (hgrouped e he).reads, fun st hst => hst.holds_pageLine hchain settings, ?_,
    fun i w hw => ⟨Choice.exists_addPage hw settings, Branches.exists_readText?_label i⟩, found,
    hfound, hsame, fun holds => ?_⟩
  · rw [hchain]
    simp [Branches.widgets, Branches.conditions]
  · rw [hsame, Branches.selected_pageTerm]
    simp

/-- Once its nodes are named, a component of the file has a chain for which the test holds. -/
def holdsChain (source : String) [Spelled source] (test : Component → Choice → Bool) : Bool :=
  holdsComponent {} source fun c => (c.assignNames {}).walk.any fun n =>
    match n with
    | .choice choice => !choice.branches.conditions.isEmpty && test (c.assignNames {}) choice
    | .widget _ => false

theorem exists_of_holdsChain {source : String} [Spelled source] {test : Component → Choice → Bool}
    (h : holdsChain source test) :
    ∃ outcomes o c choice first others last place, readSource? {} source = some outcomes ∧
      o ∈ outcomes ∧ o.result = .ok c ∧ .choice choice ∈ (c.assignNames {}).walk ∧
        choice.branches = .chain first others last place ∧ test (c.assignNames {}) choice := by
  obtain ⟨outcomes, o, c, houtcomes, ho, hc, hany⟩ := exists_of_holdsComponent h
  obtain ⟨n, hn, hany⟩ := List.any_eq_true.mp hany
  cases n with
  | widget w => nomatch hany
  | choice choice =>
    obtain ⟨hsome, htest⟩ := Bool.and_eq_true_iff.mp hany
    cases hbranches : choice.branches with
    | chain first others last place =>
      exact ⟨outcomes, o, c, choice, first, others, last, place, houtcomes, ho, hc, hn, hbranches, htest⟩
    | cases subject arms =>
      rw [hbranches] at hsome
      nomatch hsome

/-- A view that shows one of three pages; a condition is a choice itself, and another one a pair. -/
def rangeView : String :=
  "view Range(model) \x7b\n  Gtk.Box \x7b\n    append = if model.low if model.ready else\n" ++
    "        model.high \x7b Gtk.Label \x7d elif model.low, model.high \x7b Gtk.Entry \x7d\n" ++
    "      else \x7b Gtk.Spinner \x7d,\n  \x7d,\n\x7d\n"

instance : Spelled rangeView := .append (.append .literal .literal) .literal

/-- Its chain selects the first page, then the second, and the third if no condition holds. -/
theorem exists_readPage?_rangeView : ∃ outcomes o c choice found,
    readSource? {} rangeView = some outcomes ∧ o ∈ outcomes ∧ o.result = .ok c ∧
      .choice choice ∈ (c.assignNames {}).walk ∧
      choice.branches.conditions.map (·.text) =
        ["model.low if model.ready else\n        model.high", "model.low, model.high"] ∧
      Branches.readPage? (Branches.pageLine choice.branches.conditions) = some found ∧
        found.unplaced = Branches.pageTerm 0 (choice.branches.conditions.map (·.term.unplaced)) := by
  have hheld : holdsChain rangeView fun _ choice => choice.branches.conditions.map (·.text) =
      ["model.low if model.ready else\n        model.high", "model.low, model.high"] := by
    decide +kernel
  obtain ⟨outcomes, o, c, choice, first, others, last, place, houtcomes, ho, hc, hchoice, hchain,
    htest⟩ := exists_of_holdsChain hheld
  have htexts := of_decide_eq_true htest
  have halike : ∀ e ∈ choice.branches.conditions, CutsAlike e.text := by
    intro e he
    have hmem : e.text ∈ choice.branches.conditions.map (·.text) := List.mem_map_of_mem he
    rw [htexts] at hmem
    rcases List.mem_pair.mp hmem with htext | htext
    all_goals exact htext ▸ cutsAlike_of_not_mem (by decide) (by decide)
  obtain ⟨-, -, -, -, found, hfound, hsame, -⟩ :=
    exists_readPage?_of_readSource houtcomes ho hc hchoice hchain halike
  exact ⟨outcomes, o, c, choice, found, houtcomes, ho, hc, hchoice, htexts, hfound, hsame⟩

/-- A view with a condition whose attributes are comments to the grammar. -/
def levelView : String :=
  "view Gauge(model) \x7b\n    Gtk.Box \x7b\n        if model.a #[ (\n ) if model.b else ( #[ )\n" ++
    " model.c \x7b\n            Gtk.Label,\n        \x7d else \x7b\n            Gtk.Spinner,\n" ++
    "        \x7d,\n    \x7d,\n\x7d\n"

instance : Spelled levelView := .append (.append .literal .literal) .literal

/-- The checks find no error in it, and the line that assigns its page cannot be read. -/
theorem readPage?_eq_none_levelView : ∃ outcomes o c choice first others last place,
    readSource? {} levelView = some outcomes ∧ o ∈ outcomes ∧ o.result = .ok c ∧
      ((c.assignNames {}).check {}).errors = [] ∧ .choice choice ∈ (c.assignNames {}).walk ∧
        choice.branches = .chain first others last place ∧
          Branches.pageLine choice.branches.conditions =
            "_page = \"0\" if (model.a #[ (\n ) if model.b else ( #[ )\n model.c) else \"1\"" ∧
          Branches.readPage? (Branches.pageLine choice.branches.conditions) = none := by
  have hheld : holdsChain levelView fun c choice => (c.check {}).errors.isEmpty &&
      Branches.pageLine choice.branches.conditions =
        "_page = \"0\" if (model.a #[ (\n ) if model.b else ( #[ )\n model.c) else \"1\"" &&
      (Branches.readPage? (Branches.pageLine choice.branches.conditions)).isNone := by
    decide +kernel
  obtain ⟨outcomes, o, c, choice, first, others, last, place, houtcomes, ho, hc, hchoice, hchain,
    htest⟩ := exists_of_holdsChain hheld
  simp only [Bool.and_eq_true, decide_eq_true_eq] at htest
  obtain ⟨⟨herrors, hline⟩, hnone⟩ := htest
  exact ⟨outcomes, o, c, choice, first, others, last, place, houtcomes, ho, hc,
    List.isEmpty_iff.mp herrors, hchoice, hchain, hline, Option.isNone_iff_eq_none.mp hnone⟩

end ViewTree
