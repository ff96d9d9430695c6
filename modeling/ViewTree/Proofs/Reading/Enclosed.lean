import ViewTree.Proofs.Reading.Files

/-!
Expressions in parentheses. A text is accepted if it reads as an expression between parentheses, and
that alone does not tell whether the one parenthesis closes the other. Main statements: for texts that
the lexer and the grammar cut alike it does, if they were found by their brackets
(`isGroup_of_readSource`); the text of a string literal was not, and it may be none
(`not_isGroup_trackedView`).
-/
namespace ViewTree
open Embedded

/-- The lexer and the grammar see the same comments and line ends in the text: no attribute opens in
it, and no carriage return ends a line of it. -/
structure CutsAlike (text : String) : Prop where
  noAttribute : ¬['#', '['] <:+: text.toList
  noReturn : '\r' ∉ text.toList

theorem cutsAlike_of_not_mem {text : String} (hmark : '#' ∉ text.toList)
    (hreturn : '\r' ∉ text.toList) : CutsAlike text :=
  ⟨fun h => hmark (h.subset List.mem_cons_self), hreturn⟩

/-- A text whose tokens close no bracket that they have not opened is a group. -/
theorem IsNested.isGroup {e : Expr} (h : IsNested e.text) (hreads : e.Reads)
    (halike : CutsAlike e.text) : IsGroup e.text := by
  obtain ⟨p, ts, depth, hrun, hdepth⟩ := h
  have hkinds : ∀ t ∈ ts.items, t.kind ≠ .attrOpen := fun t ht hkind =>
    halike.noAttribute (Lexer.infix_of_attrOpen hrun ⟨t, ht, hkind⟩)
  exact isGroup_of_readTerm? hreads.term halike.noReturn hrun hkinds hdepth

/-- The parentheses around an expression of a file close each other: around any that was found by its
brackets, and around one of a modifier unless it stands in a string literal. -/
theorem isGroup_of_readSource {settings : Settings} {source : String} {outcomes : List Outcome}
    (h : readSource? settings source = some outcomes) {o : Outcome} (ho : o ∈ outcomes)
    {c : Component} (hc : o.result = .ok c) {n : Node} (hn : n ∈ c.walk) :
    (∀ e ∈ n.exprs, CutsAlike e.text → IsGroup e.text) ∧
      ∀ e ∈ n.modifierExprs, CutsAlike e.text → IsGroup e.text ∨ IsQuoted source.toList e.text := by
  have hsound := (Component.sound_of_readSource h ho hc).nodes n hn
  refine ⟨fun e he halike => ?_, fun e he halike => ?_⟩
  · have hcaptured := hsound.captured e he
    exact hcaptured.nested.isGroup hcaptured.reads halike
  · have hmodifier := hsound.modifiers e he
    exact hmodifier.origin.imp_left fun hnested => hnested.isGroup hmodifier.reads halike

/-- The file has a component with a node among whose expressions the text is. -/
def holdsExpr (source : String) [Spelled source] (exprs : Node → List Expr) (text : String) : Bool :=
  holdsComponent {} source fun c => c.walk.any fun n => (exprs n).any fun e => e.text = text

theorem exists_of_holdsExpr {source text : String} [Spelled source] {exprs : Node → List Expr}
    (h : holdsExpr source exprs text) : ∃ outcomes o c n e, readSource? {} source = some outcomes ∧
      o ∈ outcomes ∧ o.result = .ok c ∧ n ∈ c.walk ∧ e ∈ exprs n ∧ e.text = text := by
  obtain ⟨outcomes, o, c, houtcomes, ho, hc, hany⟩ := exists_of_holdsComponent h
  obtain ⟨n, hn, hany⟩ := List.any_eq_true.mp hany
  obtain ⟨e, he, htext⟩ := List.any_eq_true.mp hany
  exact ⟨outcomes, o, c, n, e, houtcomes, ho, hc, hn, he, of_decide_eq_true htext⟩

/-- A view with a value of several lines, and a condition that may be put together wrongly. -/
def meterView : String :=
  "view Meter(model) tracked \x7b\n  Gtk.Label \x7b\n    #[track((model.low) or (\n" ++
    "      model.high))]\n    set_label: lambda x: (x,\n      model.name),\n  \x7d,\n\x7d\n"

instance : Spelled meterView := .append .literal .literal

theorem isGroup_meterView :
    (∃ outcomes o c n e, readSource? {} meterView = some outcomes ∧ o ∈ outcomes ∧
      o.result = .ok c ∧ n ∈ c.walk ∧ e ∈ n.exprs ∧
        e.text = "lambda x: (x,\n      model.name)" ∧ IsGroup e.text) ∧
    ∃ outcomes o c n e, readSource? {} meterView = some outcomes ∧ o ∈ outcomes ∧
      o.result = .ok c ∧ n ∈ c.walk ∧ e ∈ n.modifierExprs ∧
        e.text = "(model.low) or (\n      model.high)" ∧
          (IsGroup e.text ∨ IsQuoted meterView.toList e.text) := by
  have hvalue : holdsExpr meterView Node.exprs "lambda x: (x,\n      model.name)" := by decide +kernel
  have hcondition : holdsExpr meterView Node.modifierExprs "(model.low) or (\n      model.high)" := by
    decide +kernel
  have halike : CutsAlike "lambda x: (x,\n      model.name)" ∧
      CutsAlike "(model.low) or (\n      model.high)" :=
    ⟨cutsAlike_of_not_mem (by decide) (by decide), cutsAlike_of_not_mem (by decide) (by decide)⟩
  obtain ⟨outcomes, o, c, n, e, houtcomes, ho, hc, hn, he, htext⟩ := exists_of_holdsExpr hvalue
  obtain ⟨outcomes', o', c', n', e', houtcomes', ho', hc', hn', he', htext'⟩ :=
    exists_of_holdsExpr hcondition
  exact ⟨⟨outcomes, o, c, n, e, houtcomes, ho, hc, hn, he, htext,
      (isGroup_of_readSource houtcomes ho hc hn).1 e he (htext ▸ halike.1)⟩,
    ⟨outcomes', o', c', n', e', houtcomes', ho', hc', hn', he', htext',
      (isGroup_of_readSource houtcomes' ho' hc' hn').2 e' he' (htext' ▸ halike.2)⟩⟩

/-- A view whose condition stands in a string literal and closes a parenthesis around it. -/
def trackedView : String :=
  "view Meter(model) tracked \x7b\n  Gtk.Label \x7b\n    #[track = \"a) or (b\"]\n" ++
    "    set_label: model.name,\n  \x7d,\n\x7d\n"

instance : Spelled trackedView := .append .literal .literal

theorem not_isGroup_trackedView : ∃ outcomes o c n e, readSource? {} trackedView = some outcomes ∧
    o ∈ outcomes ∧ o.result = .ok c ∧ n ∈ c.walk ∧ e ∈ n.modifierExprs ∧ CutsAlike e.text ∧
      ¬IsGroup e.text := by
  have hheld : holdsExpr trackedView Node.modifierExprs "a) or (b" := by decide +kernel
  obtain ⟨outcomes, o, c, n, e, houtcomes, ho, hc, hn, he, htext⟩ := exists_of_holdsExpr hheld
  refine ⟨outcomes, o, c, n, e, houtcomes, ho, hc, hn, he, ?_, ?_⟩
  · exact htext ▸ cutsAlike_of_not_mem (by decide) (by decide)
  rw [htext]
  rintro ⟨inner, hscan, hinner⟩
  have hclosed : ((scan (grouped "a) or (b")).bind fun ts =>
      nestAll? [] ts.tail.dropLast.dropLast) = none := by decide +kernel
  have hsplit (x y : Lexeme) : (inner ++ [x, y]).dropLast.dropLast = inner := by
    rw [List.append_cons inner x, List.dropLast_concat, List.dropLast_concat]
  rw [hscan, Option.bind_some, List.cons_append, List.tail_cons, hsplit, hinner] at hclosed
  nomatch hclosed

end ViewTree
