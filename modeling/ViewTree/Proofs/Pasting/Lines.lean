import ViewTree.Proofs.Pasting.Arguments
import ViewTree.Proofs.Reading.Enclosed

/-!
Expressions of a file on the lines of its generated code. Main statements: an expression that is put
into parentheses, or needs none, is read on each such line as the tree that it was accepted as
(`exists_read?_of_readSource`); one that needs them and gets none may end up on a line that cannot be
read (`read?_eq_none_assigningView`).
-/
namespace ViewTree
open Embedded

theorem Row.indent_indent (row : Row) (m n : Nat) : (row.indent m).indent n = row.indent (m + n) := by
  cases row with
  | placed level text => exact congrArg (Row.placed · text) (Nat.add_assoc level m n)
  | verbatim text => rfl

namespace Code

def Holds (code : Code) (text : String) : Prop := ∃ level, (line text).indent level <:+: code

variable {code : Code} {text : String}

theorem holds_line (text : String) : (line text).Holds text := by
  have hrow (row : Row) : row.indent 0 = row := by cases row <;> rfl
  have hline : (line text).indent 0 = line text := by
    rw [indent, List.map_congr_left fun row _ => hrow row, List.map_id']
  exact ⟨0, hline.symm ▸ List.infix_rfl⟩

theorem Holds.append (h : code.Holds text) (more : Code) : Holds (code ++ more) text := by
  obtain ⟨level, h⟩ := h
  exact ⟨level, h.trans (List.prefix_append code more).isInfix⟩

theorem Holds.behind (h : code.Holds text) (before : Code) : Holds (before ++ code) text := by
  obtain ⟨level, h⟩ := h
  exact ⟨level, h.trans (List.suffix_append before code).isInfix⟩

theorem Holds.indent (h : code.Holds text) (levels : Nat) : (code.indent levels).Holds text := by
  obtain ⟨level, h⟩ := h
  refine ⟨level + levels, ?_⟩
  have hindent : (Code.indent level (line text)).indent levels = (line text).indent (level + levels) := by
    simp only [Code.indent, List.map_map]
    exact List.map_congr_left fun row _ => row.indent_indent level levels
  rw [← hindent]
  exact h.map _

theorem holds_block (header : String) (body : Code) : (block header body).Holds header :=
  (holds_line header).append _

theorem Holds.inBlock (h : code.Holds text) (header : String) : (block header code).Holds text :=
  (h.indent 1).behind _

end Code

/-- The values that are pasted without parentheses, and the slots that they get. -/
def Application.slots (a : Application) : List (Slot × Expr) :=
  if a.optional then [(.value, a.value)] else if a.iterate then [(.items, a.value)] else []

def Branches.slots : Branches → List (Slot × Expr)
  | .chain .. => []
  | .cases subject _ => [(.subject, subject)]

def Trigger.slots : Trigger → List (Slot × Expr)
  | .written condition => [(.condition, condition)]
  | .changed .. => []

namespace Statement

/-- The expressions that are pasted without parentheses, and the slots that they get. -/
def slots : Statement → List (Slot × Expr)
  | apply application => application.slots
  | choosePage _ branches | switchPage _ _ branches => branches.slots
  | refresh trigger _ application => trigger.toList.flatMap Trigger.slots ++ application.slots
  | _ => []

/-- Arguments that expressions are pasted among: captured values, and those behind a child. -/
def argumentCodes : Statement → List (List String)
  | connect _ _ callback _ =>
    if callback.captures.isEmpty then [] else [callback.captures.map Capture.code]
  | attach _ _ child (some e) =>
    if e.isTuple || e.code = "" then [] else [[child.code, e.code]]
  | _ => []

end Statement

namespace Slot
variable (code : String)

theorem line_value : value.line code = valueLocal ++ " = " ++ code := by
  have hwords : String.join (value.words.map fun w => w.1 ++ " ") = valueLocal ++ " = " := by decide
  rw [line, hwords]
  exact String.append_empty

theorem line_items : items.line code = "for " ++ itemLocal ++ " in " ++ code ++ ":" := by
  have hwords : String.join (items.words.map fun w => w.1 ++ " ") = "for " ++ itemLocal ++ " in " := by
    decide
  rw [line, hwords]
  rfl

theorem line_condition : condition.line code = "if " ++ code ++ ":" := by
  have hwords : String.join (condition.words.map fun w => w.1 ++ " ") = "if " := by decide
  rw [line, hwords]
  rfl

theorem line_subject : subject.line code = "match " ++ code ++ ":" := by
  have hwords : String.join (subject.words.map fun w => w.1 ++ " ") = "match " := by decide
  rw [line, hwords]
  rfl

end Slot

theorem Application.holds_of_slots {a : Application} {s : Slot} {e : Expr} (h : (s, e) ∈ a.slots) :
    a.code.Holds (s.line e.code) := by
  unfold slots at h
  unfold code
  split at h
  · next hoptional =>
    obtain ⟨rfl, rfl⟩ := Prod.mk.inj (List.mem_singleton.mp h)
    rw [if_pos hoptional, Slot.line_value]
    exact (Code.holds_line _).append _
  next hoptional =>
  split at h
  · next hiterate =>
    obtain ⟨rfl, rfl⟩ := Prod.mk.inj (List.mem_singleton.mp h)
    rw [if_neg hoptional, if_pos hiterate, Slot.line_items]
    exact Code.holds_block _ _
  · nomatch h

theorem Branches.holds_of_slots {b : Branches} {s : Slot} {e : Expr} (h : (s, e) ∈ b.slots)
    (fallback : String) : (b.selectionOr fallback).Holds (s.line e.code) := by
  cases b with
  | chain => nomatch h
  | cases subject arms =>
    obtain ⟨rfl, rfl⟩ := Prod.mk.inj (List.mem_singleton.mp h)
    rw [Slot.line_subject]
    exact (Code.holds_block _ _).behind _

namespace Statement
variable {settings : Settings} {st : Statement}

/-- Each slot is on a line of the statement. -/
theorem holds_of_slots {s : Slot} {e : Expr} (h : (s, e) ∈ st.slots) :
    (st.code settings).Holds (s.line e.code) := by
  cases st with
  | apply a => exact Application.holds_of_slots h
  | choosePage _ branches | switchPage _ _ branches => exact (branches.holds_of_slots h _).append _
  | refresh trigger blocked a =>
    have hbody : (s, e) ∈ a.slots → (refreshCode settings blocked a).Holds (s.line e.code) := fun h =>
      ((Application.holds_of_slots h).behind _).append _
    cases trigger with
    | none => exact hbody h
    | some trigger =>
      rcases List.mem_append.mp h with h | h
      · cases trigger with
        | written condition =>
          obtain ⟨rfl, rfl⟩ := Prod.mk.inj (List.mem_singleton.mp h)
          rw [Slot.line_condition]
          exact Code.holds_block _ _
        | changed => nomatch h
      · exact (hbody h).inBlock _
  | _ => nomatch h

theorem attachedArguments_eq {child : Handle} {e : Expr} (htuple : e.isTuple = false)
    (hsome : e.code ≠ "") : attachedArguments child (some e) = child.code ++ ", " ++ e.code := by
  unfold attachedArguments
  rw [Option.map_some, e.arguments_eq_code htuple]
  split
  · next h => nomatch h
  · next h => exact absurd (Option.some.inj h) hsome
  · next more h => rw [Option.some.inj h]

theorem exists_callback_code (settings : Settings) {c : Callback} (h : c.captures.isEmpty = false) :
    ∃ before, c.code settings = before ++ argumentList (c.captures.map Capture.code) := by
  refine ⟨"(lambda " ++ ", ".intercalate (c.captures.map (·.name)) ++ ": " ++
    Callback.Reaction.code settings c.reaction ++ ")", ?_⟩
  unfold Callback.code argumentList
  rw [h, if_neg nofun]
  have hjoint : ")(" = ")" ++ "(" := by decide
  simp only [hjoint, String.append_assoc]

/-- The arguments are in the parentheses of a call on the statement's only line. -/
theorem exists_code_of_argumentCodes {codes : List String} (h : codes ∈ st.argumentCodes) :
    ∃ before behind, st.code settings = Code.line (before ++ argumentList codes ++ behind) := by
  cases st with
  | connect target signal callback guard =>
    unfold argumentCodes at h
    dsimp only at h
    split at h
    · cases h
    next hcaptures =>
    obtain rfl := List.mem_singleton.mp h
    obtain ⟨before, hcode⟩ := exists_callback_code settings (eq_false_of_ne_true hcaptures)
    have hregistration : ∃ front, callOf target.code settings.connectMethod
        ("\"" ++ signal ++ "\", " ++ callback.code settings) =
          front ++ argumentList (callback.captures.map Capture.code) ++ ")" := by
      refine ⟨target.code ++ "." ++ settings.connectMethod ++ "(" ++ "\"" ++ signal ++ "\", " ++ before, ?_⟩
      simp only [callOf, hcode, String.append_assoc]
    obtain ⟨front, hregistration⟩ := hregistration
    cases guard with
    | none => exact ⟨front, ")", congrArg Code.line hregistration⟩
    | some guard =>
      refine ⟨guard ++ " = " ++ front, ")", congrArg Code.line ?_⟩
      show guard ++ " = " ++ callOf _ _ _ = _
      rw [hregistration]
      simp only [String.append_assoc]
  | attach target method child arguments =>
    cases arguments with
    | none => cases h
    | some e =>
      unfold argumentCodes at h
      dsimp only at h
      split at h
      · cases h
      next hplain =>
      obtain rfl := List.mem_singleton.mp h
      obtain ⟨htuple, hsome⟩ : e.isTuple = false ∧ e.code ≠ "" := by simpa using hplain
      refine ⟨target.code ++ "." ++ method, "", congrArg Code.line ?_⟩
      rw [attachedArguments_eq htuple hsome]
      have hcodes : ", ".intercalate [child.code, e.code] = child.code ++ ", " ++ e.code := rfl
      simp only [callOf, argumentList, hcodes, String.append_assoc, String.append_empty]
  | _ => cases h

end Statement
/-- An expression of a file that is put into parentheses, or needs none, is read on all lines that it
is pasted to without other parentheses: in a slot as the tree that it is between parentheses, and
among arguments as one of them, if its brackets and those around it are not too many. -/
theorem exists_read?_of_readSource {settings : Settings} {source : String} {outcomes : List Outcome}
    (h : readSource? settings source = some outcomes) {o : Outcome} (ho : o ∈ outcomes)
    {c : Component} (hc : o.result = .ok c) {n : Node} (hn : n ∈ c.walk) {e : Expr}
    (he : e ∈ n.exprs ∨ e ∈ n.modifierExprs ∧ ¬IsQuoted source.toList e.text)
    (halike : CutsAlike e.text) (halone : StandsAlone e.text e.term) (st : Statement) :
    readTerm? e.text = some e.term ∧
      (∀ s, (s, e) ∈ st.slots → (st.code settings).Holds (s.line e.code) ∧
        ∃ found, s.read? (s.line e.code) = some found ∧ found.unplaced = e.term.unplaced) ∧
      ∀ args : List Expr, args.map Expr.code ∈ st.argumentCodes → e ∈ args → Fits e.text →
        (∀ a ∈ args, a ≠ e → a.IsArgument) →
        (∃ before behind, st.code settings =
          Code.line (before ++ argumentList (args.map Expr.code) ++ behind)) ∧
        ∃ found, readArguments? (argumentList (args.map Expr.code)) = some found ∧
          found.unplaced = ⟨args.map (·.term.unplaced), [], false⟩ := by
  have hsound := (Component.sound_of_readSource h ho hc).nodes n hn
  have hgroup : IsGroup e.text ∧ e.Reads := by
    rcases he with he | ⟨he, hquoted⟩
    · have hcaptured := hsound.captured e he
      exact ⟨hcaptured.nested.isGroup hcaptured.reads halike, hcaptured.reads⟩
    · have hmodifier := hsound.modifiers e he
      have hnested := hmodifier.origin.resolve_right hquoted
      exact ⟨hnested.isGroup hmodifier.reads halike, hmodifier.reads⟩
  have hinline : IsInline e.text e.term := ⟨hgroup.1, halike.noReturn, hgroup.2.term, halone⟩
  refine ⟨hgroup.2.term, fun s hslot => ⟨Statement.holds_of_slots hslot, s.exists_read?_line hinline⟩,
    fun args hcodes hmem hfits hothers => ⟨Statement.exists_code_of_argumentCodes hcodes, ?_⟩⟩
  have hall : ∀ a ∈ args, a.IsArgument := by
    intro a ha
    by_cases hsame : a = e
    · exact hsame ▸ ⟨hinline, hfits⟩
    · exact hothers a ha hsame
  cases args with
  | nil => nomatch hmem
  | cons first more => exact exists_readArguments? hall

/-- A view with a value of several lines that may be missing. -/
def dialView : String :=
  "view Dial(model) \x7b\n  Gtk.Label \x7b\n    set_label?: model.name if model.ready else\n" ++
    "      model.title,\n  \x7d,\n\x7d\n"

instance : Spelled dialView := .append .literal .literal

theorem exists_read?_dialView : ∃ outcomes o c n e, readSource? {} dialView = some outcomes ∧
    o ∈ outcomes ∧ o.result = .ok c ∧ n ∈ c.walk ∧ e ∈ n.exprs ∧
      e.text = "model.name if model.ready else\n      model.title" ∧
        ∃ found, Slot.value.read? (Slot.value.line e.code) = some found ∧
          found.unplaced = e.term.unplaced := by
  have hheld : holdsExpr dialView Node.exprs "model.name if model.ready else\n      model.title" := by
    decide +kernel
  obtain ⟨outcomes, o, c, n, e, houtcomes, ho, hc, hn, he, htext⟩ := exists_of_holdsExpr hheld
  have halike : CutsAlike e.text := htext ▸ cutsAlike_of_not_mem (by decide) (by decide)
  have halone : StandsAlone e.text e.term := .inl (htext ▸ by decide)
  have hslot : (Slot.value, e) ∈ (Statement.apply ⟨⟨"label_0", false⟩, "set_label", e, [], true,
      false⟩).slots := List.mem_singleton_self _
  exact ⟨outcomes, o, c, n, e, houtcomes, ho, hc, hn, he, htext,
    ((exists_read?_of_readSource houtcomes ho hc hn (.inl he) halike halone _).2.1 _ hslot).2⟩

/-- A view with a value that binds a name, which takes parentheses that it does not get. -/
def assigningView : String :=
  "view Gauge(model) \x7b\n  Gtk.Label \x7b\n    set_label?: text := model.name,\n  \x7d,\n\x7d\n"

instance : Spelled assigningView := .literal

/-- The line that assigns the value cannot be read. -/
theorem read?_eq_none_assigningView : ∃ outcomes o c n e, readSource? {} assigningView = some outcomes ∧
    o ∈ outcomes ∧ o.result = .ok c ∧ n ∈ c.walk ∧ e ∈ n.exprs ∧ CutsAlike e.text ∧
      Slot.value.line e.code = "_value = text := model.name" ∧
        Slot.value.read? (Slot.value.line e.code) = none := by
  have hheld : holdsExpr assigningView Node.exprs "text := model.name" := by decide +kernel
  obtain ⟨outcomes, o, c, n, e, houtcomes, ho, hc, hn, he, htext⟩ := exists_of_holdsExpr hheld
  have hline : Slot.value.line e.code = "_value = text := model.name" := by
    rw [Slot.line_value, Expr.code, htext]
    decide
  refine ⟨outcomes, o, c, n, e, houtcomes, ho, hc, hn, he, ?_, hline, ?_⟩
  · exact htext ▸ cutsAlike_of_not_mem (by decide) (by decide)
  · rw [hline]
    exact Option.isNone_iff_eq_none.mp (by decide +kernel)

end ViewTree
