import ViewTree.Proofs.Relocation.Attributes

/-!
Readers of nodes at two places. Main statement: nested nodes are read alike at both, to any depth
(`Placement.nested_nodeReaders`).
-/
namespace ViewTree
open TreeReader

namespace Placement

variable {m : Placement}

def arm (m : Placement) (a : CaseArm × Token) : CaseArm × Token :=
  (a.1.mapPlaces m.place, m.token a.2)

theorem agree_armsProblem (start : Token) (subject : Expr) (arms : List (CaseArm × Token)) :
    m.Maps (Branches.mapPlaces m.place)
      (match Embedded.armsProblem? (arms.map (·.1.pattern.arm)) with
        | some (i, problem) => failAt (.invalidArms problem) ((arms[i]?.map (·.2)).getD start)
        | none => pure (.cases subject (arms.map (·.1))))
      (match Embedded.armsProblem? ((arms.map m.arm).map (·.1.pattern.arm)) with
        | some (i, problem) =>
          failAt (.invalidArms problem) (((arms.map m.arm)[i]?.map (·.2)).getD (m.token start))
        | none => pure (.cases (subject.mapPlaces m.place) ((arms.map m.arm).map (·.1)))) := by
  have hpatterns : (arms.map m.arm).map (·.1.pattern.arm) =
      arms.map (·.1.pattern.arm) := by
    rw [List.map_map]
    exact List.map_congr_left fun (⟨pattern, widget⟩, start) _ => rfl
  rw [hpatterns]
  cases Embedded.armsProblem? (arms.map (·.1.pattern.arm)) with
  | some found =>
    obtain ⟨i, problem⟩ := found
    have htoken : ((arms.map m.arm)[i]?.map (·.2)).getD (m.token start) =
        m.token ((arms[i]?.map (·.2)).getD start) := by
      rw [List.getElem?_map]
      cases arms[i]? <;> rfl
    dsimp only
    rw [htoken]
    exact agree_failAt _ _
  | none =>
    refine agree_pure ?_
    rw [Branches.mapPlaces, CaseArm.mapAll_eq, List.map_map, List.map_map]
    rfl

/-- The readers that recursion goes through do the same at both places. -/
structure Nested (m : Placement) (r : NodeReaders) : Prop where
  widget : ∀ l written, m.Maps (Widget.mapPlaces m.place) (r.widget l written)
    (r.widget (m.lead l) written)
  choice : ∀ l written, m.Maps (Choice.mapPlaces m.place) (r.choice l written)
    (r.choice (m.lead l) written)

namespace Nested
variable {r : NodeReaders} (h : m.Nested r)
include h

theorem tree : m.Maps (Widget.mapPlaces m.place) r.tree r.tree := by
  unfold NodeReaders.tree
  refine agree_lead.bind ?_
  rintro l _ rfl
  obtain ⟨node, properties, doc⟩ := l
  cases properties with
  | cons a more => exact agree_failAt _ a.token
  | nil =>
    refine (fixes_isNext .ifWord).bind ?_
    rintro isIf _ rfl
    refine (fixes_isNext .matchWord).bind ?_
    rintro isMatch _ rfl
    refine Agree.ite (fun _ => agree_fail_bind _) fun _ => ?_
    exact h.widget ⟨node, [], doc⟩ none

theorem branchBody (bare : Bool) : m.Maps (Widget.mapPlaces m.place) (r.branchBody bare)
    (r.branchBody bare) := by
  unfold NodeReaders.branchBody
  refine agree_current.bind ?_
  rintro opening _ rfl
  refine (fixes_accept .lbrace).bind ?_
  rintro opened _ rfl
  refine Agree.ite (fun _ => ?_) fun _ => ?_
  · refine h.tree.bind ?_
    rintro w _ rfl
    refine (fixes_accept .comma).bind fun _ _ _ => ?_
    refine agree_current.bind ?_
    rintro t _ rfl
    extract_lets rest rest'
    have hrest : m.Maps (Widget.mapPlaces m.place) (rest ()) (rest' ()) :=
      agree_advance.bind fun _ _ _ => agree_pure rfl
    refine Agree.ite (fun _ => ?_) fun _ => hrest
    have htoken : (if (m.token t).kind = .eof then m.token opening else m.token t) =
        m.token (if t.kind = .eof then opening else t) := (apply_ite m.token _ opening t).symm
    rw [htoken]
    exact agree_failAt_bind _ _
  · exact Agree.ite (fun _ => h.tree) fun _ => agree_fail _

theorem branch (start : Token) : m.Maps (Branch.mapPlaces m.place) (r.branch start)
    (r.branch (m.token start)) := by
  unfold NodeReaders.branch
  refine (agree_captureExpression _ _ _).bind ?_
  rintro condition _ rfl
  refine (h.branchBody false).bind ?_
  rintro w _ rfl
  exact agree_pure rfl

theorem chain : m.Maps (Branches.mapPlaces m.place) r.chain r.chain := by
  unfold NodeReaders.chain
  refine (agree_expect .ifWord).bind ?_
  rintro t _ rfl
  refine (h.branch t).bind ?_
  rintro first _ rfl
  refine (agree_repeating (S := fun s t => t = s.map (Branch.mapPlaces m.place)) ?_ rfl).bind ?_
  · rintro others _ rfl
    refine agree_current.bind ?_
    rintro start _ rfl
    refine (agree_ahead 1).bind ?_
    rintro next _ rfl
    refine Agree.ite (fun _ => ?_) fun _ => agree_pure .none
    refine (fixes_accept .elseWord).bind fun _ _ _ => ?_
    refine agree_advance.bind fun _ _ _ => ?_
    refine (h.branch start).bind ?_
    rintro b _ rfl
    exact agree_pure (.some rfl)
  · rintro others _ rfl
    refine agree_current.bind ?_
    rintro start _ rfl
    refine (fixes_accept .elseWord).bind ?_
    rintro isElse _ rfl
    refine Agree.ite (fun _ => ?_) fun _ => agree_failAt _ start
    refine (h.branchBody false).bind ?_
    rintro last _ rfl
    refine agree_pure ?_
    rw [Branches.mapPlaces, Branch.mapAll_eq, List.map_reverse]
    rfl

theorem caseArm : m.Maps m.arm r.caseArm r.caseArm := by
  unfold NodeReaders.caseArm
  refine agree_current.bind ?_
  rintro start _ rfl
  refine agree_capturePattern.bind ?_
  rintro pattern _ rfl
  refine (agree_expect .fatArrow).bind fun _ _ _ => ?_
  refine (h.branchBody true).bind ?_
  rintro w _ rfl
  exact agree_pure rfl

theorem cases : m.Maps (Branches.mapPlaces m.place) r.cases r.cases := by
  unfold NodeReaders.cases
  refine (agree_expect .matchWord).bind ?_
  rintro start _ rfl
  refine (agree_captureExpression _ _ _).bind ?_
  rintro subject _ rfl
  refine (agree_expect .lbrace).bind ?_
  rintro opening _ rfl
  refine (agree_block h.caseArm opening).bind ?_
  rintro arms _ rfl
  cases arms with
  | nil => exact agree_failAt _ start
  | cons arm arms => exact agree_armsProblem start subject (arm :: arms)

theorem choiceOf (l : Lead) (written : Option WrittenName) :
    m.Maps (Choice.mapPlaces m.place) (r.choiceOf l written) (r.choiceOf (m.lead l) written) := by
  unfold NodeReaders.choiceOf
  refine agree_current.bind ?_
  rintro start _ rfl
  have hfind : (m.lead l).node.find? (·.kind ≠ .name) =
      (l.node.find? (·.kind ≠ .name)).map m.mark := List.find?_map
  rw [hfind]
  cases l.node.find? (·.kind ≠ .name) with
  | some a => exact agree_failAt _ a.token
  | none =>
    refine (agree_find? .name l.node).bind ?_
    rintro named _ rfl
    refine (agree_nodeName true named written).bind ?_
    rintro name _ rfl
    refine (fixes_isNext .ifWord).bind ?_
    rintro isIf _ rfl
    extract_lets finish finish'
    have hfinish (b : Branches) : m.Maps (Choice.mapPlaces m.place) (finish b)
        (finish' (b.mapPlaces m.place)) := agree_pure rfl
    refine (fixes_isNext .matchWord).bind ?_
    rintro isMatch _ rfl
    refine Agree.ite (fun _ => ?_) fun _ => Agree.ite (fun _ => ?_) fun _ => agree_fail_bind _
    · refine h.chain.bind ?_
      rintro b _ rfl
      exact hfinish b
    · refine h.cases.bind ?_
      rintro b _ rfl
      exact hfinish b

end Nested

theorem agree_choiceProperty (name : String) (arguments : Option Expr) (c : Choice) (l : Lead)
    (start : Token) : m.Maps (Property.mapPlaces m.place)
      (NodeReaders.choiceProperty name arguments c l start)
      (NodeReaders.choiceProperty name (arguments.map (Expr.mapPlaces m.place))
        (c.mapPlaces m.place) (m.lead l) (m.token start)) := by
  unfold NodeReaders.choiceProperty
  refine (agree_modifiers l.property false).bind ?_
  rintro mods _ rfl
  cases c
  exact agree_pure rfl

theorem agree_bracketArguments (group : Option Cursor) (hgroup : ∀ c ∈ group, m.Covers c) :
    m.Maps (Option.map (Expr.mapPlaces m.place)) (NodeReaders.bracketArguments group)
      (NodeReaders.bracketArguments (group.map m.cursor)) := by
  cases group with
  | none => exact agree_pure rfl
  | some c =>
    have hc : m.Covers c.advance := (hgroup c rfl).advance
    show m.Agree _ (rereading c.advance _) (rereading (m.cursor c).advance _)
    rw [advance_cursor]
    refine agree_rereading hc ?_
    refine (fixes_isNext .rbracket).bind ?_
    rintro closing _ rfl
    refine Agree.ite (fun _ => agree_pure rfl) fun _ => ?_
    refine (agree_captureExpression _ _ _).bind ?_
    rintro arguments _ rfl
    exact (agree_expect .rbracket).bind fun _ _ _ => agree_pure rfl

theorem agree_captures (group : Option Cursor) (hgroup : ∀ c ∈ group, m.Covers c) :
    m.Maps (List.map (Capture.mapPlaces m.place)) (NodeReaders.captures group)
      (NodeReaders.captures (group.map m.cursor)) := by
  cases group with
  | none => exact agree_pure rfl
  | some c =>
    have hc : m.Covers c.advance := (hgroup c rfl).advance
    show m.Agree _ (rereading c.advance _) (rereading (m.cursor c).advance _)
    rw [advance_cursor]
    refine agree_rereading hc ?_
    refine (agree_repeating (S := fun s t => t = s.map (Capture.mapPlaces m.place)) ?_ rfl).bind ?_
    · rintro found _ rfl
      refine (fixes_isNext .rbracket).bind ?_
      rintro closing _ rfl
      refine Agree.ite (fun _ => agree_pure .none) fun _ => ?_
      refine fixes_name.bind ?_
      rintro id _ rfl
      refine (fixes_accept .equals).bind ?_
      rintro assigned _ rfl
      extract_lets finish finish'
      have hfinish (value : Option Expr) :
          m.Agree (Option.Rel fun s t => t = s.map (Capture.mapPlaces m.place)) (finish value)
            (finish' (value.map (Expr.mapPlaces m.place))) := by
        refine (fixes_accept .comma).bind ?_
        rintro comma _ rfl
        refine (fixes_isNext .rbracket).bind ?_
        rintro closing _ rfl
        refine Agree.ite (fun _ => ?_) fun _ => agree_pure (.some rfl)
        refine agree_current.bind ?_
        rintro t _ rfl
        exact agree_fail_bind _
      refine Agree.ite (fun _ => ?_) fun _ => ?_
      · refine (agree_captureExpression _ _ _).bind ?_
        rintro e _ rfl
        exact hfinish (some e)
      · exact hfinish none
    · rintro found _ rfl
      refine agree_pure ?_
      rw [List.map_reverse]

theorem agree_connection (start : Token) (group : Option Cursor)
    (hgroup : ∀ c ∈ group, m.Covers c) (l : Lead) :
    m.Maps (Property.mapPlaces m.place) (NodeReaders.connection start group l)
      (NodeReaders.connection (m.token start) (group.map m.cursor) (m.lead l)) := by
  unfold NodeReaders.connection
  refine (agree_rejectNodeAttributes l start.text).bind fun _ _ _ => ?_
  extract_lets rest rest'
  have hrest : m.Maps (Property.mapPlaces m.place) (rest ()) (rest' ()) := by
    refine (agree_captures group hgroup).bind ?_
    rintro taken _ rfl
    refine (agree_expect .fatArrow).bind fun _ _ _ => ?_
    refine (agree_captureExpression _ _ _).bind ?_
    rintro value _ rfl
    refine (fixes_accept .atSign).bind ?_
    rintro guarded _ rfl
    extract_lets finish finish'
    have hfinish (guard : Option String) :
        m.Maps (Property.mapPlaces m.place) (finish guard) (finish' guard) := by
      refine (agree_modifiers l.property false).bind ?_
      rintro mods _ rfl
      exact agree_pure rfl
    refine Agree.ite (fun _ => ?_) fun _ => hfinish none
    refine fixes_name.bind ?_
    rintro guard _ rfl
    exact hfinish (some guard)
  exact Agree.ite (fun _ => agree_failAt_bind _ start) fun _ => hrest

theorem agree_valueProperty (start : Token) (l : Lead) (optional : Bool) :
    m.Maps (Property.mapPlaces m.place) (NodeReaders.valueProperty start l optional)
      (NodeReaders.valueProperty (m.token start) (m.lead l) optional) := by
  unfold NodeReaders.valueProperty
  refine (agree_rejectNodeAttributes l start.text).bind fun _ _ _ => ?_
  refine agree_read.bind ?_
  rintro _ _ ⟨rfl, rfl⟩
  rw [m.settings_eq]
  extract_lets isBinding rest isBinding' rest'
  have hrest : m.Maps (Property.mapPlaces m.place) (rest ()) (rest' ()) := by
    refine (agree_captureExpression _ _ _).bind ?_
    rintro value _ rfl
    refine (agree_modifiers l.property optional).bind ?_
    rintro mods _ rfl
    refine agree_pure ?_
    show Property.mk _ _ _ (if isBinding then _ else _) =
      Property.mk _ _ _ (Payload.mapPlaces m.place (if isBinding then _ else _))
    rw [apply_ite (Payload.mapPlaces m.place)]
    rfl
  exact Agree.ite (fun _ => agree_failAt_bind _ start) fun _ => hrest

theorem fixes_writtenName? : m.Fixes NodeReaders.writtenName? := by
  unfold NodeReaders.writtenName?
  refine (fixes_isNext .mutWord).bind ?_
  rintro isMut _ rfl
  refine (agree_ahead 1).bind ?_
  rintro first _ rfl
  refine (agree_ahead 2).bind ?_
  rintro second _ rfl
  refine Agree.ite (fun _ => ?_) fun _ => ?_
  · refine agree_advance.bind fun _ _ _ => ?_
    refine fixes_name.bind ?_
    rintro id _ rfl
    exact (agree_expect .equals).bind fun _ _ _ => agree_pure rfl
  · refine agree_current.bind ?_
    rintro t _ rfl
    refine (agree_ahead 1).bind ?_
    rintro next _ rfl
    refine Agree.ite (fun _ => ?_) fun _ => agree_pure rfl
    refine fixes_name.bind ?_
    rintro id _ rfl
    exact (agree_expect .equals).bind fun _ _ _ => agree_pure rfl

namespace Nested
variable {r : NodeReaders} (h : m.Nested r)
include h

theorem childProperty (start : Token) (arguments : Option Expr) (written : Option WrittenName)
    (l : Lead) : m.Maps (Property.mapPlaces m.place) (r.childProperty start arguments written l)
      (r.childProperty (m.token start) (arguments.map (Expr.mapPlaces m.place)) written
        (m.lead l)) := by
  unfold NodeReaders.childProperty
  refine (fixes_isNext .ifWord).bind ?_
  rintro isIf _ rfl
  refine (fixes_isNext .matchWord).bind ?_
  rintro isMatch _ rfl
  refine Agree.ite (fun _ => ?_) fun _ => ?_
  · refine (h.choice l written).bind ?_
    rintro c _ rfl
    exact agree_choiceProperty start.text arguments c l start
  · refine (h.widget l written).bind ?_
    rintro w _ rfl
    refine (agree_modifiers l.property false).bind ?_
    rintro mods _ rfl
    exact agree_pure rfl

theorem namedProperty (l : Lead) :
    m.Maps (Property.mapPlaces m.place) (r.namedProperty l) (r.namedProperty (m.lead l)) := by
  unfold NodeReaders.namedProperty
  refine agree_advance.bind ?_
  rintro start _ rfl
  refine (fixes_accept .question).bind ?_
  rintro optional _ rfl
  refine Agree.ite (fun _ => ?_) fun _ => ?_
  · exact (agree_expect .colon).bind fun _ _ _ => agree_valueProperty start l true
  · refine agree_get.bind ?_
    rintro here _ ⟨rfl, hhere⟩
    refine (fixes_isNext .lbracket).bind ?_
    rintro bracketed _ rfl
    extract_lets rest rest'
    have hrest (group : Option Cursor) (hgroup : ∀ c ∈ group, m.Covers c) :
        m.Maps (Property.mapPlaces m.place) (rest group) (rest' (group.map m.cursor)) := by
      refine (fixes_isNext .fatArrow).bind ?_
      rintro isArrow _ rfl
      refine Agree.ite (fun _ => agree_connection start group hgroup l) fun _ => ?_
      refine (fixes_accept .equals).bind ?_
      rintro assigned _ rfl
      refine Agree.ite (fun _ => ?_) fun _ => ?_
      · refine (agree_bracketArguments group hgroup).bind ?_
        rintro arguments _ rfl
        exact h.childProperty start arguments none l
      · refine (fixes_accept .colon).bind ?_
        rintro colon _ rfl
        refine Agree.ite (fun _ => ?_) fun _ => ?_
        · refine fixes_writtenName?.bind ?_
          rintro written _ rfl
          cases written with
          | some written =>
            refine (agree_bracketArguments group hgroup).bind ?_
            rintro arguments _ rfl
            exact h.childProperty start arguments (some written) l
          | none =>
            cases group with
            | some c =>
              show m.Agree _ _ (failAt _ (m.cursor c).token)
              rw [token_cursor]
              exact agree_failAt _ c.token
            | none => exact agree_valueProperty start l false
        · refine agree_current.bind ?_
          rintro t _ rfl
          exact agree_fail _
    refine Agree.ite (fun _ => ?_) fun _ => ?_
    · refine agree_balanced.bind fun _ _ _ => ?_
      refine hrest (some here) ?_
      rintro c ⟨⟩
      exact hhere
    · exact hrest none (by simp)

theorem item : m.Maps (Property.mapPlaces m.place) r.item r.item := by
  unfold NodeReaders.item
  refine agree_lead.bind ?_
  rintro l _ rfl
  refine agree_current.bind ?_
  rintro start _ rfl
  refine Agree.ite (fun _ => ?_) fun _ => ?_
  · refine (h.choice l none).bind ?_
    rintro c _ rfl
    exact agree_choiceProperty "" none c l start
  · refine (agree_ahead 1).bind ?_
    rintro next _ rfl
    refine Agree.ite (fun _ => h.namedProperty l) fun _ => ?_
    refine (h.widget l none).bind ?_
    rintro w _ rfl
    refine (agree_modifiers l.property false).bind ?_
    rintro mods _ rfl
    exact agree_pure rfl

end Nested

theorem agree_prebound (start : Token) (bound template named : Option Attribute)
    (written : Option WrittenName) :
    m.Maps (Prod.map id (Construction.mapPlaces m.place))
      (NodeReaders.prebound start bound template named written)
      (NodeReaders.prebound (m.token start) (bound.map m.mark) (template.map m.mark)
        (named.map m.mark) written) := by
  cases bound with
  | none => exact agree_failAt _ start
  | some a =>
    unfold NodeReaders.prebound
    dsimp only [Option.map_some]
    rw [Option.isSome_map]
    refine Agree.ite (fun _ => agree_failAt_bind _ start) fun _ => ?_
    cases template with
    | some t => exact agree_failAt _ t.token
    | none =>
      refine agree_advance.bind fun _ _ _ => ?_
      refine (agree_expect .arrow).bind fun _ _ _ => ?_
      refine fixes_dottedPath.bind ?_
      rintro path _ rfl
      exact agree_pure rfl

theorem agree_constructed (bound template named : Option Attribute)
    (written : Option WrittenName) :
    m.Maps (Prod.map id (Construction.mapPlaces m.place))
      (NodeReaders.constructed bound template named written)
      (NodeReaders.constructed (bound.map m.mark) (template.map m.mark) (named.map m.mark)
        written) := by
  cases bound with
  | some a => exact agree_failAt _ a.token
  | none =>
    refine agree_construction.bind ?_
    rintro built _ rfl
    extract_lets finish finish'
    have hfinish (built : Construction) : m.Maps (Prod.map id (Construction.mapPlaces m.place))
        (finish built) (finish' (built.mapPlaces m.place)) := by
      refine (agree_nodeName false named written).bind ?_
      rintro name _ rfl
      exact agree_pure rfl
    cases template with
    | none => exact hfinish built
    | some t =>
      cases built with
      | block path => exact hfinish (.template path)
      | template path => exact agree_failAt_bind _ t.token
      | call path written chained => exact agree_failAt_bind _ t.token
      | prebound path reference => exact agree_failAt_bind _ t.token

namespace Nested
variable {r : NodeReaders} (h : m.Nested r)
include h

theorem widgetOf (l : Lead) (written : Option WrittenName) :
    m.Maps (Widget.mapPlaces m.place) (r.widgetOf l written) (r.widgetOf (m.lead l) written) := by
  unfold NodeReaders.widgetOf
  refine agree_current.bind ?_
  rintro start _ rfl
  refine (agree_find? .localValue l.node).bind ?_
  rintro localValue _ rfl
  refine (agree_find? .localReference l.node).bind ?_
  rintro localReference _ rfl
  refine (agree_find? .template l.node).bind ?_
  rintro template _ rfl
  refine (agree_find? .root l.node).bind ?_
  rintro root _ rfl
  refine (agree_find? .name l.node).bind ?_
  rintro named _ rfl
  have hbound : (localValue.map m.mark).or (localReference.map m.mark) =
      (localValue.or localReference).map m.mark := by cases localValue <;> rfl
  rw [hbound]
  generalize localValue.or localReference = bound
  rcases localValue with _ | a <;> rcases localReference with _ | b
  case some.some => exact agree_failAt _ b.token
  case none.none | none.some | some.none =>
    refine (agree_ahead 1).bind ?_
    rintro next _ rfl
    extract_lets rest rest'
    have hrest (named : NodeName × Construction) : m.Maps (Widget.mapPlaces m.place) (rest named)
        (rest' (named.1, named.2.mapPlaces m.place)) := by
      obtain ⟨name, construction⟩ := named
      refine agree_current.bind ?_
      rintro opening _ rfl
      refine (fixes_accept .lbrace).bind ?_
      rintro opened _ rfl
      extract_lets finish finish'
      have hfinish (properties : List Property) : m.Maps (Widget.mapPlaces m.place)
          (finish properties) (finish' (properties.map (Property.mapPlaces m.place))) := by
        refine agree_pure ?_
        rw [Widget.mapPlaces, Property.mapAll_eq, Option.isSome_map]
        rfl
      refine Agree.ite (fun _ => ?_) fun _ => hfinish []
      refine (agree_block h.item opening).bind ?_
      rintro properties _ rfl
      exact hfinish properties
    refine Agree.ite (fun _ => ?_) fun _ => ?_
    · refine (agree_prebound start bound template named written).bind ?_
      rintro found _ rfl
      exact hrest found
    · refine (agree_constructed bound template named written).bind ?_
      rintro found _ rfl
      exact hrest found

end Nested

/-- Nested nodes are read alike, to any depth. -/
theorem nested_nodeReaders (m : Placement) (depth : Nat) : m.Nested (nodeReaders depth) := by
  induction depth with
  | zero => exact ⟨fun _ _ => agree_fail _, fun _ _ => agree_fail _⟩
  | succ depth ih => exact ⟨ih.widgetOf, ih.choiceOf⟩

end Placement
end ViewTree
