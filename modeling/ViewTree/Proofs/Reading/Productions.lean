import ViewTree.Proofs.Reading.Calls
import ViewTree.Proofs.Reading.Shape

/-!
Productions and the shape of what they read, from attributes up to components. Main statement: the
readers of nodes, to any depth, read trees that have the shape (`shapes_nodeReaders`), and so a
component that is read is well-formed (`Component.yields_component`).
-/
namespace ViewTree
open TreeReader

variable {context : Context}

/-- Names of an attribute are not empty, and its expression comes from the source. -/
structure Attribute.Sound (context : Context) (a : Attribute) : Prop where
  names : ∀ name ∈ a.names, name ≠ ""
  expr : ∀ e ∈ a.expr, e.Sound context

structure Lead.Sound (context : Context) (l : Lead) : Prop where
  node : ∀ a ∈ l.node, a.Sound context
  property : ∀ a ∈ l.property, a.Sound context

namespace Attribute

theorem yields_nameArguments {a : Attribute} (h : a.Sound context) :
    Yields context (Sound context) a.nameArguments := by
  unfold nameArguments
  refine (yields_repeating (P := fun s => s.1.Sound context) ?_ h).bind fun s hs => yields_pure hs
  rintro ⟨a, more⟩ ha
  refine Yields.ite (fun _ => yields_done) fun _ => ?_
  refine (yields_isNext .mutWord).bind fun isMarked _ => ?_
  refine (yields_ahead 1).bind fun t _ => ?_
  extract_lets marked rest
  have hrest : Yields context (fun s' => ∀ s ∈ s', s.1.Sound context) (rest ()) := by
    refine yields_name.bind fun word hword => ?_
    have hnames : ∀ name ∈ a.names ++ [word], name ≠ "" := by
      intro name hname
      rcases List.mem_append.mp hname with hname | hname
      · exact ha.names name hname
      · exact List.mem_singleton.mp hname ▸ hword.word.ne_empty
    refine (yields_accept .comma).bind fun _ _ => ?_
    refine Yields.ite (fun _ => ?_) fun _ => yields_more ⟨hnames, ha.expr⟩
    exact (yields_isNext .rparen).bind fun _ _ => yields_more ⟨hnames, ha.expr⟩
  exact Yields.ite (fun _ => yields_advance.bind fun _ _ => hrest) fun _ => hrest

/-- Where an expression is asked for, what the string literal stands for can be one. -/
def Takes (context : Context) (a : Attribute) (t : Token) : Prop :=
  t.kind = .string → a.kind.takesExpression → context.Usable →
    ∀ text ∈ literalText? t.text.toList, text.toList.any endsTexts = false

theorem yieldsAt_stringArgument {a : Attribute} (h : a.Sound context) {c : Cursor}
    (hc : c.Sound context) (htakes : a.Takes context c.token) :
    YieldsAt context c (Sound context) a.stringArgument := by
  have hcopied := (Cursor.sound_token hc).copied
  refine (carries_expect (T := fun t c' => (t = c.token ∧ t.kind = .string) ∧ c' = c.advance)
    fun hkind => ⟨⟨rfl, hkind⟩, rfl⟩).bind ?_
  rintro _ _ ⟨⟨rfl, hkind⟩, rfl⟩
  refine (yields_stringValue c.token).bind (fun value hvalue => ?_) c.advance
    (Cursor.sound_advance hc)
  cases value with
  | none => exact yields_failAt _ c.token
  | some value =>
    refine Yields.ite (fun hexpression => ?_) fun _ => ?_
    · have hwhole (husable : context.Usable) :=
        htakes hkind hexpression husable value (hvalue value rfl)
      refine (yields_expression hwhole c.token none).bind fun e he => yields_pure ⟨h.names, ?_⟩
      rintro _ ⟨⟩
      exact ⟨he.1, .inr (he.2 ▸ isQuoted_of_literalText? hcopied (hvalue value rfl))⟩
    · dsimp only
      split
      · exact yields_failAt _ c.token
      · rename_i hnone
        refine yields_pure ⟨fun name hname hempty => ?_, h.expr⟩
        have hidentifier := List.find?_eq_none.mp hnone name hname
        rw [hempty] at hidentifier
        exact hidentifier rfl

/-- Arguments, where a string behind a sign stands for a text that may be asked for there. -/
theorem yieldsAt_arguments {a : Attribute} (h : a.Sound context) {c : Cursor} (hc : c.Sound context)
    (htakes : c.token.kind = .equals → a.Takes context c.advance.token) :
    YieldsAt context c (Sound context) a.arguments := by
  unfold arguments
  refine carries_accept (fun _ => ?_) fun _ => ?_
  · refine Yields.bind (P := fun _ => True) (yields_isNext .rparen) (fun _ _ => ?_) c.advance
      (Cursor.sound_advance hc)
    extract_lets finish rest
    have hfinish (b : Attribute) (hb : b.Sound context) : Yields context (Sound context) (finish b) :=
      (yields_expect .rparen).bind fun _ _ => yields_pure hb
    have hrest : Yields context (Sound context) (rest ()) := by
      refine Yields.ite (fun _ => ?_) fun _ => Yields.ite (fun _ => ?_) fun _ => ?_
      · exact (yields_nameArguments h).bind hfinish
      · refine (yields_captureExpression [] _ none).bind fun e he => hfinish _ ⟨h.names, ?_⟩
        rintro _ ⟨⟩
        exact he.sound context
      · exact yields_failAt_bind _ a.token
    refine Yields.ite (fun _ => ?_) fun _ => hrest
    exact yields_fail_bind _
  · refine carries_accept (fun hkind => ?_) fun _ => ?_
    · rw [if_pos rfl]
      refine Carries.ite (fun _ => ?_) fun _ => carries_failAt _ a.token
      exact yieldsAt_stringArgument h (Cursor.sound_advance hc) (htakes hkind)
    · rw [if_neg Bool.false_ne_true]
      exact Carries.ite (fun _ => carries_failAt _ a.token) fun _ => carries_pure ⟨h, hc⟩

theorem yields_read : Yields context (Sound context) Attribute.read := by
  intro c hc
  unfold Attribute.read
  refine (carries_expect (T := fun _ c' => c.token.kind = .attrOpen ∧ c' = c.advance)
    fun hopening => ⟨hopening, rfl⟩).bind ?_
  rintro _ _ ⟨hopening, rfl⟩
  refine carries_current ((carries_name (S := fun word c' => (c.advance.token.kind.isName ∧
    word = c.advance.token.text) ∧ c' = c.advance.advance) fun hname => ⟨⟨hname, rfl⟩, rfl⟩).bind ?_)
  rintro _ _ ⟨⟨hname, rfl⟩, rfl⟩
  have hc₁ := Cursor.sound_advance hc
  have hc₂ := Cursor.sound_advance hc₁
  cases hword : AttributeKind.ofWord? c.advance.token.text with
  | none => exact carries_failAt _ _
  | some kind =>
    dsimp only
    have hargument (hsign : c.advance.advance.token.kind = .equals) : Takes context
        { kind, token := c.advance.token } c.advance.advance.advance.token := by
      intro hstring hexpression husable
      -- what is left to read starts with the whole attribute
      have hrest := Cursor.rest_eq_cons hc.ended.1 (by rw [hopening]; nofun)
      rw [Cursor.rest_eq_cons hc₁.ended.1 (by rintro h; rw [h] at hname; nomatch hname),
        Cursor.rest_eq_cons hc₂.ended.1 (by rw [hsign]; nofun),
        Cursor.rest_eq_cons (Cursor.sound_advance hc₂).ended.1 (by rw [hstring]; nofun)] at hrest
      refine husable.arguments c.rest hc.held _ ?_
      rw [hrest, argument?, hopening, hword, hsign]
      exact if_pos (by simpa using hexpression)
    refine (yieldsAt_arguments (a := { kind, token := c.advance.token }) ⟨by simp, by simp⟩ hc₂
      hargument).bind fun a c' ⟨ha, hc'⟩ => ?_
    refine (yields_expect .rbracket).bind (fun _ _ => ?_) c' hc'
    refine Yields.ite (fun _ => ?_) fun _ => yields_pure ha
    exact yields_failAt_bind _ _

theorem yields_lead : Yields context (Lead.Sound context) Attribute.lead := by
  unfold Attribute.lead
  refine (yields_repeating (P := fun s => ∀ a ∈ s.1, a.Sound context) ?_ (by simp)).bind ?_
  · rintro ⟨found, docs⟩ hfound
    refine (yields_isNext .docComment).bind fun _ _ => ?_
    refine Yields.ite (fun _ => ?_) fun _ => ?_
    · exact yields_advance.bind fun t _ => yields_more hfound
    · refine (yields_isNext .attrOpen).bind fun _ _ => ?_
      refine Yields.ite (fun _ => ?_) fun _ => yields_done
      exact yields_read.bind fun a ha => yields_more (List.forall_mem_cons.mpr ⟨ha, hfound⟩)
  · rintro ⟨found, docs⟩ hfound
    have hkept (p : Attribute → Bool) : ∀ a ∈ found.reverse.filter p, a.Sound context := fun a ha =>
      hfound a (List.mem_reverse.mp (List.mem_of_mem_filter ha))
    exact yields_pure ⟨hkept _, hkept _⟩

theorem yields_find? (kind : AttributeKind) {as : List Attribute} (h : ∀ a ∈ as, a.Sound context) :
    Yields context (fun found => ∀ a ∈ found, a.Sound context) (Attribute.find? kind as) := by
  unfold Attribute.find?
  have hfilter : ∀ a ∈ as.filter (·.kind = kind), a.Sound context := fun a ha =>
    h a (List.mem_of_mem_filter ha)
  generalize as.filter (·.kind = kind) = found at hfilter
  match found with
  | [] => exact yields_done
  | [a] => exact yields_more (hfilter a List.mem_cons_self)
  | _ :: b :: _ => exact yields_failAt _ b.token

theorem mem_exprs_addTo {m : Modifiers} {a : Attribute} {e : Expr} (h : e ∈ (addTo m a).exprs) :
    e ∈ m.exprs ∨ e ∈ a.expr := by
  obtain ⟨kind, token, names, expr, isMutable⟩ := a
  cases kind with
  | track =>
    cases expr with
    | none =>
      have h : e ∈ m.chain := h
      exact .inl (List.mem_append_right _ h)
    | some predicate =>
      have h : e ∈ predicate :: m.chain := h
      rcases List.mem_cons.mp h with rfl | h
      · exact .inr rfl
      · exact .inl (List.mem_append_right _ h)
  | chain =>
    have h : e ∈ m.predicate?.toList ++ (m.chain ++ expr.toList) := h
    rw [← List.append_assoc] at h
    rcases List.mem_append.mp h with h | h
    · exact .inl h
    · exact .inr (Option.mem_toList.mp h)
  | _ => exact .inl h

theorem yields_modifiers {as : List Attribute} (h : ∀ a ∈ as, a.Sound context) (optional : Bool) :
    Yields context (fun m => ∀ e ∈ m.exprs, e.Sound context) (Attribute.modifiers as optional) := by
  unfold Attribute.modifiers
  refine (yields_foldlM (P := fun s => ∀ e ∈ s.1.exprs, e.Sound context) ?_ (by simp [Modifiers.exprs,
    Modifiers.predicate?])).bind fun s hs => yields_pure hs
  rintro ⟨m, seen⟩ a ha hm
  have hadd : ∀ e ∈ (addTo m a).exprs, e.Sound context := fun e he =>
    (mem_exprs_addTo he).elim (hm e) ((h a ha).expr e)
  refine Yields.ite (fun _ => ?_) fun _ => yields_pure hadd
  exact yields_failAt_bind _ a.token

end Attribute

namespace NodeReaders

theorem yields_nodeName (isChoice : Bool) {named : Option Attribute} {written : Option WrittenName}
    (hnamed : ∀ a ∈ named, a.Sound context) (hwritten : ∀ w ∈ written, w.name ≠ "") :
    Yields context NodeName.IsWritten (nodeName isChoice named written) := by
  unfold nodeName
  cases named with
  | none =>
    cases written with
    | none => exact yields_pure NodeName.isWritten_absent
    | some w => exact yields_pure (NodeName.isWritten_given (hwritten w rfl) _)
  | some a =>
    cases written with
    | some w => exact yields_failAt _ a.token
    | none =>
      refine yields_pure ?_
      cases hnames : a.names with
      | nil => exact NodeName.isWritten_absent
      | cons name more =>
        have hname : name ∈ a.names := by rw [hnames]; exact List.mem_cons_self
        exact NodeName.isWritten_given ((hnamed a rfl).names name hname) _

theorem yields_rejectNodeAttributes (l : Lead) (property : String) :
    Yields context (fun _ => True) (rejectNodeAttributes l property) := by
  unfold rejectNodeAttributes
  split
  · exact yields_failAt _ _
  · exact yields_pure trivial

/-- The name of a widget, which it has if it is bound from outside, and its construction. -/
structure Identifies (context : Context) (found : NodeName × Construction) : Prop where
  name : found.1.IsWritten
  prebound : found.2.isPrebound = true → found.1.isGiven = true
  path : context.WritesPath found.2.path
  call : ∀ e, found.2.call? = some e → e.Captured

theorem yields_prebound {start : Token} (hstart : context.Writes start.text)
    (bound template named : Option Attribute) (written : Option WrittenName) :
    Yields context (Identifies context) (prebound start bound template named written) := by
  unfold prebound
  cases bound with
  | none => exact yields_failAt _ start
  | some a =>
    refine Yields.ite (fun _ => ?_) fun _ => ?_
    · exact yields_failAt_bind _ start
    · cases template with
      | some t => exact yields_failAt _ t.token
      | none =>
        refine yields_advance.bind fun _ _ => ?_
        refine (yields_expect .arrow).bind fun _ _ => ?_
        refine yields_dottedPath.bind fun path hpath => yields_pure ?_
        exact ⟨NodeName.isWritten_given hstart.word.ne_empty false, fun _ => rfl, hpath, nofun⟩

theorem yields_constructed (bound template : Option Attribute) {named : Option Attribute}
    {written : Option WrittenName} (hnamed : ∀ a ∈ named, a.Sound context)
    (hwritten : ∀ w ∈ written, w.name ≠ "") :
    Yields context (Identifies context) (constructed bound template named written) := by
  unfold constructed
  cases bound with
  | some a => exact yields_failAt _ a.token
  | none =>
    refine yields_construction.bind fun built hbuilt => ?_
    extract_lets finish
    have hfinish (built : Construction) (hprebound : built.isPrebound = false)
        (hpath : context.WritesPath built.path) (hcall : ∀ e, built.call? = some e → e.Captured) :
        Yields context (Identifies context) (finish built) := by
      refine (yields_nodeName false hnamed hwritten).bind fun name hname => yields_pure ?_
      exact ⟨hname, fun h => absurd h (by rw [hprebound]; nofun), hpath, hcall⟩
    cases template with
    | none => exact hfinish built hbuilt.1 hbuilt.2.1 hbuilt.2.2
    | some t =>
      cases built with
      | block path => exact hfinish (.template path) rfl hbuilt.2.1 nofun
      | _ => exact yields_failAt_bind _ t.token

theorem yields_choiceProperty {name : String} {arguments : Option Expr} {c : Choice} {l : Lead}
    (start : Token) (hname : context.Attaches name arguments) (harguments : ∀ e ∈ arguments, e.Captured)
    (hc : (Node.choice c).Shaped context) (hl : l.Sound context) :
    Yields context (Property.Shaped context) (choiceProperty name arguments c l start) := by
  refine (Attribute.yields_modifiers hl.property false).bind fun m hm => yields_pure ?_
  exact Property.shaped_choice hname harguments (Choice.shaped_transition hc _) rfl hm

theorem yields_bracketArguments {group : Option Cursor} (hgroup : ∀ c ∈ group, c.Sound context) :
    Yields context (fun arguments => ∀ e ∈ arguments, e.Captured) (bracketArguments group) := by
  cases group with
  | none => exact yields_done
  | some c =>
    refine yields_rereading (Cursor.sound_advance (hgroup c rfl)) ?_
    refine (yields_isNext .rbracket).bind fun _ _ => ?_
    refine Yields.ite (fun _ => yields_done) fun _ => ?_
    refine (yields_captureExpression _ _ _).bind fun e he => ?_
    exact (yields_expect .rbracket).bind fun _ _ => yields_more he

/-- A captured name is a word, and its value comes from the source. -/
def CaptureSound (context : Context) (k : Capture) : Prop :=
  context.Writes k.name ∧ ∀ e ∈ k.value, e.Captured

theorem yields_captures {group : Option Cursor} (hgroup : ∀ c ∈ group, c.Sound context) :
    Yields context (fun found => ∀ k ∈ found, CaptureSound context k) (captures group) := by
  cases group with
  | none => exact yields_pure (by simp)
  | some c =>
    refine yields_rereading (Cursor.sound_advance (hgroup c rfl)) ?_
    refine (yields_repeating (P := fun found => ∀ k ∈ found, CaptureSound context k)
      (fun found hfound => ?_) (by simp)).bind fun found hfound => yields_pure fun k hk =>
        hfound k (List.mem_reverse.mp hk)
    refine (yields_isNext .rbracket).bind fun _ _ => ?_
    refine Yields.ite (fun _ => yields_done) fun _ => ?_
    refine yields_name.bind fun id hid => ?_
    refine (yields_accept .equals).bind fun _ _ => ?_
    extract_lets finish
    have hfinish (value : Option Expr) (hvalue : ∀ e ∈ value, e.Captured) : Yields context
        (fun s' => ∀ s ∈ s', ∀ k ∈ s, CaptureSound context k) (finish value) := by
      refine (yields_accept .comma).bind fun _ _ => ?_
      refine (yields_isNext .rbracket).bind fun _ _ => ?_
      refine Yields.ite (fun _ => ?_) fun _ =>
        yields_more (List.forall_mem_cons.mpr ⟨⟨hid, hvalue⟩, hfound⟩)
      exact yields_current.bind fun _ _ => yields_fail_bind _
    refine Yields.ite (fun _ => ?_) fun _ => hfinish none (by simp)
    exact (yields_captureExpression _ _ _).bind fun e he => hfinish (some e) (by simpa using he)

theorem yields_connection {start : Token} (hstart : context.Writes start.text) {group : Option Cursor}
    (hgroup : ∀ c ∈ group, c.Sound context) {l : Lead} (hl : l.Sound context) :
    Yields context (Property.Shaped context) (connection start group l) := by
  unfold connection
  refine (yields_rejectNodeAttributes l start.text).bind fun _ _ => ?_
  extract_lets rest
  have hrest : Yields context (Property.Shaped context) (rest ()) := by
    refine (yields_captures hgroup).bind fun taken htaken => ?_
    refine (yields_expect .fatArrow).bind fun _ _ => ?_
    refine (yields_captureExpression _ _ _).bind fun value hvalue => ?_
    refine (yields_accept .atSign).bind fun _ _ => ?_
    extract_lets finish
    have hfinish (guard : Option String) : Yields context (Property.Shaped context) (finish guard) := by
      refine (Attribute.yields_modifiers hl.property false).bind fun m hm => yields_pure ?_
      refine Property.shaped_leaf hstart (fun k hk => (htaken k hk).1) rfl
        (List.forall_mem_cons.mpr ⟨hvalue, ?_⟩) hm
      intro e he
      obtain ⟨k, hk, hke⟩ := List.mem_filterMap.mp he
      exact (htaken k hk).2 e hke
    refine Yields.ite (fun _ => ?_) fun _ => hfinish none
    exact yields_name.bind fun guard _ => hfinish (some guard)
  exact Yields.ite (fun _ => yields_failAt_bind _ start) fun _ => hrest

theorem yields_valueProperty {start : Token} (hstart : context.Writes start.text) {l : Lead} (hl : l.Sound context)
    (optional : Bool) : Yields context (Property.Shaped context) (valueProperty start l optional) := by
  unfold valueProperty
  refine (yields_rejectNodeAttributes l start.text).bind fun _ _ => ?_
  refine TreeReader.yields_read.bind fun _ _ => ?_
  extract_lets isBinding rest
  have hrest : Yields context (Property.Shaped context) (rest ()) := by
    refine (yields_captureExpression _ _ _).bind fun value hvalue => ?_
    refine (Attribute.yields_modifiers hl.property optional).bind fun m hm => yields_pure ?_
    have hreads : ∀ e ∈ [value], e.Captured := List.forall_mem_singleton.mpr hvalue
    by_cases hbinding : isBinding
    · rw [if_pos hbinding]
      exact Property.shaped_leaf hstart nofun rfl hreads hm
    · rw [if_neg hbinding]
      exact Property.shaped_leaf hstart nofun rfl hreads hm
  exact Yields.ite (fun _ => yields_failAt_bind _ start) fun _ => hrest

theorem yields_writtenName? :
    Yields context (fun written => ∀ w ∈ written, w.name ≠ "") writtenName? := by
  unfold writtenName?
  refine (yields_isNext .mutWord).bind fun _ _ => ?_
  refine (yields_ahead 1).bind fun _ _ => ?_
  refine (yields_ahead 2).bind fun _ _ => ?_
  refine Yields.ite (fun _ => ?_) fun _ => ?_
  · refine yields_advance.bind fun _ _ => ?_
    refine yields_name.bind fun id hid => ?_
    exact (yields_expect .equals).bind fun _ _ => yields_more hid.word.ne_empty
  · refine yields_current.bind fun _ _ => ?_
    refine (yields_ahead 1).bind fun _ _ => ?_
    refine Yields.ite (fun _ => ?_) fun _ => yields_done
    refine yields_name.bind fun id hid => ?_
    exact (yields_expect .equals).bind fun _ _ => yields_more hid.word.ne_empty

/-- The readers that recursion goes through read trees that have the shape. -/
structure Shapes (context : Context) (r : NodeReaders) : Prop where
  widget : ∀ (l : Lead) (written : Option WrittenName), l.Sound context → (∀ w ∈ written, w.name ≠ "") →
    Yields context (fun w => (Node.widget w).Shaped context) (r.widget l written)
  choice : ∀ (l : Lead) (written : Option WrittenName), l.Sound context → (∀ w ∈ written, w.name ≠ "") →
    Yields context (fun c => (Node.choice c).Shaped context) (r.choice l written)

namespace Shapes
variable {r : NodeReaders} (h : r.Shapes context)
include h

theorem tree : Yields context (fun w => (Node.widget w).Shaped context) r.tree := by
  unfold NodeReaders.tree
  refine Attribute.yields_lead.bind fun l hl => ?_
  obtain ⟨node, properties, doc⟩ := l
  cases properties with
  | cons a more => exact yields_failAt _ a.token
  | nil =>
    refine (yields_isNext .ifWord).bind fun _ _ => ?_
    refine (yields_isNext .matchWord).bind fun _ _ => ?_
    refine Yields.ite (fun _ => yields_fail_bind _) fun _ => ?_
    exact h.widget _ none hl (by simp)

theorem branchBody (bare : Bool) :
    Yields context (fun w => (Node.widget w).Shaped context) (r.branchBody bare) := by
  unfold NodeReaders.branchBody
  refine yields_current.bind fun opening _ => ?_
  refine (yields_accept .lbrace).bind fun _ _ => ?_
  refine Yields.ite (fun _ => ?_) fun _ => Yields.ite (fun _ => h.tree) fun _ => yields_fail _
  refine h.tree.bind fun w hw => ?_
  refine (yields_accept .comma).bind fun _ _ => ?_
  refine yields_current.bind fun t _ => ?_
  refine Yields.ite (fun _ => yields_failAt_bind _ _) fun _ => ?_
  exact yields_advance.bind fun _ _ => yields_pure hw

theorem branch (start : Token) :
    Yields context (fun b => b.condition.Captured ∧ (Node.widget b.widget).Shaped context)
      (r.branch start) := by
  unfold NodeReaders.branch
  refine (yields_captureExpression _ _ _).bind fun condition hcondition => ?_
  exact (h.branchBody false).bind fun w hw => yields_pure ⟨hcondition, hw⟩

/-- The branches of a choice, each with its tree. -/
theorem chain : Yields context (Branches.Shaped context) r.chain := by
  unfold NodeReaders.chain
  refine (yields_expect .ifWord).bind fun t _ => ?_
  refine (h.branch t).bind fun first hfirst => ?_
  refine (yields_repeating (P := fun others => ∀ b ∈ others, b.condition.Captured ∧
    (Node.widget b.widget).Shaped context) (fun others hothers => ?_) (by simp)).bind
      fun others hothers => ?_
  · refine yields_current.bind fun start _ => ?_
    refine (yields_ahead 1).bind fun _ _ => ?_
    refine Yields.ite (fun _ => ?_) fun _ => yields_done
    refine (yields_accept .elseWord).bind fun _ _ => ?_
    refine yields_advance.bind fun _ _ => ?_
    exact (h.branch start).bind fun b hb => yields_more (List.forall_mem_cons.mpr ⟨hb, hothers⟩)
  · refine yields_current.bind fun start _ => ?_
    refine (yields_accept .elseWord).bind fun _ _ => ?_
    refine Yields.ite (fun _ => ?_) fun _ => yields_failAt _ start
    refine (h.branchBody false).bind fun last hlast => ?_
    have hexprs : ∀ e ∈ (first :: others.reverse).map (·.condition), e.Captured := by
      simpa using ⟨hfirst.1, fun b hb => (hothers b hb).1⟩
    refine yields_pure ⟨⟨?_, ?_, fun e he => (hexprs e he).reads⟩, hexprs, ?_⟩
    · exact List.cons_ne_nil _ _
    · simp [Branches.widgets, Branches.conditions]
    · intro w hw
      simp only [Branches.widgets, List.mem_append, List.mem_cons, List.mem_map, List.mem_reverse,
        List.not_mem_nil, or_false] at hw
      rcases hw with (rfl | ⟨b, hb, rfl⟩) | rfl
      · exact hfirst.2
      · exact (hothers b hb).2
      · exact hlast

theorem caseArm : Yields context
    (fun a => a.1.pattern.Reads ∧ (Node.widget a.1.widget).Shaped context) r.caseArm := by
  unfold NodeReaders.caseArm
  refine yields_current.bind fun start _ => ?_
  refine yields_capturePattern.bind fun pattern hpattern => ?_
  refine (yields_expect .fatArrow).bind fun _ _ => ?_
  exact (h.branchBody true).bind fun w hw => yields_pure ⟨hpattern, hw⟩

theorem cases : Yields context (Branches.Shaped context) r.cases := by
  unfold NodeReaders.cases
  refine (yields_expect .matchWord).bind fun start _ => ?_
  refine (yields_captureExpression _ _ _).bind fun subject hsubject => ?_
  refine (yields_expect .lbrace).bind fun opening _ => ?_
  refine (yields_block h.caseArm opening).bind fun arms harms => ?_
  cases arms with
  | nil => exact yields_failAt _ start
  | cons arm arms =>
    dsimp only
    split
    · exact yields_failAt _ _
    · rename_i hnone
      refine yields_pure ⟨⟨hsubject.reads, List.cons_ne_nil _ _, ?_, ?_⟩,
        List.forall_mem_singleton.mpr hsubject, ?_⟩
      · exact List.forall_mem_map.mpr fun a ha => (harms a ha).1
      · rwa [List.map_map]
      · exact List.forall_mem_map.mpr (List.forall_mem_map.mpr fun a ha => (harms a ha).2)

theorem choiceOf {l : Lead} (hl : l.Sound context) {written : Option WrittenName}
    (hwritten : ∀ w ∈ written, w.name ≠ "") :
    Yields context (fun c => (Node.choice c).Shaped context) (r.choiceOf l written) := by
  unfold NodeReaders.choiceOf
  refine yields_current.bind fun start _ => ?_
  cases l.node.find? (·.kind ≠ .name) with
  | some a => exact yields_failAt _ a.token
  | none =>
    refine (Attribute.yields_find? .name hl.node).bind fun named hnamed => ?_
    refine (yields_nodeName true hnamed hwritten).bind fun name hname => ?_
    refine (yields_isNext .ifWord).bind fun _ _ => ?_
    extract_lets finish
    have hfinish (b : Branches) (hb : b.Shaped context) :
        Yields context (fun c => (Node.choice c).Shaped context) (finish b) :=
      yields_pure (Choice.shaped_of hname hb)
    refine (yields_isNext .matchWord).bind fun _ _ => ?_
    refine Yields.ite (fun _ => h.chain.bind hfinish) fun _ => ?_
    exact Yields.ite (fun _ => h.cases.bind hfinish) fun _ => yields_fail_bind _

theorem childProperty {start : Token} (hstart : context.Writes start.text) {arguments : Option Expr}
    (harguments : ∀ e ∈ arguments, e.Captured) {written : Option WrittenName}
    (hwritten : ∀ w ∈ written, w.name ≠ "") {l : Lead} (hl : l.Sound context) :
    Yields context (Property.Shaped context) (r.childProperty start arguments written l) := by
  unfold NodeReaders.childProperty
  have hname : context.Attaches start.text arguments := .inr hstart
  refine (yields_isNext .ifWord).bind fun _ _ => ?_
  refine (yields_isNext .matchWord).bind fun _ _ => ?_
  refine Yields.ite (fun _ => ?_) fun _ => ?_
  · exact (h.choice l written hl hwritten).bind fun c hc =>
      yields_choiceProperty start hname harguments hc hl
  · refine (h.widget l written hl hwritten).bind fun w hw => ?_
    refine (Attribute.yields_modifiers hl.property false).bind fun m hm => yields_pure ?_
    exact Property.shaped_child hname harguments hw hm

/-- A property starts at its name. -/
theorem namedProperty {l : Lead} (hl : l.Sound context) {c : Cursor} (hc : c.Sound context)
    (hstart : context.Writes c.token.text) : YieldsAt context c (Property.Shaped context) (r.namedProperty l) := by
  unfold NodeReaders.namedProperty
  refine yieldsAt_advance hc ?_
  refine (yields_accept .question).bind fun _ _ => ?_
  refine Yields.ite (fun _ => ?_) fun _ => ?_
  · exact (yields_expect .colon).bind fun _ _ => yields_valueProperty hstart hl true
  · refine yields_get.bind fun here hhere => ?_
    refine (yields_isNext .lbracket).bind fun _ _ => ?_
    extract_lets rest
    have hrest (group : Option Cursor) (hgroup : ∀ c ∈ group, c.Sound context) :
        Yields context (Property.Shaped context) (rest group) := by
      refine (yields_isNext .fatArrow).bind fun _ _ => ?_
      refine Yields.ite (fun _ => yields_connection hstart hgroup hl) fun _ => ?_
      refine (yields_accept .equals).bind fun _ _ => ?_
      refine Yields.ite (fun _ => ?_) fun _ => ?_
      · exact (yields_bracketArguments hgroup).bind fun arguments harguments =>
          h.childProperty hstart harguments (by simp) hl
      · refine (yields_accept .colon).bind fun _ _ => ?_
        refine Yields.ite (fun _ => ?_) fun _ => yields_current.bind fun _ _ => yields_fail _
        refine yields_writtenName?.bind fun written hwritten => ?_
        cases written with
        | some written =>
          exact (yields_bracketArguments hgroup).bind fun arguments harguments =>
            h.childProperty hstart harguments hwritten hl
        | none =>
          cases group with
          | some c => exact yields_failAt _ c.token
          | none => exact yields_valueProperty hstart hl false
    refine Yields.ite (fun _ => ?_) fun _ => hrest none (by simp)
    exact yields_balanced.bind fun _ _ => hrest (some here) (by simpa using hhere)

theorem item : Yields context (Property.Shaped context) r.item := by
  unfold NodeReaders.item
  refine Attribute.yields_lead.bind fun l hl c hc => ?_
  refine yieldsAt_current (YieldsAt.ite (fun _ => ?_) fun _ => ?_)
  · refine (h.choice l none hl (by simp)).bind (fun found hfound => ?_) c hc
    exact yields_choiceProperty c.token (.inl ⟨rfl, rfl⟩) (by simp) hfound hl
  · refine yieldsAt_ahead (YieldsAt.ite (fun hnamed => ?_) fun _ => ?_)
    · have hkind := (Bool.and_eq_true_iff.mp hnamed).1
      exact h.namedProperty hl hc ((Cursor.sound_token hc).writes hkind)
    · refine (h.widget l none hl (by simp)).bind (fun w hw => ?_) c hc
      refine (Attribute.yields_modifiers hl.property false).bind fun m hm => yields_pure ?_
      exact Property.shaped_child (.inl ⟨rfl, rfl⟩) (by simp) hw hm

theorem widgetOf {l : Lead} (hl : l.Sound context) {written : Option WrittenName}
    (hwritten : ∀ w ∈ written, w.name ≠ "") :
    Yields context (fun w => (Node.widget w).Shaped context) (r.widgetOf l written) := by
  unfold NodeReaders.widgetOf
  refine yields_current.bind fun start hstart => ?_
  refine (Attribute.yields_find? .localValue hl.node).bind fun localValue _ => ?_
  refine (Attribute.yields_find? .localReference hl.node).bind fun localReference _ => ?_
  refine (Attribute.yields_find? .template hl.node).bind fun template _ => ?_
  refine (Attribute.yields_find? .root hl.node).bind fun root _ => ?_
  refine (Attribute.yields_find? .name hl.node).bind fun named hnamed => ?_
  generalize localValue.or localReference = bound
  rcases localValue with _ | a <;> rcases localReference with _ | b
  case some.some => exact yields_failAt _ b.token
  case none.none | none.some | some.none =>
    refine (yields_ahead 1).bind fun next _ => ?_
    extract_lets rest
    have hrest (found : NodeName × Construction) (hfound : Identifies context found) :
        Yields context (fun w => (Node.widget w).Shaped context) (rest found) := by
      obtain ⟨name, construction⟩ := found
      refine yields_current.bind fun opening _ => ?_
      refine (yields_accept .lbrace).bind fun _ _ => ?_
      extract_lets finish
      have hfinish (properties : List Property) (hproperties : ∀ p ∈ properties, p.Shaped context) :
          Yields context (fun w => (Node.widget w).Shaped context) (finish properties) :=
        yields_pure (Widget.shaped_of hfound.name hfound.prebound hfound.path hfound.call hproperties)
      refine Yields.ite (fun _ => ?_) fun _ => hfinish [] (by simp)
      exact (yields_block h.item opening).bind hfinish
    refine Yields.ite (fun hbound => ?_) fun _ => ?_
    · have hkind := (Bool.and_eq_true_iff.mp hbound).1
      exact (yields_prebound (hstart.writes hkind) bound template named written).bind hrest
    · exact (yields_constructed bound template hnamed hwritten).bind hrest

end Shapes
end NodeReaders

/-- Nested nodes that are read have the shape, to any depth. -/
theorem shapes_nodeReaders (context : Context) (depth : Nat) :
    (nodeReaders depth).Shapes context := by
  induction depth with
  | zero => exact ⟨fun _ _ _ _ => yields_fail _, fun _ _ _ _ => yields_fail _⟩
  | succ depth ih => exact ⟨fun _ _ hl => ih.widgetOf hl, fun _ _ hl => ih.choiceOf hl⟩

namespace Component
variable {r : NodeReaders}

theorem yields_checkRoot (trees : List Widget) :
    Yields context (fun _ => misplacedRoot? trees = none) (checkRoot trees) := by
  unfold checkRoot
  split
  · exact yields_problem _
  · rename_i hnone
    exact yields_pure hnone

theorem yields_parameters :
    Yields context (fun found => ∀ p ∈ found, context.Writes p) parameters := by
  unfold parameters
  refine (yields_repeating (P := fun found => ∀ p ∈ found, context.Writes p) (fun found hfound => ?_)
    (by simp)).bind fun found hfound => (yields_expect .rparen).bind fun _ _ =>
      yields_pure fun p hp => hfound p (List.mem_reverse.mp hp)
  refine (yields_isNext .rparen).bind fun _ _ => ?_
  refine Yields.ite (fun _ => yields_done) fun _ => ?_
  refine yields_name.bind fun id hid => ?_
  refine (yields_accept .comma).bind fun _ _ => ?_
  refine (yields_isNext .rparen).bind fun _ _ => ?_
  refine Yields.ite (fun _ => ?_) fun _ => yields_more (List.forall_mem_cons.mpr ⟨hid, hfound⟩)
  exact yields_current.bind fun _ _ => yields_fail_bind _

theorem yields_readView (h : r.Shapes context) :
    Yields context (fun v => (Component.view v).Sound context) (readView r) := by
  unfold readView
  refine (yields_expect .view).bind fun start _ => ?_
  refine yields_name.bind fun id hid => ?_
  refine (yields_expect .lparen).bind fun _ _ => ?_
  refine yields_parameters.bind fun found hparams => ?_
  cases found with
  | nil => exact yields_failAt _ start
  | cons model others =>
    refine (yields_accept .tracked).bind fun tracked _ => ?_
    refine (yields_expect .lbrace).bind fun opening _ => ?_
    refine (yields_block h.tree opening).bind fun found hfound => ?_
    cases found with
    | nil => exact yields_failAt _ start
    | cons root trees =>
      refine (yields_checkRoot (root :: trees)).bind fun _ hmarks => yields_pure ?_
      exact sound_of hid hparams rfl rfl hfound hmarks fun _ => List.cons_ne_nil _ _

theorem yields_readTemplate (h : r.Shapes context) :
    Yields context (fun t => (Component.template t).Sound context) (readTemplate r) := by
  unfold readTemplate
  refine (yields_expect .template).bind fun start _ => ?_
  refine yields_name.bind fun id hid => ?_
  refine (yields_expect .lbrace).bind fun _ _ => ?_
  refine h.tree.bind fun tree htree => ?_
  refine (yields_accept .comma).bind fun _ _ => ?_
  refine (yields_isNext .rbrace).bind fun _ _ => ?_
  extract_lets rest
  have hrest : Yields context (fun t => (Component.template t).Sound context) (rest ()) := by
    refine yields_advance.bind fun _ _ => ?_
    refine (yields_checkRoot [tree]).bind fun _ hmarks => yields_pure ?_
    exact sound_of hid nofun rfl rfl (List.forall_mem_singleton.mpr htree) hmarks nofun
  refine Yields.ite (fun _ => ?_) fun _ => hrest
  exact yields_current.bind fun _ _ => yields_fail_bind _

theorem yields_component : Yields context (Sound context) Component.read := by
  refine yields_get.bind fun c _ => ?_
  have h := shapes_nodeReaders context (c.rest.length + 1)
  have hone : Yields context (Sound context) (readOne (nodeReaders (c.rest.length + 1))) := by
    refine (yields_isNext .view).bind fun _ _ => Yields.ite (fun _ => ?_) fun _ => ?_
    · exact (yields_readView h).bind fun _ hv => yields_pure hv
    · refine (yields_isNext .template).bind fun _ _ => Yields.ite (fun _ => ?_) fun _ => ?_
      · exact (yields_readTemplate h).bind fun _ ht => yields_pure ht
      · exact yields_current.bind fun _ _ => yields_fail _
  refine hone.bind fun component hcomponent => ?_
  refine (yields_isNext .eof).bind fun _ _ => ?_
  refine Yields.ite (fun _ => ?_) fun _ => yields_pure hcomponent
  exact yields_current.bind fun _ _ => yields_fail_bind _

end Component
end ViewTree
