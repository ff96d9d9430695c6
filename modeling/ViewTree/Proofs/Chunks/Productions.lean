import ViewTree.Proofs.Chunks.Readers
import ViewTree.ViewFile

/-!
Productions and the cutting of chunks, from attributes up to components. Main statement: inside of
brackets the readers of nodes, to any depth, leave as many of them open as they find
(`keepsNodes_nodeReaders`), and so the tokens of a component that is read are one chunk
(`Chunk.split_of_ofTokens`).
-/
namespace ViewTree
open TreeReader

variable {context : Context} {all : List Token} {level : Nat} {α β : Type} {P Q : Cursor → Prop}

namespace TreeReader

/-- Inside of brackets, a token that opens and closes nothing. -/
theorem carries_advance_plain {c : Cursor} {k : Token → TreeReader β}
    (hc : c.Runs all (level + 1)) (hplain : IsPlain c.token.kind)
    (h : c.advance.Runs all (level + 1) → Carries False context c.advance (fun _ => Q) (k c.token)) :
    Carries False context c (fun _ => Q) (advance >>= k) :=
  carries_advance (h (hc.advance (.inl (Nat.succ_pos level)) (.inl (depthBehind_plain hplain _))))

/-- Inside of brackets, a token of a known kind. -/
theorem moves_take_inside {kind : TokenKind} {level' : Nat} (hkind : kind ≠ .eof)
    (hlevel : depthBehind (level + 1) kind = level') :
    Moves context (Cursor.Runs all (level + 1)) (Cursor.Runs all level') (expect kind) :=
  moves_take hkind (.inl (Nat.succ_pos level)) (.inl hlevel)

end TreeReader

namespace Attribute

theorem keeps_nameArguments (a : Attribute) : Keeps context all level a.nameArguments := by
  unfold nameArguments
  refine (moves_repeating (fun s => ?_) _).bind fun s => moves_pure _
  obtain ⟨a, more⟩ := s
  refine Moves.ite (fun _ => moves_pure none) fun _ c hc => ?_
  refine carries_isNext (carries_ahead ?_)
  extract_lets marked rest
  have hrest : Keeps context all level (rest ()) := by
    refine keeps_name.bind fun word => (keeps_accept ⟨rfl, rfl⟩).bind fun _ => ?_
    refine Moves.ite (fun _ => ?_) fun _ => moves_pure _
    exact (moves_isNext .rparen).bind fun _ => moves_pure _
  refine Carries.ite (fun hmarked => ?_) fun _ => hrest c hc
  have hkind : c.token.kind = .mutWord :=
    of_decide_eq_true (Bool.and_eq_true_iff.mp (Bool.and_eq_true_iff.mp hmarked).1).2
  exact carries_advance_plain hc (hkind ▸ ⟨rfl, rfl⟩) fun hc => hrest _ hc

theorem keeps_stringArgument (a : Attribute) : Keeps context all level a.stringArgument := by
  unfold stringArgument
  refine (moves_take_inside (by decide) rfl).bind fun t => ?_
  refine (moves_stringValue t).bind fun value => ?_
  cases value with
  | none => exact moves_failAt _ t
  | some value =>
    refine Moves.ite (fun _ => (moves_expression _ _ _).bind fun e => moves_pure _) fun _ => ?_
    dsimp only
    split
    · exact moves_failAt _ t
    · exact moves_pure _

theorem keeps_arguments (a : Attribute) : Keeps context all level a.arguments := by
  unfold arguments
  refine moves_accept (.inl (Nat.succ_pos level)) rfl ?_ ?_
  · refine (moves_isNext .rparen).bind fun _ => ?_
    extract_lets finish rest
    have hfinish (b : Attribute) : Moves context (Cursor.Runs all (level + 2))
        (Cursor.Runs all (level + 1)) (finish b) :=
      (moves_take_inside (by decide) rfl).bind fun _ => moves_pure b
    have hrest : Moves context (Cursor.Runs all (level + 2)) (Cursor.Runs all (level + 1))
        (rest ()) := by
      refine Moves.ite (fun _ => (keeps_nameArguments a).bind hfinish) fun _ => ?_
      refine Moves.ite (fun _ => ?_) fun _ => moves_failAt_bind _ a.token
      exact (keeps_captureExpression [] _ none).bind fun e => hfinish _
    exact Moves.ite (fun _ => moves_fail_bind _) fun _ => hrest
  · refine (keeps_accept ⟨rfl, rfl⟩).bind fun _ => ?_
    refine Moves.ite (fun _ => ?_) fun _ => ?_
    · exact Moves.ite (fun _ => keeps_stringArgument a) fun _ => moves_failAt _ _
    · exact Moves.ite (fun _ => moves_failAt _ _) fun _ => moves_pure a

/-- The bracket that an attribute opens and closes. -/
theorem keeps_read : Keeps context all level Attribute.read := by
  unfold Attribute.read
  have hopen : Moves context (Cursor.Runs all (level + 1)) (Cursor.Runs all (level + 2))
      (expect .attrOpen) := moves_take (by decide) (.inl (Nat.succ_pos level)) (.inr rfl)
  refine hopen.bind fun _ => moves_current.bind fun t => keeps_name.bind fun word => ?_
  split
  · exact moves_failAt _ t
  · next kind _ =>
    refine (keeps_arguments _).bind fun a => (moves_take_inside (by decide) rfl).bind fun _ => ?_
    exact Moves.ite (fun _ => moves_failAt_bind _ t) fun _ => moves_pure a

theorem keeps_lead : Keeps context all level Attribute.lead := by
  unfold Attribute.lead
  refine (moves_repeating (fun s => ?_) _).bind fun s => moves_pure _
  obtain ⟨found, docs⟩ := s
  refine fun c hc => carries_isNext (Carries.ite (fun hdoc => ?_) fun _ => ?_)
  · have hkind : c.token.kind = .docComment := of_decide_eq_true hdoc
    exact carries_advance_plain hc (hkind ▸ ⟨rfl, rfl⟩) fun hc => carries_pure hc
  · refine carries_isNext (Carries.ite (fun _ => ?_) fun _ => carries_pure hc)
    exact keeps_read.bind (fun a => moves_pure _) c hc

theorem moves_find? (kind : AttributeKind) (as : List Attribute) :
    Moves context P P (Attribute.find? kind as) := by
  unfold Attribute.find?
  split
  · exact moves_pure _
  · exact moves_pure _
  · exact moves_failAt _ _

theorem moves_modifiers (as : List Attribute) (optional : Bool) :
    Moves context P P (Attribute.modifiers as optional) := by
  unfold Attribute.modifiers
  refine (moves_foldlM (fun s a => ?_) as _).bind fun s => moves_pure s.1
  exact Moves.ite (fun _ => moves_failAt_bind _ a.token) fun _ => moves_pure _

end Attribute

namespace NodeReaders

theorem keeps_dottedPath : Keeps context all level dottedPath := by
  refine keeps_name.bind fun first => (moves_repeating (fun found c hc => ?_) _).bind fun found =>
    moves_pure _
  refine carries_isNext (carries_ahead (Carries.ite (fun hnext => ?_) fun _ => carries_pure hc))
  obtain ⟨hdot, hname⟩ := Bool.and_eq_true_iff.mp hnext
  have hdot : c.token.kind = .dot := of_decide_eq_true hdot
  refine carries_advance_plain hc (hdot ▸ ⟨rfl, rfl⟩) fun hc => ?_
  exact carries_advance_plain hc (isName_plain (c.token_advance ▸ hname)) fun hc => carries_pure hc

theorem keeps_construction : Keeps context all level construction := by
  unfold construction
  refine moves_current.bind fun start => ?_
  refine Moves.ite (fun _ => moves_fail_bind _) fun _ => ?_
  refine keeps_dottedPath.bind fun path c hc => carries_isNext ?_
  refine Carries.ite (fun _ => carries_pure hc) fun hopening => ?_
  have hopening : c.token.kind = .lparen := by simpa using hopening
  refine (carries_group hc (hopening ▸ rfl)).bind fun last c hc => ?_
  refine (moves_repeating (fun s c hc => ?_) _).bind (fun s => ?_) c hc
  · refine carries_isNext (carries_ahead (carries_ahead
      (Carries.ite (fun hnext => ?_) fun _ => carries_pure hc)))
    obtain ⟨hnext, hopening⟩ := Bool.and_eq_true_iff.mp hnext
    obtain ⟨hdot, hname⟩ := Bool.and_eq_true_iff.mp hnext
    have hdot : c.token.kind = .dot := of_decide_eq_true hdot
    refine carries_advance_plain hc (hdot ▸ ⟨rfl, rfl⟩) fun hc => ?_
    refine carries_advance_plain hc (isName_plain (c.token_advance ▸ hname)) fun hc => ?_
    have hopening : c.advance.advance.token.kind = .lparen := by
      rw [Cursor.token_advance, Cursor.ahead_advance]
      exact of_decide_eq_true hopening
    exact (carries_group hc (hopening ▸ rfl)).bind fun last c hc => carries_pure hc
  · exact (moves_textBetween _ _).bind fun _ => (moves_expression _ _ _).bind fun _ => moves_pure _

theorem moves_nodeName (isChoice : Bool) (named : Option Attribute) (written : Option WrittenName) :
    Moves context P P (nodeName isChoice named written) := by
  unfold nodeName
  split
  · exact moves_failAt _ _
  · exact moves_pure _
  · exact moves_pure _
  · exact moves_pure _

theorem moves_rejectNodeAttributes (lead : Lead) (property : String) :
    Moves context P P (rejectNodeAttributes lead property) := by
  unfold rejectNodeAttributes
  split
  · exact moves_failAt _ _
  · exact moves_pure _

theorem carries_prebound {c : Cursor} (hc : c.Runs all (level + 1)) (hname : c.token.kind.isName)
    (start : Token) (bound template named : Option Attribute) (written : Option WrittenName) :
    Carries False context c (fun _ => Cursor.Runs all (level + 1))
      (prebound start bound template named written) := by
  unfold prebound
  cases bound with
  | none => exact carries_failAt _ start
  | some a =>
    refine Carries.ite (fun _ => moves_failAt_bind _ start c hc) fun _ => ?_
    cases template with
    | some t => exact carries_failAt _ t.token
    | none =>
      refine carries_advance_plain hc (isName_plain hname) fun hc => ?_
      refine (moves_take_inside (by decide) rfl).bind (fun _ => ?_) _ hc
      exact keeps_dottedPath.bind fun path => moves_pure _

theorem keeps_constructed (bound template named : Option Attribute) (written : Option WrittenName) :
    Keeps context all level (constructed bound template named written) := by
  unfold constructed
  cases bound with
  | some a => exact moves_failAt _ a.token
  | none =>
    refine keeps_construction.bind fun built => ?_
    extract_lets finish
    have hfinish (built : Construction) : Keeps context all level (finish built) :=
      (moves_nodeName false named written).bind fun name => moves_pure _
    split
    · exact hfinish _
    · exact hfinish _
    · exact moves_failAt_bind _ _

theorem moves_choiceProperty (name : String) (arguments : Option Expr) (choice : Choice)
    (lead : Lead) (start : Token) :
    Moves context P P (choiceProperty name arguments choice lead start) :=
  (Attribute.moves_modifiers lead.property false).bind fun _ => moves_pure _

theorem moves_bracketArguments (group : Option Cursor) :
    Moves context P P (bracketArguments group) := by
  cases group with
  | none => exact moves_pure none
  | some c => exact moves_rereading _ _

theorem moves_captures (group : Option Cursor) : Moves context P P (captures group) := by
  cases group with
  | none => exact moves_pure []
  | some c => exact moves_rereading _ _

theorem keeps_connection (start : Token) (group : Option Cursor) (lead : Lead) :
    Keeps context all level (connection start group lead) := by
  unfold connection
  refine (moves_rejectNodeAttributes lead start.text).bind fun _ => ?_
  refine Moves.ite (fun _ => moves_failAt_bind _ start) fun _ => ?_
  refine (moves_captures group).bind fun taken => (moves_take_inside (by decide) rfl).bind fun _ => ?_
  refine (keeps_captureExpression _ _ _).bind fun value => (keeps_accept ⟨rfl, rfl⟩).bind fun _ => ?_
  extract_lets finish
  have hfinish (guard : Option String) : Keeps context all level (finish guard) :=
    (Attribute.moves_modifiers lead.property false).bind fun _ => moves_pure _
  exact Moves.ite (fun _ => keeps_name.bind fun guard => hfinish (some guard)) fun _ => hfinish none

theorem keeps_valueProperty (start : Token) (lead : Lead) (optional : Bool) :
    Keeps context all level (valueProperty start lead optional) := by
  unfold valueProperty
  refine (moves_rejectNodeAttributes lead start.text).bind fun _ => moves_read.bind fun _ => ?_
  refine Moves.ite (fun _ => moves_failAt_bind _ start) fun _ => ?_
  refine (keeps_captureExpression _ _ _).bind fun value => ?_
  exact (Attribute.moves_modifiers lead.property optional).bind fun m => moves_pure _

theorem keeps_writtenName? : Keeps context all level writtenName? := by
  intro c hc
  have hwritten (isMutable : Bool) : Keeps context all level (do
      let id ← name
      let _ ← expect .equals
      pure (some (⟨id, isMutable⟩ : WrittenName))) :=
    keeps_name.bind fun id => (moves_take_inside (by decide) rfl).bind fun _ => moves_pure _
  refine carries_isNext (carries_ahead (carries_ahead (Carries.ite (fun hmut => ?_) fun _ => ?_)))
  · have hkind : c.token.kind = .mutWord := of_decide_eq_true (Bool.and_eq_true_iff.mp hmut).1
    exact carries_advance_plain hc (hkind ▸ ⟨rfl, rfl⟩) fun hc => hwritten true _ hc
  · refine carries_current (carries_ahead (Carries.ite (fun _ => ?_) fun _ => carries_pure hc))
    exact hwritten false c hc

/-- The readers that recursion goes through leave as many brackets open as they find. -/
structure KeepsNodes (context : Context) (all : List Token) (r : NodeReaders) : Prop where
  widget : ∀ (level : Nat) (lead : Lead) (written : Option WrittenName),
    Keeps context all level (r.widget lead written)
  choice : ∀ (level : Nat) (lead : Lead) (written : Option WrittenName),
    Keeps context all level (r.choice lead written)

namespace KeepsNodes
variable {r : NodeReaders} (h : r.KeepsNodes context all)
include h

theorem tree : Keeps context all level r.tree := by
  unfold NodeReaders.tree
  refine Attribute.keeps_lead.bind fun lead => ?_
  split
  · exact moves_failAt _ _
  · refine (moves_isNext .ifWord).bind fun _ => (moves_isNext .matchWord).bind fun _ => ?_
    exact Moves.ite (fun _ => moves_fail_bind _) fun _ => h.widget level lead none

theorem branchBody (bare : Bool) : Keeps context all level (r.branchBody bare) := by
  unfold NodeReaders.branchBody
  refine moves_current.bind fun opening => moves_accept (.inl (Nat.succ_pos level)) rfl ?_ ?_
  · refine Moves.ite (fun _ => ?_) fun hnot => absurd rfl hnot
    refine h.tree.bind fun w => (keeps_accept ⟨rfl, rfl⟩).bind fun _ c hc => carries_current ?_
    refine Carries.ite (fun _ => moves_failAt_bind _ _ c hc) fun hbrace => ?_
    have hkind : c.token.kind = .rbrace := by simpa using hbrace
    exact carries_advance (carries_pure (hc.advance (.inl (Nat.succ_pos _)) (.inl (hkind ▸ rfl))))
  · refine Moves.ite nofun fun _ => Moves.ite (fun _ => h.tree) fun _ => moves_fail _

theorem branch (start : Token) : Keeps context all level (r.branch start) :=
  (keeps_captureExpression _ _ _).bind fun _ => (h.branchBody false).bind fun _ =>
    moves_pure _

theorem chain : Keeps context all level r.chain := by
  unfold NodeReaders.chain
  refine (moves_take_inside (by decide) rfl).bind fun t => (h.branch t).bind fun first => ?_
  refine (moves_repeating (fun others c hc => ?_) _).bind fun others => ?_
  · refine carries_current (carries_ahead (Carries.ite (fun hnext => ?_) fun _ => carries_pure hc))
    have hbranch (c' : Cursor) (hc' : c'.Runs all (level + 1)) (hplain : IsPlain c'.token.kind) :
        Carries False context c' (fun _ => Cursor.Runs all (level + 1)) (do
          let _ ← advance
          pure (some ((← r.branch c.token) :: others))) :=
      carries_advance_plain hc' hplain fun hc' => (h.branch _).bind (fun b => moves_pure _) _ hc'
    refine carries_accept (fun helse => hbranch _ ?_ ?_) fun hnot => hbranch c hc ?_
    · exact hc.advance (.inl (Nat.succ_pos level)) (.inl (helse ▸ rfl))
    · rw [helse] at hnext
      have hkind : c.advance.token.kind = .ifWord := c.token_advance ▸ by simpa using hnext
      exact hkind ▸ ⟨rfl, rfl⟩
    · have hkind : c.token.kind = .elifWord := by simpa [hnot] using hnext
      exact hkind ▸ ⟨rfl, rfl⟩
  · refine moves_current.bind fun start => (keeps_accept ⟨rfl, rfl⟩).bind fun _ => ?_
    refine Moves.ite (fun _ => ?_) fun _ => moves_failAt _ start
    exact (h.branchBody false).bind fun last => moves_pure _

theorem caseArm : Keeps context all level r.caseArm :=
  moves_current.bind fun start => keeps_capturePattern.bind fun pattern =>
    (moves_take_inside (by decide) rfl).bind fun _ => (h.branchBody true).bind fun w => moves_pure _

theorem cases : Keeps context all level r.cases := by
  unfold NodeReaders.cases
  refine (moves_take_inside (by decide) rfl).bind fun start => ?_
  refine (keeps_captureExpression _ _ _).bind fun subject => ?_
  have hopen : Moves context (Cursor.Runs all (level + 1)) (Cursor.Runs all (level + 2))
      (expect .lbrace) := moves_take_inside (by decide) rfl
  refine hopen.bind fun opening => (moves_block h.caseArm opening).bind fun arms => ?_
  refine Moves.weaken (P := Cursor.Runs all (level + 1)) ?_ fun _ => Cursor.Stands.runs
  split
  · exact moves_failAt _ start
  · split
    · exact moves_failAt _ _
    · exact moves_pure _

theorem choiceOf (lead : Lead) (written : Option WrittenName) :
    Keeps context all level (r.choiceOf lead written) := by
  unfold NodeReaders.choiceOf
  refine moves_current.bind fun start => ?_
  split
  · exact moves_failAt _ _
  · refine (Attribute.moves_find? .name lead.node).bind fun named => ?_
    refine (moves_nodeName true named written).bind fun name => (moves_isNext .ifWord).bind fun _ => ?_
    refine (moves_isNext .matchWord).bind fun _ => ?_
    refine Moves.ite (fun _ => h.chain.bind fun _ => moves_pure _) fun _ => ?_
    exact Moves.ite (fun _ => h.cases.bind fun _ => moves_pure _) fun _ => moves_fail_bind _

theorem childProperty (start : Token) (arguments : Option Expr) (written : Option WrittenName)
    (lead : Lead) : Keeps context all level (r.childProperty start arguments written lead) := by
  unfold NodeReaders.childProperty
  refine (moves_isNext .ifWord).bind fun _ => (moves_isNext .matchWord).bind fun _ => ?_
  refine Moves.ite (fun _ => ?_) fun _ => ?_
  · exact (h.choice level lead written).bind fun c => moves_choiceProperty _ _ c lead start
  · refine (h.widget level lead written).bind fun w => ?_
    exact (Attribute.moves_modifiers lead.property false).bind fun _ => moves_pure _

/-- A property starts at its name. -/
theorem carries_namedProperty (lead : Lead) {c : Cursor} (hc : c.Runs all (level + 1))
    (hname : c.token.kind.isName) : Carries False context c (fun _ => Cursor.Runs all (level + 1))
      (r.namedProperty lead) := by
  unfold NodeReaders.namedProperty
  refine carries_advance_plain hc (isName_plain hname) fun hc => ?_
  generalize c.token = start
  refine ((keeps_accept ⟨rfl, rfl⟩).bind fun _ => ?_) _ hc
  refine Moves.ite (fun _ => ?_) fun _ c hc => ?_
  · exact (moves_take_inside (by decide) rfl).bind fun _ => keeps_valueProperty start lead true
  · refine carries_get (carries_isNext ?_)
    extract_lets rest
    have hrest (group : Option Cursor) : Keeps context all level (rest group) := by
      refine (moves_isNext .fatArrow).bind fun _ => ?_
      refine Moves.ite (fun _ => keeps_connection start group lead) fun _ => ?_
      refine (keeps_accept ⟨rfl, rfl⟩).bind fun _ => Moves.ite (fun _ => ?_) fun _ => ?_
      · exact (moves_bracketArguments group).bind fun arguments => h.childProperty start arguments none lead
      · refine (keeps_accept ⟨rfl, rfl⟩).bind fun _ => Moves.ite (fun _ => ?_) fun _ => ?_
        · refine keeps_writtenName?.bind fun written => ?_
          split
          · exact (moves_bracketArguments group).bind fun arguments =>
              h.childProperty start arguments _ lead
          · split
            · exact moves_failAt _ _
            · exact keeps_valueProperty start lead false
        · exact moves_current.bind fun t => moves_fail _
    refine Carries.ite (fun hopening => ?_) fun _ => hrest none c hc
    have hopening : c.token.kind = .lbracket := of_decide_eq_true hopening
    exact (carries_group hc (hopening ▸ rfl)).bind fun _ c' hc' => hrest (some c) c' hc'

theorem item : Keeps context all level r.item := by
  unfold NodeReaders.item
  refine Attribute.keeps_lead.bind fun lead c hc => carries_current ?_
  refine Carries.ite (fun _ => ?_) fun _ => carries_ahead ?_
  · exact (h.choice level lead none).bind (fun found => moves_choiceProperty _ _ found lead _) c hc
  · refine Carries.ite (fun hnamed => ?_) fun _ => ?_
    · exact h.carries_namedProperty lead hc (Bool.and_eq_true_iff.mp hnamed).1
    · refine (h.widget level lead none).bind (fun w => ?_) c hc
      exact (Attribute.moves_modifiers lead.property false).bind fun _ => moves_pure _

theorem widgetOf (lead : Lead) (written : Option WrittenName) :
    Keeps context all level (r.widgetOf lead written) := by
  unfold NodeReaders.widgetOf
  intro c hc
  refine carries_current ?_
  have hfind (kind : AttributeKind) {k : Option Attribute → TreeReader Widget}
      (hk : ∀ found, Carries False context c (fun _ => Cursor.Runs all (level + 1)) (k found)) :
      Carries False context c (fun _ => Cursor.Runs all (level + 1))
        (Attribute.find? kind lead.node >>= k) :=
    (Attribute.moves_find? (P := (· = c)) kind lead.node c rfl).bind fun found _ heq => heq ▸ hk found
  refine hfind .localValue fun localValue => hfind .localReference fun localReference => ?_
  refine hfind .template fun template => hfind .root fun root => hfind .name fun named => ?_
  generalize localValue.or localReference = bound
  have hrest (found : NodeName × Construction) : Keeps context all level (do
      let opening ← current
      let properties ← if ← accept .lbrace then block opening r.item else pure []
      pure ⟨found.1, found.2, root.isSome, lead.doc, c.token.place, properties⟩ : TreeReader Widget) := by
    refine moves_current.bind fun opening => moves_accept (.inl (Nat.succ_pos level)) rfl ?_ ?_
    · refine Moves.ite (fun _ => ?_) fun hnot => absurd rfl hnot
      refine (moves_block h.item opening).bind fun properties => ?_
      exact (moves_pure _).weaken fun _ => Cursor.Stands.runs
    · exact Moves.ite nofun fun _ => moves_pure _
  rcases localValue with _ | a <;> rcases localReference with _ | b
  case some.some => exact carries_failAt _ b.token
  case none.none | none.some | some.none =>
    refine carries_ahead (Carries.ite (fun hbound => ?_) fun _ => ?_)
    · have hname := (Bool.and_eq_true_iff.mp hbound).1
      exact (carries_prebound hc hname _ bound template named written).bind fun found c' hc' =>
        hrest found c' hc'
    · exact (keeps_constructed bound template named written).bind hrest c hc

end KeepsNodes
end NodeReaders

/-- Nested nodes leave as many brackets open as they find, to any depth. -/
theorem keepsNodes_nodeReaders (context : Context) (all : List Token) (depth : Nat) :
    (nodeReaders depth).KeepsNodes context all := by
  induction depth with
  | zero => exact ⟨fun _ _ _ => moves_fail _, fun _ _ _ => moves_fail _⟩
  | succ depth ih => exact ⟨fun _ lead => ih.widgetOf lead, fun _ lead => ih.choiceOf lead⟩

/-- The cursor is in front of a component whose name starts no other one, nor does a word behind an
attribute in it. -/
structure Cursor.Begins (all : List Token) (c : Cursor) : Prop where
  eof : c.eof.kind = .eof
  rest : c.rest = all
  name : ∀ t ∈ all[1]?, t.kind.startsComponent = false
  nested : Chunk.Nested all

/-- The first token cuts nothing off. -/
theorem Cursor.Begins.advance {c : Cursor} (h : c.Begins all) (hkind : c.token.kind ≠ .eof)
    (hplain : IsPlain c.token.kind) :
    c.advance.Runs all 0 ∧ c.advance.token.kind.startsComponent = false := by
  have hrest := rest_eq_cons h.eof hkind
  have hall : all = [c.token] ++ c.advance.rest := h.rest.symm.trans hrest
  refine ⟨⟨c.eof_advance.symm ▸ h.eof, .inr ⟨h.nested, [c.token], 0, hall, ?_, .inl rfl⟩⟩, ?_⟩
  · show Chunk.Cut.push {} c.token = _
    unfold Chunk.Cut.push
    dsimp only
    rw [if_neg (by simp), hplain.1, hplain.2]
    rfl
  · cases hnext : c.advance.rest with
    | nil =>
      have htoken : c.advance.token = c.eof := by
        rw [Cursor.token, hnext, eof_advance]
        rfl
      rw [htoken, h.eof]
      rfl
    | cons t more =>
      have htoken : c.advance.token = t := by rw [Cursor.token, hnext]; rfl
      rw [hnext] at hall
      exact htoken ▸ h.name t (by rw [hall]; rfl)

namespace Component
variable {r : NodeReaders}

theorem moves_checkRoot (trees : List Widget) : Moves context P P (checkRoot trees) := by
  unfold checkRoot
  split
  · exact moves_throw _
  · exact moves_pure _

theorem moves_parameters :
    Moves context (Cursor.Runs all (level + 1)) (Cursor.Runs all level) parameters := by
  unfold parameters
  refine (moves_repeating (fun found => ?_) _).bind fun found =>
    (moves_take_inside (by decide) rfl).bind fun _ => moves_pure _
  refine (moves_isNext .rparen).bind fun _ => Moves.ite (fun _ => moves_pure none) fun _ => ?_
  refine keeps_name.bind fun id => (keeps_accept ⟨rfl, rfl⟩).bind fun _ => ?_
  refine (moves_isNext .rparen).bind fun _ => Moves.ite (fun _ => ?_) fun _ => moves_pure _
  exact moves_current.bind fun t => moves_fail_bind _

/-- The word of a component and its name. -/
theorem moves_header {kind : TokenKind} (hkind : kind ≠ .eof) (hplain : IsPlain kind)
    {k : Token → String → TreeReader β} (h : ∀ start id, Moves context (Cursor.Runs all 0) Q (k start id)) :
    Moves context (Cursor.Begins all) Q (expect kind >>= fun start => TreeReader.name >>= k start) := by
  intro c hc
  refine (carries_expect (T := fun _ c' => c'.Runs all 0 ∧ c'.token.kind.startsComponent = false)
    fun htoken => hc.advance (htoken ▸ hkind) (htoken ▸ hplain)).bind fun start c' ⟨hc', hstarts⟩ => ?_
  refine (carries_name (S := fun _ => Cursor.Runs all 0) fun hname => ?_).bind fun id c' hc' =>
    h start id c' hc'
  exact hc'.advance (.inr hstarts) (.inl (depthBehind_plain (NodeReaders.isName_plain hname) 0))

theorem moves_readView (h : r.KeepsNodes context all) :
    Moves context (Cursor.Begins all) (Cursor.Stands all 0) (readView r) := by
  unfold readView
  refine moves_header (by decide) ⟨rfl, rfl⟩ fun start id => ?_
  have hopen : Moves context (Cursor.Runs all 0) (Cursor.Runs all 1) (expect .lparen) :=
    moves_take (by decide) (.inr rfl) (.inl rfl)
  refine hopen.bind fun _ => moves_parameters.bind fun found => ?_
  split
  · exact moves_failAt _ start
  · have hbody : Moves context (Cursor.Runs all 0) (Cursor.Runs all 1) (expect .lbrace) :=
      moves_take (by decide) (.inr rfl) (.inl rfl)
    refine (moves_accept_plain (.inr rfl) ⟨rfl, rfl⟩).bind fun tracked => hbody.bind fun opening => ?_
    refine (moves_block h.tree opening).bind fun trees => ?_
    split
    · exact moves_failAt _ start
    · exact (moves_checkRoot _).bind fun _ => moves_pure _

theorem moves_readTemplate (h : r.KeepsNodes context all) :
    Moves context (Cursor.Begins all) (Cursor.Stands all 0) (readTemplate r) := by
  unfold readTemplate
  refine moves_header (by decide) ⟨rfl, rfl⟩ fun start id => ?_
  have hopen : Moves context (Cursor.Runs all 0) (Cursor.Runs all 1) (expect .lbrace) :=
    moves_take (by decide) (.inr rfl) (.inl rfl)
  refine hopen.bind fun _ => h.tree.bind fun tree => (keeps_accept ⟨rfl, rfl⟩).bind fun _ c hc => ?_
  refine carries_isNext (Carries.ite (fun _ => ?_) fun hbrace => ?_)
  · exact moves_current.bind (fun t => moves_fail_bind _) c hc
  · have hkind : c.token.kind = .rbrace := by simpa using hbrace
    refine carries_advance ((moves_checkRoot [tree]).bind (fun _ => moves_pure _) c.advance ?_)
    exact hc.stands_advance (by rw [hkind]; decide) (.inl Nat.one_pos) (.inl (hkind ▸ rfl))

/-- A component that is read ends outside of all brackets, and with the tokens. -/
theorem moves_component : Moves context (Cursor.Begins all)
    (fun c => c.Stands all 0 ∧ c.token.kind = .eof) Component.read := by
  intro c hc
  refine carries_get ?_
  have h := keepsNodes_nodeReaders context all (c.rest.length + 1)
  have hone : Moves context (Cursor.Begins all) (Cursor.Stands all 0)
      (readOne (nodeReaders (c.rest.length + 1))) := by
    unfold readOne
    refine (moves_isNext .view).bind fun _ => Moves.ite (fun _ => ?_) fun _ => ?_
    · exact (moves_readView h).bind fun _ => moves_pure _
    · refine (moves_isNext .template).bind fun _ => Moves.ite (fun _ => ?_) fun _ => ?_
      · exact (moves_readTemplate h).bind fun _ => moves_pure _
      · exact moves_current.bind fun _ => moves_fail _
  refine (hone c hc).bind fun component c hc => carries_isNext (Carries.ite (fun _ => ?_) fun hends => ?_)
  · exact moves_current.bind (fun _ => moves_fail_bind _) c hc
  · exact carries_pure ⟨hc, by simpa using hends⟩

end Component

/-- The next two tokens are the word of a component and its name. -/
def Cursor.Names (c : Cursor) (kind : ComponentKind) (name : String) : Prop :=
  ∃ t u later, c.rest = t :: u :: later ∧ ComponentKind.ofToken? t.kind = some kind ∧ u.text = name

namespace Component
variable {c : Cursor} {r : NodeReaders}

theorem carries_any {γ : Type} (reader : TreeReader γ) :
    Carries False context c (fun _ _ => True) reader := ⟨fun _ _ _ => trivial, nofun⟩

theorem carries_names {word : TokenKind} {kind : ComponentKind} {S : β → Cursor → Prop}
    (heof : c.eof.kind = .eof) (hword : ComponentKind.ofToken? word = some kind)
    {k : Token → String → TreeReader β}
    (h : ∀ start id c', c.Names kind id → Carries False context c' S (k start id)) :
    Carries False context c S (expect word >>= fun start => TreeReader.name >>= k start) := by
  refine (carries_expect (T := fun _ c' => c.token.kind = word ∧ c' = c.advance)
    fun htoken => ⟨htoken, rfl⟩).bind ?_
  rintro start _ ⟨htoken, rfl⟩
  have hrest := Cursor.rest_eq_cons heof (fun hends => by
    rw [← htoken, hends] at hword
    nomatch hword)
  refine (carries_name (S := fun id _ => c.Names kind id) fun hname => ?_).bind fun id c' => h start id c'
  have hnext := Cursor.rest_eq_cons (c.eof_advance ▸ heof) (fun hends => by
    rw [hends] at hname
    nomatch hname)
  exact ⟨c.token, c.advance.token, _, hnext ▸ hrest, htoken ▸ hword, rfl⟩

theorem carries_readView (heof : c.eof.kind = .eof) :
    Carries False context c (fun v _ => c.Names .view v.name) (readView r) := by
  refine carries_names heof rfl fun start id c' hnames => ?_
  refine (carries_any _).bind fun _ _ _ => (carries_any parameters).bind fun found c' _ => ?_
  split
  · exact carries_failAt _ start
  · refine (carries_any _).bind fun tracked _ _ => (carries_any _).bind fun opening _ _ => ?_
    refine (carries_any (block opening r.tree)).bind fun trees c' _ => ?_
    split
    · exact carries_failAt _ start
    · exact (carries_any _).bind fun _ _ _ => carries_pure hnames

theorem carries_readTemplate (heof : c.eof.kind = .eof) :
    Carries False context c (fun t _ => c.Names .template t.name) (readTemplate r) := by
  refine carries_names heof rfl fun start id c' hnames => ?_
  refine (carries_any _).bind fun _ _ _ => (carries_any r.tree).bind fun tree _ _ => ?_
  refine (carries_any _).bind fun _ _ _ => carries_isNext (Carries.ite (fun _ => ?_) fun _ => ?_)
  · exact (carries_any _).bind fun _ _ _ => (carries_fail _).bind fun _ _ h => h
  · exact (carries_any _).bind fun _ _ _ => (carries_any _).bind fun _ _ _ => carries_pure hnames

/-- A component that is read has its kind from the first token and its name from the second. -/
theorem exists_words_of_ofTokens {tokens : Tokens} {component : Component}
    (heof : tokens.eof.kind = .eof) (h : ofTokens context tokens = .ok component) :
    Cursor.Names ⟨none, tokens.items, tokens.eof⟩ component.kind component.name := by
  have hread : Carries False context ⟨none, tokens.items, tokens.eof⟩ (fun component _ =>
      Cursor.Names ⟨none, tokens.items, tokens.eof⟩ component.kind component.name) Component.read := by
    refine carries_get (Carries.bind (Q := fun component _ =>
      Cursor.Names ⟨none, tokens.items, tokens.eof⟩ component.kind component.name) ?_ ?_)
    · refine carries_isNext (Carries.ite (fun _ => ?_) fun _ => ?_)
      · exact (carries_readView heof).bind fun v _ hnames => carries_pure hnames
      · refine carries_isNext (Carries.ite (fun _ => ?_) fun _ => ?_)
        · exact (carries_readTemplate heof).bind fun t _ hnames => carries_pure hnames
        · exact (carries_any _).bind fun _ _ _ => carries_fail _
    · intro component c' hnames
      refine carries_isNext (Carries.ite (fun _ => ?_) fun _ => carries_pure hnames)
      exact (carries_any _).bind fun _ _ _ => (carries_fail _).bind fun _ _ h => h
  unfold ofTokens at h
  split at h
  · next found c' heq =>
    obtain rfl := Except.ok.inj h
    exact hread.gives found c' heq
  · nomatch h

end Component

/-- The name of a component starts no other one, nor does a word behind an attribute, unless it stands
in more brackets than have been closed. The end is marked once. -/
structure Tokens.StartsOnce (tokens : Tokens) : Prop where
  eof : tokens.eof.kind = .eof
  items : ∀ t ∈ tokens.items, t.kind ≠ .eof
  name : ∀ t ∈ tokens.items[1]?, t.kind.startsComponent = false
  nested : Chunk.Nested tokens.items

theorem Chunk.split_of_ofTokens {tokens : Tokens} {component : Component} (hstarts : tokens.StartsOnce)
    (h : Component.ofTokens context tokens = .ok component) : Chunk.split tokens = [⟨tokens⟩] := by
  obtain ⟨first, second, later, hitems, -⟩ := Component.exists_words_of_ofTokens hstarts.eof h
  have hends : ∃ c : Cursor, c.Stands tokens.items 0 ∧ c.token.kind = .eof := by
    unfold Component.ofTokens at h
    split at h
    · next found c heq =>
      exact ⟨c, (Component.moves_component ⟨none, tokens.items, tokens.eof⟩
        ⟨hstarts.eof, rfl, hstarts.name, hstarts.nested⟩).gives found c heq⟩
    · nomatch h
  obtain ⟨c, hc, hkind⟩ := hends
  obtain ⟨us, depth, hall, hpush, -⟩ := hc.uncut.taken
  have hrest : c.rest = [] := by
    cases hrest : c.rest with
    | nil => rfl
    | cons t rest =>
      have htoken : c.token = t := by rw [Cursor.token, hrest]; rfl
      refine absurd (htoken ▸ hkind) (hstarts.items t ?_)
      rw [hall, hrest]
      exact List.mem_append_right _ List.mem_cons_self
  rw [hrest, List.append_nil] at hall
  unfold Chunk.split
  dsimp only
  rw [hall, hpush, if_neg, List.reverse_reverse, ← hall]
  · rfl
  · rw [← hall]
    show ¬tokens.items.reverse.isEmpty = true
    rw [show tokens.items = first :: second :: later from hitems]
    simp

end ViewTree
