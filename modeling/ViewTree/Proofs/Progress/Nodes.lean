import ViewTree.Proofs.Progress.Productions

/-!
Nodes and components that move on. Main statement: readers of nodes that agree on fewer than `n`
tokens make up readers that agree on `n` (`NodeReaders.Agree.next`), and so it does not matter to how
many nested nodes reading is bounded once there are as many as tokens (`agree_nodeReaders`).
-/
namespace ViewTree
open TreeReader

variable {context : Context} {tokens : Tokens} {n : Nat} {P : Cursor → Prop}

namespace NodeReaders

/-- The readers that recursion goes through do the same where fewer than `n` tokens are left behind
the one that they take. -/
structure Agree (context : Context) (tokens : Tokens) (n : Nat) (r r' : NodeReaders) : Prop where
  widget : ∀ m < n, ∀ (lead : Lead) (written : Option WrittenName),
    Consumes context tokens m (r.widget lead written) (r'.widget lead written)
  choice : ∀ m < n, ∀ (lead : Lead) (written : Option WrittenName),
    Consumes context tokens m (r.choice lead written) (r'.choice lead written)

def chainRound (r : NodeReaders) (others : List Branch) : TreeReader (Option (List Branch)) := do
  let start ← current
  if start.kind = .elifWord || (start.kind = .elseWord && (← ahead).kind = .ifWord) then
    let _ ← accept .elseWord
    let _ ← advance
    pure (some ((← r.branch start) :: others))
  else pure none

theorem chain_eq (r : NodeReaders) : r.chain = (do
    let first ← r.branch (← expect .ifWord)
    let others ← repeating r.chainRound []
    let start ← current
    if ← accept .elseWord then
      let last ← r.branchBody false
      pure (.chain first others.reverse last start.place)
    else failAt (.unfinishedChain start.describe) start) := rfl

/-- What stands in front of the items of a widget: the widget without them. -/
def widgetHead (lead : Lead) (written : Option WrittenName) : TreeReader Widget := do
  let start ← current
  let find (kind : AttributeKind) : TreeReader (Option Attribute) := Attribute.find? kind lead.node
  let localValue ← find .localValue
  let localReference ← find .localReference
  let template ← find .template
  let root ← find .root
  let named ← find .name
  match localValue, localReference with
  | some _, some b => failAt .bothLocal b.token
  | _, _ =>
    let bound := localValue.or localReference
    let (name, construction) ←
      if start.kind.isName && (← ahead).kind = .arrow then
        prebound start bound template named written
      else constructed bound template named written
    pure ⟨name, construction, root.isSome, lead.doc, start.place, []⟩

def widgetBody (item : TreeReader Property) (head : Widget) : TreeReader Widget := do
  let opening ← current
  let properties ← if ← accept .lbrace then block opening item else pure []
  pure { head with properties }

theorem widgetOf_eq (r : NodeReaders) (lead : Lead) (written : Option WrittenName) :
    r.widgetOf lead written = (do widgetBody r.item (← widgetHead lead written)) := by
  unfold widgetOf widgetHead
  simp only [bind_assoc]
  congr; funext start
  congr; funext localValue
  congr; funext localReference
  congr; funext template
  congr; funext root
  congr; funext named
  rcases localValue with _ | a <;> rcases localReference with _ | b
  case some.some => rfl
  all_goals
    simp only [bind_assoc]
    congr; funext next
    split
    all_goals
      simp only [bind_assoc, pure_bind]
      congr

theorem consumes_widgetHead (lead : Lead) (written : Option WrittenName) :
    Consumes context tokens n (widgetHead lead written) (widgetHead lead written) := by
  unfold widgetHead
  intro c hc
  refine steady_current ?_
  have hfind (kind : AttributeKind) {k : Option Attribute → TreeReader Widget}
      (hk : ∀ found, Steady context tokens c (fun _ => Cursor.Within tokens n) (k found) (k found)) :
      Steady context tokens c (fun _ => Cursor.Within tokens n)
        (Attribute.find? kind lead.node >>= k) (Attribute.find? kind lead.node >>= k) :=
    (Attribute.goes_find? (P := (· = c)) kind lead.node c rfl).bind fun found _ heq => heq ▸ hk found
  refine hfind .localValue fun localValue => hfind .localReference fun localReference => ?_
  refine hfind .template fun template => hfind .root fun root => hfind .name fun named => ?_
  generalize localValue.or localReference = bound
  rcases localValue with _ | a <;> rcases localReference with _ | b
  case some.some => exact steady_failAt b.token nofun
  case none.none | none.some | some.none =>
    refine steady_ahead (Steady.ite (fun hbound => ?_) fun _ => ?_)
    · have hname := (Bool.and_eq_true_iff.mp hbound).1
      exact (steady_prebound hc hname _ bound template named written).bind fun _ _ hc => steady_pure hc
    · exact (consumes_constructed bound template named written c hc).bind fun _ _ hc => steady_pure hc

theorem stays_widgetBody {item item' : TreeReader Property}
    (h : ∀ m < n, Consumes context tokens m item item') (head : Widget) :
    Stays context tokens n (widgetBody item head) (widgetBody item' head) := by
  refine goes_current.bind fun opening => (stays_accept .lbrace).bind fun _ => ?_
  refine Goes.ite (fun _ => ?_) fun _ => goes_pure _
  exact (stays_block h opening).bind fun properties => goes_pure _

namespace Agree
variable {r r' : NodeReaders} {m : Nat}

theorem mono (h : Agree context tokens n r r') (hm : m ≤ n) : Agree context tokens m r r' :=
  ⟨fun k hk => h.widget k (Nat.lt_of_lt_of_le hk hm), fun k hk => h.choice k (Nat.lt_of_lt_of_le hk hm)⟩

theorem tree (h : Agree context tokens n r r') (hm : m < n) :
    Consumes context tokens m r.tree r'.tree := by
  unfold NodeReaders.tree
  refine Attribute.stays_lead.bind fun lead => ?_
  split
  · exact goes_failAt _ nofun
  · refine (goes_isNext .ifWord).bind fun _ => (goes_isNext .matchWord).bind fun _ => ?_
    exact Goes.ite (fun _ => goes_fail_bind nofun) fun _ => h.widget m hm lead none

/-- A branch takes a token, the brace in front of it or one of its tree. -/
theorem branchBody (h : Agree context tokens n r r') (hm : m < n) (bare : Bool) :
    Consumes context tokens m (r.branchBody bare) (r'.branchBody bare) := by
  unfold NodeReaders.branchBody
  refine goes_current.bind fun opening c hc => steady_accept (fun hopening => ?_) fun _ => ?_
  · refine Steady.ite (fun _ => ?_) fun hnot => absurd rfl hnot
    have hc := hc.advance (by rw [hopening]; nofun)
    refine (stays_of_consumes (fun k hk => h.tree (Nat.lt_trans hk hm)) _ hc).bind fun w c hc => ?_
    refine (stays_accept .comma c hc).bind fun _ c hc => steady_current ?_
    refine Steady.ite (fun _ => steady_failAt_bind _ nofun) fun _ => ?_
    exact steady_advance (steady_pure hc.advance_same)
  · exact Steady.ite nofun fun _ => Steady.ite (fun _ => h.tree hm c hc) fun _ => steady_fail nofun

theorem branch (h : Agree context tokens n r r') (hm : m ≤ n) (start : Token) :
    Stays context tokens m (r.branch start) (r'.branch start) := by
  refine (stays_of_consumes fun _ _ => consumes_captureExpression _ _ _).bind fun condition => ?_
  refine (stays_of_consumes fun k hk => h.branchBody (Nat.lt_of_lt_of_le hk hm) false).bind fun w => ?_
  exact goes_pure _

theorem advances_chainRound (h : Agree context tokens n r r') (hm : m ≤ n) :
    Advances context tokens m r.chainRound r'.chainRound := by
  intro others c hc
  refine steady_current (steady_ahead (Steady.ite (fun hnext => ?_) fun _ => steady_pure hc))
  have hbranch (c' : Cursor) (hc' : c'.Within tokens m) : Steady context tokens c'
      (fun s' => Cursor.Within tokens (if s'.isSome then m else m + 1))
      (do pure (some ((← r.branch c.token) :: others)))
      (do pure (some ((← r'.branch c.token) :: others))) :=
    (h.branch hm c.token c' hc').bind fun b c hc => steady_pure hc
  refine steady_accept (fun helse => ?_) fun helse => ?_
  · have hc := hc.advance (by rw [helse]; nofun)
    exact steady_advance (hbranch _ hc.advance_same)
  · have hkind : c.token.kind = .elifWord := by simpa [helse] using hnext
    exact steady_advance (hbranch _ (hc.advance (by rw [hkind]; nofun)))

theorem chain (h : Agree context tokens n r r') (hm : m ≤ n) :
    Consumes context tokens m r.chain r'.chain := by
  rw [chain_eq, chain_eq]
  refine (consumes_expect (by decide)).bind fun start => (h.branch hm start).bind fun first => ?_
  refine (goes_repeating (fun k hk => h.advances_chainRound (Nat.le_of_lt (Nat.lt_of_lt_of_le hk hm)))
    _).bind fun others => ?_
  refine goes_current.bind fun start => (stays_accept .elseWord).bind fun _ => ?_
  refine Goes.ite (fun _ => ?_) fun _ => goes_failAt start nofun
  refine (stays_of_consumes fun k hk => h.branchBody (Nat.lt_of_lt_of_le hk hm) false).bind fun w => ?_
  exact goes_pure _

theorem caseArm (h : Agree context tokens n r r') (hm : m < n) :
    Consumes context tokens m r.caseArm r'.caseArm := by
  refine goes_current.bind fun start => consumes_capturePattern.bind fun pattern => ?_
  refine (stays_expect (by decide)).bind fun _ => ?_
  exact (stays_of_consumes fun k hk => h.branchBody (Nat.lt_trans hk hm) true).bind fun w => goes_pure _

theorem cases (h : Agree context tokens n r r') (hm : m ≤ n) :
    Consumes context tokens m r.cases r'.cases := by
  unfold NodeReaders.cases
  refine (consumes_expect (by decide)).bind fun start => ?_
  refine (stays_of_consumes fun _ _ => consumes_captureExpression _ _ _).bind fun subject => ?_
  refine (stays_expect (by decide)).bind fun opening => ?_
  refine (stays_block (fun k hk => h.caseArm (Nat.lt_of_lt_of_le hk hm)) opening).bind fun arms => ?_
  split
  · exact goes_failAt start nofun
  · split
    · exact goes_failAt _ nofun
    · exact goes_pure _

theorem choiceOf (h : Agree context tokens n r r') (hm : m ≤ n) (lead : Lead)
    (written : Option WrittenName) :
    Consumes context tokens m (r.choiceOf lead written) (r'.choiceOf lead written) := by
  unfold NodeReaders.choiceOf
  refine goes_current.bind fun start => ?_
  split
  · exact goes_failAt _ nofun
  · refine (Attribute.goes_find? .name lead.node).bind fun named => ?_
    refine (goes_nodeName true named written).bind fun name => (goes_isNext .ifWord).bind fun _ => ?_
    refine (goes_isNext .matchWord).bind fun _ => ?_
    refine Goes.ite (fun _ => (h.chain hm).bind fun _ => goes_pure _) fun _ => ?_
    exact Goes.ite (fun _ => (h.cases hm).bind fun _ => goes_pure _) fun _ => goes_fail_bind nofun

theorem childProperty (h : Agree context tokens n r r') (hm : m < n) (start : Token)
    (arguments : Option Expr) (written : Option WrittenName) (lead : Lead) :
    Consumes context tokens m (r.childProperty start arguments written lead)
      (r'.childProperty start arguments written lead) := by
  unfold NodeReaders.childProperty
  refine (goes_isNext .ifWord).bind fun _ => (goes_isNext .matchWord).bind fun _ => ?_
  refine Goes.ite (fun _ => ?_) fun _ => ?_
  · exact (h.choice m hm lead written).bind fun c => goes_choiceProperty _ _ c lead start
  · refine (h.widget m hm lead written).bind fun w => ?_
    exact (Attribute.goes_modifiers lead.property false).bind fun _ => goes_pure _

/-- A property takes its name. -/
theorem steady_namedProperty (h : Agree context tokens n r r') (hm : m ≤ n) (lead : Lead) {c : Cursor}
    (hc : c.Within tokens (m + 1)) (hname : c.token.kind.isName) :
    Steady context tokens c (fun _ => Cursor.Within tokens m) (r.namedProperty lead)
      (r'.namedProperty lead) := by
  unfold NodeReaders.namedProperty
  refine steady_advance ?_
  have hc := hc.advance (ne_eof_of_isName hname)
  generalize c.token = start
  generalize c.advance = c at hc
  have hchild (arguments : Option Expr) (written : Option WrittenName) :
      Stays context tokens m (r.childProperty start arguments written lead)
        (r'.childProperty start arguments written lead) :=
    stays_of_consumes fun k hk =>
      h.childProperty (Nat.lt_of_lt_of_le hk hm) start arguments written lead
  refine (stays_accept .question c hc).bind fun _ c hc => Steady.ite (fun _ => ?_) fun _ => ?_
  · refine (stays_expect (by decide) c hc).bind fun _ c hc => ?_
    exact stays_valueProperty start lead true c hc
  · refine steady_get (steady_isNext ?_)
    extract_lets rest rest'
    have hrest (group : Option Cursor) (hgroup : ∀ c ∈ group, c.Within tokens m) :
        Stays context tokens m (rest group) (rest' group) := by
      refine (goes_isNext .fatArrow).bind fun _ => ?_
      refine Goes.ite (fun _ => stays_connection start hgroup lead) fun _ => ?_
      refine (stays_accept .equals).bind fun _ => Goes.ite (fun _ => ?_) fun _ => ?_
      · exact (goes_bracketArguments hgroup).bind fun arguments => hchild arguments none
      · refine (stays_accept .colon).bind fun _ => Goes.ite (fun _ => ?_) fun _ => ?_
        · refine stays_writtenName?.bind fun written => ?_
          split
          · exact (goes_bracketArguments hgroup).bind fun arguments => hchild arguments _
          · split
            · exact goes_failAt _ nofun
            · exact stays_valueProperty start lead false
        · exact goes_current.bind fun t => goes_fail nofun
    refine Steady.ite (fun _ => ?_) fun _ => hrest none nofun c hc
    refine (stays_of_consumes (fun _ _ => consumes_balanced) c hc).bind fun _ c' hc' => ?_
    exact hrest (some c) (by rintro _ ⟨⟩; exact hc) c' hc'

theorem item (h : Agree context tokens n r r') (hm : m < n) :
    Consumes context tokens m r.item r'.item := by
  unfold NodeReaders.item
  refine Attribute.stays_lead.bind fun lead c hc => steady_current ?_
  refine Steady.ite (fun _ => ?_) fun _ => steady_ahead ?_
  · exact ((h.choice m hm lead none).bind fun found => goes_choiceProperty _ _ found lead _) c hc
  · refine Steady.ite (fun hnamed => ?_) fun _ => ?_
    · exact h.steady_namedProperty (Nat.le_of_lt hm) lead hc (Bool.and_eq_true_iff.mp hnamed).1
    · refine ((h.widget m hm lead none).bind fun w => ?_) c hc
      exact (Attribute.goes_modifiers lead.property false).bind fun _ => goes_pure _

theorem widgetOf (h : Agree context tokens n r r') (hm : m ≤ n) (lead : Lead)
    (written : Option WrittenName) :
    Consumes context tokens m (r.widgetOf lead written) (r'.widgetOf lead written) := by
  rw [widgetOf_eq, widgetOf_eq]
  exact (consumes_widgetHead lead written).bind fun head =>
    stays_widgetBody (fun k hk => h.item (Nat.lt_of_lt_of_le hk hm)) head

/-- One level of nodes takes a token. -/
theorem next (h : Agree context tokens n r r') : Agree context tokens (n + 1)
    ⟨r.widgetOf, r.choiceOf⟩ ⟨r'.widgetOf, r'.choiceOf⟩ :=
  ⟨fun _ hm => h.widgetOf (Nat.le_of_lt_succ hm), fun _ hm => h.choiceOf (Nat.le_of_lt_succ hm)⟩

end Agree
end NodeReaders

/-- Bounds on the nested nodes that are no smaller than the number of tokens are all the same. -/
theorem agree_nodeReaders {depth depth' : Nat} (h : n ≤ depth) (h' : n ≤ depth') :
    NodeReaders.Agree context tokens n (nodeReaders depth) (nodeReaders depth') := by
  induction n generalizing depth depth' with
  | zero => exact ⟨nofun, nofun⟩
  | succ n ih =>
    obtain ⟨depth, rfl⟩ := Nat.exists_eq_add_of_lt h
    obtain ⟨depth', rfl⟩ := Nat.exists_eq_add_of_lt h'
    exact (ih (Nat.le_add_right n depth) (Nat.le_add_right n depth')).next

namespace Component
variable {r r' : NodeReaders}

theorem goes_checkRoot (trees : List Widget) :
    Goes context tokens P P (checkRoot trees) (checkRoot trees) := by
  unfold checkRoot
  split
  · exact fun _ _ => steady_problem nofun
  · exact goes_pure _

/-- The round of parameters: a name, and the comma behind it. -/
def parameterRound (found : List String) : TreeReader (Option (List String)) := do
  if ← isNext .rparen then pure none
  else
    let id ← TreeReader.name
    if !(← accept .comma) && !(← isNext .rparen) then
      fail (.expected "',' or ')'" (← current).describe)
    pure (some (id :: found))

theorem parameters_eq : parameters = (do
    let found ← repeating parameterRound []
    let _ ← expect .rparen
    pure found.reverse) := rfl

theorem advances_parameterRound : Advances context tokens n parameterRound parameterRound := by
  intro found c hc
  refine steady_isNext (Steady.ite (fun _ => steady_pure hc) fun _ => ?_)
  refine (consumes_name c hc).bind fun id c hc => (stays_accept .comma c hc).bind fun _ c hc => ?_
  refine steady_isNext (Steady.ite (fun _ => ?_) fun _ => steady_pure hc)
  exact steady_current (steady_fail_bind nofun)

theorem stays_parameters : Stays context tokens n parameters parameters := by
  rw [parameters_eq]
  refine (goes_repeating (fun _ _ => advances_parameterRound) _).bind fun found => ?_
  exact (stays_expect (by decide)).bind fun _ => goes_pure _

theorem stays_readView (h : r.Agree context tokens n r') :
    Stays context tokens n (readView r) (readView r') := by
  unfold readView
  refine (stays_expect (by decide)).bind fun start => stays_name.bind fun id => ?_
  refine (stays_expect (by decide)).bind fun _ => stays_parameters.bind fun found => ?_
  split
  · exact goes_failAt start nofun
  · refine (stays_accept .tracked).bind fun tracked => (stays_expect (by decide)).bind fun opening => ?_
    refine (stays_block (fun _ hm => h.tree hm) opening).bind fun trees => ?_
    split
    · exact goes_failAt start nofun
    · exact (goes_checkRoot _).bind fun _ => goes_pure _

theorem stays_readTemplate (h : r.Agree context tokens n r') :
    Stays context tokens n (readTemplate r) (readTemplate r') := by
  unfold readTemplate
  refine (stays_expect (by decide)).bind fun start => stays_name.bind fun id => ?_
  refine (stays_expect (by decide)).bind fun _ => ?_
  refine (stays_of_consumes fun _ hm => h.tree hm).bind fun tree => ?_
  refine (stays_accept .comma).bind fun _ c hc => steady_isNext ?_
  refine Steady.ite (fun _ => steady_current (steady_fail_bind nofun)) fun _ => ?_
  refine steady_advance ?_
  exact (goes_checkRoot [tree]).bind (fun _ => goes_pure _) _ hc.advance_same

theorem stays_readOne (h : r.Agree context tokens n r') :
    Stays context tokens n (readOne r) (readOne r') := by
  unfold readOne
  refine (goes_isNext .view).bind fun _ => Goes.ite (fun _ => ?_) fun _ => ?_
  · exact (stays_readView h).bind fun _ => goes_pure _
  · refine (goes_isNext .template).bind fun _ => Goes.ite (fun _ => ?_) fun _ => ?_
    · exact (stays_readTemplate h).bind fun _ => goes_pure _
    · exact goes_current.bind fun _ => goes_fail nofun

end Component
end ViewTree
