import Mathlib.Data.List.Forall2
import Mathlib.Data.List.Perm.Basic
import ViewTree.Code.UpdateRoutine
import ViewTree.Proofs.Attaching

/-!
The steps that both routines of a view go through: the application of each method property and the
choice of each page, in the order of the trees. Main statements: the init routine takes all of them
(`Component.filter_isStep_assigns`), the update routine those that refresh
(`View.refreshes_eq`), every method property and every choice is a step once
(`Component.perm_methods_steps`, `Component.choices_steps`), and the page of a choice is chosen
before any step below it (`Component.select_before_below`).
-/
namespace ViewTree

/-- A method property is applied to its widget, or the page of a choice is chosen. -/
inductive Step where
  | apply (owner : Widget) (property : Property) (application : Application)
  | select (choice : Choice)

namespace Step

def ofProperty (owner : Widget) (p : Property) : List Step :=
  (p.application? owner.handle).toList.map (.apply owner p)

def node : Step → Node
  | apply owner _ _ => .widget owner
  | select choice => .choice choice

def method? : Step → Option (Widget × Property)
  | apply owner p _ => some (owner, p)
  | select _ => none

def choice? : Step → Option Choice
  | apply _ _ _ => none
  | select choice => some choice

/-- Whether the step is ever taken again: a page is always chosen anew. -/
def refreshes : Step → Bool
  | apply _ p _ => p.modifiers.refreshes
  | select _ => true

/-- The step as the init routine takes it. -/
def first : Step → Statement
  | apply _ _ a => .apply a
  | select choice => .choosePage choice.name.text choice.branches

def again (s : UpdateScope) : Step → Except CodeProblem Statement
  | apply _ p a => do
    let trigger ← s.trigger p.name p.modifiers a.value
    let blocked ← p.modifiers.blockSignals.mapM s.blocked
    pure (.refresh trigger blocked a)
  | select choice =>
    pure (.switchPage choice.name.text choice.transition choice.branches)

/-- The steps that refresh, as the update routine takes them. -/
def redo (s : UpdateScope) (steps : List Step) : Except CodeProblem (List Statement) :=
  (steps.filter (·.refreshes)).mapM (again s)

theorem redo_append (s : UpdateScope) (a b : List Step) :
    redo s (a ++ b) = do return (← redo s a) ++ (← redo s b) := by
  rw [redo, List.filter_append, List.mapM_append]
  rfl

end Step

mutual

def Widget.steps : Widget → List Step
  | ⟨name, construction, isRoot, doc, place, properties⟩ =>
    Property.stepsEach ⟨name, construction, isRoot, doc, place, properties⟩ properties

/-- Each property of the widget, and what is below it right behind it. -/
def Property.stepsEach (owner : Widget) : List Property → List Step
  | [] => []
  | ⟨name, modifiers, place, payload⟩ :: more =>
    Step.ofProperty owner ⟨name, modifiers, place, payload⟩ ++ payload.steps ++
      Property.stepsEach owner more

def Payload.steps : Payload → List Step
  | .method _ | .binding _ | .connection _ _ _ => []
  | .child _ widget => widget.steps
  | .choice _ choice => choice.steps

def Choice.steps : Choice → List Step
  | ⟨name, transition, doc, place, branches⟩ =>
    .select ⟨name, transition, doc, place, branches⟩ :: branches.steps

def Branches.steps : Branches → List Step
  | .chain ⟨_, widget, _⟩ others last _ => widget.steps ++ Branch.stepsEach others ++ last.steps
  | .cases _ arms => CaseArm.stepsEach arms

def Branch.stepsEach : List Branch → List Step
  | [] => []
  | ⟨_, widget, _⟩ :: more => widget.steps ++ Branch.stepsEach more

def CaseArm.stepsEach : List CaseArm → List Step
  | [] => []
  | ⟨_, widget⟩ :: more => widget.steps ++ CaseArm.stepsEach more

end

namespace Node

def steps : Node → List Step
  | widget w => w.steps
  | choice c => c.steps

/-- Each property of a widget is a step or holds the steps of a child. -/
theorem steps_widget (w : Widget) : (widget w).steps = w.properties.flatMap fun p =>
    Step.ofProperty w p ++ p.payload.node?.toList.flatMap steps := by
  refine (show (widget w).steps = Property.stepsEach w w.properties by cases w; rfl).trans ?_
  refine flatMap_of_cons rfl (fun p ps => ?_) _
  obtain ⟨name, modifiers, place, payload⟩ := p
  rw [Property.stepsEach]
  cases payload <;> simp [Payload.steps, Payload.node?, steps]

/-- The page of a choice is chosen first. -/
theorem steps_choice (c : Choice) :
    (choice c).steps = .select c :: c.branches.widgets.flatMap Widget.steps := by
  obtain ⟨name, transition, doc, place, branches⟩ := c
  exact congrArg (_ :: ·) (Branches.flatMap_widgets (fun ⟨_, _, _⟩ _ _ _ => rfl) (fun _ _ => rfl)
    rfl (fun ⟨_, _, _⟩ _ => rfl) rfl (fun ⟨_, _⟩ _ => rfl) branches)

end Node

def Component.steps (c : Component) : List Step := c.trees.flatMap Widget.steps

/-- Whether the statement takes a step, for the first time or again. -/
def Statement.isStep : Statement → Bool
  | apply _ | choosePage _ _ | refresh _ _ _ | switchPage _ _ _ => true
  | _ => false

/-- Attachments apart, a tree is assigned step by step. -/
theorem Node.filter_isStep_assign (settings : Settings) (n : Node) :
    (n.assign settings).filter (·.isStep) = n.steps.map Step.first := by
  induction n using Node.induction with
  | step n ih =>
    cases n with
    | widget w =>
      rw [Node.assign_widget, Node.steps_widget, List.filter_flatMap, List.map_flatMap]
      refine List.flatMap_congr fun p hp => ?_
      rw [Property.assign, List.filter_append, List.map_append]
      refine congr (congrArg _ ?_) ?_
      · rw [Step.ofProperty]
        cases p.application? w.handle <;> rfl
      · rw [Property.attachBelow]
        cases hm : p.payload.node? with
        | none => rfl
        | some m =>
          have hchild : m ∈ (Node.widget w).children := List.mem_filterMap.mpr ⟨p, hp, hm⟩
          simp only [Option.toList_some, List.flatMap_cons, List.flatMap_nil, List.append_nil]
          exact ih m hchild
    | choice c =>
      rw [Node.assign_choice, Node.steps_choice, List.filter_cons, List.filter_flatMap,
        List.map_cons, List.map_flatMap]
      refine congrArg (_ :: ·) (List.flatMap_congr fun w hw => ?_)
      exact ih (.widget w) (List.mem_map_of_mem hw)

theorem Component.filter_isStep_assigns (settings : Settings) (c : Component) :
    (c.assigns settings).filter (·.isStep) = c.steps.map Step.first := by
  rw [assigns, steps, List.filter_flatMap, List.map_flatMap]
  exact List.flatMap_congr fun w _ => Node.filter_isStep_assign settings (.widget w)

theorem UpdateScope.refresh_eq (s : UpdateScope) (owner : Widget) (p : Property) :
    s.refresh owner.handle p = Step.redo s (Step.ofProperty owner p) := by
  unfold UpdateScope.refresh Step.ofProperty
  cases p.application? owner.handle with
  | none => rfl
  | some a =>
    cases hrefreshes : p.modifiers.refreshes with
    | false => simp [Step.redo, Step.refreshes, hrefreshes]
    | true =>
      simp only [if_true, Option.toList_some, List.map_cons, List.map_nil, Step.redo,
        List.filter_cons, Step.refreshes, hrefreshes, List.filter_nil, List.mapM_cons,
        List.mapM_nil, Step.again, bind_assoc, pure_bind]

mutual

theorem Widget.refresh_eq (s : UpdateScope) : (w : Widget) → w.refresh s = Step.redo s w.steps
  | ⟨name, construction, isRoot, doc, place, properties⟩ =>
    Property.refreshEach_eq s ⟨name, construction, isRoot, doc, place, properties⟩ properties

theorem Property.refreshEach_eq (s : UpdateScope) (owner : Widget) : (ps : List Property) →
    Property.refreshEach s owner.handle ps = Step.redo s (Property.stepsEach owner ps)
  | [] => rfl
  | ⟨name, modifiers, place, payload⟩ :: more => by
    rw [Property.refreshEach, UpdateScope.refresh_eq, Payload.refresh_eq,
      Property.refreshEach_eq s owner more, Property.stepsEach, Step.redo_append, Step.redo_append]
    simp only [bind_assoc, pure_bind]

theorem Payload.refresh_eq (s : UpdateScope) : (p : Payload) → p.refresh s = Step.redo s p.steps
  | .method _ | .binding _ | .connection _ _ _ => rfl
  | .child _ widget => Widget.refresh_eq s widget
  | .choice _ choice => Choice.refresh_eq s choice

theorem Choice.refresh_eq (s : UpdateScope) : (c : Choice) → c.refresh s = Step.redo s c.steps
  | ⟨name, transition, doc, place, branches⟩ => by
    rw [Choice.refresh, Branches.refresh_eq]
    exact (Step.redo_append s [.select ⟨name, transition, doc, place, branches⟩] _).symm

theorem Branches.refresh_eq (s : UpdateScope) : (b : Branches) → b.refresh s = Step.redo s b.steps
  | .chain ⟨_, widget, _⟩ others last _ => by
    rw [Branches.refresh, Widget.refresh_eq, Branch.refreshEach_eq, Widget.refresh_eq s last,
      Branches.steps, Step.redo_append, Step.redo_append]
    simp only [bind_assoc, pure_bind]
  | .cases _ arms => CaseArm.refreshEach_eq s arms

theorem Branch.refreshEach_eq (s : UpdateScope) : (bs : List Branch) →
    Branch.refreshEach s bs = Step.redo s (Branch.stepsEach bs)
  | [] => rfl
  | ⟨_, widget, _⟩ :: more => by
    rw [Branch.refreshEach, Widget.refresh_eq, Branch.refreshEach_eq, Branch.stepsEach,
      Step.redo_append]

theorem CaseArm.refreshEach_eq (s : UpdateScope) : (as : List CaseArm) →
    CaseArm.refreshEach s as = Step.redo s (CaseArm.stepsEach as)
  | [] => rfl
  | ⟨_, widget⟩ :: more => by
    rw [CaseArm.refreshEach, Widget.refresh_eq, CaseArm.refreshEach_eq, CaseArm.stepsEach,
      Step.redo_append]

end

theorem View.refreshes_eq (v : View) (symbols : Symbols) :
    v.refreshes symbols = Step.redo ⟨v.model, symbols⟩ (Component.view v).steps := by
  have htrees (ws : List Widget) : (do
      return (← ws.mapM (Widget.refresh ⟨v.model, symbols⟩)).flatten : Except CodeProblem _) =
        Step.redo ⟨v.model, symbols⟩ (ws.flatMap Widget.steps) := by
    induction ws with
    | nil => rfl
    | cons w ws ih =>
      rw [List.flatMap_cons, Step.redo_append, ← ih, List.mapM_cons, Widget.refresh_eq]
      simp only [bind_assoc, pure_bind, List.flatten_cons]
  exact htrees (v.root :: v.trees)

namespace Node

def choice? : Node → Option Choice
  | widget _ => none
  | choice c => some c

def ownSteps : Node → List Step
  | widget w => w.properties.flatMap (Step.ofProperty w)
  | choice c => [.select c]

def methods : Node → List (Widget × Property)
  | widget w => (w.properties.filter (·.kind = .method)).map (w, ·)
  | choice _ => []

theorem exists_ownSteps_of_mem_steps {n : Node} {s : Step} (h : s ∈ n.steps) :
    ∃ m ∈ n.walk, s ∈ m.ownSteps := by
  induction n using Node.induction with
  | step n ih =>
    have hbelow : (∃ m ∈ n.children, s ∈ m.steps) → ∃ m ∈ n.walk, s ∈ m.ownSteps := by
      rintro ⟨m, hm, hs⟩
      obtain ⟨k, hk, hs⟩ := ih m hm hs
      exact ⟨k, walk_subset_of_mem_children hm hk, hs⟩
    cases n with
    | widget w =>
      rw [steps_widget] at h
      obtain ⟨p, hp, hs⟩ := List.mem_flatMap.mp h
      rcases List.mem_append.mp hs with hs | hs
      · exact ⟨_, self_mem_walk _, List.mem_flatMap.mpr ⟨p, hp, hs⟩⟩
      · obtain ⟨m, hm, hs⟩ := List.mem_flatMap.mp hs
        exact hbelow ⟨m, List.mem_filterMap.mpr ⟨p, hp, Option.mem_toList.mp hm⟩, hs⟩
    | choice c =>
      rw [steps_choice] at h
      rcases List.mem_cons.mp h with rfl | hs
      · exact ⟨_, self_mem_walk _, List.mem_singleton_self _⟩
      · obtain ⟨w, hw, hs⟩ := List.mem_flatMap.mp hs
        exact hbelow ⟨.widget w, List.mem_map_of_mem hw, hs⟩

theorem node_of_mem_ofProperty {w : Widget} {p : Property} {s : Step}
    (h : s ∈ Step.ofProperty w p) : s.node = widget w := by
  obtain ⟨a, -, rfl⟩ := List.mem_map.mp h
  rfl

theorem node_of_mem_ownSteps {n : Node} {s : Step} (h : s ∈ n.ownSteps) : s.node = n := by
  cases n with
  | widget w =>
    obtain ⟨p, -, hs⟩ := List.mem_flatMap.mp h
    exact node_of_mem_ofProperty hs
  | choice c =>
    obtain rfl := List.mem_singleton.mp h
    rfl

theorem node_mem_walk_of_mem_steps {n : Node} {s : Step} (h : s ∈ n.steps) : s.node ∈ n.walk := by
  obtain ⟨m, hm, hs⟩ := exists_ownSteps_of_mem_steps h
  exact node_of_mem_ownSteps hs ▸ hm

/-- An application that is a step applies a method property of a widget of the tree. -/
theorem application_of_mem_ownSteps {n : Node} {owner : Widget} {p : Property} {a : Application}
    (h : .apply owner p a ∈ n.ownSteps) :
    n = .widget owner ∧ p ∈ owner.properties ∧ p.application? owner.handle = some a := by
  cases n with
  | widget w =>
    obtain ⟨q, hq, hs⟩ := List.mem_flatMap.mp h
    obtain ⟨b, hb, hs⟩ := List.mem_map.mp hs
    obtain ⟨rfl, rfl, rfl⟩ := Step.apply.inj hs
    exact ⟨rfl, hq, Option.mem_toList.mp hb⟩
  | choice c => simp [ownSteps] at h

theorem flatMap_filterMap_method? (w : Widget) :
    (w.properties.flatMap fun p => (Step.ofProperty w p).filterMap Step.method?) =
      (widget w).methods := by
  rw [methods]
  induction w.properties with
  | nil => rfl
  | cons p ps ih =>
    rw [List.flatMap_cons, ih, List.filter_cons]
    obtain ⟨name, modifiers, place, payload⟩ := p
    cases payload <;> rfl

theorem flatMap_children_widget {α : Type} (w : Widget) (f : Node → List α) :
    (widget w).children.flatMap f = w.properties.flatMap fun p => p.payload.node?.toList.flatMap f := by
  rw [children, List.filterMap_eq_flatMap_toList, List.flatMap_assoc]

/-- Every method property of the tree is a step, once. -/
theorem perm_methods_steps (n : Node) :
    (n.steps.filterMap Step.method?).Perm (n.walk.flatMap methods) := by
  induction n using Node.induction with
  | step n ih =>
    rw [walk_eq, List.flatMap_cons, List.flatMap_assoc]
    have hbelow : (n.children.flatMap fun m => m.steps.filterMap Step.method?).Perm
        (n.children.flatMap fun m => m.walk.flatMap methods) := List.Perm.flatMap_left _ ih
    refine List.Perm.trans ?_ (hbelow.append_left _)
    cases n with
    | widget w =>
      have hsplit := List.flatMap_append_perm w.properties
        (fun p => (Step.ofProperty w p).filterMap Step.method?)
        (fun p => p.payload.node?.toList.flatMap fun m => m.steps.filterMap Step.method?)
      rw [flatMap_filterMap_method?, ← flatMap_children_widget] at hsplit
      rw [steps_widget, List.filterMap_flatMap]
      simp only [List.filterMap_append, List.filterMap_flatMap]
      exact hsplit.symm
    | choice c =>
      rw [steps_choice, List.filterMap_cons, List.filterMap_flatMap, children, List.flatMap_map]
      rfl

/-- The choices of pages come in the order of the walk. -/
theorem choices_steps (n : Node) : n.steps.filterMap Step.choice? = n.walk.filterMap choice? := by
  induction n using Node.induction with
  | step n ih =>
    rw [walk_eq, List.filterMap_cons, List.filterMap_flatMap, ← List.flatMap_congr ih]
    cases n with
    | widget w =>
      have hown (p : Property) : (Step.ofProperty w p).filterMap Step.choice? = [] := by
        rw [Step.ofProperty]
        cases p.application? w.handle <;> rfl
      rw [steps_widget, flatMap_children_widget, List.filterMap_flatMap]
      simp only [List.filterMap_append, List.filterMap_flatMap, hown, List.nil_append]
      rfl
    | choice c =>
      rw [steps_choice, List.filterMap_cons, List.filterMap_flatMap, children, List.flatMap_map]
      rfl

/-- The steps of a child stand unbroken in those of the node; before them are steps of the node
itself and of earlier children. -/
theorem exists_steps_around_child {k n : Node} (h : k ∈ n.children) :
    ∃ before after earlier later, n.steps = before ++ k.steps ++ after ∧
      n.children = earlier ++ k :: later ∧ ∀ s ∈ before, s.node ∈ n :: earlier.flatMap walk := by
  cases n with
  | widget w =>
    obtain ⟨p, hp, hpayload⟩ := List.mem_filterMap.mp h
    obtain ⟨ps, qs, hproperties⟩ := List.append_of_mem hp
    let stepsOf (p : Property) := Step.ofProperty w p ++ p.payload.node?.toList.flatMap steps
    refine ⟨ps.flatMap stepsOf ++ Step.ofProperty w p, qs.flatMap stepsOf,
      ps.filterMap (·.payload.node?), qs.filterMap (·.payload.node?), ?_, ?_, ?_⟩
    · rw [steps_widget, hproperties]
      simp [stepsOf, hpayload]
    · rw [children, hproperties]
      simp [hpayload]
    · intro s hs
      rcases List.mem_append.mp hs with hs | hs
      · obtain ⟨q, hq, hs⟩ := List.mem_flatMap.mp hs
        rcases List.mem_append.mp hs with hs | hs
        · exact node_of_mem_ofProperty hs ▸ List.mem_cons_self
        · obtain ⟨m, hm, hs⟩ := List.mem_flatMap.mp hs
          have hearlier : m ∈ ps.filterMap (·.payload.node?) :=
            List.mem_filterMap.mpr ⟨q, hq, Option.mem_toList.mp hm⟩
          exact List.mem_cons_of_mem _
            (List.mem_flatMap.mpr ⟨m, hearlier, node_mem_walk_of_mem_steps hs⟩)
      · exact node_of_mem_ofProperty hs ▸ List.mem_cons_self
  | choice c =>
    obtain ⟨w, hw, rfl⟩ := List.mem_map.mp h
    obtain ⟨ws, vs, hwidgets⟩ := List.append_of_mem hw
    refine ⟨.select c :: ws.flatMap Widget.steps, vs.flatMap Widget.steps, ws.map widget,
      vs.map widget, ?_, ?_, ?_⟩
    · rw [steps_choice, hwidgets]
      simp [steps]
    · rw [children, hwidgets]
      simp
    · intro s hs
      rcases List.mem_cons.mp hs with rfl | hs
      · exact List.mem_cons_self
      · obtain ⟨v, hv, hs⟩ := List.mem_flatMap.mp hs
        exact List.mem_cons_of_mem _ (List.mem_flatMap.mpr
          ⟨widget v, List.mem_map_of_mem hv, node_mem_walk_of_mem_steps (n := widget v) hs⟩)

/-- The steps of a node stand unbroken in those of the tree around it; before them are steps of
nodes that the walk has before the node. -/
theorem exists_steps_around {m n : Node} (h : m ∈ n.walk) :
    ∃ before after outside beyond, n.steps = before ++ m.steps ++ after ∧
      n.walk = outside ++ m.walk ++ beyond ∧ ∀ s ∈ before, s.node ∈ outside := by
  induction n using Node.induction with
  | step n ih =>
    rw [walk_eq] at h
    rcases List.mem_cons.mp h with rfl | h
    · exact ⟨[], [], [], [], by simp, by simp, by simp⟩
    obtain ⟨k, hk, hm⟩ := List.mem_flatMap.mp h
    obtain ⟨before, after, outside, beyond, hsteps, hwalk, hnodes⟩ := ih k hk hm
    obtain ⟨first, last, earlier, later, hall, hchildren, hfirst⟩ := exists_steps_around_child hk
    refine ⟨first ++ before, after ++ last, n :: earlier.flatMap walk ++ outside,
      beyond ++ later.flatMap walk, ?_, ?_, ?_⟩
    · rw [hall, hsteps]
      simp
    · rw [walk_eq, hchildren]
      simp [hwalk]
    · intro s hs
      rcases List.mem_append.mp hs with hs | hs
      · exact List.mem_append_left _ (hfirst s hs)
      · exact List.mem_append_right _ (hnodes s hs)

end Node

namespace Component

theorem exists_ownSteps_of_mem_steps {c : Component} {s : Step} (h : s ∈ c.steps) :
    ∃ n ∈ c.walk, s ∈ n.ownSteps := by
  obtain ⟨w, hw, hs⟩ := List.mem_flatMap.mp h
  obtain ⟨n, hn, hs⟩ := Node.exists_ownSteps_of_mem_steps (n := .widget w) hs
  exact ⟨n, List.mem_flatMap.mpr ⟨w, hw, hn⟩, hs⟩

theorem perm_methods_steps (c : Component) :
    (c.steps.filterMap Step.method?).Perm (c.walk.flatMap Node.methods) := by
  rw [steps, walk, List.filterMap_flatMap, List.flatMap_assoc]
  exact List.Perm.flatMap_left _ fun w _ => Node.perm_methods_steps (.widget w)

theorem choices_steps (c : Component) :
    c.steps.filterMap Step.choice? = c.walk.filterMap Node.choice? := by
  rw [steps, walk, List.filterMap_flatMap, List.filterMap_flatMap]
  exact List.flatMap_congr fun w _ => Node.choices_steps (.widget w)

/-- Where nodes have different names, the page of a choice is chosen before any step at the choice
or below it. -/
theorem select_before_below {c : Component} (h : (c.walk.map (·.nodeName.text)).Nodup)
    {choice : Choice} (hchoice : .choice choice ∈ c.walk) :
    ∃ before after, c.steps = before ++ .select choice :: after ∧
      ∀ s ∈ before, s.node ∉ (Node.choice choice).walk := by
  obtain ⟨w, hw, hmem⟩ := List.mem_flatMap.mp hchoice
  obtain ⟨ws, vs, htrees⟩ := List.append_of_mem hw
  obtain ⟨before, after, outside, beyond, hsteps, hwalk, hnodes⟩ :=
    Node.exists_steps_around (n := .widget w) hmem
  have hall : c.walk = (ws.flatMap Widget.walk ++ outside) ++
      ((Node.choice choice).walk ++ (beyond ++ vs.flatMap Widget.walk)) := by
    have hw : w.walk = _ := hwalk
    rw [walk, htrees]
    simp [hw]
  refine ⟨ws.flatMap Widget.steps ++ before,
    choice.branches.widgets.flatMap Widget.steps ++ after ++ vs.flatMap Widget.steps, ?_, ?_⟩
  · have hw : w.steps = _ := hsteps
    rw [steps, htrees]
    simp [hw, Node.steps_choice]
  · intro s hs hbelow
    have hearlier : s.node ∈ ws.flatMap Widget.walk ++ outside := by
      rcases List.mem_append.mp hs with hs | hs
      · obtain ⟨v, hv, hs⟩ := List.mem_flatMap.mp hs
        exact List.mem_append_left _ (List.mem_flatMap.mpr
          ⟨v, hv, Node.node_mem_walk_of_mem_steps (n := .widget v) hs⟩)
      · exact List.mem_append_right _ (hnodes s hs)
    rw [hall, List.map_append] at h
    exact (List.nodup_append.mp h).2.2 _ (List.mem_map_of_mem hearlier) _
      (List.mem_map_of_mem (List.mem_append_left _ hbelow)) rfl

end Component
end ViewTree
