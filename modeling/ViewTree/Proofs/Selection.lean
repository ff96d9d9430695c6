import ViewTree.Proofs.Bindings
import ViewTree.Proofs.OwnNames
import ViewTree.Proofs.Reading.Files
import ViewTree.Proofs.UpdateRoutine

/-!
What selecting a page does to the locals of a routine. Main statements: no name has a new value
afterwards but the local of the page and those that patterns capture or that are assigned by `:=`
(`Branches.Runs.frame`), and all of these may have one (`Branches.exists_runs`). So a name that the
routines hold a widget, the model or the sender in is changed only if a pattern or an expression has
it, or if a parameter is called like the local of the page (`Component.selection_changes`). No check
keeps patterns from these names (`Component.selection_panelSource`).
-/
namespace ViewTree
open Embedded

variable {α : Type} {s t : Locals α} {name : String}

/-- What decides on a page: a condition, or a pattern with its guard. -/
inductive Trial where
  | condition (e : Expr)
  | arm (a : Arm)

namespace Trial

/-- The names that get values when the guard of an arm is evaluated. -/
def guardAssigned (a : Arm) : List String := a.guard.toList.flatMap Term.assigned

/-- The names that may get values when the trial is made. -/
def bound : Trial → List String
  | condition e => e.term.assigned
  | arm a => a.pattern.captures ++ guardAssigned a

/-- The trial is made, with one result or the other. -/
inductive Made : Trial → Locals α → Locals α → Prop
  | condition (e : Expr) {s t : Locals α} (h : Assigns e.term.assigned s t) :
      Made (.condition e) s t
  | arm (a : Arm) {s t u : Locals α} (hpattern : Attempts a.pattern s t)
      (hguard : Assigns (guardAssigned a) t u) : Made (.arm a) s u

theorem Made.frame {trial : Trial} (h : trial.Made s t) (hname : name ∉ trial.bound) :
    t name = s name := by
  cases h with
  | condition e h => exact h.frame hname
  | arm a hpattern hguard =>
    rw [bound, List.mem_append, not_or] at hname
    exact (hguard.frame hname.2).trans (hpattern.frame hname.1)

theorem exists_made {trial : Trial} (hname : name ∈ trial.bound) (s : Locals α) (value : α) :
    ∃ t, trial.Made s t ∧ t name = value := by
  cases trial with
  | condition e =>
    obtain ⟨t, h, hvalue⟩ := exists_assigns hname s value
    exact ⟨t, .condition e h, hvalue⟩
  | arm a =>
    rcases List.mem_append.mp hname with hname | hname
    · obtain ⟨t, h, hvalue⟩ := exists_attempts a.pattern hname s value
      exact ⟨t, .arm a h (.done t), hvalue⟩
    · obtain ⟨t, h, hvalue⟩ := exists_assigns hname s value
      exact ⟨t, .arm a (.untouched _ s) h, hvalue⟩

theorem made_refl (trial : Trial) (s : Locals α) : trial.Made s s := by
  cases trial with
  | condition e => exact .condition e (.done s)
  | arm a => exact .arm a (.untouched _ s) (.done s)

end Trial

/-- Trials are made in order up to the first one that succeeds; its number is found, if there is
one. -/
inductive Search : List Trial → Locals α → Option Nat → Locals α → Prop
  | ended (s : Locals α) : Search [] s none s
  | found {trial : Trial} (more : List Trial) {s t : Locals α} (h : trial.Made s t) :
      Search (trial :: more) s (some 0) t
  | next {trial : Trial} {more : List Trial} {s t u : Locals α} {found? : Option Nat}
      (h : trial.Made s t) (rest : Search more t found? u) :
      Search (trial :: more) s (found?.map (· + 1)) u

namespace Search
variable {trials : List Trial} {found? : Option Nat}

theorem frame (h : Search trials s found? t) (hname : name ∉ trials.flatMap Trial.bound) :
    t name = s name := by
  induction h with
  | ended s => rfl
  | found more h =>
    rw [List.flatMap_cons, List.mem_append, not_or] at hname
    exact h.frame hname.1
  | next h rest ih =>
    rw [List.flatMap_cons, List.mem_append, not_or] at hname
    exact (ih hname.2).trans (h.frame hname.1)

end Search

/-- A trial of several may be the one that succeeds. -/
theorem exists_search {trials : List Trial} {trial : Trial} (htrial : trial ∈ trials)
    (hname : name ∈ trial.bound) (s : Locals α) (value : α) :
    ∃ found? t, Search trials s found? t ∧ t name = value := by
  induction trials with
  | nil => nomatch htrial
  | cons first more ih =>
    rcases List.mem_cons.mp htrial with rfl | htrial
    · obtain ⟨t, h, hvalue⟩ := Trial.exists_made hname s value
      exact ⟨some 0, t, .found more h, hvalue⟩
    · obtain ⟨found?, t, h, hvalue⟩ := ih htrial
      exact ⟨_, t, .next (first.made_refl s) h, hvalue⟩

theorem search_refl (trials : List Trial) (s : Locals α) : ∃ found?, Search trials s found? s := by
  cases trials with
  | nil => exact ⟨none, .ended s⟩
  | cons first more => exact ⟨some 0, .found more (first.made_refl s)⟩

namespace Branches

/-- What is tried to find the branch to show. -/
def trials : Branches → List Trial
  | chain first others _ _ => (first :: others).map fun b => .condition b.condition
  | cases _ arms => arms.map fun a => .arm a.pattern.arm

/-- The names that get values when what a match is about is evaluated. -/
def subjectAssigned : Branches → List String
  | chain _ _ _ _ => []
  | cases subject _ => subject.term.assigned

/-- The names that may get values when the branch to show is found. -/
def bound (b : Branches) : List String := b.subjectAssigned ++ b.trials.flatMap Trial.bound

/-- The locals when the branch with the number that was found, if any, is to be shown. -/
def turned (label : Nat → α) (found? : Option Nat) (s : Locals α) : Locals α :=
  found?.elim s fun i => Function.update s pageLocal (label i)

theorem turned_of_ne (label : Nat → α) (found? : Option Nat) (s : Locals α)
    (hpage : name ≠ pageLocal) : turned label found? s name = s name := by
  cases found? with
  | none => rfl
  | some i => exact Function.update_of_ne hpage _ _

/-- The local of the page gets the label of a branch. In a match it has the label `current` before,
which stays if no arm fits. -/
inductive Runs (label : Nat → α) (current : α) : Branches → Locals α → Locals α → Prop
  | chain (first : Branch) (others : List Branch) (last : Widget) (place : Place) {s t : Locals α}
      {found? : Option Nat} (h : Search (chain first others last place).trials s found? t) :
      Runs label current (.chain first others last place) s
        (Function.update t pageLocal (label (found?.getD (others.length + 1))))
  | cases (subject : Expr) (arms : List CaseArm) {s t u : Locals α} {found? : Option Nat}
      (hsubject : Assigns subject.term.assigned (Function.update s pageLocal current) t)
      (h : Search (cases subject arms).trials t found? u) :
      Runs label current (.cases subject arms) s (turned label found? u)

variable {label : Nat → α} {current : α} {b : Branches}

theorem Runs.frame (h : b.Runs label current s t) (hname : name ∉ b.bound) (hpage : name ≠ pageLocal) :
    t name = s name := by
  rw [bound, List.mem_append, not_or] at hname
  cases h with
  | chain first others last place h =>
    exact (Function.update_of_ne hpage _ _).trans (h.frame hname.2)
  | @cases subject arms _ t u found? hsubject h =>
    calc
      turned label found? u name = u name := turned_of_ne label found? u hpage
      _ = t name := h.frame hname.2
      _ = Function.update s pageLocal current name := hsubject.frame hname.1
      _ = s name := Function.update_of_ne hpage _ _

/-- Whatever name may get a value gets any, in some run. -/
theorem exists_runs (label : Nat → α) (current : α) (hname : name ∈ b.bound)
    (hpage : name ≠ pageLocal) (s : Locals α) (value : α) :
    ∃ t, b.Runs label current s t ∧ t name = value := by
  cases b with
  | chain first others last place =>
    obtain ⟨trial, htrial, hname⟩ := List.mem_flatMap.mp hname
    obtain ⟨found?, t, h, hvalue⟩ := exists_search htrial hname s value
    exact ⟨_, .chain first others last place h, (Function.update_of_ne hpage _ _).trans hvalue⟩
  | cases subject arms =>
    rcases List.mem_append.mp hname with hname | hname
    · obtain ⟨t, h, hvalue⟩ := exists_assigns hname (Function.update s pageLocal current) value
      obtain ⟨found?, hsearch⟩ := search_refl (cases subject arms).trials t
      exact ⟨_, .cases subject arms h hsearch, (turned_of_ne label found? t hpage).trans hvalue⟩
    · obtain ⟨trial, htrial, hname⟩ := List.mem_flatMap.mp hname
      obtain ⟨found?, t, h, hvalue⟩ :=
        exists_search htrial hname (Function.update s pageLocal current) value
      exact ⟨_, .cases subject arms (.done _) h, (turned_of_ne label found? t hpage).trans hvalue⟩

end Branches

namespace Statement

/-- A page is chosen, at first or again. The container is told of it, which changes no local. -/
inductive Runs (label : Nat → α) : Statement → Locals α → Locals α → Prop
  | choosePage (choice : String) {branches : Branches} {s t : Locals α}
      (h : branches.Runs label (label 0) s t) : Runs label (.choosePage choice branches) s t
  | switchPage (choice : String) (transition : Option String) (current : α) {branches : Branches}
      {s t : Locals α} (h : branches.Runs label current s t) :
      Runs label (.switchPage choice transition branches) s t

/-- The statement chooses the page of the choice, at first or again. -/
inductive Selects (choice : Choice) : Statement → Prop
  | first : Selects choice (.choosePage choice.name.text choice.branches)
  | again : Selects choice
      (.switchPage choice.name.text choice.transition choice.branches)

variable {label : Nat → α} {statement : Statement} {choice : Choice}

theorem Runs.frame (h : statement.Runs label s t) (hselects : statement.Selects choice)
    (hname : name ∉ choice.branches.bound) (hpage : name ≠ pageLocal) : t name = s name := by
  cases hselects with
  | first =>
    cases h with
    | choosePage _ h => exact h.frame hname hpage
  | again =>
    cases h with
    | switchPage _ _ _ h => exact h.frame hname hpage

/-- Whatever name may get a value gets any, in some run of the statement. -/
theorem Selects.exists_runs (h : statement.Selects choice) (label : Nat → α)
    (hname : name ∈ choice.branches.bound) (hpage : name ≠ pageLocal) (s : Locals α) (value : α) :
    ∃ t, statement.Runs label s t ∧ t name = value := by
  obtain ⟨t, hrun, hvalue⟩ := Branches.exists_runs label (label 0) hname hpage s value
  cases h with
  | first => exact ⟨t, .choosePage _ hrun, hvalue⟩
  | again => exact ⟨t, .switchPage _ _ (label 0) hrun, hvalue⟩

end Statement

namespace Statement

def isSelection : Statement → Bool
  | choosePage _ _ | switchPage _ _ _ => true
  | _ => false

theorem Runs.isSelection {label : Nat → α} {statement : Statement}
    (h : statement.Runs label s t) : statement.isSelection = true := by
  cases h <;> rfl

end Statement

/-- The statement is one of a routine of the component. -/
inductive Component.Emits (settings : Settings) : Component → Statement → Prop
  | init {c : Component} {r : InitRoutine} {statement : Statement}
      (hr : c.initRoutine settings = .ok r) (h : statement ∈ r.statements) : Emits settings c statement
  | update {v : View} {updates : List Statement} {statement : Statement}
      (hupdates : v.updateRoutine settings = .ok updates) (h : statement ∈ updates) :
      Emits settings (.view v) statement

namespace Component
variable {settings : Settings} {c : Component} {statement : Statement}

/-- Where a page is chosen, it is that of a choice of the component. -/
theorem exists_choice_of_emits (h : (c.check settings).errors = []) (hemits : c.Emits settings statement)
    (hselection : statement.isSelection = true) :
    ∃ choice, .choice choice ∈ c.walk ∧ statement.Selects choice := by
  cases hemits with
  | @init _ r _ hr hmem =>
    unfold initRoutine at hr
    cases hconnects : c.connects with
    | error problem => simp [hconnects, bind, Except.bind] at hr
    | ok connects =>
      obtain rfl : ⟨c.rootBuilds, c.otherBuilds, c.assigns settings, connects⟩ = r := by
        simpa [hconnects, bind, Except.bind, pure, Except.pure] using hr
      rw [InitRoutine.statements, List.append_assoc] at hmem
      rcases List.mem_append.mp hmem with hmem | hmem
      · cases builds_of_mem_builds hmem <;> cases hselection
      rcases List.mem_append.mp hmem with hmem | hmem
      · cases applies_of_mem_assigns hmem with
        | choosePage hc => exact ⟨_, hc, .first⟩
        | apply | attach => cases hselection
      · obtain ⟨w, p, own, -, -, hown, hmem⟩ := (mem_connects hconnects).1 statement hmem
        obtain ⟨_, _, _, _, -, -, rfl⟩ | ⟨_, -, rfl⟩ | ⟨-, -, rfl⟩ := Property.connects_cases hown
        · obtain rfl := List.mem_singleton.mp hmem
          cases hselection
        · obtain rfl := List.mem_singleton.mp hmem
          cases hselection
        · cases hmem
  | @update v updates _ hupdates hmem =>
    obtain ⟨symbols, body, -, hroutine, hagain⟩ := View.exists_updateRoutine h
    obtain rfl := Except.ok.inj (hroutine.symm.trans hupdates)
    obtain rfl | ⟨name, -, rfl⟩ | ⟨step, hstep, hs⟩ := View.cases_of_mem_updates hagain hmem
    · cases hselection
    · cases hselection
    · cases Step.repeated_of_again hs with
      | apply => cases hselection
      | select choice =>
        obtain ⟨n, hn, hown⟩ := exists_ownSteps_of_mem_steps (List.mem_of_mem_filter hstep)
        obtain rfl : Node.choice choice = n := Node.node_of_mem_ownSteps hown
        exact ⟨choice, hn, .again⟩

/-- The names that the routines hold the record, the model, the sender, nodes and guards in. -/
def handles (c : Component) : List String :=
  recordLocal :: c.params.take 2 ++ (c.walk.map (·.nodeName.text) ++
    c.walk.flatMap fun n => n.properties.filterMap (·.guard?))

@[simp] theorem params_assignNames (settings : Settings) (c : Component) :
    (c.assignNames settings).params = c.params := by
  cases c <;> rfl

/-- Of the names that the routines hold something in, the checks leave it to the model and the sender
alone to be called like the local of the page. -/
theorem page_mem_params (written : ∀ n ∈ c.walk, n.name?.isSome → n.nodeName.isGiven)
    (h : ((c.assignNames settings).check settings).errors = [])
    (hpage : pageLocal ∈ (c.assignNames settings).handles) : pageLocal ∈ c.params.take 2 := by
  obtain ⟨-, hnames, -⟩ := errors_check_eq_nil.mp h
  have hroutine : pageLocal ∈ routineNames settings := by simp [routineNames]
  rw [handles, List.mem_append, List.mem_cons, params_assignNames, List.mem_append] at hpage
  rcases hpage with (hrecord | hparam) | hnode | hguard
  · exact absurd hrecord (by decide)
  · exact hparam
  · obtain ⟨n, hn, hname⟩ := List.mem_map.mp hnode
    have hget := text_of_isSome_name? (isNamed_assignNames settings c hn)
    cases hnodeName : n.nodeName with
    | absent => simp [Node.name?, hnodeName, NodeName.get?] at hget
    | given name isMutable =>
      rw [hnodeName] at hname
      exact absurd hroutine (hname ▸ (node_of_checkNames hnames hn hnodeName).1)
    | synthesized name =>
      rw [hnodeName] at hname
      obtain ⟨m, rfl, -⟩ := exists_madeName written hn hnodeName
      exact absurd hname (MadeName.text_ne (by decide))
  · obtain ⟨n, hn, hguard⟩ := List.mem_flatMap.mp hguard
    obtain ⟨p, hp, hguard⟩ := List.mem_filterMap.mp hguard
    exact absurd hroutine (guard_of_checkNames hnames hn hp hguard)

/-- What choosing a page does to the locals in a component without errors. Beside the local of the
page, only what the arms of the choice capture and its expressions assign has a new value. A name that
the routines hold something in, in whatever spelling, is changed only if it is one of these, or if it
is that of the local of the page; in this very spelling only the model and the sender may have it. -/
theorem selection_changes (written : ∀ n ∈ c.walk, n.name?.isSome → n.nodeName.isGiven)
    (h : ((c.assignNames settings).check settings).errors = [])
    (hemits : (c.assignNames settings).Emits settings statement) {label : Nat → α}
    (hrun : statement.Runs label s t) :
    ∃ choice, .choice choice ∈ (c.assignNames settings).walk ∧ statement.Selects choice ∧
      (∀ name, name ∉ pageLocal :: choice.branches.bound → t name = s name) ∧
      ∀ name ∈ (c.assignNames settings).handles,
        t (Text.compatible name) ≠ s (Text.compatible name) →
        Text.compatible name ∈ choice.branches.bound ∨
          Text.compatible name = pageLocal ∧ (name = pageLocal → name ∈ c.params.take 2) := by
  obtain ⟨choice, hchoice, hselects⟩ := exists_choice_of_emits h hemits hrun.isSelection
  have hframe : ∀ name, name ∉ pageLocal :: choice.branches.bound → t name = s name := by
    intro name hname
    rw [List.mem_cons, not_or] at hname
    exact hrun.frame hselects hname.2 hname.1
  refine ⟨choice, hchoice, hselects, hframe, fun name hname hchanged => ?_⟩
  have hmem : Text.compatible name ∈ pageLocal :: choice.branches.bound := by
    by_contra hnot
    exact hchanged (hframe _ hnot)
  rcases List.mem_cons.mp hmem with hpage | hbound
  · refine .inr ⟨hpage, ?_⟩
    rintro rfl
    exact page_mem_params written h hname
  · exact .inl hbound

end Component

/-- A view with a match whose last arm captures what it is about as `name`. -/
def panelSource (name : String) : String :=
  "view Panel(model) \x7b\n  Box \x7b\n    append = match model.mode \x7b 1 => Label, " ++ name ++
    " => Spinner \x7d\n  \x7d\n\x7d\n"

instance (name : String) : Spelled (panelSource name) :=
  .append (.append .literal inferInstance) .literal

def Branches.captures (name : String) : Branches → Bool
  | chain _ _ _ _ => false
  | cases _ arms => arms.any fun a => a.pattern.arm.pattern.captures.contains name

theorem Branches.mem_bound_of_captures {name : String} {b : Branches} (h : b.captures name) :
    name ∈ b.bound := by
  cases b with
  | chain => nomatch h
  | cases subject arms =>
    obtain ⟨a, ha, hname⟩ := List.any_eq_true.mp h
    refine List.mem_append_right _ (List.mem_flatMap.mpr ⟨_, List.mem_map_of_mem ha, ?_⟩)
    exact List.mem_append_left _ (List.contains_iff_mem.mp hname)

/-- A routine of the component chooses a page, and an arm of each choice captures the name. -/
def Component.captures (name : String) (c : Component) : Bool :=
  ((c.initRoutine {}).toOption.any fun r => r.statements.any (·.isSelection)) &&
    c.walk.all fun n => match n with
      | .choice choice => choice.branches.captures name
      | .widget _ => true

theorem Component.exists_of_captures {name : String} {c : Component} (h : (c.check {}).errors = [])
    (hcaptures : c.captures name) : ∃ statement choice, c.Emits {} statement ∧
      .choice choice ∈ c.walk ∧ statement.Selects choice ∧ choice.branches.captures name := by
  obtain ⟨hroutine, hchoices⟩ := Bool.and_eq_true_iff.mp hcaptures
  obtain ⟨r, hr, hany⟩ := (Option.any_eq_true _ _).mp hroutine
  obtain ⟨statement, hstatement, hselection⟩ := List.any_eq_true.mp hany
  have hr : c.initRoutine {} = .ok r := by
    cases hroutine : c.initRoutine {} with
    | error problem => rw [hroutine] at hr; nomatch hr
    | ok found => rw [hroutine] at hr; rw [Option.some.inj hr]
  have hemits : c.Emits {} statement := .init hr hstatement
  obtain ⟨choice, hchoice, hselects⟩ := exists_choice_of_emits h hemits hselection
  exact ⟨statement, choice, hemits, hchoice, hselects, List.all_eq_true.mp hchoices _ hchoice⟩

/-- An arm of the match captures a name of its own, which gets a new value. -/
theorem Component.selection_changes_panelSource : ∃ outcomes o c,
    readSource? {} (panelSource "mode") = some outcomes ∧ o ∈ outcomes ∧ o.result = .ok c ∧
      (∀ n ∈ c.walk, n.name?.isSome → n.nodeName.isGiven) ∧
      ((c.assignNames {}).check {}).errors = [] ∧
      ∃ statement, (c.assignNames {}).Emits {} statement ∧
        ∃ s t : Locals Nat, statement.Runs id s t ∧ t "mode" ≠ s "mode" ∧
        ∃ choice, .choice choice ∈ (c.assignNames {}).walk ∧ statement.Selects choice ∧
          (∀ name, name ∉ pageLocal :: choice.branches.bound → t name = s name) ∧
          ∀ name ∈ (c.assignNames {}).handles,
            t (Text.compatible name) ≠ s (Text.compatible name) →
            Text.compatible name ∈ choice.branches.bound ∨
              Text.compatible name = pageLocal ∧ (name = pageLocal → name ∈ c.params.take 2) := by
  have hread : holdsComponent {} (panelSource "mode") fun c =>
      ((c.assignNames {}).check {}).errors = [] ∧ (c.assignNames {}).captures "mode" := by
    decide +kernel
  obtain ⟨outcomes, o, c, houtcomes, ho, hc, htest⟩ := exists_of_holdsComponent hread
  obtain ⟨herrors, hcaptures⟩ := of_decide_eq_true htest
  have hgiven := (wellFormed_of_readSource houtcomes ho hc).isGiven
  obtain ⟨statement, choice, hemits, -, hselects, hname⟩ := exists_of_captures herrors hcaptures
  obtain ⟨t, hrun, hvalue⟩ := hselects.exists_runs id
    (Branches.mem_bound_of_captures hname) (by decide) (fun _ => 0) 1
  exact ⟨outcomes, o, c, houtcomes, ho, hc, hgiven, herrors, statement, hemits, _, t, hrun,
    by simp [hvalue], selection_changes hgiven herrors hemits hrun⟩

/-- An arm of the match captures the name of the model, which is then whatever the match was about.
The checks find no error. -/
theorem Component.selection_panelSource : ∃ outcomes o v w,
    readSource? {} (panelSource "model") = some outcomes ∧ o ∈ outcomes ∧
      o.result = .ok (.view v) ∧ (Component.view v).assignNames {} = .view w ∧
      ((Component.view w).check {}).errors = [] ∧
      ∃ statement choice, (Component.view w).Emits {} statement ∧
        .choice choice ∈ (Component.view w).walk ∧ statement.Selects choice ∧
        choice.branches.captures w.model ∧
        ∀ (s : Locals Nat) (value : Nat), ∃ t, statement.Runs id s t ∧ t w.model = value := by
  have hread : holdsView {} (panelSource "model") fun w =>
      ((Component.view w).check {}).errors = [] ∧ (Component.view w).captures w.model ∧
        w.model ≠ pageLocal := by
    decide +kernel
  obtain ⟨outcomes, o, v, w, houtcomes, ho, hv, hw, htest⟩ := exists_of_holdsView hread
  obtain ⟨herrors, hcaptures, hpage⟩ := of_decide_eq_true htest
  obtain ⟨statement, choice, hemits, hchoice, hselects, hname⟩ := exists_of_captures herrors hcaptures
  exact ⟨outcomes, o, v, w, houtcomes, ho, hv, hw, herrors, statement, choice, hemits, hchoice,
    hselects, hname, hselects.exists_runs id (Branches.mem_bound_of_captures hname) hpage⟩

end ViewTree
