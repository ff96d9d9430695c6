import ViewTree.Code.Artifact
import ViewTree.Proofs.Attaching
import ViewTree.Proofs.Building
import ViewTree.Proofs.Relocation.Checks

/-!
Code of components with other places. Main statement: no place has a part in the code of a component
(`Component.artifact_mapPlaces`).
-/
namespace ViewTree

def Application.mapPlaces (f : Place → Place) (a : Application) : Application :=
  { a with value := a.value.mapPlaces f, chain := a.chain.map (Expr.mapPlaces f) }

def Reaction.mapPlaces (f : Place → Place) : Reaction → Reaction
  | .function value => .function (value.mapPlaces f)
  | .message sender value => .message sender (value.mapPlaces f)

def Callback.mapPlaces (f : Place → Place) (c : Callback) : Callback :=
  ⟨c.captures.map (Capture.mapPlaces f), c.reaction.mapPlaces f⟩

def Trigger.mapPlaces (f : Place → Place) : Trigger → Trigger
  | .written condition => .written (condition.mapPlaces f)
  | .changed model fields => .changed model fields

namespace Statement

def mapPlaces (f : Place → Place) : Statement → Statement
  | build name construction => build name (construction.mapPlaces f)
  | attach target method child arguments =>
    attach target method child (arguments.map (Expr.mapPlaces f))
  | apply application => apply (application.mapPlaces f)
  | choosePage choice branches => choosePage choice (branches.mapPlaces f)
  | connect target signal callback guard => connect target signal (callback.mapPlaces f) guard
  | bind target method value chain =>
    bind target method (value.mapPlaces f) (chain.map (Expr.mapPlaces f))
  | refresh trigger blocked application =>
    refresh (trigger.map (Trigger.mapPlaces f)) blocked (application.mapPlaces f)
  | switchPage choice transition branches => switchPage choice transition (branches.mapPlaces f)
  | container name transition => container name transition
  | addPage choice page index => addPage choice page index
  | load name => load name
  | nothing => nothing

end Statement

section
variable (f : Place → Place)

theorem Expr.code_mapPlaces (e : Expr) : (e.mapPlaces f).code = e.code := rfl

theorem methodCall_mapPlaces (target : Handle) (method arguments : String) (chain : List Expr) :
    methodCall target method arguments (chain.map (Expr.mapPlaces f)) =
      methodCall target method arguments chain := by
  rw [methodCall, List.map_map]
  rfl

theorem Application.code_mapPlaces (a : Application) : (a.mapPlaces f).code = a.code := by
  have hcall (arguments : String) : (a.mapPlaces f).call arguments = a.call arguments :=
    congrArg Code.line (methodCall_mapPlaces f a.target a.method arguments a.chain)
  have heach (items : String) : (a.mapPlaces f).callEach items = a.callEach items := by
    rw [callEach, hcall, callEach]
  unfold code
  simp only [hcall, heach]
  rfl

theorem Callback.code_mapPlaces (settings : Settings) (c : Callback) :
    (c.mapPlaces f).code settings = c.code settings := by
  obtain ⟨captures, reaction⟩ := c
  have hreaction : Reaction.code settings (reaction.mapPlaces f) =
      Reaction.code settings reaction := by cases reaction <;> rfl
  have hcode (c : Capture) : (c.mapPlaces f).code = c.code := by
    obtain ⟨name, value⟩ := c
    cases value <;> rfl
  simp only [mapPlaces, code, hreaction, List.map_map, List.isEmpty_map, Function.comp_def,
    Capture.name_mapPlaces, hcode]

theorem Branches.selection_mapPlaces (b : Branches) :
    (b.mapPlaces f).selection = b.selection := by
  have hexpression (conditions : List Expr) :
      pageExpression (conditions.map (Expr.mapPlaces f)) = pageExpression conditions := by
    rw [pageExpression, pageExpression, List.zipIdx_map, List.map_map, List.length_map]
    rfl
  cases b with
  | chain first others last place =>
    have hconditions : (first.mapPlaces f :: Branch.mapAll f others).map (·.condition) =
        ((first :: others).map (·.condition)).map (Expr.mapPlaces f) := by
      rw [Branch.mapAll_eq, ← List.map_cons, List.map_map, List.map_map]
      exact List.map_congr_left fun b _ => by cases b; rfl
    rw [mapPlaces, selection, hconditions, hexpression]
    rfl
  | cases subject arms =>
    rw [mapPlaces, selection, CaseArm.mapAll_eq, List.zipIdx_map, List.flatMap_map, selection]
    refine congrArg (Code.block _) (List.flatMap_congr fun arm _ => ?_)
    obtain ⟨⟨pattern, widget⟩, i⟩ := arm
    rfl

theorem Branches.selectionOr_mapPlaces (fallback : String) (b : Branches) :
    (b.mapPlaces f).selectionOr fallback = b.selectionOr fallback := by
  have h := Branches.selection_mapPlaces f b
  cases b with
  | chain first others last place => exact h
  | cases subject arms => exact congrArg (_ ++ ·) h

theorem Statement.code_mapPlaces (settings : Settings) (s : Statement) :
    (s.mapPlaces f).code settings = s.code settings := by
  cases s with
  | build name construction => cases construction <;> rfl
  | attach target method child arguments => cases arguments <;> rfl
  | apply application => exact Application.code_mapPlaces f application
  | choosePage choice branches =>
    simp only [mapPlaces, code, Branches.selectionOr_mapPlaces]
  | connect target signal callback guard => simp only [mapPlaces, code, Callback.code_mapPlaces]
  | bind target method value chain =>
    exact congrArg Code.line (methodCall_mapPlaces f target method value.arguments chain)
  | refresh trigger blocked application =>
    have happlication : refreshCode settings blocked (application.mapPlaces f) =
        refreshCode settings blocked application := by
      rw [refreshCode, Application.code_mapPlaces, refreshCode]
    cases trigger with
    | none => exact happlication
    | some trigger =>
      have htrigger : (trigger.mapPlaces f).code settings = trigger.code settings := by
        cases trigger <;> rfl
      simp only [mapPlaces, Option.map_some, code, happlication, htrigger]
  | switchPage choice transition branches =>
    simp only [mapPlaces, code, Branches.selectionOr_mapPlaces]
  | container name transition => rfl
  | addPage choice page index => rfl
  | load name => rfl
  | nothing => rfl

theorem statementsCode_mapPlaces (settings : Settings) (statements : List Statement) :
    statementsCode settings (statements.map (Statement.mapPlaces f)) =
      statementsCode settings statements := by
  rw [statementsCode, List.flatMap_map, statementsCode]
  exact List.flatMap_congr fun s _ => s.code_mapPlaces f settings

theorem Widget.handle_mapPlaces (w : Widget) : (w.mapPlaces f).handle = w.handle := by
  obtain ⟨name, construction, isRoot, doc, place, properties⟩ := w
  simp [handle, mapPlaces]

theorem Node.handle_mapPlaces (n : Node) : (n.mapPlaces f).handle = n.handle := by
  cases n with
  | widget w => exact Widget.handle_mapPlaces f w
  | choice c => cases c; rfl

theorem Widget.buildSelf_mapPlaces (w : Widget) :
    (w.mapPlaces f).buildSelf = w.buildSelf.map (Statement.mapPlaces f) := by
  obtain ⟨name, construction, isRoot, doc, place, properties⟩ := w
  simp only [mapPlaces, buildSelf, Construction.isPrebound_mapPlaces]
  split <;> rfl

theorem Node.build_mapPlaces (n : Node) :
    (n.mapPlaces f).build = n.build.map (Statement.mapPlaces f) := by
  induction n using Node.induction with
  | step n ih =>
    cases n with
    | widget w =>
      have hchildren := Node.children_mapPlaces f (.widget w)
      show (Node.widget (w.mapPlaces f)).build = _
      rw [Node.build_widget, Node.build_widget, Widget.buildSelf_mapPlaces, List.map_append,
        List.map_flatMap]
      refine congrArg (w.buildSelf.map (Statement.mapPlaces f) ++ ·) ?_
      show (Node.mapPlaces f (.widget w)).children.flatMap _ = _
      rw [hchildren, List.flatMap_map]
      exact List.flatMap_congr ih
    | choice c =>
      have hname : (c.mapPlaces f).name = c.name := by cases c; rfl
      have hwidgets : (c.mapPlaces f).branches.widgets =
          c.branches.widgets.map (Widget.mapPlaces f) := by
        cases c
        exact Branches.widgets_mapPlaces f _
      have hconstruct : (Node.choice (c.mapPlaces f)).construct =
          (Node.choice c).construct.mapPlaces f := by cases c; rfl
      show (Node.choice (c.mapPlaces f)).build = _
      rw [Node.build_choice, Node.build_choice, hname, hwidgets, hconstruct, List.zipIdx_map,
        List.flatMap_map, List.map_cons, List.map_flatMap]
      refine congrArg (_ :: ·) (List.flatMap_congr fun page hpage => ?_)
      have hw : widget page.1 ∈ (choice c).children :=
        List.mem_map_of_mem (List.fst_mem_of_mem_zipIdx hpage)
      have hbuild : (page.1.mapPlaces f).build = page.1.build.map (Statement.mapPlaces f) :=
        ih _ hw
      simp only [Widget.buildPage, Prod.map, hbuild, Widget.handle_mapPlaces, List.map_append]
      rfl

theorem Property.application?_mapPlaces (target : Handle) (p : Property) :
    (p.mapPlaces f).application? target = (p.application? target).map (Application.mapPlaces f) := by
  unfold application?
  rw [payload_mapPlaces, name_mapPlaces, modifiers_mapPlaces]
  cases p.payload <;> rfl

theorem Node.assign_mapPlaces (settings : Settings) (n : Node) :
    (n.mapPlaces f).assign settings = (n.assign settings).map (Statement.mapPlaces f) := by
  induction n using Node.induction with
  | step n ih =>
    cases n with
    | widget w =>
      have hproperties := Node.properties_mapPlaces f (.widget w)
      have hconstruction : (w.mapPlaces f).construction = w.construction.mapPlaces f := by
        cases w
        rfl
      show (Node.widget (w.mapPlaces f)).assign settings = _
      rw [Node.assign_widget, Node.assign_widget, List.map_flatMap]
      show (Node.mapPlaces f (.widget w)).properties.flatMap _ = _
      rw [hproperties, List.flatMap_map]
      refine List.flatMap_congr fun p hp => ?_
      rw [Property.assign, Property.assign, Property.application?_mapPlaces, List.map_append,
        Widget.handle_mapPlaces, Option.toList_map, List.map_map, List.map_map]
      refine congrArg (_ ++ ·) ?_
      rw [Property.attachBelow, Property.attachBelow, Property.payload_mapPlaces,
        Payload.node?_mapPlaces, Property.name_mapPlaces, Widget.handle_mapPlaces, hconstruction]
      cases hm : p.payload.node? with
      | none => rfl
      | some m =>
        have hmem : m ∈ (Node.widget w).children := List.mem_filterMap.mpr ⟨p, hp, hm⟩
        have harguments : (p.payload.mapPlaces f).arguments? =
            p.payload.arguments?.map (Expr.mapPlaces f) := by cases p.payload <;> rfl
        simp only [Option.map_some, Option.toList_some, List.flatMap_cons, List.flatMap_nil,
          List.append_nil, List.map_cons, ih m hmem, harguments, Node.handle_mapPlaces,
          Property.attachMethod, Construction.type?_mapPlaces]
        rfl
    | choice c =>
      have hname : (c.mapPlaces f).name = c.name := by cases c; rfl
      have hbranches : (c.mapPlaces f).branches = c.branches.mapPlaces f := by cases c; rfl
      show (Node.choice (c.mapPlaces f)).assign settings = _
      rw [Node.assign_choice, Node.assign_choice, hname, hbranches, Branches.widgets_mapPlaces,
        List.flatMap_map, List.map_cons, List.map_flatMap]
      refine congrArg (_ :: ·) (List.flatMap_congr fun w hw => ?_)
      exact ih (.widget w) (List.mem_map_of_mem hw)

/-- The statements of a pass, if it succeeds, with other places. -/
abbrev mapStatements (result : Except CodeProblem (List Statement)) :
    Except CodeProblem (List Statement) := result.map (List.map (Statement.mapPlaces f))

theorem flatten_mapM_map {α α' : Type} {g : α → α'} {pass : α → Except CodeProblem (List Statement)}
    {pass' : α' → Except CodeProblem (List Statement)} {xs : List α}
    (h : ∀ x ∈ xs, pass' (g x) = mapStatements f (pass x)) :
    (return (← (xs.map g).mapM pass').flatten : Except CodeProblem (List Statement)) =
      mapStatements f (return (← xs.mapM pass).flatten) := by
  have hmapM : (xs.map g).mapM pass' =
      (xs.mapM pass).map (List.map (List.map (Statement.mapPlaces f))) := mapM_map h
  rw [hmapM]
  cases xs.mapM pass with
  | error e => rfl
  | ok parts => exact congrArg Except.ok (List.map_flatten).symm

theorem Property.connects_mapPlaces (sender? : Option String) (target : Handle) (p : Property) :
    (p.mapPlaces f).connects sender? target = mapStatements f (p.connects sender? target) := by
  unfold connects
  rw [payload_mapPlaces, name_mapPlaces, modifiers_mapPlaces]
  cases p.payload with
  | connection value captures guard =>
    have hcallback : Callback.ofConnection? sender? (value.mapPlaces f)
        (captures.map (Capture.mapPlaces f)) =
          (Callback.ofConnection? sender? value captures).map (Callback.mapPlaces f) := by
      rw [Callback.ofConnection?, Expr.term_mapPlaces, Callback.ofConnection?]
      split
      · rfl
      · cases sender? with
        | none => rfl
        | some sender =>
          have hany : (captures.map (Capture.mapPlaces f)).any (·.name = sender) =
              captures.any (·.name = sender) := by
            rw [List.any_map]
            rfl
          simp only [Option.map_some, hany]
          split <;> rfl
    simp only [Payload.mapPlaces, hcallback]
    cases Callback.ofConnection? sender? value captures <;> rfl
  | binding value => rfl
  | method value => rfl
  | child arguments widget => rfl
  | choice arguments choice => rfl

theorem Node.connects_mapPlaces (sender? : Option String) (n : Node) :
    (n.mapPlaces f).connects sender? = mapStatements f (n.connects sender?) := by
  cases n with
  | widget w =>
    have hproperties := Node.properties_mapPlaces f (.widget w)
    show (return (← (Node.mapPlaces f (.widget w)).properties.mapM
      (Property.connects sender? (w.mapPlaces f).handle)).flatten : Except _ _) = _
    rw [hproperties, Widget.handle_mapPlaces]
    exact flatten_mapM_map f fun p _ => Property.connects_mapPlaces f sender? w.handle p
  | choice c => rfl

theorem Component.connects_mapPlaces (c : Component) :
    (c.mapPlaces f).connects = mapStatements f c.connects := by
  have hsender : (c.mapPlaces f).sender? = c.sender? := by cases c <;> rfl
  rw [connects, walk_mapPlaces, hsender]
  exact flatten_mapM_map f fun n _ => n.connects_mapPlaces f c.sender?

namespace UpdateScope

def mapPlaces (f : Place → Place) (s : UpdateScope) : UpdateScope :=
  { s with symbols := s.symbols.mapPlaces f }

theorem blocked_mapPlaces (s : UpdateScope) (guard : String) :
    (s.mapPlaces f).blocked guard = s.blocked guard := by
  unfold blocked
  rw [show (s.mapPlaces f).symbols.guard? guard = s.symbols.guard? guard from rfl]
  cases s.symbols.guard? guard with
  | none => rfl
  | some e =>
    have hnode : ((s.mapPlaces f).symbols.node? e.owner).map (·.node.handle) =
        (s.symbols.node? e.owner).map (·.node.handle) := by
      rw [mapPlaces, Symbols.node?_mapPlaces, Option.map_map]
      exact congrArg (Option.map · _) (funext fun entry => Node.handle_mapPlaces f entry.node)
    simp only [hnode]

theorem trigger_mapPlaces (s : UpdateScope) (property : String) (m : Modifiers) (value : Expr) :
    (s.mapPlaces f).trigger property (m.mapPlaces f) (value.mapPlaces f) =
      (s.trigger property m value).map (Option.map (Trigger.mapPlaces f)) := by
  unfold trigger
  rw [Modifiers.watch_mapPlaces, Modifiers.predicate?_mapPlaces, Expr.term_mapPlaces]
  split
  · rfl
  · cases m.predicate? with
    | some condition => rfl
    | none =>
      show (if (value.term.fieldsOf s.model).isEmpty then _ else _) =
        Except.map _ (if (value.term.fieldsOf s.model).isEmpty then _ else _)
      split <;> rfl

theorem refresh_mapPlaces (s : UpdateScope) (target : Handle) (p : Property) :
    (s.mapPlaces f).refresh target (p.mapPlaces f) = mapStatements f (s.refresh target p) := by
  unfold refresh
  rw [Property.application?_mapPlaces, Property.modifiers_mapPlaces, Property.name_mapPlaces]
  cases p.application? target with
  | none => rfl
  | some a =>
    have hblocked : (s.mapPlaces f).blocked = s.blocked := funext (blocked_mapPlaces f s)
    have htrigger := trigger_mapPlaces f s p.name p.modifiers a.value
    simp only [Option.map_some, Modifiers.refreshes_mapPlaces, Modifiers.blockSignals_mapPlaces,
      hblocked]
    split
    · show (s.mapPlaces f).trigger p.name (p.modifiers.mapPlaces f) (a.value.mapPlaces f) >>= _ = _
      rw [htrigger]
      cases s.trigger p.name p.modifiers a.value with
      | error e => rfl
      | ok trigger => cases p.modifiers.blockSignals.mapM s.blocked <;> rfl
    · rfl

end UpdateScope

theorem append_mapStatements (x y : Except CodeProblem (List Statement)) :
    (do let a ← mapStatements f x; return a ++ (← mapStatements f y)) =
      mapStatements f (do let a ← x; return a ++ (← y)) := by
  cases x with
  | error e => rfl
  | ok a =>
    cases y with
    | error e => rfl
    | ok b => exact congrArg Except.ok List.map_append.symm

theorem append₃_mapStatements (x y z : Except CodeProblem (List Statement)) :
    (do let a ← mapStatements f x; let b ← mapStatements f y; return a ++ b ++ (← mapStatements f z)) =
      mapStatements f (do let a ← x; let b ← y; return a ++ b ++ (← z)) := by
  cases x with
  | error e => rfl
  | ok a =>
    cases y with
    | error e => rfl
    | ok b =>
      cases z with
      | error e => rfl
      | ok c =>
        refine congrArg Except.ok ?_
        rw [List.map_append, List.map_append]

mutual

theorem Widget.refresh_mapPlaces (s : UpdateScope) : (w : Widget) →
    (w.mapPlaces f).refresh (s.mapPlaces f) = mapStatements f (w.refresh s)
  | ⟨name, construction, isRoot, doc, place, properties⟩ => by
    have hproperties := Property.refreshEach_mapAll s ⟨name.text, construction.isTemplate⟩ properties
    simp only [Widget.mapPlaces, Widget.refresh, Construction.isTemplate_mapPlaces]
    exact hproperties

theorem Property.refreshEach_mapAll (s : UpdateScope) (target : Handle) : (ps : List Property) →
    Property.refreshEach (s.mapPlaces f) target (Property.mapAll f ps) =
      mapStatements f (Property.refreshEach s target ps)
  | [] => rfl
  | ⟨name, modifiers, place, payload⟩ :: more => by
    have hown := UpdateScope.refresh_mapPlaces f s target ⟨name, modifiers, place, payload⟩
    have hpayload := Payload.refresh_mapPlaces s payload
    have hmore := Property.refreshEach_mapAll s target more
    rw [Property.mapPlaces] at hown
    rw [Property.mapAll, Property.mapPlaces, Property.refreshEach, Property.refreshEach, hown,
      hpayload, hmore]
    exact append₃_mapStatements f _ _ _

theorem Payload.refresh_mapPlaces (s : UpdateScope) : (p : Payload) →
    (p.mapPlaces f).refresh (s.mapPlaces f) = mapStatements f (p.refresh s)
  | .method value => rfl
  | .binding value => rfl
  | .connection value captures guard => rfl
  | .child arguments widget => by
    have hwidget := Widget.refresh_mapPlaces s widget
    rw [Payload.mapPlaces, Payload.refresh, Payload.refresh]
    exact hwidget
  | .choice arguments c => by
    have hchoice := Choice.refresh_mapPlaces s c
    rw [Payload.mapPlaces, Payload.refresh, Payload.refresh]
    exact hchoice

theorem Choice.refresh_mapPlaces (s : UpdateScope) : (c : Choice) →
    (c.mapPlaces f).refresh (s.mapPlaces f) = mapStatements f (c.refresh s)
  | ⟨name, transition, doc, place, branches⟩ => by
    have hbranches := Branches.refresh_mapPlaces s branches
    rw [Choice.mapPlaces, Choice.refresh, Choice.refresh, hbranches]
    cases branches.refresh s <;> rfl

theorem Branches.refresh_mapPlaces (s : UpdateScope) : (b : Branches) →
    (b.mapPlaces f).refresh (s.mapPlaces f) = mapStatements f (b.refresh s)
  | .chain ⟨condition, widget, place⟩ others last lastPlace => by
    have hfirst := Widget.refresh_mapPlaces s widget
    have hothers := Branch.refreshEach_mapAll s others
    have hlast := Widget.refresh_mapPlaces s last
    rw [Branches.mapPlaces, Branch.mapPlaces, Branches.refresh, Branches.refresh, hfirst, hothers,
      hlast]
    exact append₃_mapStatements f _ _ _
  | .cases subject arms => by
    have harms := CaseArm.refreshEach_mapAll s arms
    rw [Branches.mapPlaces, Branches.refresh, Branches.refresh]
    exact harms

theorem Branch.refreshEach_mapAll (s : UpdateScope) : (bs : List Branch) →
    Branch.refreshEach (s.mapPlaces f) (Branch.mapAll f bs) =
      mapStatements f (Branch.refreshEach s bs)
  | [] => rfl
  | ⟨condition, widget, place⟩ :: more => by
    have hwidget := Widget.refresh_mapPlaces s widget
    have hmore := Branch.refreshEach_mapAll s more
    rw [Branch.mapAll, Branch.mapPlaces, Branch.refreshEach, Branch.refreshEach, hwidget, hmore]
    exact append_mapStatements f _ _

theorem CaseArm.refreshEach_mapAll (s : UpdateScope) : (as : List CaseArm) →
    CaseArm.refreshEach (s.mapPlaces f) (CaseArm.mapAll f as) =
      mapStatements f (CaseArm.refreshEach s as)
  | [] => rfl
  | ⟨pattern, widget⟩ :: more => by
    have hwidget := Widget.refresh_mapPlaces s widget
    have hmore := CaseArm.refreshEach_mapAll s more
    rw [CaseArm.mapAll, CaseArm.mapPlaces, CaseArm.refreshEach, CaseArm.refreshEach, hwidget, hmore]
    exact append_mapStatements f _ _

end

theorem View.refreshes_mapPlaces (v : View) (symbols : Symbols) :
    (v.mapPlaces f).refreshes (symbols.mapPlaces f) = mapStatements f (v.refreshes symbols) := by
  have h := flatten_mapM_map f fun w (_ : w ∈ v.root :: v.trees) =>
    w.refresh_mapPlaces f ⟨v.model, symbols⟩
  exact h

theorem View.updates_mapPlaces (v : View) (symbols : Symbols) (names : List String) :
    (v.mapPlaces f).updates (symbols.mapPlaces f) names =
      mapStatements f (v.updates symbols names) := by
  unfold updates
  rw [refreshes_mapPlaces]
  cases v.refreshes symbols with
  | error e => rfl
  | ok body =>
    show Except.ok _ = Except.ok _
    refine congrArg Except.ok ?_
    rw [List.isEmpty_map]
    split
    · rfl
    · rw [List.map_append, List.map_map]
      rfl

theorem Node.field_mapPlaces (settings : Settings) (n : Node) :
    (n.mapPlaces f).field settings = n.field settings := by
  cases n with
  | widget w =>
    obtain ⟨name, construction, isRoot, doc, place, properties⟩ := w
    simp [Node.field, Node.mapPlaces, Widget.mapPlaces, Node.nodeName, Node.typeText]
  | choice c => cases c; rfl

theorem Node.isRecorded_mapPlaces (topLevel : Bool) (n : Node) :
    (n.mapPlaces f).isRecorded topLevel = n.isRecorded topLevel := by
  cases n with
  | widget w =>
    obtain ⟨name, construction, isRoot, doc, place, properties⟩ := w
    simp [Node.isRecorded, Node.mapPlaces, Widget.mapPlaces, Node.nodeName, Property.mapAll_eq,
      List.any_map, Function.comp_def]
  | choice c => cases c; rfl

theorem Widget.rootType_mapPlaces (settings : Settings) (w : Widget) :
    (w.mapPlaces f).rootType settings = w.rootType settings := by
  obtain ⟨name, construction, isRoot, doc, place, properties⟩ := w
  simp [Widget.rootType, Widget.mapPlaces, Node.typeText]

namespace Component

theorem initRoutine_mapPlaces (settings : Settings) (c : Component) :
    ((c.mapPlaces f).initRoutine settings).map InitRoutine.statements =
      mapStatements f ((c.initRoutine settings).map InitRoutine.statements) := by
  have hbuilds : (c.mapPlaces f).rootBuilds ++ (c.mapPlaces f).otherBuilds =
      (c.rootBuilds ++ c.otherBuilds).map (Statement.mapPlaces f) := by
    rw [builds_eq, builds_eq, trees_mapPlaces, List.flatMap_map, List.map_flatMap]
    exact List.flatMap_congr fun w _ => Node.build_mapPlaces f (.widget w)
  have hassigns : (c.mapPlaces f).assigns settings =
      (c.assigns settings).map (Statement.mapPlaces f) := by
    rw [assigns, trees_mapPlaces, List.flatMap_map, assigns, List.map_flatMap]
    exact List.flatMap_congr fun w _ => Node.assign_mapPlaces f settings (.widget w)
  unfold initRoutine
  rw [connects_mapPlaces]
  cases c.connects with
  | error e => rfl
  | ok connects =>
    refine congrArg Except.ok ?_
    show (c.mapPlaces f).rootBuilds ++ (c.mapPlaces f).otherBuilds ++
        (c.mapPlaces f).assigns settings ++ connects.map (Statement.mapPlaces f) =
      (c.rootBuilds ++ c.otherBuilds ++ c.assigns settings ++ connects).map (Statement.mapPlaces f)
    simp only [hbuilds, hassigns, List.map_append]

theorem recordFields_mapPlaces (settings : Settings) (c : Component) :
    (c.mapPlaces f).recordFields settings = c.recordFields settings := by
  rw [recordFields, visits_mapPlaces, propertyVisits_mapPlaces, recordFields, List.filter_map,
    List.map_map, List.filterMap_map]
  refine congrArg₂ (· ++ ·) ?_ (congrArg (List.map guardField) ?_)
  · refine congr (congrArg List.map (funext fun v => Node.field_mapPlaces f settings v.node)) ?_
    refine congrArg (List.filter · c.visits) (funext fun v => ?_)
    exact Node.isRecorded_mapPlaces f v.parent.isNone v.node
  · exact congrArg (List.filterMap · c.propertyVisits)
      (funext fun (_, p) => Property.guard?_mapPlaces f p)

theorem templateFields_mapPlaces (settings : Settings) (c : Component) :
    (c.mapPlaces f).templateFields settings = c.templateFields settings := by
  have hroot : (c.mapPlaces f).root = c.root.mapPlaces f := by cases c <;> rfl
  have hname : (c.root.mapPlaces f).name = c.root.name := by cases c.root; rfl
  have hdoc : (c.root.mapPlaces f).doc = c.root.doc := by cases c.root; rfl
  have hnodes : ((c.walk.map (Node.mapPlaces f)).filter (·.nodeName.isGiven)).map
      (Node.field settings) = (c.walk.filter (·.nodeName.isGiven)).map (Node.field settings) := by
    rw [List.filter_map, List.map_map]
    refine congr (congrArg List.map (funext fun n => Node.field_mapPlaces f settings n)) ?_
    refine congrArg (List.filter · c.walk) (funext fun n => ?_)
    exact congrArg NodeName.isGiven (Node.nodeName_mapPlaces f n)
  simp only [templateFields, walk_mapPlaces, hroot, hname, hdoc, hnodes, Widget.rootType_mapPlaces]

/-- The code of a component does not depend on where it stands. -/
theorem artifact_mapPlaces (settings : Settings) (c : Component) :
    (c.mapPlaces f).artifact settings = c.artifact settings := by
  have hroutine := initRoutine_mapPlaces f settings c
  have hrecord := recordFields_mapPlaces f settings c
  have htemplate := templateFields_mapPlaces f settings c
  unfold artifact
  rw [symbols_mapPlaces]
  cases c.symbols with
  | error problem => rfl
  | ok symbols =>
    cases hmoved : (c.mapPlaces f).initRoutine settings with
    | error problem =>
      cases hhere : c.initRoutine settings with
      | error other =>
        rw [hmoved, hhere] at hroutine
        obtain rfl : problem = other := Except.error.inj hroutine
        rfl
      | ok routine => simp [hmoved, hhere, mapStatements, Except.map] at hroutine
    | ok moved =>
      cases hhere : c.initRoutine settings with
      | error problem => simp [hmoved, hhere, mapStatements, Except.map] at hroutine
      | ok routine =>
        rw [hmoved, hhere] at hroutine
        have hstatements : moved.statements = routine.statements.map (Statement.mapPlaces f) :=
          Except.ok.inj hroutine
        have hcode : statementsCode settings moved.statements =
            statementsCode settings routine.statements := by
          rw [hstatements, statementsCode_mapPlaces]
        cases c with
        | template t =>
          have hhandle : (t.tree.mapPlaces f).handle = t.tree.handle := Widget.handle_mapPlaces f t.tree
          show Except.ok (Artifact.template t.name (Code.render settings.indentWidth 0
              (templateCode t.name (((template t).mapPlaces f).templateFields settings)
                (t.tree.mapPlaces f).handle (statementsCode settings moved.statements)))) = _
          rw [htemplate, hhandle, hcode]
          rfl
        | view v =>
          have hinit : (v.mapPlaces f).initCode settings
              (((view v).mapPlaces f).recordFields settings) moved =
                v.initCode settings ((view v).recordFields settings) routine := by
            unfold View.initCode
            rw [hrecord, hcode]
            simp only [View.mapPlaces, Widget.rootType_mapPlaces, Widget.handle_mapPlaces]
            rfl
          have hupdates := View.updates_mapPlaces f v symbols
            (((view v).recordFields settings).map RecordField.name)
          show ((v.mapPlaces f).updates (symbols.mapPlaces f)
              ((((view v).mapPlaces f).recordFields settings).map RecordField.name) >>= fun updates =>
            Except.ok (Artifact.view v.name
              (Code.render settings.indentWidth 0
                (recordCode v.name (((view v).mapPlaces f).recordFields settings)))
              (Code.render settings.indentWidth 0 ((v.mapPlaces f).initCode settings
                (((view v).mapPlaces f).recordFields settings) moved))
              (Code.render settings.indentWidth 0 ((v.mapPlaces f).updateCode settings updates)))) =
            (v.updates symbols (((view v).recordFields settings).map RecordField.name) >>= _)
          rw [hinit, hrecord, hupdates]
          cases v.updates symbols (((view v).recordFields settings).map RecordField.name) with
          | error problem => rfl
          | ok updates =>
            have hupdate : (v.mapPlaces f).updateCode settings
                (updates.map (Statement.mapPlaces f)) = v.updateCode settings updates := by
              unfold View.updateCode
              rw [statementsCode_mapPlaces]
              rfl
            show Except.ok (Artifact.view v.name _ _ (Code.render settings.indentWidth 0
              ((v.mapPlaces f).updateCode settings (updates.map (Statement.mapPlaces f))))) = _
            rw [hupdate]
            rfl

end Component
end
end ViewTree
