import ViewTree.Proofs.Relocation.Trees

/-!
Checks of components with other places. Main statements: a check finds the same, at the other places
(`Component.check_mapPlaces`, `Component.lint_mapPlaces`).
-/
namespace ViewTree

def Diagnostic.mapPlaces (f : Place → Place) (d : Diagnostic) : Diagnostic :=
  { d with place := f d.place }

def Findings.mapPlaces (f : Place → Place) (found : Findings) : Findings where
  errors := found.errors.map (Diagnostic.mapPlaces f)
  warnings := found.warnings.map (Diagnostic.mapPlaces f)

def NodeEntry.mapPlaces (f : Place → Place) (e : NodeEntry) : NodeEntry :=
  { e with node := e.node.mapPlaces f }

def Symbols.mapPlaces (f : Place → Place) (t : Symbols) : Symbols :=
  { t with nodes := t.nodes.map (NodeEntry.mapPlaces f) }

def Component.Collection.mapPlaces (f : Place → Place) (t : Collection) : Collection :=
  { t with symbols := t.symbols.mapPlaces f, errors := t.errors.map (Diagnostic.mapPlaces f) }

section
variable (f : Place → Place)

theorem Visit.entry?_mapPlaces (v : Visit) :
    Visit.entry? (v.mapPlaces f) = v.entry?.map (NodeEntry.mapPlaces f) := by
  rw [Visit.entry?, mapPlaces, Node.name?_mapPlaces, Visit.entry?, Option.map_map]
  rfl

theorem Visit.guardEntry?_mapPlaces (v : Visit) (p : Property) :
    Visit.guardEntry? (v.mapPlaces f) (p.mapPlaces f) = v.guardEntry? p := by
  rw [Visit.guardEntry?, mapPlaces, Node.name?_mapPlaces, Property.guard?_mapPlaces]
  rfl

namespace Symbols

theorem node?_mapPlaces (t : Symbols) (name : String) :
    (t.mapPlaces f).node? name = (t.node? name).map (NodeEntry.mapPlaces f) := by
  rw [node?, mapPlaces, List.find?_map]
  rfl

theorem guard?_mapPlaces (t : Symbols) (name : String) :
    (t.mapPlaces f).guard? name = t.guard? name := rfl

theorem addNode_mapPlaces (t : Symbols) (e : NodeEntry) :
    (t.mapPlaces f).addNode (e.mapPlaces f) = (t.addNode e).map (mapPlaces f) := by
  have hname : (e.mapPlaces f).name = e.name := rfl
  rw [addNode, addNode, hname, node?_mapPlaces, guard?_mapPlaces, Option.isSome_map]
  split
  · rfl
  · simp [mapPlaces, Except.map]

theorem addGuard_mapPlaces (t : Symbols) (e : GuardEntry) :
    (t.mapPlaces f).addGuard e = (t.addGuard e).map (mapPlaces f) := by
  rw [addGuard, addGuard, node?_mapPlaces, guard?_mapPlaces, Option.isSome_map]
  cases t.guard? e.name with
  | some other => rfl
  | none =>
    dsimp only
    split <;> rfl

end Symbols

/-- A fold that goes with a map of its states goes with it as a whole. -/
theorem foldlM_map_state {σ τ α ε : Type} {g : σ → τ} {step : σ → α → Except ε σ}
    {step' : τ → α → Except ε τ} (h : ∀ s x, step' (g s) x = (step s x).map g) (xs : List α) (s : σ) :
    xs.foldlM step' (g s) = (xs.foldlM step s).map g := by
  induction xs generalizing s with
  | nil => rfl
  | cons x xs ih =>
    rw [List.foldlM_cons, List.foldlM_cons, h]
    cases step s x with
    | error e => rfl
    | ok s => exact ih s

namespace Component

theorem nodeEntries_mapPlaces (c : Component) :
    (c.mapPlaces f).nodeEntries = c.nodeEntries.map (NodeEntry.mapPlaces f) := by
  rw [nodeEntries, visits_mapPlaces, nodeEntries, List.filterMap_map, List.map_filterMap]
  exact congrArg (List.filterMap · _) (funext fun v => v.entry?_mapPlaces f)

theorem guardEntries_mapPlaces (c : Component) :
    (c.mapPlaces f).guardEntries = c.guardEntries := by
  rw [guardEntries, propertyVisits_mapPlaces, guardEntries, List.filterMap_map]
  exact congrArg (List.filterMap · _) (funext fun (v, p) => v.guardEntry?_mapPlaces f p)

theorem symbols_mapPlaces (c : Component) :
    (c.mapPlaces f).symbols = c.symbols.map (Symbols.mapPlaces f) := by
  have hnodes : (c.nodeEntries.map (NodeEntry.mapPlaces f)).foldlM Symbols.addNode {} =
      (c.nodeEntries.foldlM Symbols.addNode {}).map (Symbols.mapPlaces f) := by
    rw [List.foldlM_map]
    exact foldlM_map_state (g := Symbols.mapPlaces f)
      (fun t e => Symbols.addNode_mapPlaces f t e) c.nodeEntries {}
  rw [symbols, nodeEntries_mapPlaces, hnodes, guardEntries_mapPlaces, symbols]
  cases c.nodeEntries.foldlM Symbols.addNode {} with
  | error problem => rfl
  | ok t => exact foldlM_map_state (Symbols.addGuard_mapPlaces f) c.guardEntries t

theorem collectNode_mapPlaces (component : String) (t : Collection) (v : Visit) :
    collectNode component (t.mapPlaces f) (v.mapPlaces f) =
      (collectNode component t v).mapPlaces f := by
  rw [collectNode, collectNode, Visit.entry?_mapPlaces]
  cases v.entry? with
  | none => simp [Collection.mapPlaces, Diagnostic.mapPlaces, Visit.mapPlaces]
  | some e =>
    have hadd : (t.mapPlaces f).symbols.addNode (e.mapPlaces f) = _ :=
      Symbols.addNode_mapPlaces f t.symbols e
    simp only [Option.map_some]
    rw [hadd]
    cases t.symbols.addNode e with
    | ok symbols => rfl
    | error problem =>
      simp [Except.map, Collection.mapPlaces, Diagnostic.mapPlaces, Visit.mapPlaces,
        NodeEntry.mapPlaces]

theorem collectGuard_mapPlaces (component : String) (t : Collection) (v : Visit) (p : Property) :
    collectGuard component (t.mapPlaces f) (v.mapPlaces f) (p.mapPlaces f) =
      (collectGuard component t v p).mapPlaces f := by
  rw [collectGuard, collectGuard, Visit.guardEntry?_mapPlaces]
  cases v.guardEntry? p with
  | none => rfl
  | some e =>
    have hadd : (t.mapPlaces f).symbols.addGuard e = _ := Symbols.addGuard_mapPlaces f t.symbols e
    dsimp only
    rw [hadd]
    cases t.symbols.addGuard e with
    | ok symbols => rfl
    | error problem => simp [Except.map, Collection.mapPlaces, Diagnostic.mapPlaces]

theorem collectSymbols_mapPlaces (c : Component) : (c.mapPlaces f).collectSymbols =
    (c.collectSymbols.1.mapPlaces f, c.collectSymbols.2.map (Diagnostic.mapPlaces f)) := by
  have hnodes (vs : List Visit) (t : Collection) :
      vs.foldl (fun t v => collectNode c.name t (v.mapPlaces f)) (t.mapPlaces f) =
        (vs.foldl (collectNode c.name) t).mapPlaces f := by
    induction vs generalizing t with
    | nil => rfl
    | cons v vs ih => rw [List.foldl_cons, collectNode_mapPlaces, ih, List.foldl_cons]
  have hguards (vs : List (Visit × Property)) (t : Collection) :
      vs.foldl (fun t v => collectGuard c.name t (v.1.mapPlaces f) (v.2.mapPlaces f))
        (t.mapPlaces f) =
          (vs.foldl (fun t v => collectGuard c.name t v.1 v.2) t).mapPlaces f := by
    induction vs generalizing t with
    | nil => rfl
    | cons entry vs ih =>
      obtain ⟨v, p⟩ := entry
      show vs.foldl _ (collectGuard c.name (t.mapPlaces f) (v.mapPlaces f) (p.mapPlaces f)) = _
      rw [collectGuard_mapPlaces, ih, List.foldl_cons]
  simp only [collectSymbols, visits_mapPlaces, propertyVisits_mapPlaces, name_mapPlaces,
    List.foldl_map]
  have hstart : ({} : Collection) = ({} : Collection).mapPlaces f := rfl
  rw [hstart, hnodes, hguards]
  rfl

theorem flatMap_map_of_step {α α' β β' : Type} {g : α → α'} {k : β → β'} {step : α → List β}
    {step' : α' → List β'} (h : ∀ x, step' (g x) = (step x).map k) (xs : List α) :
    (xs.map g).flatMap step' = (xs.flatMap step).map k := by
  rw [List.flatMap_map, List.map_flatMap]
  exact List.flatMap_congr fun x _ => h x

theorem filterMap_map_of_step {α α' β β' : Type} {g : α → α'} {k : β → β'} {step : α → Option β}
    {step' : α' → Option β'} (h : ∀ x, step' (g x) = (step x).map k) (xs : List α) :
    (xs.map g).filterMap step' = (xs.filterMap step).map k := by
  rw [List.filterMap_map, List.map_filterMap]
  exact congrArg (List.filterMap · xs) (funext h)

theorem map_error_place (place : Place) (findings : List Finding) :
    findings.map (error (f place)) = (findings.map (error place)).map (Diagnostic.mapPlaces f) := by
  rw [List.map_map]
  rfl

theorem checkNodeName_mapPlaces (settings : Settings) (c : Component) (n : Node) :
    checkNodeName settings (c.mapPlaces f) (n.mapPlaces f) =
      (checkNodeName settings c n).map (Diagnostic.mapPlaces f) := by
  simp only [checkNodeName, Node.nodeName_mapPlaces, Node.place_mapPlaces, params_mapPlaces,
    name_mapPlaces, kind_mapPlaces, Node.isPrebound_mapPlaces, map_error_place]
  cases n.nodeName with
  | given name isMutable =>
    simp only [List.map_append]
    congr 1
    · congr 1
      split <;> rfl
    · split <;> rfl
  | absent => rfl
  | synthesized name => rfl

theorem checkGuardName_mapPlaces (settings : Settings) (c : Component) (p : Property) :
    checkGuardName settings (c.mapPlaces f) (p.mapPlaces f) =
      (checkGuardName settings c p).map (Diagnostic.mapPlaces f) := by
  simp only [checkGuardName, Property.guard?_mapPlaces, Property.place_mapPlaces, params_mapPlaces,
    map_error_place]
  cases p.guard? with
  | some guard =>
    simp only [List.map_append]
    congr 1
    split <;> rfl
  | none => rfl

theorem checkNames_mapPlaces (settings : Settings) (c : Component) :
    (c.mapPlaces f).checkNames settings = (c.checkNames settings).mapPlaces f := by
  rw [checkNames, visits_mapPlaces, propertyVisits_mapPlaces, checkNames, Findings.mapPlaces,
    List.map_append]
  refine congrArg (Findings.mk · []) (congrArg₂ (· ++ ·) ?_ ?_)
  · refine flatMap_map_of_step (fun v => ?_) c.visits
    exact checkNodeName_mapPlaces f settings c v.node
  · refine flatMap_map_of_step (fun entry => ?_) c.propertyVisits
    exact checkGuardName_mapPlaces f settings c entry.2

theorem mapPlaces_append (a b : Findings) :
    (a ++ b).mapPlaces f = a.mapPlaces f ++ b.mapPlaces f := by
  have herrors : (a ++ b).errors = a.errors ++ b.errors := rfl
  have hwarnings : (a ++ b).warnings = a.warnings ++ b.warnings := rfl
  rw [Findings.mapPlaces, herrors, hwarnings, List.map_append, List.map_append]
  rfl

theorem checkPropertyModifiers_mapPlaces (p : Property) :
    checkPropertyModifiers (p.mapPlaces f) = (checkPropertyModifiers p).mapPlaces f := by
  simp only [checkPropertyModifiers, Property.modifiers_mapPlaces, Modifiers.names_mapPlaces,
    Property.kind_mapPlaces, Property.place_mapPlaces, Property.label_mapPlaces,
    Modifiers.watch_mapPlaces, Modifiers.tracks_mapPlaces, Modifiers.blockSignals_mapPlaces,
    Modifiers.refreshes_mapPlaces]
  split
  · rfl
  · simp only [Findings.mapPlaces, List.map_append]
    congr 2
    · split <;> rfl
    · split <;> rfl

theorem checkModifiers_mapPlaces (c : Component) :
    (c.mapPlaces f).checkModifiers = c.checkModifiers.mapPlaces f := by
  have hfold (vs : List (Visit × Property)) (found : Findings) :
      vs.foldl (fun found v => found ++ checkPropertyModifiers (v.2.mapPlaces f))
        (found.mapPlaces f) =
          (vs.foldl (fun found v => found ++ checkPropertyModifiers v.2) found).mapPlaces f := by
    induction vs generalizing found with
    | nil => rfl
    | cons entry vs ih =>
      obtain ⟨v, p⟩ := entry
      show vs.foldl _ (found.mapPlaces f ++ checkPropertyModifiers (p.mapPlaces f)) = _
      rw [checkPropertyModifiers_mapPlaces, ← mapPlaces_append, ih, List.foldl_cons]
  rw [checkModifiers, propertyVisits_mapPlaces, List.foldl_map]
  exact hfold c.propertyVisits {}

theorem trackingProblem?_mapPlaces (c : Component) (p : Property) :
    (c.mapPlaces f).trackingProblem? (p.mapPlaces f) = c.trackingProblem? p := by
  cases c with
  | template t => simp [trackingProblem?, mapPlaces, Template.mapPlaces]
  | view v =>
    simp only [trackingProblem?, mapPlaces, View.mapPlaces, Property.modifiers_mapPlaces,
      Modifiers.refreshes_mapPlaces, Modifiers.tracks_mapPlaces, Modifiers.watch_mapPlaces,
      Property.label_mapPlaces, Modifiers.predicate?_mapPlaces, Property.value?_mapPlaces]
    cases p.modifiers.predicate? <;> cases p.value? <;> rfl

theorem checkTracking_mapPlaces (c : Component) :
    (c.mapPlaces f).checkTracking = c.checkTracking.mapPlaces f := by
  rw [checkTracking, propertyVisits_mapPlaces, checkTracking, Findings.mapPlaces]
  refine congrArg (Findings.mk · []) (filterMap_map_of_step (fun entry => ?_) c.propertyVisits)
  dsimp only
  rw [trackingProblem?_mapPlaces, Property.place_mapPlaces, Option.map_map]
  rfl

theorem checkGuards_mapPlaces (symbols : Symbols) (c : Component) :
    (c.mapPlaces f).checkGuards (symbols.mapPlaces f) = (c.checkGuards symbols).mapPlaces f := by
  rw [checkGuards, propertyVisits_mapPlaces, checkGuards, Findings.mapPlaces]
  refine congrArg (Findings.mk · []) (flatMap_map_of_step (fun entry => ?_) c.propertyVisits)
  dsimp only
  rw [Property.modifiers_mapPlaces, Property.place_mapPlaces, map_error_place]
  rfl

theorem checkConnection_mapPlaces (c : Component) (p : Property) :
    (c.mapPlaces f).checkConnection (p.mapPlaces f) =
      (c.checkConnection p).map (Diagnostic.mapPlaces f) := by
  unfold checkConnection
  rw [Property.payload_mapPlaces, Property.place_mapPlaces, Property.name_mapPlaces]
  cases p.payload with
  | connection value captures guard =>
    have hnames : (captures.map (Capture.mapPlaces f)).map (·.name) = captures.map (·.name) := by
      rw [List.map_map]
      rfl
    simp only [Payload.mapPlaces, hnames, Expr.term_mapPlaces, map_error_place]
    cases c <;> cases guard <;> rfl
  | method value => rfl
  | binding value => rfl
  | child arguments widget => rfl
  | choice arguments choice => rfl

theorem checkConnections_mapPlaces (c : Component) :
    (c.mapPlaces f).checkConnections = c.checkConnections.mapPlaces f := by
  rw [checkConnections, propertyVisits_mapPlaces, checkConnections, Findings.mapPlaces]
  refine congrArg (Findings.mk · []) (flatMap_map_of_step (fun entry => ?_) c.propertyVisits)
  exact checkConnection_mapPlaces f c entry.2

theorem checkBindings_mapPlaces (settings : Settings) (symbols : Symbols) (c : Component) :
    (c.mapPlaces f).checkBindings settings (symbols.mapPlaces f) =
      (c.checkBindings settings symbols).mapPlaces f := by
  have hproblem (value : Expr) : bindingProblem? settings (symbols.mapPlaces f) (c.mapPlaces f)
      (value.mapPlaces f) = bindingProblem? settings symbols c value := by
    simp only [bindingProblem?, Expr.text_mapPlaces, Expr.term_mapPlaces, Symbols.node?_mapPlaces,
      Option.isSome_map, params_mapPlaces, name_mapPlaces]
  rw [checkBindings, propertyVisits_mapPlaces, checkBindings, Findings.mapPlaces]
  refine congrArg (Findings.mk · []) (filterMap_map_of_step (fun entry => ?_) c.propertyVisits)
  dsimp only
  rw [Property.payload_mapPlaces, Property.place_mapPlaces]
  cases entry.2.payload with
  | binding value =>
    simp only [Payload.mapPlaces, hproblem, Option.map_map]
    rfl
  | method value => rfl
  | connection value captures guard => rfl
  | child arguments widget => rfl
  | choice arguments choice => rfl

theorem checkPrebound_mapPlaces (c : Component) :
    (c.mapPlaces f).checkPrebound = c.checkPrebound.mapPlaces f := by
  rw [checkPrebound, visits_mapPlaces, checkPrebound, Findings.mapPlaces]
  refine congrArg (Findings.mk · []) (filterMap_map_of_step (fun v => ?_) c.visits)
  simp only [Visit.mapPlaces, Node.isPrebound_mapPlaces, Node.name?_mapPlaces, Node.place_mapPlaces]
  split
  · rfl
  · cases v.node.name? <;> cases c <;> rfl

theorem selectionNames_mapPlaces (b : Branches) :
    selectionNames (b.mapPlaces f) = selectionNames b := by
  cases b with
  | chain first others last place =>
    simp only [Branches.mapPlaces, selectionNames, Branch.mapAll_eq, ← List.map_cons,
      List.flatMap_map]
    exact List.flatMap_congr fun b _ => by cases b; rfl
  | cases subject arms =>
    simp only [Branches.mapPlaces, selectionNames, CaseArm.mapAll_eq, List.flatMap_map]
    exact congrArg (_ ++ ·) (List.flatMap_congr fun a _ => by cases a; rfl)

theorem refreshedExprs_mapPlaces (p : Property) :
    (refreshedExprs (p.mapPlaces f)).flatMap (·.term.names) =
      (refreshedExprs p).flatMap (·.term.names) := by
  have hexprs : refreshedExprs (p.mapPlaces f) = (refreshedExprs p).map (Expr.mapPlaces f) := by
    simp only [refreshedExprs, Property.value?_mapPlaces, Property.modifiers_mapPlaces,
      Modifiers.predicate?_mapPlaces, Option.toList_map, List.map_append]
    rfl
  rw [hexprs, List.flatMap_map]
  rfl

theorem initOnly_mapPlaces (c : Component) : (c.mapPlaces f).initOnly = c.initOnly := by
  have hbound : ((c.walk.map (Node.mapPlaces f)).filter Node.isPrebound).filterMap Node.name? =
      (c.walk.filter Node.isPrebound).filterMap Node.name? := by
    rw [List.filter_map, List.filterMap_map]
    congr 1
    · funext n
      exact Node.name?_mapPlaces f n
    · congr 1
      funext n
      exact Node.isPrebound_mapPlaces f n
  rw [initOnly, walk_mapPlaces, params_mapPlaces, hbound]
  rfl

theorem checkNodeScope_mapPlaces (names : List String) (n : Node) :
    checkNodeScope names (n.mapPlaces f) =
      (checkNodeScope names n).map (Diagnostic.mapPlaces f) := by
  cases n with
  | choice c =>
    obtain ⟨name, transition, doc, place, branches⟩ := c
    simp only [Node.mapPlaces, Choice.mapPlaces, checkNodeScope, selectionNames_mapPlaces,
      List.map_map]
    rfl
  | widget w =>
    obtain ⟨name, construction, isRoot, doc, place, properties⟩ := w
    simp only [Node.mapPlaces, Widget.mapPlaces, checkNodeScope, Property.mapAll_eq]
    refine flatMap_map_of_step (fun p => ?_) properties
    simp only [Property.modifiers_mapPlaces, Modifiers.refreshes_mapPlaces, refreshedExprs_mapPlaces,
      Property.place_mapPlaces, Property.label_mapPlaces]
    split
    · rw [List.map_map]
      rfl
    · rfl

theorem checkUpdateScope_mapPlaces (c : Component) :
    (c.mapPlaces f).checkUpdateScope = c.checkUpdateScope.mapPlaces f := by
  rw [checkUpdateScope, visits_mapPlaces, initOnly_mapPlaces, checkUpdateScope, Findings.mapPlaces]
  refine congrArg (Findings.mk · []) (flatMap_map_of_step (fun v => ?_) c.visits)
  exact checkNodeScope_mapPlaces f c.initOnly v.node

/-- Checks find the same wherever a component stands. -/
theorem check_mapPlaces (settings : Settings) (c : Component) :
    (c.mapPlaces f).check settings = (c.check settings).mapPlaces f := by
  simp only [check, collectSymbols_mapPlaces, checkNames_mapPlaces, checkModifiers_mapPlaces,
    checkTracking_mapPlaces, checkGuards_mapPlaces, checkConnections_mapPlaces,
    checkBindings_mapPlaces, checkPrebound_mapPlaces, checkUpdateScope_mapPlaces, mapPlaces_append]
  rfl

theorem lintNode_mapPlaces (extended : Bool) (c : Component) (n : Node) :
    (c.mapPlaces f).lintNode extended (n.mapPlaces f) =
      (c.lintNode extended n).map (Diagnostic.mapPlaces f) := by
  cases n with
  | choice choice =>
    obtain ⟨name, transition, doc, place, branches⟩ := choice
    cases branches with
    | chain first others last lastPlace => rfl
    | cases subject arms =>
      match arms with
      | [] => rfl
      | [a] => rfl
      | a :: b :: more => rfl
  | widget w =>
    obtain ⟨name, construction, isRoot, doc, place, properties⟩ := w
    simp only [Node.mapPlaces, Widget.mapPlaces, lintNode, Construction.isPrebound_mapPlaces,
      params_mapPlaces, name_mapPlaces]
    split <;> rfl

theorem lintProperty_mapPlaces (c : Component) (p : Property) :
    (c.mapPlaces f).lintProperty (p.mapPlaces f) =
      (c.lintProperty p).map (Diagnostic.mapPlaces f) := by
  simp only [lintProperty, Property.value?_mapPlaces, Property.modifiers_mapPlaces,
    Modifiers.watch_mapPlaces, params_mapPlaces, Property.place_mapPlaces, Property.label_mapPlaces]
  cases p.value? with
  | none => rfl
  | some value =>
    simp only [Option.map_some, Expr.term_mapPlaces]
    rw [apply_ite (List.map (Diagnostic.mapPlaces f))]
    rfl

theorem lint_mapPlaces (extended : Bool) (c : Component) :
    (c.mapPlaces f).lint extended = (c.lint extended).map (Diagnostic.mapPlaces f) := by
  rw [lint, visits_mapPlaces, propertyVisits_mapPlaces, lint, List.map_append]
  refine congrArg₂ (· ++ ·) ?_ ?_
  · refine flatMap_map_of_step (fun v => ?_) c.visits
    exact lintNode_mapPlaces f extended c v.node
  · split
    · refine flatMap_map_of_step (fun entry => ?_) c.propertyVisits
      exact lintProperty_mapPlaces f c entry.2
    · rfl

end Component
end
end ViewTree
