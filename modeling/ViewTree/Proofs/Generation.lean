import ViewTree.Code.Artifact
import ViewTree.Proofs.Naming
import ViewTree.Proofs.Steps
import ViewTree.Proofs.SymbolTable

/-!
Checks and code. Main statement: a named component without errors satisfies everything that the
passes rely on (`Component.Generable`), so each of them succeeds and the component has code
(`Component.artifact_of_check`).
-/
namespace ViewTree
open Embedded

/-- What the passes over a component rely on: all nodes have names and the table is built from
different ones, messages have a receiver, signals to block have an owner, predicates that are
derived are not empty, and what is constructed has an expression. -/
structure Component.Generable (c : Component) (symbols : Symbols) : Prop where
  named : ∀ n ∈ c.walk, n.name?.isSome
  table : c.symbols = .ok symbols
  distinct : symbols.names.Nodup
  receiver : ∀ v p, (v, p) ∈ c.propertyVisits → ∀ value captures guard,
    p.payload = .connection value captures guard → value.term.isLambda = false →
      c.sender?.isSome
  owner : ∀ v p, (v, p) ∈ c.propertyVisits → ∀ guard ∈ p.modifiers.blockSignals,
    ∃ e, symbols.guard? guard = some e ∧ (symbols.node? e.owner).isSome
  predicate : ∀ v p, (v, p) ∈ c.propertyVisits → ∀ value, p.payload = .method value →
    p.modifiers.watch = false → p.modifiers.tracking = .derived →
      ∃ model, c.model? = some model ∧ value.term.fieldsOf model ≠ []
  constructed : ∀ w, .widget w ∈ c.walk → w.construction.isPrebound = false →
    ∃ text, Statement.buildCode w.name.text w.construction =
      Code.line (w.name.text ++ " = " ++ text)

namespace Component

theorem errors_check_eq_nil {settings : Settings} {c : Component} :
    (c.check settings).errors = [] ↔
      c.collectSymbols.2 = [] ∧ (c.checkNames settings).errors = [] ∧
      c.checkModifiers.errors = [] ∧ c.checkTracking.errors = [] ∧
      (c.checkGuards c.collectSymbols.1).errors = [] ∧ c.checkConnections.errors = [] ∧
      (c.checkBindings settings c.collectSymbols.1).errors = [] ∧
      c.checkPrebound.errors = [] ∧ c.checkUpdateScope.errors = [] := by
  have happend (a b : Findings) : (a ++ b).errors = a.errors ++ b.errors := rfl
  simp only [check, happend, List.append_eq_nil_iff, and_assoc]

theorem check_errors {settings : Settings} {c : Component}
    (h : (c.check settings).errors = []) :
    c.collectSymbols.2 = [] ∧ c.checkTracking.errors = [] ∧
      (c.checkGuards c.collectSymbols.1).errors = [] ∧ c.checkConnections.errors = [] := by
  obtain ⟨hsymbols, -, -, htracking, hguards, hconnections, -⟩ := errors_check_eq_nil.mp h
  exact ⟨hsymbols, htracking, hguards, hconnections⟩

theorem receiver_of_checkConnections {c : Component} (h : c.checkConnections.errors = [])
    {v : Visit} {p : Property} (hp : (v, p) ∈ c.propertyVisits) {value : Expr}
    {captures : List Capture} {guard : Option String}
    (hpayload : p.payload = .connection value captures guard)
    (hvalue : value.term.isLambda = false) : c.sender?.isSome := by
  have hnone := List.flatMap_eq_nil_iff.mp h (v, p) hp
  simp only [checkConnection, hpayload, hvalue, List.map_eq_nil_iff, List.append_eq_nil_iff] at hnone
  obtain ⟨⟨hdispatch, -⟩, -⟩ := hnone
  cases c with
  | template t => simp at hdispatch
  | view view =>
    cases hothers : view.others with
    | nil => simp [hothers] at hdispatch
    | cons sender others => simp [sender?, hothers]

theorem owner_of_checkGuards {c : Component} {symbols : Symbols}
    (h : (c.checkGuards symbols).errors = []) {v : Visit} {p : Property}
    (hp : (v, p) ∈ c.propertyVisits) {guard : String} (hguard : guard ∈ p.modifiers.blockSignals) :
    ∃ e, symbols.guard? guard = some e := by
  have hnone := List.flatMap_eq_nil_iff.mp h (v, p) hp
  rw [List.map_eq_nil_iff, List.filterMap_eq_nil_iff] at hnone
  have hproblem := hnone guard hguard
  unfold guardProblem? at hproblem
  split at hproblem
  · simp at hproblem
  · exact ⟨_, ‹_›⟩

/-- The widget that declares a guard is a node of the table. -/
theorem isSome_node?_owner {c : Component} {symbols : Symbols} (h : c.symbols = .ok symbols)
    {guard : String} {e : GuardEntry} (he : symbols.guard? guard = some e) :
    (symbols.node? e.owner).isSome := by
  obtain ⟨rfl, -⟩ := symbols_eq_ok h
  have hmem : e ∈ c.guardEntries := List.mem_of_find?_eq_some he
  obtain ⟨⟨v, p⟩, hp, hentry⟩ := List.mem_filterMap.mp hmem
  have hv : v ∈ c.visits := (mem_propertyVisits.mp hp).1
  rw [Symbols.isSome_node?_iff]
  simp only [Visit.guardEntry?] at hentry
  split at hentry
  · rename_i guard owner hguard howner
    obtain rfl := Option.some.inj hentry
    refine List.mem_map.mpr ⟨⟨owner, v.tree, v.node⟩, ?_, rfl⟩
    exact List.mem_filterMap.mpr ⟨v, hv, by simp [Visit.entry?, howner]⟩
  · simp at hentry

theorem predicate_of_checkTracking {c : Component} (h : c.checkTracking.errors = [])
    {v : Visit} {p : Property} (hp : (v, p) ∈ c.propertyVisits) {value : Expr}
    (hpayload : p.payload = .method value) (hwatch : p.modifiers.watch = false)
    (hderived : p.modifiers.tracking = .derived) :
    ∃ model, c.model? = some model ∧ value.term.fieldsOf model ≠ [] := by
  have hnone := List.filterMap_eq_nil_iff.mp h (v, p) hp
  have htracks : p.modifiers.tracks = true := by simp [Modifiers.tracks, hderived]
  have hpredicate : p.modifiers.predicate? = none := by simp [Modifiers.predicate?, hderived]
  have hvalue : p.value? = some value := by simp [Property.value?, Payload.value?, hpayload]
  rw [Option.map_eq_none_iff] at hnone
  cases c with
  | template t => simp [trackingProblem?, Modifiers.refreshes, htracks] at hnone
  | view view =>
    refine ⟨view.model, rfl, fun hfields => ?_⟩
    cases htracked : view.tracked <;>
      simp [trackingProblem?, Modifiers.refreshes, htracks, hwatch, hpredicate, hvalue, hfields,
        htracked] at hnone

theorem generable_of_named {settings : Settings} {c : Component}
    (hnamed : ∀ n ∈ c.walk, n.name?.isSome) (h : (c.check settings).errors = []) :
    c.Generable c.collectSymbols.1 := by
  obtain ⟨hsymbols, htracking, hguards, hconnections⟩ := check_errors h
  have htable := symbols_of_collectSymbols hsymbols
  constructor
  case named => exact hnamed
  case table => exact htable
  case distinct => exact (symbols_eq_ok htable).2
  case receiver =>
    exact fun v p hp value captures guard => receiver_of_checkConnections hconnections hp
  case owner =>
    intro v p hp guard hguard
    obtain ⟨e, he⟩ := owner_of_checkGuards hguards hp hguard
    exact ⟨e, he, isSome_node?_owner htable he⟩
  case predicate => exact fun v p hp value => predicate_of_checkTracking htracking hp
  case constructed =>
    intro w _ hw
    cases hconstruction : w.construction with
    | prebound path reference => simp [hconstruction, Construction.isPrebound] at hw
    | block path => exact ⟨path ++ "()", by simp [Statement.buildCode, String.append_assoc]⟩
    | template path =>
      exact ⟨path ++ ".init()", by simp [Statement.buildCode, String.append_assoc]⟩
    | call path call chained => exact ⟨call.code, rfl⟩

theorem generable_of_check (settings : Settings) (c : Component)
    (h : ((c.assignNames settings).check settings).errors = []) :
    (c.assignNames settings).Generable (c.assignNames settings).collectSymbols.1 :=
  generable_of_named (fun _ hn => isNamed_assignNames settings c hn) h

/-- The checks report nodes without names too. -/
theorem generable_of_errors {settings : Settings} {c : Component}
    (h : (c.check settings).errors = []) : c.Generable c.collectSymbols.1 :=
  generable_of_named (isNamed_of_collectSymbols (check_errors h).1) h

end Component

theorem Property.exists_connects {sender? : Option String} {p : Property}
    (h : ∀ value captures guard, p.payload = .connection value captures guard →
      value.term.isLambda = false → sender?.isSome) (target : Handle) :
    ∃ statements, p.connects sender? target = .ok statements := by
  unfold Property.connects
  split
  · rename_i value captures guard hpayload
    cases hlambda : value.term.isLambda with
    | true => exact ⟨_, by rw [Callback.ofConnection?, if_pos hlambda]; rfl⟩
    | false =>
      obtain ⟨sender, hsender⟩ := Option.isSome_iff_exists.mp (h value captures guard hpayload hlambda)
      exact ⟨_, by rw [Callback.ofConnection?, hlambda, hsender]; rfl⟩
  · exact ⟨_, rfl⟩
  · exact ⟨_, rfl⟩

theorem Component.Generable.exists_connects {c : Component} {symbols : Symbols}
    (h : c.Generable symbols) : ∃ statements, c.connects = .ok statements := by
  have hnode : ∀ n ∈ c.walk, ∃ statements, n.connects c.sender? = .ok statements := by
    intro n hn
    obtain ⟨v, hv, rfl⟩ := Component.exists_visit hn
    cases hw : v.node with
    | choice choice => exact ⟨[], rfl⟩
    | widget w =>
      have hproperty : ∀ p ∈ w.properties, ∃ statements,
          p.connects c.sender? w.handle = .ok statements := by
        intro p hp
        have hvisit : (v, p) ∈ c.propertyVisits :=
          Component.mem_propertyVisits.mpr ⟨hv, by simpa [hw, Node.properties] using hp⟩
        exact Property.exists_connects (h.receiver v p hvisit) w.handle
      obtain ⟨statements, hstatements⟩ := exists_mapM_eq_pure hproperty
      exact ⟨statements.flatten, by rw [Node.connects, hstatements]; rfl⟩
  obtain ⟨statements, hstatements⟩ := exists_mapM_eq_pure hnode
  exact ⟨statements.flatten, by rw [Component.connects, hstatements]; rfl⟩

theorem UpdateScope.exists_trigger {s : UpdateScope} {m : Modifiers} {value : Expr}
    (hrefreshes : m.refreshes = true) (property : String)
    (h : m.watch = false → m.tracking = .derived → value.term.fieldsOf s.model ≠ []) :
    ∃ trigger, s.trigger property m value = .ok trigger := by
  unfold UpdateScope.trigger
  cases hwatch : m.watch with
  | true => exact ⟨none, rfl⟩
  | false =>
    cases htracking : m.tracking with
    | none => simp [Modifiers.refreshes, Modifiers.tracks, hwatch, htracking] at hrefreshes
    | explicit predicate =>
      exact ⟨some (.written predicate), by simp [Modifiers.predicate?, htracking, pure, Except.pure]⟩
    | derived =>
      have hfields := h hwatch htracking
      exact ⟨some (.changed s.model (value.term.fieldsOf s.model)), by
        simp [Modifiers.predicate?, htracking, hfields, pure, Except.pure]⟩

theorem payload_of_application? {p : Property} {target : Handle} {a : Application}
    (h : p.application? target = some a) : p.payload = .method a.value := by
  unfold Property.application? at h
  split at h
  · obtain rfl := Option.some.inj h
    assumption
  · simp at h

theorem Step.exists_again {s : UpdateScope} {owner : Widget} {p : Property} {a : Application}
    (ha : p.application? owner.handle = some a) (hrefreshes : p.modifiers.refreshes = true)
    (howner : ∀ guard ∈ p.modifiers.blockSignals, (s.symbols.guard? guard).isSome)
    (hpredicate : ∀ value, p.payload = .method value → p.modifiers.watch = false →
      p.modifiers.tracking = .derived → value.term.fieldsOf s.model ≠ []) :
    ∃ statement, (Step.apply owner p a).again s = .ok statement := by
  have htrigger : ∃ trigger, s.trigger p.name p.modifiers a.value = .ok trigger :=
    UpdateScope.exists_trigger hrefreshes p.name (hpredicate a.value (payload_of_application? ha))
  have hblocked : ∃ blocked, p.modifiers.blockSignals.mapM s.blocked = .ok blocked := by
    refine exists_mapM_eq_pure fun guard hguard => ?_
    obtain ⟨e, he⟩ := Option.isSome_iff_exists.mp (howner guard hguard)
    exact ⟨_, by rw [UpdateScope.blocked, he]⟩
  obtain ⟨trigger, htrigger⟩ := htrigger
  obtain ⟨blocked, hblocked⟩ := hblocked
  exact ⟨_, by rw [again, htrigger, hblocked]; rfl⟩

theorem Component.Generable.exists_refreshes {v : View} {symbols : Symbols}
    (h : (Component.view v).Generable symbols) :
    ∃ statements, v.refreshes symbols = .ok statements := by
  rw [View.refreshes_eq]
  refine exists_mapM_eq_pure fun s hs => ?_
  obtain ⟨hs, hrefreshes⟩ := List.mem_filter.mp hs
  cases s with
  | select choice => exact ⟨_, rfl⟩
  | apply owner p a =>
    obtain ⟨w, hw, hs⟩ := List.mem_flatMap.mp hs
    obtain ⟨n, hn, hown⟩ := Node.exists_ownSteps_of_mem_steps (n := .widget w) hs
    obtain ⟨rfl, hp, ha⟩ := Node.application_of_mem_ownSteps hown
    obtain ⟨visit, hvisit, hnode⟩ := Component.exists_visit (List.mem_flatMap.mpr ⟨w, hw, hn⟩)
    have hmem := Component.mem_propertyVisits.mpr ⟨hvisit, by rw [hnode]; exact hp⟩
    refine Step.exists_again ha hrefreshes (fun guard hguard => ?_)
      fun value hvalue hwatch hderived => ?_
    · obtain ⟨e, he, -⟩ := h.owner visit p hmem guard hguard
      exact Option.isSome_iff_exists.mpr ⟨e, he⟩
    · obtain ⟨model, hmodel, hfields⟩ := h.predicate visit p hmem value hvalue hwatch hderived
      obtain rfl : v.model = model := Option.some.inj hmodel
      exact hfields

theorem Component.Generable.exists_artifact {c : Component} {symbols : Symbols}
    (h : c.Generable symbols) (settings : Settings) :
    ∃ artifact, c.artifact settings = .ok artifact := by
  obtain ⟨connects, hconnects⟩ := h.exists_connects
  have hroutine : c.initRoutine settings =
      .ok ⟨c.rootBuilds, c.otherBuilds, c.assigns settings, connects⟩ := by
    rw [Component.initRoutine, hconnects]
    rfl
  cases c with
  | template t => exact ⟨_, by rw [Component.artifact, h.table, hroutine]; rfl⟩
  | view v =>
    obtain ⟨refreshes, hrefreshes⟩ := h.exists_refreshes
    have hupdates (names : List String) :
        ∃ updates, v.updates symbols names = .ok updates := by
      exact ⟨_, by rw [View.updates, hrefreshes]; rfl⟩
    obtain ⟨updates, hupdates⟩ :=
      hupdates (((Component.view v).recordFields settings).map (·.name))
    exact ⟨_, by
      rw [Component.artifact, h.table, hroutine]
      show (v.updates symbols _ >>= _) = _
      rw [hupdates]; rfl⟩

/-- A component in which the checks find no error has code, and no pass meets what it cannot
handle: whatever was read, once it has names, the checks cover all that the passes rely on. -/
theorem Component.artifact_of_check (settings : Settings) (c : Component)
    (h : ((c.assignNames settings).check settings).errors = []) :
    ∃ symbols artifact, (c.assignNames settings).Generable symbols ∧
      (c.assignNames settings).artifact settings = .ok artifact := by
  have hgenerable := Component.generable_of_check settings c h
  obtain ⟨artifact, hartifact⟩ := hgenerable.exists_artifact settings
  exact ⟨_, artifact, hgenerable, hartifact⟩

/-- A view whose entry follows a field of the model without telling its own guard, next to a choice
between a button and a picture that the caller supplies. -/
def counterView : Component :=
  let gtk : Term := .mk 1 4 (.name "Gtk")
  let model : Term := .mk 1 6 (.name "model")
  let entry : Expr := ⟨"Gtk.Entry()", ⟨3, 5⟩, .mk 1 12 (.call (.mk 1 10 (.attribute gtk "Entry")) [] [])⟩
  let title : Expr := ⟨"model.title", ⟨4, 19⟩, .mk 1 12 (.attribute model "title")⟩
  let edited : Expr := ⟨"Edited", ⟨5, 26⟩, .mk 1 7 (.name "Edited")⟩
  let text : Property :=
    ⟨"set_text", { tracking := .derived, blockSignals := ["editing"] }, ⟨4, 7⟩, .method title⟩
  let changed : Property := ⟨"connect_changed", {}, ⟨5, 7⟩, .connection edited [] (some "editing")⟩
  let input : Widget := ⟨.absent, .call "Gtk.Entry" entry false, false, none, ⟨3, 5⟩, [text, changed]⟩
  let button : Widget := ⟨.absent, .block "Gtk.Button", false, none, ⟨6, 16⟩, []⟩
  let picture : Widget := ⟨.given "picture" false, .prebound "Gtk.Image" false, false, none, ⟨7, 14⟩, []⟩
  let branches : Branches := .chain ⟨⟨"model", ⟨6, 8⟩, model⟩, button, ⟨6, 5⟩⟩ [] picture ⟨7, 5⟩
  let root : Widget := ⟨.given "panel" false, .block "Gtk.Box", true, none, ⟨2, 3⟩,
    [⟨"", {}, ⟨3, 5⟩, .child none input⟩,
      ⟨"", {}, ⟨6, 5⟩, .choice none ⟨.absent, none, none, ⟨6, 5⟩, branches⟩⟩]⟩
  .view ⟨"Counter", "model", ["sender", "picture"], true, root, [], ⟨1, 1⟩⟩

theorem artifact_counterView :
    ((counterView.assignNames {}).check {}).errors = [] ∧
      ∃ symbols artifact, (counterView.assignNames {}).Generable symbols ∧
        (counterView.assignNames {}).artifact {} = .ok artifact :=
  ⟨by decide +kernel, Component.artifact_of_check {} counterView (by decide +kernel)⟩

end ViewTree
