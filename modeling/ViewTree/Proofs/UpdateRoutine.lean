import ViewTree.Proofs.InitRoutine
import ViewTree.Proofs.Steps

/-!
The update routine as a whole. Main statements: where the checks find no error in a view, the
routine takes all that it uses out of the record, each name once (`View.exists_closed_updates`), and
it repeats what the init routine applied, as far as that refreshes, and nothing else
(`View.exists_repeating_updates`).
-/
namespace ViewTree

namespace View

def recordNames (settings : Settings) (v : View) : List String :=
  ((Component.view v).recordFields settings).map (·.name)

def updateRoutine (settings : Settings) (v : View) : Except CodeProblem (List Statement) := do
  let symbols ← (Component.view v).symbols.mapError .symbol
  v.updates symbols (v.recordNames settings)

/-- The code of a view has the statements of both routines. -/
theorem artifact_eq_ok {settings : Settings} {v : View} {a : Artifact}
    (h : (Component.view v).artifact settings = .ok a) : ∃ r updates,
      (Component.view v).initRoutine settings = .ok r ∧ v.updateRoutine settings = .ok updates ∧
        a = .view v.name
          ((recordCode v.name ((Component.view v).recordFields settings)).render
            settings.indentWidth 0)
          ((v.initCode settings ((Component.view v).recordFields settings) r).render
            settings.indentWidth 0)
          ((v.updateCode settings updates).render settings.indentWidth 0) := by
  unfold Component.artifact at h
  unfold updateRoutine
  cases hsymbols : (Component.view v).symbols.mapError CodeProblem.symbol with
  | error problem => simp [hsymbols, bind, Except.bind] at h
  | ok symbols =>
    cases hinit : (Component.view v).initRoutine settings with
    | error problem => simp [hsymbols, hinit, bind, Except.bind] at h
    | ok r =>
      simp only [hsymbols, hinit, bind, Except.bind] at h ⊢
      split at h
      · cases h
      · rename_i updates hupdates
        exact ⟨r, updates, rfl, hupdates, (Except.ok.inj h).symm⟩

end View

/-- What the update routine does for a step: the same application, or the same choice of a page. -/
inductive Step.Repeated : Step → Statement → Prop
  | apply (owner : Widget) (p : Property) (a : Application) (trigger : Option Trigger)
      (blocked : List BlockedSignal) : Repeated (.apply owner p a) (.refresh trigger blocked a)
  | select (c : Choice) :
      Repeated (.select c) (.switchPage c.name.text c.transition c.branches)

namespace Step

theorem again_apply_eq_ok {s : UpdateScope} {owner : Widget} {p : Property} {a : Application}
    {t : Statement} (h : again s (.apply owner p a) = .ok t) : ∃ trigger blocked,
      s.trigger p.name p.modifiers a.value = .ok trigger ∧
      p.modifiers.blockSignals.mapM s.blocked = .ok blocked ∧ t = .refresh trigger blocked a := by
  unfold again at h
  cases htrigger : s.trigger p.name p.modifiers a.value with
  | error problem => simp [htrigger, bind, Except.bind] at h
  | ok trigger =>
    cases hblocked : p.modifiers.blockSignals.mapM s.blocked with
    | error problem => simp [htrigger, hblocked, bind, Except.bind] at h
    | ok blocked =>
      simp only [htrigger, hblocked, bind, Except.bind] at h
      exact ⟨trigger, blocked, rfl, rfl, (Except.ok.inj h).symm⟩

theorem repeated_of_again {s : UpdateScope} {step : Step} {t : Statement}
    (h : again s step = .ok t) : step.Repeated t := by
  cases step with
  | apply owner p a =>
    obtain ⟨trigger, blocked, -, -, rfl⟩ := again_apply_eq_ok h
    exact .apply owner p a trigger blocked
  | select c =>
    obtain rfl := Except.ok.inj h
    exact .select c

theorem Repeated.isStep {step : Step} {t : Statement} (h : step.Repeated t) : t.isStep = true := by
  cases h <;> rfl

theorem Repeated.defines {step : Step} {t : Statement} (h : step.Repeated t) : t.defines = [] := by
  cases h <;> rfl

end Step

namespace Statement

def isConnection : Statement → Bool
  | connect _ _ _ _ | bind _ _ _ _ => true
  | _ => false

theorem flatMap_defines_load (names : List String) :
    (names.map load).flatMap defines = names := by
  induction names with
  | nil => rfl
  | cons name names ih => exact congrArg (name :: ·) ih

def signalCalls (method : String) (blocked : List BlockedSignal) : Code :=
  blocked.flatMap fun b => Code.line (callOf b.owner.code method b.guard)

/-- A refreshed application has the code of the first one, further in if there is a condition, and
nothing else but the condition and the calls for its signals. -/
theorem code_refresh (settings : Settings) (trigger : Option Trigger)
    (blocked : List BlockedSignal) (a : Application) :
    (refresh trigger blocked a).code settings =
      (trigger.elim [] fun t => Code.line ("if " ++ t.code settings ++ ":")) ++
      Code.indent trigger.toList.length
        (signalCalls settings.blockMethod blocked ++ (apply a).code settings ++
          signalCalls settings.unblockMethod blocked.reverse) := by
  cases trigger with
  | some t => rfl
  | none =>
    have hindent (code : Code) : Code.indent 0 code = code := by
      have hrow (row : Row) : row.indent 0 = row := by cases row <;> rfl
      rw [Code.indent, funext hrow, List.map_id']
    exact (hindent _).symm

end Statement

namespace Component

theorem property_of_guard? {c : Component} {symbols : Symbols} (htable : c.symbols = .ok symbols)
    (hnamed : ∀ n ∈ c.walk, n.name?.isSome) {guard : String} {e : GuardEntry}
    (he : symbols.guard? guard = some e) : ∃ v p, (v, p) ∈ c.propertyVisits ∧
      p.guard? = some guard ∧ v.node.nodeName.text = e.owner := by
  obtain ⟨rfl, -⟩ := symbols_eq_ok htable
  have hname : e.name = guard := by simpa using List.find?_some he
  obtain ⟨⟨v, p⟩, hp, hentry⟩ := List.mem_filterMap.mp (List.mem_of_find?_eq_some he)
  have howner := text_of_isSome_name? (hnamed v.node (node_mem_walk (mem_propertyVisits.mp hp).1))
  refine ⟨v, p, hp, ?_⟩
  cases hguard : p.guard? with
  | none => simp [Visit.guardEntry?, hguard] at hentry
  | some own =>
    obtain rfl : (⟨own, v.node.nodeName.text, v.tree⟩ : GuardEntry) = e := by
      simpa [Visit.guardEntry?, hguard, howner] using hentry
    exact ⟨congrArg some hname, rfl⟩

theorem handle_of_node? {c : Component} {symbols : Symbols} (htable : c.symbols = .ok symbols)
    (hnamed : ∀ n ∈ c.walk, n.name?.isSome) {name : String} {e : NodeEntry}
    (he : symbols.node? name = some e) : e.node.handle.name = name := by
  obtain ⟨rfl, -⟩ := symbols_eq_ok htable
  have hname : e.name = name := by simpa using List.find?_some he
  obtain ⟨v, hv, hentry⟩ := List.mem_filterMap.mp (List.mem_of_find?_eq_some he)
  have hown := text_of_isSome_name? (hnamed v.node (node_mem_walk hv))
  obtain rfl : (⟨v.node.nodeName.text, v.tree, v.node⟩ : NodeEntry) = e := by
    simpa [Visit.entry?, hown] using hentry
  rw [Node.handle_name]
  exact hname

end Component

namespace View

theorem nodup_recordNames {settings : Settings} {v : View} {symbols : Symbols}
    (h : (Component.view v).Generable symbols) : (v.recordNames settings).Nodup := by
  obtain ⟨rfl, hnodup⟩ := Component.symbols_eq_ok h.table
  have hguards (names : List String) : (names.map guardField).map (·.name) = names := by
    rw [List.map_map]
    exact List.map_id' names
  refine List.Nodup.sublist ?_ hnodup
  rw [Symbols.names, Component.names_nodeEntries h.named, Component.names_guardEntries h.named,
    ← Component.map_node_visits, List.map_map, recordNames, Component.recordFields,
    List.map_append, hguards, List.map_map]
  exact List.Sublist.append (List.filter_sublist.map _) (List.Sublist.refl _)

theorem node_mem_recordNames (settings : Settings) {v : View} {n : Node}
    (hn : n ∈ (Component.view v).walk) (h : n.isRecorded false = true) :
    n.nodeName.text ∈ v.recordNames settings := by
  obtain ⟨visit, hvisit, rfl⟩ := Component.exists_visit hn
  have hrecorded : visit.node.isRecorded visit.parent.isNone = true := by
    unfold Node.isRecorded at h ⊢
    rw [Bool.or_assoc, Bool.or_eq_true]
    exact .inr (by simpa using h)
  rw [recordNames, Component.recordFields, List.map_append, List.map_map]
  exact List.mem_append_left _
    (List.mem_map.mpr ⟨visit, List.mem_filter.mpr ⟨hvisit, hrecorded⟩, rfl⟩)

theorem guard_mem_recordNames (settings : Settings) {v : View} {visit : Visit} {p : Property}
    (hp : (visit, p) ∈ (Component.view v).propertyVisits) {guard : String}
    (hguard : p.guard? = some guard) : guard ∈ v.recordNames settings := by
  rw [recordNames, Component.recordFields, List.map_append]
  have hmem : guard ∈ (Component.view v).propertyVisits.filterMap (·.2.guard?) :=
    List.mem_filterMap.mpr ⟨(visit, p), hp, hguard⟩
  exact List.mem_append_right _ (List.mem_map_of_mem (List.mem_map_of_mem hmem))

theorem isRecorded_choice (c : Choice) : (Node.choice c).isRecorded false = true := by
  simp [Node.isRecorded]

theorem isRecorded_widget {w : Widget} {p : Property} (hp : p ∈ w.properties)
    (h : p.modifiers.refreshes = true ∨ p.guard?.isSome) :
    (Node.widget w).isRecorded false = true := by
  have hany : (w.properties.any fun p => p.modifiers.refreshes || p.guard?.isSome) = true :=
    List.any_eq_true.mpr ⟨p, hp, by simpa using h⟩
  simp [Node.isRecorded, hany]

theorem exists_guard_of_blocked {v : View} {symbols : Symbols}
    (h : (Component.view v).Generable symbols) {guard : String} {b : BlockedSignal}
    (hb : UpdateScope.blocked ⟨v.model, symbols⟩ guard = .ok b) : ∃ visit p,
      (visit, p) ∈ (Component.view v).propertyVisits ∧ p.guard? = some b.guard ∧
        visit.node.nodeName.text = b.owner.name := by
  unfold UpdateScope.blocked at hb
  split at hb
  · cases hb
  rename_i e he
  obtain rfl := Except.ok.inj hb
  obtain ⟨visit, p, hp, hguard, howner⟩ := Component.property_of_guard? h.table h.named he
  refine ⟨visit, p, hp, hguard, ?_⟩
  cases hnode : symbols.node? e.owner with
  | none => simpa [hnode] using howner
  | some entry => simpa [hnode, Component.handle_of_node? h.table h.named hnode] using howner

theorem blocked_mem_recordNames (settings : Settings) {v : View} {symbols : Symbols}
    (h : (Component.view v).Generable symbols) {guard : String} {b : BlockedSignal}
    (hb : UpdateScope.blocked ⟨v.model, symbols⟩ guard = .ok b) :
    b.guard ∈ v.recordNames settings ∧ b.owner.name ∈ v.recordNames settings := by
  obtain ⟨visit, p, hp, hguard, howner⟩ := exists_guard_of_blocked h hb
  refine ⟨guard_mem_recordNames settings hp hguard, howner ▸ ?_⟩
  obtain ⟨hvisit, hproperty⟩ := Component.mem_propertyVisits.mp hp
  refine node_mem_recordNames settings (Component.node_mem_walk hvisit) ?_
  cases hw : visit.node with
  | choice c => exact isRecorded_choice c
  | widget w =>
    rw [hw] at hproperty
    exact isRecorded_widget hproperty (.inr (Option.isSome_of_eq_some hguard))

/-- What a step uses when it is taken again is in the record. -/
theorem uses_again_subset (settings : Settings) {v : View} {symbols : Symbols}
    (h : (Component.view v).Generable symbols) {step : Step} {t : Statement}
    (hstep : step ∈ (Component.view v).steps) (hrefreshes : step.refreshes = true)
    (ht : Step.again ⟨v.model, symbols⟩ step = .ok t) : t.uses ⊆ v.recordNames settings := by
  obtain ⟨n, hn, hown⟩ := Component.exists_ownSteps_of_mem_steps hstep
  intro name hname
  cases step with
  | apply owner p a =>
    obtain ⟨rfl, hp, ha⟩ := Node.application_of_mem_ownSteps hown
    obtain ⟨trigger, blocked, -, hblocked, rfl⟩ := Step.again_apply_eq_ok ht
    rcases List.mem_cons.mp hname with rfl | hname
    · have htarget : a.target = owner.handle := by
        unfold Property.application? at ha
        split at ha
        · exact (Option.some.inj ha) ▸ rfl
        · cases ha
      rw [htarget]
      exact node_mem_recordNames settings hn (isRecorded_widget hp (.inl hrefreshes))
    · obtain ⟨b, hb, hname⟩ := List.mem_flatMap.mp hname
      obtain ⟨guard, -, hguard⟩ := (exists_of_mem_forall₂ (forall₂_of_mapM_eq_ok hblocked)).1 b hb
      obtain ⟨hrecorded, howner⟩ := blocked_mem_recordNames settings h hguard
      rcases List.mem_cons.mp hname with rfl | hname
      · exact hrecorded
      · obtain rfl := List.mem_singleton.mp hname
        exact howner
  | select c =>
    obtain rfl : Node.choice c = n := Node.node_of_mem_ownSteps hown
    obtain rfl := Except.ok.inj ht
    obtain rfl := List.mem_singleton.mp hname
    exact node_mem_recordNames settings hn (isRecorded_choice c)

/-- A view without errors has an update routine: behind the names of the record, each step that
refreshes is taken again. -/
theorem exists_updateRoutine {settings : Settings} {v : View}
    (h : ((Component.view v).check settings).errors = []) : ∃ symbols body,
      (Component.view v).Generable symbols ∧
      v.updateRoutine settings = .ok
        (if body.isEmpty then [.nothing] else (v.recordNames settings).map .load ++ body) ∧
      List.Forall₂ (fun step t => Step.again ⟨v.model, symbols⟩ step = .ok t)
        ((Component.view v).steps.filter (·.refreshes)) body := by
  have hgenerable := Component.generable_of_errors h
  obtain ⟨body, hbody⟩ := hgenerable.exists_refreshes
  have hredo := hbody
  rw [refreshes_eq, Step.redo] at hredo
  refine ⟨_, body, hgenerable, ?_, forall₂_of_mapM_eq_ok hredo⟩
  rw [updateRoutine, hgenerable.table]
  show v.updates _ _ = _
  rw [updates, hbody]
  rfl

/-- Each statement of the routine does nothing, takes out a name or takes a step again. -/
theorem cases_of_mem_updates {names : List String} {s : UpdateScope} {steps : List Step}
    {body : List Statement}
    (h : List.Forall₂ (fun step t => Step.again s step = .ok t) steps body) {t : Statement}
    (ht : t ∈ if body.isEmpty then [.nothing] else names.map .load ++ body) :
    t = .nothing ∨ (∃ name ∈ names, t = .load name) ∨
      ∃ step ∈ steps, Step.again s step = .ok t := by
  split at ht
  · exact .inl (List.mem_singleton.mp ht)
  · rcases List.mem_append.mp ht with ht | ht
    · obtain ⟨name, hname, rfl⟩ := List.mem_map.mp ht
      exact .inr (.inl ⟨name, hname, rfl⟩)
    · exact .inr (.inr ((exists_of_mem_forall₂ h).1 t ht))

/-- The routine uses only what it takes out of the record. -/
structure Closed (settings : Settings) (v : View) (updates : List Statement) : Prop where
  /-- No two fields of the record share a name. -/
  distinct : (v.recordNames settings).Nodup
  /-- Whatever a statement uses is a field. -/
  recorded : ∀ s ∈ updates, s.uses ⊆ v.recordNames settings
  /-- A routine that does anything takes out each field first, and gives no name a value later. -/
  taken : updates = [.nothing] ∨ ∃ body, updates = (v.recordNames settings).map .load ++ body ∧
    ∀ s ∈ body, s.defines = []
  /-- No name is used before it is taken out. -/
  inScope : Statement.Scoped [] updates

/-- The update routine of a view that passes the checks is closed over the record. -/
theorem exists_closed_updates (settings : Settings) (v : View)
    (h : ((Component.view v).check settings).errors = []) :
    ∃ updates, v.updateRoutine settings = .ok updates ∧ v.Closed settings updates := by
  obtain ⟨symbols, body, hgenerable, hroutine, hagain⟩ := exists_updateRoutine h
  have hrecorded : ∀ s ∈ if body.isEmpty then [.nothing] else
      (v.recordNames settings).map .load ++ body, s.uses ⊆ v.recordNames settings := by
    intro s hs
    obtain rfl | ⟨name, -, rfl⟩ | ⟨step, hstep, hs⟩ := cases_of_mem_updates hagain hs
    · exact List.nil_subset _
    · exact List.nil_subset _
    · obtain ⟨hstep, hrefreshes⟩ := List.mem_filter.mp hstep
      exact uses_again_subset settings hgenerable hstep hrefreshes hs
  refine ⟨_, hroutine, ?_⟩
  constructor
  case distinct => exact nodup_recordNames hgenerable
  case recorded => exact hrecorded
  case taken =>
    split
    · exact .inl rfl
    · refine .inr ⟨body, rfl, fun s hs => ?_⟩
      obtain ⟨step, -, hstep⟩ := (exists_of_mem_forall₂ hagain).1 s hs
      exact (Step.repeated_of_again hstep).defines
  case inScope =>
    split
    · exact ⟨by simp [Statement.uses], trivial⟩
    · rename_i hsome
      rw [if_neg hsome] at hrecorded
      rw [Statement.scoped_append, Statement.flatMap_defines_load]
      refine ⟨Statement.scoped_of_uses (List.forall_mem_map.mpr fun _ _ => by
        simp [Statement.uses]), Statement.scoped_of_uses fun s hs => ?_⟩
      exact hrecorded s (List.mem_append_right _ hs)

/-- Beside what has a written name, the record holds the entry, the choice and the guard. -/
theorem closed_updates_counterView : ∃ v, counterView.assignNames {} = .view v ∧
    v.recordNames {} = ["panel", "entry_0", "stack_0", "picture", "editing"] ∧
    ((Component.view v).check {}).errors = [] ∧
    ∃ updates, v.updateRoutine {} = .ok updates ∧ v.Closed {} updates :=
  ⟨_, rfl, by decide +kernel, by decide +kernel, exists_closed_updates {} _ (by decide +kernel)⟩

/-- The update routine repeats the init routine as far as that refreshes. -/
structure Repeats (settings : Settings) (v : View) (updates : List Statement) : Prop where
  /-- The init routine takes each step of the trees. -/
  applied : ((Component.view v).assigns settings).filter (·.isStep) =
    (Component.view v).steps.map Step.first
  /-- The update routine takes those steps again, in this order, that refresh. -/
  repeated : List.Forall₂ Step.Repeated ((Component.view v).steps.filter (·.refreshes))
    (updates.filter (·.isStep))
  /-- A step that applies something is that of a method property of a widget. -/
  faithful : ∀ owner p a, .apply owner p a ∈ (Component.view v).steps →
    .widget owner ∈ (Component.view v).walk ∧ p ∈ owner.properties ∧
      p.application? owner.handle = some a
  /-- Each method property of each widget is a step, once. -/
  methods : ((Component.view v).steps.filterMap Step.method?).Perm
    ((Component.view v).walk.flatMap Node.methods)
  /-- The page of each choice is chosen once, in the order of the walk. -/
  pages : (Component.view v).steps.filterMap Step.choice? =
    (Component.view v).walk.filterMap Node.choice?
  /-- No two nodes share a name, so none of them come twice. -/
  distinct : ((Component.view v).walk.map (·.nodeName.text)).Nodup
  /-- The page of a choice is chosen before anything is done to what is below it. -/
  pageFirst : ∀ choice, .choice choice ∈ (Component.view v).walk → ∃ before after,
    (Component.view v).steps = before ++ .select choice :: after ∧
      ∀ step ∈ before, step.node ∉ (Node.choice choice).walk
  /-- The lines of an application are those of the init routine. -/
  sameCode : ∀ trigger blocked a, .refresh trigger blocked a ∈ updates →
    .apply a ∈ (Component.view v).assigns settings ∧
    (Statement.refresh trigger blocked a).code settings =
      (trigger.elim [] fun t => Code.line ("if " ++ t.code settings ++ ":")) ++
      Code.indent trigger.toList.length
        (Statement.signalCalls settings.blockMethod blocked ++
          (Statement.apply a).code settings ++
          Statement.signalCalls settings.unblockMethod blocked.reverse)
  /-- Nothing is made, attached or connected. -/
  nothingElse : ∀ s ∈ updates, s.isConstruction = false ∧ s.isPage = false ∧
    s.isAttachment = false ∧ s.isConnection = false

/-- The update routine of a view that passes the checks is its init routine, restricted to what
refreshes. -/
theorem exists_repeating_updates (settings : Settings) (v : View)
    (h : ((Component.view v).check settings).errors = []) :
    ∃ updates, v.updateRoutine settings = .ok updates ∧ v.Repeats settings updates := by
  obtain ⟨symbols, body, hgenerable, hroutine, hagain⟩ := exists_updateRoutine h
  have hdistinct := Component.nodup_names_walk hgenerable
  have hrepeated := hagain.imp fun _ _ => Step.repeated_of_again
  refine ⟨_, hroutine, ?_⟩
  constructor
  case applied => exact Component.filter_isStep_assigns settings (.view v)
  case repeated =>
    have hbody : body.filter (·.isStep) = body := List.filter_eq_self.mpr fun t ht => by
      obtain ⟨step, -, hstep⟩ := (exists_of_mem_forall₂ hrepeated).1 t ht
      exact hstep.isStep
    have hloads : ((v.recordNames settings).map Statement.load).filter (·.isStep) = [] :=
      List.filter_eq_nil_iff.mpr (List.forall_mem_map.mpr fun _ _ => by simp [Statement.isStep])
    split
    · rename_i hempty
      obtain rfl := List.isEmpty_iff.mp hempty
      exact hrepeated
    · rw [List.filter_append, hloads, hbody]
      exact hrepeated
  case faithful =>
    intro owner p a hstep
    obtain ⟨n, hn, hown⟩ := Component.exists_ownSteps_of_mem_steps hstep
    obtain ⟨rfl, hp, ha⟩ := Node.application_of_mem_ownSteps hown
    exact ⟨hn, hp, ha⟩
  case methods => exact Component.perm_methods_steps (.view v)
  case pages => exact Component.choices_steps (.view v)
  case distinct => exact hdistinct
  case pageFirst => exact fun choice => Component.select_before_below hdistinct
  case sameCode =>
    intro trigger blocked a hs
    refine ⟨?_, Statement.code_refresh settings trigger blocked a⟩
    obtain hs | ⟨name, -, hs⟩ | ⟨step, hstep, hs⟩ := cases_of_mem_updates hagain hs
    · cases hs
    · cases hs
    · have hfirst := List.mem_map_of_mem (f := Step.first) (List.mem_of_mem_filter hstep)
      rw [← Component.filter_isStep_assigns settings] at hfirst
      cases Step.repeated_of_again hs
      exact List.mem_of_mem_filter hfirst
  case nothingElse =>
    intro s hs
    obtain rfl | ⟨name, -, rfl⟩ | ⟨step, -, hs⟩ := cases_of_mem_updates hagain hs
    · exact ⟨rfl, rfl, rfl, rfl⟩
    · exact ⟨rfl, rfl, rfl, rfl⟩
    · cases Step.repeated_of_again hs <;> exact ⟨rfl, rfl, rfl, rfl⟩

/-- The text of the entry is set again and the picture or the button is shown. -/
theorem repeating_updates_counterView : ∃ v, counterView.assignNames {} = .view v ∧
    ((Component.view v).steps.filter (·.refreshes)).length = 2 ∧
    ((Component.view v).check {}).errors = [] ∧
    ∃ updates, v.updateRoutine {} = .ok updates ∧ v.Repeats {} updates :=
  ⟨_, rfl, by decide +kernel, by decide +kernel, exists_repeating_updates {} _ (by decide +kernel)⟩

end View
end ViewTree
