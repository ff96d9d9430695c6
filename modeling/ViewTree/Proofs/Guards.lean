import ViewTree.Proofs.Reading.Files
import ViewTree.Proofs.UpdateRoutine

/-!
Guards in the routines of a view. Main statement: where the checks find no error, each guard gets its
value once, from the widget that declares it, and each property that refreshes is applied between the
calls that block its signals on those widgets and, in reverse order, those that let them through
again (`View.exists_guarded_routines`).
-/
namespace ViewTree

/-- What one element of a list gives, no other gives, if nothing is given twice. -/
theorem exists_split_of_nodup {β γ : Type} {g : β → List γ} {ys : List β}
    (h : (ys.flatMap g).Nodup) {y : β} (hy : y ∈ ys) {x : γ} (hx : x ∈ g y) :
    ∃ earlier later, ys = earlier ++ y :: later ∧ ∀ z ∈ earlier ++ later, x ∉ g z := by
  obtain ⟨earlier, later, rfl⟩ := List.append_of_mem hy
  refine ⟨earlier, later, rfl, fun z hz hxz => ?_⟩
  rw [List.flatMap_append, List.flatMap_cons] at h
  obtain ⟨-, hbehind, hbefore⟩ := List.nodup_append.mp h
  rcases List.mem_append.mp hz with hz | hz
  · exact hbefore x (List.mem_flatMap.mpr ⟨z, hz, hxz⟩) x (List.mem_append_left _ hx) rfl
  · have hlater := (List.nodup_append.mp hbehind).2.2
    exact hlater x hx x (List.mem_flatMap.mpr ⟨z, hz, hxz⟩) rfl

namespace Component

def Declares (c : Component) (w : Widget) (p : Property) (guard : String) : Prop :=
  .widget w ∈ c.walk ∧ p ∈ w.properties ∧ p.guard? = some guard

/-- Connecting gives values to the guards, in the order in which they are declared. -/
theorem defines_connects {c : Component} {statements : List Statement}
    (h : c.connects = .ok statements) : statements.flatMap Statement.defines =
      c.walk.flatMap fun n => n.properties.filterMap (·.guard?) := by
  refine flatMap_of_flatten_mapM_eq_ok h fun n _ own hown => ?_
  cases n with
  | widget w =>
    rw [List.filterMap_eq_flatMap_toList]
    exact flatMap_of_flatten_mapM_eq_ok hown fun p _ own hown => (Property.connects_spec hown).2
  | choice choice =>
    obtain rfl := Except.ok.inj hown
    rfl

theorem nodup_guards {c : Component} {symbols : Symbols} (h : c.Generable symbols) :
    (c.walk.flatMap fun n => n.properties.filterMap (·.guard?)).Nodup := by
  obtain ⟨rfl, hnodup⟩ := symbols_eq_ok h.table
  have hguards := (List.nodup_append.mp hnodup).2.1
  rw [names_guardEntries h.named, propertyVisits, List.filterMap_flatMap] at hguards
  rw [← c.map_node_visits, List.flatMap_map]
  simpa only [List.filterMap_map, Function.comp_def] using hguards

/-- A guard gets its value from its connection alone, on the widget that has it. -/
theorem exists_connect {c : Component} {symbols : Symbols} (hgenerable : c.Generable symbols)
    {statements : List Statement} (h : c.connects = .ok statements) {w : Widget} {p : Property}
    {guard : String} (hdeclares : c.Declares w p guard) : ∃ callback earlier later,
      statements =
        earlier ++ .connect w.handle (Text.signalName p.name) callback (some guard) :: later ∧
      ∀ s ∈ earlier ++ later, guard ∉ s.defines := by
  obtain ⟨hw, hp, hguard⟩ := hdeclares
  have hnodup : (statements.flatMap Statement.defines).Nodup := by
    rw [defines_connects h]
    exact nodup_guards hgenerable
  obtain ⟨own, hown, hsubset⟩ := (mem_connects h).2 w p hw hp
  have hdefines := (Property.connects_spec hown).2
  have hdefined : guard ∈ own.flatMap Statement.defines := by simp [hdefines, hguard]
  obtain ⟨value, captures, guard?, callback, hpayload, -, rfl⟩ | ⟨value, -, rfl⟩ | ⟨-, -, rfl⟩ :=
    Property.connects_cases hown
  · obtain rfl : guard? = some guard := by
      rwa [Property.guard?, hpayload] at hguard
    exact ⟨callback, exists_split_of_nodup hnodup (hsubset (List.mem_singleton_self _))
      (List.mem_singleton_self guard)⟩
  · simp [Statement.defines] at hdefined
  · simp at hdefined

end Component

namespace View

/-- A signal is blocked on the widget whose connection declares its guard. -/
theorem declares_of_blocked {v : View} {symbols : Symbols}
    (h : (Component.view v).Generable symbols) {guard : String} {b : BlockedSignal}
    (hb : UpdateScope.blocked ⟨v.model, symbols⟩ guard = .ok b) :
    b.guard = guard ∧
      ∃ w p, (Component.view v).Declares w p guard ∧ b.owner = w.handle := by
  unfold UpdateScope.blocked at hb
  split at hb
  · cases hb
  rename_i e he
  obtain rfl := Except.ok.inj hb
  refine ⟨rfl, ?_⟩
  obtain ⟨visit, p, hp, hguard, howner⟩ := Component.property_of_guard? h.table h.named he
  obtain ⟨entry, hentry⟩ := Option.isSome_iff_exists.mp (Component.isSome_node?_owner h.table he)
  obtain ⟨hvisit, hproperty⟩ := Component.mem_propertyVisits.mp hp
  have hnode := Component.node_mem_walk hvisit
  -- the table has one node of that name, which is the one around the connection
  have hsame : entry.node = visit.node := by
    have hname := Component.handle_of_node? h.table h.named hentry
    rw [Node.handle_name] at hname
    refine List.inj_on_of_nodup_map (Component.nodup_names_walk h) ?_ hnode (hname.trans howner.symm)
    obtain ⟨rfl, -⟩ := Component.symbols_eq_ok h.table
    obtain ⟨other, hother, hentry⟩ := List.mem_filterMap.mp (List.mem_of_find?_eq_some hentry)
    obtain ⟨name, -, rfl⟩ := Option.map_eq_some_iff.mp hentry
    exact Component.node_mem_walk hother
  rw [hentry, Option.map_some, Option.getD_some, hsame]
  cases hw : visit.node with
  | choice choice => simp [hw, Node.properties] at hproperty
  | widget w =>
    rw [hw] at hnode hproperty
    exact ⟨w, p, ⟨hnode, hproperty, hguard⟩, rfl⟩

end View

theorem UpdateScope.isNone_of_trigger {s : UpdateScope} {property : String} {m : Modifiers}
    {value : Expr} {trigger : Option Trigger} (h : s.trigger property m value = .ok trigger) :
    trigger.isNone = m.watch := by
  unfold UpdateScope.trigger at h
  split at h
  · next hwatch =>
    obtain rfl := Except.ok.inj h
    exact hwatch.symm
  · next hwatch =>
    rw [eq_false_of_ne_true hwatch]
    split at h
    · obtain rfl := Except.ok.inj h
      rfl
    · dsimp only at h
      split at h
      · cases h
      · obtain rfl := Except.ok.inj h
        rfl

/-- The code of a step that is taken again. A property is applied between the calls that block its
signals and those that let them through again, in reverse order; where it is tracked, all of them are
under its condition. -/
inductive Step.Guarded (settings : Settings) (c : Component) : Step → Code → Prop where
  | apply {owner : Widget} {p : Property} {a : Application} {trigger : Option Trigger}
      {blocked : List BlockedSignal} (guards : blocked.map (·.guard) = p.modifiers.blockSignals)
      (owners : ∀ b ∈ blocked, ∃ w q, c.Declares w q b.guard ∧ b.owner = w.handle)
      (always : trigger.isNone = p.modifiers.watch) :
      Guarded settings c (.apply owner p a)
        ((trigger.elim [] fun t => Code.line ("if " ++ t.code settings ++ ":")) ++
          Code.indent trigger.toList.length
            (Statement.signalCalls settings.blockMethod blocked ++ a.code ++
              Statement.signalCalls settings.unblockMethod blocked.reverse))
  | select (choice : Choice) : Guarded settings c (.select choice)
      ((Statement.switchPage choice.name.text choice.transition choice.branches).code settings)

/-- Whatever is taken again tells the signals that it blocks. -/
theorem Step.guarded_of_again (settings : Settings) {v : View} {symbols : Symbols}
    (h : (Component.view v).Generable symbols) {step : Step} {t : Statement}
    (ht : step.again ⟨v.model, symbols⟩ = .ok t) :
    step.Guarded settings (.view v) (t.code settings) := by
  cases step with
  | select choice =>
    obtain rfl := Except.ok.inj ht
    exact .select choice
  | apply owner p a =>
    obtain ⟨trigger, blocked, htrigger, hblocked, rfl⟩ := again_apply_eq_ok ht
    have hall := forall₂_of_mapM_eq_ok hblocked
    rw [Statement.code_refresh]
    refine .apply ?_ (fun b hb => ?_) (UpdateScope.isNone_of_trigger htrigger)
    · have hsame : List.Forall₂ (fun guard b => BlockedSignal.guard b = guard)
          p.modifiers.blockSignals blocked := hall.imp fun _ _ hb => (View.declares_of_blocked h hb).1
      exact List.forall₂_eq_eq_eq ▸ List.forall₂_map_left_iff.mpr hsame.flip
    · obtain ⟨guard, -, hguard⟩ := (exists_of_mem_forall₂ hall).1 b hb
      obtain ⟨rfl, hdeclares⟩ := View.declares_of_blocked h hguard
      exact hdeclares

namespace View

/-- The routines of a view guard its signals. -/
structure GuardsSignals (settings : Settings) (v : View) (connects updates : List Statement) :
    Prop where
  /-- Each guard gets its value once, on the handle of the widget that declares it. -/
  assigned : ∀ w p guard, (Component.view v).Declares w p guard → ∃ callback earlier later,
    connects = earlier ++ .connect w.handle (Text.signalName p.name) callback (some guard) :: later ∧
      ∀ s ∈ earlier ++ later, guard ∉ s.defines
  /-- What is not loaded from the record is step after step with its guards. -/
  steps : ∃ codes, statementsCode settings updates =
      statementsCode settings (updates.filter (!·.isStep)) ++ codes.flatten ∧
    List.Forall₂ (Step.Guarded settings (.view v))
      ((Component.view v).steps.filter (·.refreshes)) codes
  /-- Each method property of each widget is a step, once. -/
  methods : ((Component.view v).steps.filterMap Step.method?).Perm
    ((Component.view v).walk.flatMap Node.methods)
  /-- So each one that refreshes stands between the calls for its signals. -/
  around : ∀ owner p, .widget owner ∈ (Component.view v).walk → p ∈ owner.properties →
    p.kind = .method → p.modifiers.refreshes = true → ∃ a code before after,
      p.application? owner.handle = some a ∧
      Step.Guarded settings (.view v) (.apply owner p a) code ∧
      statementsCode settings updates = before ++ code ++ after

theorem exists_step_of_method {c : Component} {owner : Widget} {p : Property}
    (howner : .widget owner ∈ c.walk) (hp : p ∈ owner.properties) (hkind : p.kind = .method) :
    ∃ a, .apply owner p a ∈ c.steps ∧ p.application? owner.handle = some a := by
  have hmethod : (owner, p) ∈ c.walk.flatMap Node.methods :=
    List.mem_flatMap.mpr ⟨_, howner, List.mem_map_of_mem (List.mem_filter.mpr ⟨hp, by simpa using hkind⟩)⟩
  obtain ⟨step, hstep, hmethod⟩ :=
    List.mem_filterMap.mp ((Component.perm_methods_steps c).mem_iff.mpr hmethod)
  cases step with
  | select choice => nomatch hmethod
  | apply owner p a =>
    obtain ⟨rfl, rfl⟩ := Prod.mk.inj (Option.some.inj hmethod)
    obtain ⟨n, -, hown⟩ := Component.exists_ownSteps_of_mem_steps hstep
    exact ⟨a, hstep, (Node.application_of_mem_ownSteps hown).2.2⟩

/-- The routines of a view that passes the checks guard its signals: each guard is registered once, and
each property that refreshes is applied while those of its guards are blocked. -/
theorem exists_guarded_routines (settings : Settings) (v : View)
    (h : ((Component.view v).check settings).errors = []) :
    ∃ connects updates, (Component.view v).connects = .ok connects ∧
      v.updateRoutine settings = .ok updates ∧ v.GuardsSignals settings connects updates := by
  obtain ⟨symbols, body, hgenerable, hroutine, hagain⟩ := exists_updateRoutine h
  obtain ⟨connects, hconnects⟩ := hgenerable.exists_connects
  have hguarded : List.Forall₂ (Step.Guarded settings (.view v))
      ((Component.view v).steps.filter (·.refreshes)) (body.map (Statement.code settings)) :=
    List.forall₂_map_right_iff.mpr (hagain.imp fun _ _ => Step.guarded_of_again settings hgenerable)
  have hcode : ∃ front, statementsCode settings (if body.isEmpty then [.nothing] else
      (v.recordNames settings).map .load ++ body) =
        statementsCode settings front ++ (body.map (Statement.code settings)).flatten ∧
      front = (if body.isEmpty then [.nothing] else
        (v.recordNames settings).map .load ++ body).filter (!·.isStep) := by
    have hbody : body.filter (!·.isStep) = [] := List.filter_eq_nil_iff.mpr fun t ht => by
      obtain ⟨step, -, hstep⟩ := (exists_of_mem_forall₂ hagain).1 t ht
      simp [(Step.repeated_of_again hstep).isStep]
    have hloads : ((v.recordNames settings).map Statement.load).filter (!·.isStep) =
        (v.recordNames settings).map .load :=
      List.filter_eq_self.mpr (List.forall_mem_map.mpr fun _ _ => rfl)
    split
    · next hempty =>
      obtain rfl := List.isEmpty_iff.mp hempty
      exact ⟨[.nothing], (List.append_nil _).symm, rfl⟩
    · refine ⟨(v.recordNames settings).map .load, ?_, ?_⟩
      · rw [statementsCode, List.flatMap_append, ← List.flatMap_def]
        rfl
      · rw [List.filter_append, hloads, hbody, List.append_nil]
  obtain ⟨front, hcode, hfront⟩ := hcode
  refine ⟨connects, _, hconnects, hroutine, ?_⟩
  constructor
  case assigned => exact fun w p guard => Component.exists_connect hgenerable hconnects
  case steps => exact ⟨_, hfront ▸ hcode, hguarded⟩
  case methods => exact Component.perm_methods_steps (.view v)
  case around =>
    intro owner p howner hp hkind hrefreshes
    obtain ⟨a, hstep, ha⟩ := exists_step_of_method howner hp hkind
    obtain ⟨code, hmem, hcode'⟩ :=
      (exists_of_mem_forall₂ hguarded).2 _ (List.mem_filter.mpr ⟨hstep, hrefreshes⟩)
    obtain ⟨earlier, later, hall⟩ := List.append_of_mem hmem
    refine ⟨a, code, statementsCode settings front ++ earlier.flatten, later.flatten, ha, hcode', ?_⟩
    rw [hcode, hall, List.flatten_append, List.flatten_cons]
    simp only [List.append_assoc]

end View

/-- A view whose scale blocks its own signal and that of a template while it follows the model. -/
def volumeSource : String :=
  "view Volume(model, sender) tracked \x7b\n  Gtk.Box \x7b\n" ++
    "    #[template]\n    Field \x7b connect_changed => Typed @typed \x7d,\n" ++
    "    Gtk.Scale \x7b\n      #[track]\n      #[block_signal(moved, typed)]\n" ++
    "      set_value: model.volume,\n      connect_value_changed => Moved @moved,\n    \x7d,\n" ++
    "  \x7d,\n\x7d\n"

instance : Spelled volumeSource :=
  .append (.append (.append (.append .literal .literal) .literal) .literal) .literal

/-- The code of its update routine. -/
def volumeCode : String :=
  "box_0 = widgets.box_0\nfield_0 = widgets.field_0\nscale_0 = widgets.scale_0\n" ++
    "typed = widgets.typed\nmoved = widgets.moved\n" ++
    "if model.changed(\"volume\"):\n    scale_0.handler_block(moved)\n" ++
    "    field_0.root.handler_block(typed)\n    scale_0.set_value(model.volume)\n" ++
    "    field_0.root.handler_unblock(typed)\n    scale_0.handler_unblock(moved)"

theorem View.guarded_routines_volumeSource : ∃ outcomes o v w, readSource? {} volumeSource = some outcomes ∧
    o ∈ outcomes ∧ o.result = .ok (.view v) ∧ (Component.view v).assignNames {} = .view w ∧
      ((Component.view w).check {}).errors = [] ∧
      ∃ connects updates, (Component.view w).connects = .ok connects ∧
        w.updateRoutine {} = .ok updates ∧ w.GuardsSignals {} connects updates ∧
        (statementsCode {} updates).render 4 0 = volumeCode := by
  have hread : holdsView {} volumeSource fun w =>
      ((Component.view w).check {}).errors.isEmpty &&
        (w.updateRoutine {}).toOption.any fun updates =>
          (statementsCode {} updates).render 4 0 = volumeCode := by decide +kernel
  obtain ⟨outcomes, o, v, w, houtcomes, ho, hv, hw, htest⟩ := exists_of_holdsView hread
  obtain ⟨herrors, hcode⟩ := Bool.and_eq_true_iff.mp htest
  have herrors := List.isEmpty_iff.mp herrors
  obtain ⟨connects, updates, hconnects, hupdates, hguards⟩ :=
    View.exists_guarded_routines {} w herrors
  rw [hupdates] at hcode
  exact ⟨outcomes, o, v, w, houtcomes, ho, hv, hw, herrors, connects, updates, hconnects, hupdates,
    hguards, of_decide_eq_true hcode⟩

end ViewTree
