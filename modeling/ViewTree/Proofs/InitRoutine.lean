import ViewTree.Proofs.Attaching
import ViewTree.Proofs.Building
import ViewTree.Proofs.Generation

/-!
The init routine as a whole. Main statement: where the checks find no error, the routine makes each
node once and in order, attaches each once to the node that holds it, adds each branch once when
all of it is there, and uses no name before it has a value (`Component.realizes_initRoutine`).
-/
namespace ViewTree

namespace Statement

/-- The names of nodes and guards that the statement itself uses. -/
def uses : Statement → List String
  | addPage choice page _ => [choice, page.name]
  | attach target _ child _ => [target.name, child.name]
  | apply application => [application.target.name]
  | choosePage choice _ | switchPage choice _ _ => [choice]
  | connect target _ _ _ | bind target _ _ _ => [target.name]
  | refresh _ blocked application =>
    application.target.name :: blocked.flatMap fun b => [b.guard, b.owner.name]
  | build _ _ | container _ _ | load _ | nothing => []

/-- The names of nodes and guards that have a value after the statement. -/
def defines : Statement → List String
  | build name _ | container name _ | load name => [name]
  | connect _ _ _ guard => guard.toList
  | _ => []

/-- Whether each statement uses only names that are known or defined by statements before it. -/
def Scoped (known : List String) : List Statement → Prop
  | [] => True
  | s :: more => (∀ name ∈ s.uses, name ∈ known) ∧ Scoped (known ++ s.defines) more

theorem Scoped.mono {known known' : List String} (hknown : known ⊆ known')
    {statements : List Statement} (h : Scoped known statements) : Scoped known' statements := by
  induction statements generalizing known known' with
  | nil => trivial
  | cons s more ih =>
    obtain ⟨huses, hmore⟩ := h
    refine ⟨fun name hname => hknown (huses name hname), ih ?_ hmore⟩
    exact List.append_subset.mpr ⟨List.subset_append_of_subset_left _ hknown,
      List.subset_append_right _ _⟩

theorem scoped_append {known : List String} {a b : List Statement} :
    Scoped known (a ++ b) ↔ Scoped known a ∧ Scoped (known ++ a.flatMap defines) b := by
  induction a generalizing known with
  | nil => simp [Scoped]
  | cons s a ih =>
    simp only [List.cons_append, Scoped, ih, List.flatMap_cons, List.append_assoc, and_assoc]

theorem scoped_of_uses {known : List String} {statements : List Statement}
    (h : ∀ s ∈ statements, ∀ name ∈ s.uses, name ∈ known) : Scoped known statements := by
  induction statements generalizing known with
  | nil => trivial
  | cons s more ih =>
    refine ⟨h s List.mem_cons_self, ih fun t ht name hname => ?_⟩
    exact List.mem_append_left _ (h t (List.mem_cons_of_mem s ht) name hname)

theorem scoped_flatMap {α : Type} {known : List String} {xs : List α} {f : α → List Statement}
    (h : ∀ x ∈ xs, Scoped known (f x)) : Scoped known (xs.flatMap f) := by
  induction xs generalizing known with
  | nil => trivial
  | cons x xs ih =>
    rw [List.flatMap_cons, scoped_append]
    refine ⟨h x List.mem_cons_self, ih fun y hy => ?_⟩
    exact (h y (List.mem_cons_of_mem x hy)).mono (List.subset_append_left _ _)

end Statement

namespace Node

theorem defines_construct (n : Node) : n.construct.defines = [n.nodeName.text] := by
  cases n <;> rfl

theorem handle_name (n : Node) : n.handle.name = n.nodeName.text := by
  cases n <;> rfl

/-- After a tree is built, each node of it has a value, if the prebound ones have. -/
theorem name_mem_defines_build {n m : Node} (hm : m ∈ n.walk) {known : List String}
    (hknown : m.isPrebound = true → m.nodeName.text ∈ known) :
    m.nodeName.text ∈ known ++ n.build.flatMap Statement.defines := by
  cases hprebound : m.isPrebound with
  | true => exact List.mem_append_left _ (hknown hprebound)
  | false =>
    refine List.mem_append_right _ (List.mem_flatMap.mpr ⟨m.construct, ?_, ?_⟩)
    · exact Node.construct_mem_build hm hprebound
    · rw [defines_construct]
      exact List.mem_singleton_self _

theorem scoped_build (n : Node) {known : List String}
    (h : ∀ m ∈ n.walk, m.isPrebound = true → m.nodeName.text ∈ known) :
    Statement.Scoped known n.build := by
  induction n using Node.induction generalizing known with
  | step n ih =>
    have hbelow (known' : List String) (hknown : known ⊆ known') :
        ∀ m ∈ n.children, Statement.Scoped known' m.build := fun m hm =>
      ih m hm fun k hk hprebound => hknown (h k (Node.walk_subset_of_mem_children hm hk) hprebound)
    cases n with
    | widget w =>
      rw [Node.build_widget, Statement.scoped_append]
      refine ⟨?_, Statement.scoped_flatMap (hbelow _ (List.subset_append_left _ _))⟩
      refine Statement.scoped_of_uses fun s hs => ?_
      unfold Widget.buildSelf at hs
      split at hs
      · simp at hs
      · obtain rfl := List.mem_singleton.mp hs
        simp [Statement.uses]
    | choice c =>
      rw [Node.build_choice]
      refine ⟨by simp [construct, Statement.uses], ?_⟩
      rw [defines_construct]
      have hknown : known ⊆ known ++ [(choice c).nodeName.text] := List.subset_append_left _ _
      refine Statement.scoped_flatMap fun page hpage => ?_
      have hw : widget page.1 ∈ (choice c).children :=
        List.mem_map_of_mem (List.fst_mem_of_mem_zipIdx hpage)
      rw [Widget.buildPage, Statement.scoped_append]
      refine ⟨hbelow _ hknown _ hw, Statement.scoped_of_uses fun s hs name hname => ?_⟩
      obtain rfl := List.mem_singleton.mp hs
      rcases List.mem_cons.mp hname with rfl | hname
      · exact List.mem_append_left _ (by simp [nodeName])
      · obtain rfl := List.mem_singleton.mp hname
        refine Node.name_mem_defines_build (n := widget page.1) (Node.self_mem_walk _) fun hprebound => ?_
        exact hknown (h _ (Node.walk_subset_of_mem_children hw (Node.self_mem_walk _)) hprebound)

end Node

theorem Statement.Applies.uses_subset {settings : Settings} {nodes : List Node} {s : Statement}
    (h : s.Applies settings nodes) : s.uses ⊆ nodes.map (·.nodeName.text) := by
  intro name hname
  cases h with
  | apply hw ha =>
    rename_i w p a
    have htarget : a.target = w.handle := by
      unfold Property.application? at ha
      split at ha
      · exact (congrArg Application.target (Option.some.inj ha)).symm
      · simp at ha
    obtain rfl : name = w.name.text := by simpa [uses, htarget, Widget.handle] using hname
    exact List.mem_map_of_mem (f := fun n : Node => n.nodeName.text) hw
  | attach hw hm hp =>
    rename_i w p m
    have hname : name = w.name.text ∨ name = m.nodeName.text := by
      simpa [uses, Widget.handle, Node.handle_name] using hname
    rcases hname with rfl | rfl
    · exact List.mem_map_of_mem (f := fun n : Node => n.nodeName.text) hw
    · exact List.mem_map_of_mem (f := fun n : Node => n.nodeName.text) hm
  | choosePage hc =>
    rename_i c
    obtain rfl : name = c.name.text := by simpa [uses] using hname
    exact List.mem_map_of_mem (f := fun n : Node => n.nodeName.text) hc

/-- A connecting statement is the connection or binding of a property, and each property has its
own among them. -/
theorem Component.mem_connects {c : Component} {statements : List Statement}
    (h : c.connects = .ok statements) :
    (∀ s ∈ statements, ∃ w p own, .widget w ∈ c.walk ∧ p ∈ w.properties ∧
      p.connects c.sender? w.handle = .ok own ∧ s ∈ own) ∧
    ∀ w p, .widget w ∈ c.walk → p ∈ w.properties → ∃ own,
      p.connects c.sender? w.handle = .ok own ∧ own ⊆ statements := by
  obtain ⟨hfrom, hto⟩ := mem_of_flatten_mapM_eq_ok h
  refine ⟨fun s hs => ?_, fun w p hw hp => ?_⟩
  · obtain ⟨n, hn, own, hown, hs⟩ := hfrom s hs
    cases n with
    | widget w =>
      obtain ⟨p, hp, own, hown, hs⟩ := (mem_of_flatten_mapM_eq_ok hown).1 s hs
      exact ⟨w, p, own, hn, hp, hown, hs⟩
    | choice choice =>
      obtain rfl : [] = own := by simpa [Node.connects, pure, Except.pure] using hown
      simp at hs
  · obtain ⟨all, hall, hsubset⟩ := hto (.widget w) hw
    obtain ⟨own, hown, hmem⟩ := (mem_of_flatten_mapM_eq_ok hall).2 p hp
    exact ⟨own, hown, List.Subset.trans hmem hsubset⟩

/-- A property is connected with its callback or bound, or it is neither connection nor binding. -/
theorem Property.connects_cases {sender? : Option String} {target : Handle} {p : Property}
    {own : List Statement} (h : p.connects sender? target = .ok own) :
    (∃ value captures guard callback, p.payload = .connection value captures guard ∧
      Callback.ofConnection? sender? value captures = some callback ∧
      own = [.connect target (Text.signalName p.name) callback guard]) ∨
    (∃ value, p.payload = .binding value ∧
      own = [.bind target p.name value p.modifiers.chain]) ∨
    (p.kind ≠ .connection ∧ p.kind ≠ .binding ∧ own = []) := by
  unfold Property.connects at h
  cases hpayload : p.payload with
  | connection value captures guard =>
    rw [hpayload] at h
    dsimp only at h
    split at h
    · next callback hcallback =>
      exact .inl ⟨value, captures, guard, callback, rfl, hcallback, (Except.ok.inj h).symm⟩
    · cases h
  | binding value =>
    rw [hpayload] at h
    exact .inr (.inl ⟨value, rfl, (Except.ok.inj h).symm⟩)
  | _ =>
    rw [hpayload] at h
    refine .inr (.inr ⟨?_, ?_, (Except.ok.inj h).symm⟩) <;>
      simp [Property.kind, hpayload, Payload.kind]

theorem Property.guard?_eq_none {p : Property} (h : p.kind ≠ .connection) : p.guard? = none := by
  unfold Property.kind at h
  unfold Property.guard?
  cases hpayload : p.payload with
  | connection => simp [hpayload, Payload.kind] at h
  | _ => rfl

/-- A property connects on the widget that has it, and gives its guard a value. -/
theorem Property.connects_spec {sender? : Option String} {target : Handle} {p : Property}
    {own : List Statement} (h : p.connects sender? target = .ok own) :
    (∀ s ∈ own, s.uses = [target.name] ∧ s.isConstruction = false ∧ s.isPage = false) ∧
      own.flatMap Statement.defines = p.guard?.toList := by
  obtain ⟨value, captures, guard, callback, hpayload, -, rfl⟩ | ⟨value, hpayload, rfl⟩ |
    ⟨hkind, -, rfl⟩ := Property.connects_cases h
  · refine ⟨List.forall_mem_singleton.mpr ⟨rfl, rfl, rfl⟩, ?_⟩
    simp [Property.guard?, hpayload, Payload.guard?, Statement.defines]
  · refine ⟨List.forall_mem_singleton.mpr ⟨rfl, rfl, rfl⟩, ?_⟩
    simp [Property.guard?, hpayload, Payload.guard?, Statement.defines]
  · exact ⟨List.forall_mem_nil _, by rw [Property.guard?_eq_none hkind]; rfl⟩

namespace Component

/-- The names of the widgets that the caller supplies. -/
def preboundNames (c : Component) : List String :=
  (c.walk.filter (·.isPrebound)).map (·.nodeName.text)

end Component

/-- The routine brings exactly the component into being. -/
structure InitRoutine.Realizes (settings : Settings) (c : Component) (r : InitRoutine) : Prop where
  /-- No two nodes share a name. -/
  distinct : (c.walk.map (·.nodeName.text)).Nodup
  /-- Each node but the prebound ones is made once, in the order of the walk. -/
  constructs : (r.rootBuilds ++ r.builds).filter (·.isConstruction) =
    (c.walk.filter (!·.isPrebound)).map Node.construct
  /-- Each node in a property is attached once, to the widget around it. -/
  attaches : List.Forall₂ (Statement.Attaches settings c.walk)
    (r.assigns.filter (·.isAttachment)) (c.visits.filter (·.property.isSome))
  /-- Each branch of each choice is added once, under its number. -/
  pages : ((r.rootBuilds ++ r.builds).filter (·.isPage)).Perm (c.walk.flatMap Node.pages)
  /-- A branch is added when all that is below it has been made. -/
  ready : ∀ choice, .choice choice ∈ c.walk → ∀ (i : Nat) w, choice.branches.widgets[i]? = some w →
    ∃ before after, r.rootBuilds ++ r.builds =
        before ++ .addPage choice.name.text w.handle i :: after ∧
      ∀ n ∈ w.walk, n.isPrebound = false → n.construct ∈ before
  /-- Nothing is made or added later. -/
  settled : ∀ s ∈ r.assigns ++ r.connects, s.isConstruction = false ∧ s.isPage = false
  /-- No name is used before it has a value. -/
  inScope : Statement.Scoped c.preboundNames r.statements
  /-- At the end the root, and all that goes into the record or instance, have values. -/
  returned : c.root.handle.name :: ((c.recordFields settings).map (·.name) ++
      (c.templateFields settings).tail.map (·.name)) ⊆
    c.preboundNames ++ r.statements.flatMap Statement.defines

namespace Component

theorem nodup_names_walk {c : Component} {symbols : Symbols} (h : c.Generable symbols) :
    (c.walk.map (·.nodeName.text)).Nodup := by
  obtain ⟨rfl, hnodup⟩ := symbols_eq_ok h.table
  rw [← names_nodeEntries h.named]
  exact (List.nodup_append.mp hnodup).1

theorem name_mem_defines_builds (c : Component) {n : Node} (hn : n ∈ c.walk) :
    n.nodeName.text ∈ c.preboundNames ++
      (c.rootBuilds ++ c.otherBuilds).flatMap Statement.defines := by
  have hprebound : n.isPrebound = true → n.nodeName.text ∈ c.preboundNames := fun h =>
    List.mem_map_of_mem (List.mem_filter.mpr ⟨hn, h⟩)
  have hsubset : n.build.flatMap Statement.defines ⊆
      (c.rootBuilds ++ c.otherBuilds).flatMap Statement.defines := by
    intro name hname
    obtain ⟨s, hs, hname⟩ := List.mem_flatMap.mp hname
    exact List.mem_flatMap.mpr ⟨s, (build_infix_builds hn).subset hs, hname⟩
  rcases List.mem_append.mp (Node.name_mem_defines_build n.self_mem_walk hprebound) with h | h
  · exact List.mem_append_left _ h
  · exact List.mem_append_right _ (hsubset h)

theorem scoped_builds (c : Component) :
    Statement.Scoped c.preboundNames (c.rootBuilds ++ c.otherBuilds) := by
  rw [builds_eq]
  refine Statement.scoped_flatMap fun w hw => ?_
  refine Node.scoped_build (.widget w) fun n hn hprebound => ?_
  have hwalk : n ∈ c.walk := List.mem_flatMap.mpr ⟨w, hw, hn⟩
  exact List.mem_map_of_mem (List.mem_filter.mpr ⟨hwalk, hprebound⟩)

theorem uses_connects {c : Component} {statements : List Statement}
    (h : c.connects = .ok statements) {s : Statement} (hs : s ∈ statements) :
    s.uses ⊆ c.walk.map (·.nodeName.text) := by
  obtain ⟨w, p, own, hw, -, hown, hs⟩ := (mem_connects h).1 s hs
  obtain ⟨huses, -, -⟩ := (Property.connects_spec hown).1 s hs
  intro name hname
  rw [huses] at hname
  obtain rfl := List.mem_singleton.mp hname
  exact List.mem_map_of_mem (f := fun n : Node => n.nodeName.text) hw

theorem guard_mem_defines_connects {c : Component} {statements : List Statement}
    (h : c.connects = .ok statements) {v : Visit} {p : Property} (hp : (v, p) ∈ c.propertyVisits)
    {guard : String} (hguard : p.guard? = some guard) :
    guard ∈ statements.flatMap Statement.defines := by
  obtain ⟨hv, hp⟩ := mem_propertyVisits.mp hp
  have hnode := node_mem_walk hv
  cases hw : v.node with
  | choice choice => simp [hw, Node.properties] at hp
  | widget w =>
    rw [hw] at hp hnode
    obtain ⟨own, hown, hsubset⟩ := (mem_connects h).2 w p hnode hp
    have hdefines := (Property.connects_spec hown).2 ▸ Option.mem_toList.mpr hguard
    obtain ⟨s, hs, hname⟩ := List.mem_flatMap.mp hdefines
    exact List.mem_flatMap.mpr ⟨s, hsubset hs, hname⟩

/-- What a routine returns are names of nodes and guards. -/
theorem returned_subset {settings : Settings} {c : Component} {known : List String}
    (hnodes : c.walk.map (·.nodeName.text) ⊆ known)
    (hguards : ∀ v p, (v, p) ∈ c.propertyVisits → ∀ guard, p.guard? = some guard → guard ∈ known) :
    c.root.handle.name :: ((c.recordFields settings).map (·.name) ++
      (c.templateFields settings).tail.map (·.name)) ⊆ known := by
  have hnode (n : Node) (hn : n ∈ c.walk) : n.nodeName.text ∈ known :=
    hnodes (List.mem_map_of_mem hn)
  have hroot : .widget c.root ∈ c.walk := by
    refine List.mem_flatMap.mpr ⟨c.root, ?_, Node.self_mem_walk (.widget c.root)⟩
    cases c <;> exact List.mem_cons_self
  intro name hname
  rcases List.mem_cons.mp hname with rfl | hname
  · exact hnode (.widget c.root) hroot
  rcases List.mem_append.mp hname with hname | hname
  · rw [recordFields, List.map_append, List.map_map, List.map_map] at hname
    rcases List.mem_append.mp hname with hname | hname
    · obtain ⟨v, hv, rfl⟩ := List.mem_map.mp hname
      exact hnode v.node (node_mem_walk (List.mem_of_mem_filter hv))
    · obtain ⟨guard, hguard, rfl⟩ := List.mem_map.mp hname
      obtain ⟨⟨v, p⟩, hp, hguard⟩ := List.mem_filterMap.mp hguard
      exact hguards v p hp guard hguard
  · obtain ⟨f, hf, rfl⟩ := List.mem_map.mp hname
    obtain ⟨n, hn, rfl⟩ := List.mem_map.mp hf
    exact hnode n (List.mem_of_mem_filter hn)

/-- The routine of a component that passes the checks makes and attaches each of its nodes exactly
once, in order, and uses no name before it has a value. -/
theorem realizes_initRoutine (settings : Settings) (c : Component)
    (h : ((c.assignNames settings).check settings).errors = []) :
    ∃ r, (c.assignNames settings).initRoutine settings = .ok r ∧
      r.Realizes settings (c.assignNames settings) := by
  have hgenerable := generable_of_check settings c h
  generalize c.assignNames settings = c at hgenerable ⊢
  obtain ⟨connects, hconnects⟩ := hgenerable.exists_connects
  have hroutine : c.initRoutine settings =
      .ok ⟨c.rootBuilds, c.otherBuilds, c.assigns settings, connects⟩ := by
    rw [Component.initRoutine, hconnects]
    rfl
  have hknown : c.walk.map (·.nodeName.text) ⊆
      c.preboundNames ++ (c.rootBuilds ++ c.otherBuilds).flatMap Statement.defines := by
    intro name hname
    obtain ⟨n, hn, rfl⟩ := List.mem_map.mp hname
    exact c.name_mem_defines_builds hn
  refine ⟨_, hroutine, ?_⟩
  constructor
  case distinct => exact nodup_names_walk hgenerable
  case constructs => exact c.filter_isConstruction_builds
  case attaches => exact c.forall₂_attaches settings
  case pages => exact c.perm_filter_isPage_builds
  case ready => exact fun choice hchoice i w hi => constructed_before_page hchoice hi
  case settled =>
    intro s hs
    rcases List.mem_append.mp hs with hs | hs
    · have happlies := applies_of_mem_assigns hs
      cases happlies <;> exact ⟨rfl, rfl⟩
    · obtain ⟨w, p, own, -, -, hown, hs⟩ := (mem_connects hconnects).1 s hs
      exact ((Property.connects_spec hown).1 s hs).2
  case inScope =>
    rw [InitRoutine.statements, List.append_assoc, Statement.scoped_append]
    refine ⟨c.scoped_builds, Statement.scoped_of_uses fun s hs name hname => hknown ?_⟩
    rcases List.mem_append.mp hs with hs | hs
    · exact (applies_of_mem_assigns hs).uses_subset hname
    · exact uses_connects hconnects hs hname
  case returned =>
    have hbuilt : c.walk.map (·.nodeName.text) ⊆ c.preboundNames ++
        (InitRoutine.statements ⟨c.rootBuilds, c.otherBuilds, c.assigns settings, connects⟩).flatMap
          Statement.defines := by
      rw [InitRoutine.statements, List.append_assoc, List.flatMap_append, ← List.append_assoc]
      exact List.subset_append_of_subset_left _ hknown
    refine returned_subset hbuilt fun v p hp guard hguard => ?_
    have hdefined := guard_mem_defines_connects hconnects hp hguard
    rw [InitRoutine.statements, List.flatMap_append]
    exact List.mem_append_right _ (List.mem_append_right _ hdefined)

/-- The entry is made before its text is set, the container before its pages, and the picture is
never made. -/
theorem realizes_initRoutine_counterView :
    ((counterView.assignNames {}).check {}).errors = [] ∧
      ∃ r, (counterView.assignNames {}).initRoutine {} = .ok r ∧
        r.Realizes {} (counterView.assignNames {}) :=
  ⟨by decide +kernel, realizes_initRoutine {} counterView (by decide +kernel)⟩

end Component
end ViewTree
