import ViewTree.Proofs.Generation
import ViewTree.Proofs.MadeNames

/-!
Names that the generated code uses by itself. Main statement: where the checks find no error, a node
or guard has such a name in three ways only (`Component.ownName_cases`). It has the name of the
component itself, which no check compares with; or it is a node of a template that is called after
the class method or its parameter, which the reserved names lack; or it is a made-up name, and the
toolkit module is called as names are made up. The first two get past the checks
(`Component.ownNames_cardTemplate`).
-/
namespace ViewTree

/-- The parameter that takes what a signal sends along with it. -/
def signalArguments : String := "_args"

/-- The names that only the class of a template uses: its first field, the method that makes an
instance, and the parameter of that. -/
def templateNames : List String := ["root", "cls", "init"]

/-- The names that the routines of every component use. -/
def routineNames (settings : Settings) : List String :=
  [settings.toolkitModule, recordLocal, valueLocal, itemLocal, pageLocal, signalArguments]

/-- The names that the code of a component uses by itself. -/
def Component.ownNames (settings : Settings) (c : Component) : List String :=
  c.name :: routineNames settings ++
    match c with
    | .view _ => []
    | .template _ => templateNames

theorem MadeName.exists_digit (m : MadeName) :
    ∃ digit, m.text.toList.getLast? = some digit ∧ digit.isDigit := by
  have nonempty : Nat.toDigits 10 m.number ≠ [] := Nat.toDigits_ne_nil
  have digits : m.text.toList = (m.stem ++ "_").toList ++ Nat.toDigits 10 m.number := by
    rw [text, String.toList_append, Nat.toString_eq_repr, Nat.toList_repr]
  refine ⟨(Nat.toDigits 10 m.number).getLast nonempty, ?_,
    Nat.isDigit_of_mem_toDigits (by decide) (by decide) (List.getLast_mem nonempty)⟩
  rw [digits, List.getLast?_append, List.getLast?_eq_some_getLast nonempty, Option.some_or]

theorem MadeName.text_ne {m : MadeName} {name : String}
    (h : name.toList.getLast?.all (!·.isDigit)) : m.text ≠ name := by
  rintro rfl
  obtain ⟨digit, last, isDigit⟩ := m.exists_digit
  simp [last, isDigit] at h

theorem NodeName.mem_fill {name : NodeName} {names : List NodeName} {made : List MadeName}
    (h : name ∈ fill names made) : name ∈ names ∨ ∃ m ∈ made, name = .synthesized m.text := by
  induction names, made using fill.induct with
  | case1 names m made ih =>
    rw [fill, List.mem_cons] at h
    rcases h with rfl | h
    · exact .inr ⟨m, List.mem_cons_self, rfl⟩
    · refine (ih h).imp (List.mem_cons_of_mem _) ?_
      rintro ⟨m', hm', eq⟩
      exact ⟨m', List.mem_cons_of_mem _ hm', eq⟩
  | case2 made first names notBoth ih =>
    rw [fill.eq_2 _ _ _ notBoth, List.mem_cons] at h
    rcases h with rfl | h
    · exact .inl List.mem_cons_self
    · exact (ih h).imp_left (List.mem_cons_of_mem _)
  | case3 => simp [fill] at h

namespace Component

@[simp] theorem name_assignNames (settings : Settings) (c : Component) :
    (c.assignNames settings).name = c.name := by
  cases c <;> rfl

@[simp] theorem kind_assignNames (settings : Settings) (c : Component) :
    (c.assignNames settings).kind = c.kind := by
  cases c <;> rfl

/-- Where all names that are set were written, the others are made up by naming, each with the stem
of some node. -/
theorem exists_madeName {settings : Settings} {c : Component}
    (written : ∀ n ∈ c.walk, n.name?.isSome → n.nodeName.isGiven) {n : Node}
    (hn : n ∈ (c.assignNames settings).walk) {name : String}
    (hname : n.nodeName = .synthesized name) : ∃ m : MadeName, m.text = name ∧
      ∃ owner ∈ c.walk, m.stem = owner.stem (Text.snakeCase settings.switchContainer) := by
  obtain ⟨made, -, filled, stems⟩ := Naming.exists_made (Naming.counted_start c.writtenNames)
    (Text.snakeCase settings.switchContainer) c.walk
  have mem := List.mem_map_of_mem (f := Node.nodeName) hn
  rw [← nameAll_walk, filled, hname] at mem
  rcases NodeName.mem_fill mem with set | ⟨m, hm, eq⟩
  · obtain ⟨old, hold, eq⟩ := List.mem_map.mp set
    have given := written old hold (by rw [Node.name?, eq]; rfl)
    rw [eq] at given
    cases given
  · have stem := stems ▸ List.mem_map_of_mem (f := MadeName.stem) hm
    obtain ⟨owner, howner, stem⟩ := List.mem_map.mp stem
    exact ⟨m, (NodeName.synthesized.inj eq).symm, owner, (List.mem_filter.mp howner).1, stem.symm⟩

theorem not_routineName_of_nameProblem? {settings : Settings} {name : String}
    (h : nameProblem? settings name = none) : name ∉ routineNames settings := by
  intro mem
  unfold nameProblem? at h
  split_ifs at h with identifier keyword underscore reserved toolkit
  simp only [routineNames, List.mem_cons, List.not_mem_nil, or_false] at mem
  rcases mem with rfl | rfl | rfl | rfl | rfl | rfl
  · exact toolkit rfl
  · exact reserved rfl
  all_goals exact underscore rfl

theorem node_of_checkNames {settings : Settings} {c : Component}
    (h : (c.checkNames settings).errors = []) {n : Node} (hn : n ∈ c.walk) {name : String}
    {isMutable : Bool} (hname : n.nodeName = .given name isMutable) :
    name ∉ routineNames settings ∧ (c.kind = .template → name ≠ "root") := by
  obtain ⟨v, hv, rfl⟩ := exists_visit hn
  have none := List.flatMap_eq_nil_iff.mp (List.append_eq_nil_iff.mp h).1 v hv
  simp only [checkNodeName, hname, List.append_eq_nil_iff, List.map_eq_nil_iff,
    Option.toList_eq_nil_iff, Option.map_eq_none_iff] at none
  obtain ⟨⟨problem, -⟩, root⟩ := none
  refine ⟨not_routineName_of_nameProblem? problem, fun isTemplate isRoot => ?_⟩
  simp [isTemplate, isRoot] at root

theorem guard_of_checkNames {settings : Settings} {c : Component}
    (h : (c.checkNames settings).errors = []) {n : Node} (hn : n ∈ c.walk) {p : Property}
    (hp : p ∈ n.properties) {guard : String} (hguard : p.guard? = some guard) :
    guard ∉ routineNames settings := by
  obtain ⟨v, hv, rfl⟩ := exists_visit hn
  have none := List.flatMap_eq_nil_iff.mp (List.append_eq_nil_iff.mp h).2 (v, p)
    (mem_propertyVisits.mpr ⟨hv, hp⟩)
  simp only [checkGuardName, hguard, List.append_eq_nil_iff, List.map_eq_nil_iff,
    Option.toList_eq_nil_iff, Option.map_eq_none_iff] at none
  exact not_routineName_of_nameProblem? none.1

/-- Templates have no guards. -/
theorem kind_of_checkConnections {c : Component} (h : c.checkConnections.errors = []) {n : Node}
    (hn : n ∈ c.walk) {p : Property} (hp : p ∈ n.properties) {guard : String}
    (hguard : p.guard? = some guard) : c.kind = .view := by
  obtain ⟨v, hv, rfl⟩ := exists_visit hn
  have none := List.flatMap_eq_nil_iff.mp h (v, p) (mem_propertyVisits.mpr ⟨hv, hp⟩)
  cases c with
  | view v => rfl
  | template t =>
    obtain ⟨name, modifiers, place, payload⟩ := p
    cases payload with
    | connection value captures own =>
      obtain rfl : own = some guard := hguard
      simp [checkConnection] at none
    | method | binding | child | choice => cases hguard

theorem mem_ownNames {settings : Settings} {c : Component} {name : String} :
    name ∈ c.ownNames settings ↔ name = c.name ∨ name ∈ routineNames settings ∨
      (c.kind = .template ∧ name ∈ templateNames) := by
  cases c <;> simp [ownNames, kind]

theorem madeName_of_ownName {settings : Settings} {c : Component} {m : MadeName}
    (h : m.text ∈ c.ownNames settings) : m.text = c.name ∨ m.text = settings.toolkitModule := by
  rcases mem_ownNames.mp h with own | routine | ⟨-, template⟩
  · exact .inl own
  · rcases List.mem_cons.mp routine with toolkit | other
    · exact .inr toolkit
    · have undigited : ∀ name ∈ (routineNames settings).tail,
          name.toList.getLast?.all (!·.isDigit) := by
        simp only [routineNames, List.tail_cons]
        decide
      exact absurd rfl (MadeName.text_ne (undigited _ other))
  · have undigited : ∀ name ∈ templateNames, name.toList.getLast?.all (!·.isDigit) := by decide
    exact absurd rfl (MadeName.text_ne (undigited _ template))

/-- A named component without errors, whose set names were written: a node that has a name which
the code uses by itself has the name of the component, or a made-up name that is the toolkit
module's, or it is a node of a template which is called after its method or the parameter of that.
A guard has no such name but that of the component. -/
theorem ownName_cases {settings : Settings} {c : Component}
    (written : ∀ n ∈ c.walk, n.name?.isSome → n.nodeName.isGiven)
    (h : ((c.assignNames settings).check settings).errors = []) :
    (∀ n ∈ (c.assignNames settings).walk, ∀ name ∈ c.ownNames settings, n.name? = some name →
      name = c.name ∨ (n.nodeName = .synthesized name ∧ name = settings.toolkitModule) ∨
        (c.kind = .template ∧ n.nodeName.isGiven ∧ (name = "cls" ∨ name = "init"))) ∧
    ∀ n ∈ (c.assignNames settings).walk, ∀ p ∈ n.properties, ∀ name ∈ c.ownNames settings,
      p.guard? = some name → name = c.name := by
  obtain ⟨-, hnames, -, -, -, hconnections, -⟩ := errors_check_eq_nil.mp h
  constructor
  · intro n hn name hown hname
    cases nodeName : n.nodeName with
    | absent => rw [Node.name?, nodeName] at hname; cases hname
    | synthesized made =>
      obtain rfl : made = name := by
        rw [Node.name?, nodeName] at hname
        exact Option.some.inj hname
      obtain ⟨m, rfl, -⟩ := exists_madeName written hn nodeName
      exact (madeName_of_ownName hown).imp_right fun toolkit => .inl ⟨rfl, toolkit⟩
    | given other isMutable =>
      obtain rfl : other = name := by
        rw [Node.name?, nodeName] at hname
        exact Option.some.inj hname
      obtain ⟨notRoutine, notRoot⟩ := node_of_checkNames hnames hn nodeName
      rcases mem_ownNames.mp hown with own | routine | ⟨isTemplate, template⟩
      · exact .inl own
      · exact absurd routine notRoutine
      · have cases : other = "root" ∨ other = "cls" ∨ other = "init" := by
          simpa [templateNames] using template
        have notRoot := notRoot (by rw [kind_assignNames, isTemplate])
        exact .inr (.inr ⟨isTemplate, rfl, cases.resolve_left notRoot⟩)
  · intro n hn p hp name hown hguard
    rcases mem_ownNames.mp hown with own | routine | ⟨isTemplate, -⟩
    · exact own
    · exact absurd routine (guard_of_checkNames hnames hn hp hguard)
    · have isView := kind_of_checkConnections hconnections hn hp hguard
      rw [kind_assignNames, isTemplate] at isView
      cases isView

end Component

def cardTemplate (label : String) : Component :=
  let title : Widget := ⟨.given label false, .block "Gtk.Label", false, none, ⟨3, 5⟩, []⟩
  .template ⟨"Card", ⟨.absent, .block "Gtk.Box", true, none, ⟨2, 3⟩,
    [⟨"", {}, ⟨3, 5⟩, .child none title⟩]⟩, ⟨1, 1⟩⟩

theorem Component.ownName_cases_cardTemplate :
    (∀ n ∈ (cardTemplate "title").walk, n.name?.isSome → n.nodeName.isGiven) ∧
    (((cardTemplate "title").assignNames {}).check {}).errors = [] ∧
    (∀ n ∈ ((cardTemplate "title").assignNames {}).walk,
      ∀ name ∈ (cardTemplate "title").ownNames {}, n.name? = some name →
        name = "Card" ∨ (n.nodeName = .synthesized name ∧ name = "Gtk") ∨
          (ComponentKind.template = .template ∧ n.nodeName.isGiven ∧
            (name = "cls" ∨ name = "init"))) :=
  have written : ∀ n ∈ (cardTemplate "title").walk, n.name?.isSome → n.nodeName.isGiven := by
    decide
  ⟨written, by decide, (ownName_cases written (by decide)).1⟩

/-- A node has a name that the code of the component uses by itself, and no check reports it. -/
def Component.Captures (settings : Settings) (c : Component) (name : String) : Prop :=
  name ∈ c.ownNames settings ∧ ((c.assignNames settings).check settings).errors = [] ∧
    name ∈ (c.assignNames settings).walk.filterMap Node.name?

instance (settings : Settings) (c : Component) (name : String) :
    Decidable (c.Captures settings name) :=
  inferInstanceAs (Decidable (_ ∧ _ ∧ _))

/-- A label may have each name that the class of the template uses but `root`. -/
theorem Component.ownNames_cardTemplate :
    (cardTemplate "cls").Captures {} "cls" ∧ (cardTemplate "init").Captures {} "init" ∧
      (cardTemplate "Card").Captures {} "Card" := by
  decide

end ViewTree
