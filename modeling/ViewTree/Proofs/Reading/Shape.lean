import ViewTree.Proofs.Nodes
import ViewTree.Proofs.Reading.Results
import ViewTree.Tree.Reader

/-!
The shape of trees that are read: what stands together is complete, and expressions come from the
source. Main statements: a tree has the shape if its node has it and the trees below do
(`Node.shaped_iff`), what is set on a node once it is read leaves the shape as it is
(`Choice.shaped_transition`, `Component.shaped_markRoot`), and trees of the shape make a well-formed
component if the first node alone is marked as the root (`Component.sound_of`).
-/
namespace ViewTree
open Embedded

/-- A name is none or a written one, which is not empty; only then it may be mutable. -/
structure NodeName.IsWritten (n : NodeName) : Prop where
  given : n.isGiven = n.get?.isSome
  mutable : n.isMutable = true → n.isGiven = true
  filled : n.get? ≠ some ""

theorem NodeName.isWritten_absent : absent.IsWritten :=
  ⟨rfl, nofun, nofun⟩

theorem NodeName.isWritten_given {name : String} (h : name ≠ "") (isMutable : Bool) :
    (given name isMutable).IsWritten :=
  ⟨rfl, fun _ => rfl, fun heq => h (Option.some.inj heq)⟩

def Modifiers.exprs (m : Modifiers) : List Expr := m.predicate?.toList ++ m.chain

/-- All expressions of a payload, those of the node below apart. -/
def Payload.exprs (p : Payload) : List Expr :=
  p.value?.toList ++ p.arguments?.toList ++ p.captures.filterMap (·.value)

def Property.exprs (p : Property) : List Expr := p.payload.exprs ++ p.modifiers.exprs

/-- A property carries what its kind asks for, and nothing else. -/
structure Property.WellFormed (p : Property) : Prop where
  value : p.value?.isSome = true ↔ p.kind = .method ∨ p.kind = .binding ∨ p.kind = .connection
  widget : (∃ w, p.payload.node? = some (.widget w)) ↔ p.kind = .widget
  choice : (∃ c, p.payload.node? = some (.choice c)) ↔ p.kind = .conditional
  arguments : p.payload.arguments?.isSome = true → p.kind = .widget ∨ p.kind = .conditional
  registered : p.payload.captures ≠ [] ∨ p.guard?.isSome = true → p.kind = .connection
  /-- Only a child that is attached without a property has no name, and it takes no arguments. -/
  default : p.isDefaultChild = true ↔ p.name = ""
  unnamed : p.name = "" → (p.kind = .widget ∨ p.kind = .conditional) ∧ p.payload.arguments? = none
  transition : ∀ c, p.payload.node? = some (.choice c) → c.transition = p.modifiers.transition
  reads : ∀ e ∈ p.exprs, e.Reads

def Branches.conditions : Branches → List Expr
  | chain first others _ _ => (first :: others).map (·.condition)
  | cases _ _ => []

/-- A chain has a condition for each branch but the last; a match has arms that stand together. -/
def Branches.WellFormed (b : Branches) : Prop :=
  match b with
  | chain _ _ _ _ => b.conditions ≠ [] ∧ b.widgets.length = b.conditions.length + 1 ∧
      ∀ e ∈ b.conditions, e.Reads
  | cases subject arms => subject.Reads ∧ arms ≠ [] ∧ (∀ a ∈ arms, a.pattern.Reads) ∧
      armsProblem? (arms.map (·.pattern.arm)) = none

structure Widget.WellFormed (w : Widget) : Prop where
  name : w.name.IsWritten
  prebound : w.construction.isPrebound = true → w.name.isGiven = true
  /-- There is a call if the widget is built by calls. -/
  call : match w.construction with
    | .call _ call _ => w.construction.call? = some call ∧ call.Reads
    | .block _ | .template _ | .prebound _ _ => w.construction.call? = none
  properties : ∀ p ∈ w.properties, p.WellFormed

def Node.WellFormed : Node → Prop
  | widget w => w.WellFormed
  | choice c => c.name.IsWritten ∧ c.branches.WellFormed

/-- What hangs together as it is written, with one root, and a model in a view. -/
structure Component.WellFormed (c : Component) : Prop where
  nodes : ∀ n ∈ c.walk, n.WellFormed
  root : c.walk.head? = some (.widget c.root) ∧ c.root.isRoot = true
  /-- No other node is marked as the root. -/
  onlyRoot : ∀ w, .widget w ∈ c.walk.tail → w.isRoot = false
  trees : c.trees.head? = some c.root
  model : c.kind = .view → c.params ≠ []

/-- In a component that is read, all names that are set were written. -/
theorem Component.WellFormed.isGiven {c : Component} (h : c.WellFormed) :
    ∀ n ∈ c.walk, n.name?.isSome → n.nodeName.isGiven := by
  intro n hn hsome
  have hwritten : n.nodeName.IsWritten := by
    have hn := h.nodes n hn
    cases n with
    | widget w => exact hn.name
    | choice choice => exact hn.1
  rw [hwritten.given]
  exact hsome

/-- All expressions of branches, those of the trees below apart. -/
def Branches.exprs : Branches → List Expr
  | chain first others _ _ => (first :: others).map (·.condition)
  | cases subject _ => [subject]

/-- The expressions of a node, those of modifiers and of the nodes below apart. -/
def Node.exprs : Node → List Expr
  | widget w => w.construction.call?.toList ++ w.properties.flatMap (·.payload.exprs)
  | choice c => c.branches.exprs

def Node.modifierExprs : Node → List Expr
  | widget w => w.properties.flatMap (·.modifiers.exprs)
  | choice _ => []

/-- What a property is called, if it has a name, and what it captures are words of the source. -/
structure Property.Written (context : Context) (p : Property) : Prop where
  name : p.name = "" ∨ context.Writes p.name
  captures : ∀ k ∈ p.payload.captures, context.Writes k.name

/-- The path that a widget is built by and the names of its properties come from the source. -/
def Node.Written (context : Context) : Node → Prop
  | widget w => context.WritesPath w.construction.path ∧ ∀ p ∈ w.properties, p.Written context
  | choice _ => True

/-- A node is well-formed, and its expressions and names come from the source. -/
structure Node.Sound (context : Context) (n : Node) : Prop where
  wellFormed : n.WellFormed
  captured : ∀ e ∈ n.exprs, e.Captured
  modifiers : ∀ e ∈ n.modifierExprs, e.Sound context
  written : n.Written context

structure Component.Sound (context : Context) (c : Component) : Prop where
  wellFormed : c.WellFormed
  name : context.Writes c.name
  params : ∀ p ∈ c.params, context.Writes p
  nodes : ∀ n ∈ c.walk, n.Sound context

variable {context : Context}

/-- All nodes of the tree are sound. -/
def Node.Shaped (context : Context) (n : Node) : Prop := ∀ m ∈ n.walk, m.Sound context

theorem Node.shaped_iff {n : Node} :
    n.Shaped context ↔ n.Sound context ∧ ∀ m ∈ n.children, m.Shaped context := by
  simp only [Shaped, walk_eq n, List.forall_mem_cons, List.mem_flatMap]
  refine and_congr_right fun _ => ⟨fun h m hm k hk => h k ⟨m, hm, hk⟩, ?_⟩
  rintro h k ⟨m, hm, hk⟩
  exact h m hm k hk

/-- A property and all that hangs on it. -/
structure Property.Shaped (context : Context) (p : Property) : Prop where
  own : p.WellFormed
  written : p.Written context
  captured : ∀ e ∈ p.payload.exprs, e.Captured
  modifiers : ∀ e ∈ p.modifiers.exprs, e.Sound context
  below : ∀ n, p.payload.node? = some n → n.Shaped context

/-- What a property carries goes by its payload; the rest depends on how it was read. -/
theorem Property.wellFormed_of {p : Property}
    (hunnamed : p.name = "" →
      (p.kind = .widget ∨ p.kind = .conditional) ∧ p.payload.arguments? = none)
    (htransition : ∀ c, p.payload.node? = some (.choice c) → c.transition = p.modifiers.transition)
    (hreads : ∀ e ∈ p.exprs, e.Reads) : p.WellFormed := by
  have hdefault : p.isDefaultChild = true ↔ p.name = "" := decide_eq_true_iff
  refine ⟨?_, ?_, ?_, ?_, ?_, hdefault, hunnamed, htransition, hreads⟩ <;>
    cases hpayload : p.payload <;>
      simp [kind, value?, guard?, hpayload, Payload.kind, Payload.value?, Payload.node?,
        Payload.arguments?, Payload.captures, Payload.guard?]

theorem Property.shaped_of {p : Property}
    (hunnamed : p.name = "" →
      (p.kind = .widget ∨ p.kind = .conditional) ∧ p.payload.arguments? = none)
    (hwritten : p.Written context)
    (htransition : ∀ c, p.payload.node? = some (.choice c) → c.transition = p.modifiers.transition)
    (hpayload : ∀ e ∈ p.payload.exprs, e.Captured)
    (hmodifiers : ∀ e ∈ p.modifiers.exprs, e.Sound context)
    (hbelow : ∀ n, p.payload.node? = some n → n.Shaped context) : p.Shaped context := by
  have hreads : ∀ e ∈ p.exprs, e.Reads := List.forall_mem_append.mpr
    ⟨fun e he => (hpayload e he).reads, fun e he => (hmodifiers e he).reads⟩
  exact ⟨wellFormed_of hunnamed htransition hreads, hwritten, hpayload, hmodifiers, hbelow⟩

theorem Property.shaped_leaf {p : Property} (hname : context.Writes p.name)
    (hcaptures : ∀ k ∈ p.payload.captures, context.Writes k.name) (hnode : p.payload.node? = none)
    (hpayload : ∀ e ∈ p.payload.exprs, e.Captured)
    (hmodifiers : ∀ e ∈ p.modifiers.exprs, e.Sound context) : p.Shaped context := by
  refine shaped_of (fun h => absurd h hname.word.ne_empty) ⟨.inr hname, hcaptures⟩ (fun c hc => ?_)
    hpayload hmodifiers fun n hn => ?_
  · exact absurd (hnode.symm.trans hc) nofun
  · exact absurd (hnode.symm.trans hn) nofun

/-- The name of a property that holds a node: none, and then there are no arguments, or a word. -/
def Context.Attaches (context : Context) (name : String) (arguments : Option Expr) : Prop :=
  name = "" ∧ arguments = none ∨ context.Writes name

theorem Context.Attaches.arguments {name : String} {arguments : Option Expr}
    (h : context.Attaches name arguments) (hempty : name = "") : arguments = none :=
  h.elim And.right fun hname => absurd hempty hname.word.ne_empty

theorem Property.shaped_child {name : String} {m : Modifiers} {place : Place}
    {arguments : Option Expr} {w : Widget} (hname : context.Attaches name arguments)
    (harguments : ∀ e ∈ arguments, e.Captured) (hw : (Node.widget w).Shaped context)
    (hm : ∀ e ∈ m.exprs, e.Sound context) : Shaped context ⟨name, m, place, .child arguments w⟩ := by
  refine shaped_of (fun hempty => ⟨.inl rfl, hname.arguments hempty⟩) ⟨hname.imp_left And.left, nofun⟩
    nofun ?_ hm ?_
  · simpa [Payload.exprs, Payload.value?, Payload.arguments?, Payload.captures] using harguments
  · rintro _ ⟨⟩
    exact hw

theorem Property.shaped_choice {name : String} {m : Modifiers} {place : Place}
    {arguments : Option Expr} {c : Choice} (hname : context.Attaches name arguments)
    (harguments : ∀ e ∈ arguments, e.Captured) (hc : (Node.choice c).Shaped context)
    (htransition : c.transition = m.transition) (hm : ∀ e ∈ m.exprs, e.Sound context) :
    Shaped context ⟨name, m, place, .choice arguments c⟩ := by
  refine shaped_of (fun hempty => ⟨.inr rfl, hname.arguments hempty⟩)
    ⟨hname.imp_left And.left, nofun⟩ ?_ ?_ hm ?_
  · rintro _ ⟨⟩
    exact htransition
  · simpa [Payload.exprs, Payload.value?, Payload.arguments?, Payload.captures] using harguments
  · rintro _ ⟨⟩
    exact hc

theorem Widget.shaped_of {w : Widget} (hname : w.name.IsWritten)
    (hprebound : w.construction.isPrebound = true → w.name.isGiven = true)
    (hpath : context.WritesPath w.construction.path)
    (hcall : ∀ e, w.construction.call? = some e → e.Captured)
    (hproperties : ∀ p ∈ w.properties, p.Shaped context) : (Node.widget w).Shaped context := by
  refine Node.shaped_iff.mpr ⟨⟨⟨hname, hprebound, ?_, fun p hp => (hproperties p hp).own⟩,
    fun e he => ?_, fun e he => ?_, hpath, fun p hp => (hproperties p hp).written⟩, fun m hm => ?_⟩
  · cases hconstruction : w.construction with
    | call path call chained => exact ⟨rfl, (hcall call (by rw [hconstruction]; rfl)).reads⟩
    | _ => rfl
  · rcases List.mem_append.mp he with he | he
    · exact hcall e (Option.mem_toList.mp he)
    · obtain ⟨p, hp, he⟩ := List.mem_flatMap.mp he
      exact (hproperties p hp).captured e he
  · obtain ⟨p, hp, he⟩ := List.mem_flatMap.mp he
    exact (hproperties p hp).modifiers e he
  · obtain ⟨p, hp, hm⟩ := List.mem_filterMap.mp hm
    exact (hproperties p hp).below m hm

/-- Branches and the trees in them. -/
structure Branches.Shaped (context : Context) (b : Branches) : Prop where
  own : b.WellFormed
  captured : ∀ e ∈ b.exprs, e.Captured
  below : ∀ w ∈ b.widgets, (Node.widget w).Shaped context

theorem Choice.shaped_of {c : Choice} (hname : c.name.IsWritten)
    (hbranches : c.branches.Shaped context) : (Node.choice c).Shaped context :=
  Node.shaped_iff.mpr ⟨⟨⟨hname, hbranches.own⟩, hbranches.captured, nofun, trivial⟩,
    List.forall_mem_map.mpr hbranches.below⟩

/-- A choice gets its transition when it is read. -/
theorem Choice.shaped_transition {c : Choice} (h : (Node.choice c).Shaped context)
    (transition : Option String) : (Node.choice { c with transition }).Shaped context := by
  obtain ⟨⟨hown, hcaptured, hmodifiers, hwritten⟩, hbelow⟩ := Node.shaped_iff.mp h
  exact Node.shaped_iff.mpr ⟨⟨hown, hcaptured, hmodifiers, hwritten⟩, hbelow⟩

/-- The first tree gets the mark of the root when all are read. -/
theorem Component.shaped_markRoot {w : Widget} (h : (Node.widget w).Shaped context) :
    (Node.widget (markRoot w)).Shaped context := by
  obtain ⟨⟨⟨hname, hprebound, hcall, hproperties⟩, hcaptured, hmodifiers, hwritten⟩, hbelow⟩ :=
    Node.shaped_iff.mp h
  exact Node.shaped_iff.mpr
    ⟨⟨⟨hname, hprebound, hcall, hproperties⟩, hcaptured, hmodifiers, hwritten⟩, hbelow⟩

theorem Component.walk_markRoot (w : Widget) :
    (markRoot w).walk = .widget (markRoot w) :: w.walk.tail := by
  cases w
  rfl

theorem Component.isRoot_of_misplacedRoot? {trees : List Widget} (h : misplacedRoot? trees = none)
    {w : Widget} (hw : .widget w ∈ (trees.flatMap Widget.walk).tail) : w.isRoot = false := by
  have hnone := List.findSome?_eq_none_iff.mp (Option.map_eq_none_iff.mp h) (.widget w)
    (List.drop_one ▸ hw)
  simpa [Node.widget?] using hnone

/-- A component is well-formed if its trees have the shape and the first one alone is marked. -/
theorem Component.sound_of {c : Component} {root : Widget} {trees : List Widget}
    (hname : context.Writes c.name) (hparams : ∀ p ∈ c.params, context.Writes p)
    (hroot : c.root = markRoot root) (htrees : c.trees = markRoot root :: trees)
    (hshaped : ∀ w ∈ root :: trees, (Node.widget w).Shaped context)
    (hmarks : misplacedRoot? (root :: trees) = none) (hmodel : c.kind = .view → c.params ≠ []) :
    c.Sound context := by
  have hwalk : c.walk = .widget c.root :: ((root :: trees).flatMap Widget.walk).tail := by
    obtain ⟨name, construction, isRoot, doc, place, properties⟩ := root
    simp [walk, htrees, hroot, walk_markRoot, Widget.walk]
  have hfirst := shaped_markRoot (hshaped root List.mem_cons_self)
  have hnodes : ∀ n ∈ c.walk, n.Sound context := by
    intro n hn
    rw [walk, htrees, List.mem_flatMap] at hn
    obtain ⟨w, hw, hn⟩ := hn
    rcases List.mem_cons.mp hw with rfl | hw
    · exact hfirst n hn
    · exact hshaped w (List.mem_cons_of_mem _ hw) n hn
  refine ⟨⟨fun n hn => (hnodes n hn).wellFormed, ⟨by rw [hwalk]; rfl, by rw [hroot]; rfl⟩,
    fun w hw => ?_, by rw [htrees, hroot]; rfl, hmodel⟩, hname, hparams, hnodes⟩
  rw [hwalk, List.tail_cons] at hw
  exact isRoot_of_misplacedRoot? hmarks hw

end ViewTree
