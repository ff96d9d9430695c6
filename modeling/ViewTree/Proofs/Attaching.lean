import Mathlib.Data.List.Forall2
import ViewTree.Code.InitRoutine
import ViewTree.Proofs.Nodes

/-!
What the statements that apply properties do to a tree. Main statements: each of them is about a
node of the tree (`Component.applies_of_mem_assigns`), and the attachments among them go, in order,
with the visits of the nodes that hang in a property (`Component.forall₂_attaches`).
-/
namespace ViewTree

namespace Statement

def isAttachment : Statement → Bool
  | attach _ _ _ _ => true
  | _ => false

/-- The statement attaches the node of the visit to the widget around it, through the property that
holds it. -/
def Attaches (settings : Settings) (nodes : List Node) (s : Statement) (v : Visit) : Prop :=
  ∃ w p, .widget w ∈ nodes ∧ w.name.get? = v.parent ∧ v.property = some p ∧ p ∈ w.properties ∧
    p.payload.node? = some v.node ∧
    s = .attach w.handle (Property.attachMethod settings w.construction p.name) v.node.handle
      p.payload.arguments?

end Statement

/-- Applies the properties of the tree under a node. -/
def Node.assign (settings : Settings) : Node → List Statement
  | widget w => w.assign settings
  | choice c => c.assign settings

def Property.attachBelow (settings : Settings) (owner : Widget) (p : Property) : List Statement :=
  p.payload.node?.toList.flatMap fun m =>
    .attach owner.handle (Property.attachMethod settings owner.construction p.name) m.handle
      p.payload.arguments? :: m.assign settings

def Property.assign (settings : Settings) (owner : Widget) (p : Property) : List Statement :=
  (p.application? owner.handle).toList.map .apply ++ p.attachBelow settings owner

namespace Node

theorem assign_widget (settings : Settings) (w : Widget) :
    (widget w).assign settings = w.properties.flatMap (Property.assign settings w) := by
  refine (show (widget w).assign settings = Property.assignEach settings w.handle w.construction
    w.properties by cases w; rfl).trans ?_
  refine flatMap_of_cons rfl (fun p ps => ?_) _
  obtain ⟨name, modifiers, place, payload⟩ := p
  rw [Property.assignEach]
  cases payload <;>
    simp [Payload.assign, Property.assign, Property.attachBelow, Payload.node?, Node.assign,
      Node.handle, Payload.arguments?]

theorem assign_choice (settings : Settings) (c : Choice) :
    (choice c).assign settings =
      .choosePage c.name.text c.branches :: c.branches.widgets.flatMap (Widget.assign settings) := by
  obtain ⟨name, transition, doc, place, branches⟩ := c
  exact congrArg (_ :: ·) (Branches.flatMap_widgets (fun ⟨_, _, _⟩ _ _ _ => rfl) (fun _ _ => rfl)
    rfl (fun ⟨_, _, _⟩ _ => rfl) rfl (fun ⟨_, _⟩ _ => rfl) branches)

end Node

/-- What a statement applies to the nodes: a method property, a child in a property, or the choice
of a first page. -/
inductive Statement.Applies (settings : Settings) (nodes : List Node) : Statement → Prop
  | apply {w : Widget} {p : Property} {a : Application} (hw : .widget w ∈ nodes)
      (ha : p.application? w.handle = some a) : Applies settings nodes (.apply a)
  | attach {w : Widget} {p : Property} {m : Node} (hw : .widget w ∈ nodes) (hm : m ∈ nodes)
      (hp : p.payload.node? = some m) :
      Applies settings nodes (.attach w.handle
        (Property.attachMethod settings w.construction p.name) m.handle p.payload.arguments?)
  | choosePage {c : Choice} (hc : .choice c ∈ nodes) :
      Applies settings nodes (.choosePage c.name.text c.branches)

theorem Node.applies_of_mem_assign {settings : Settings} {nodes : List Node} {n : Node}
    (h : n.walk ⊆ nodes) {s : Statement} (hs : s ∈ n.assign settings) :
    s.Applies settings nodes := by
  induction n using Node.induction with
  | step n ih =>
    have hself : n ∈ nodes := h n.self_mem_walk
    have hchildren : ∀ m ∈ n.children, m.walk ⊆ nodes := fun m hm =>
      List.Subset.trans (Node.walk_subset_of_mem_children hm) h
    cases n with
    | widget w =>
      rw [Node.assign_widget] at hs
      obtain ⟨p, hp, hs⟩ := List.mem_flatMap.mp hs
      rw [Property.assign] at hs
      rcases List.mem_append.mp hs with hs | hs
      · obtain ⟨a, ha, rfl⟩ := List.mem_map.mp hs
        exact .apply hself (Option.mem_toList.mp ha)
      · obtain ⟨m, hm, hs⟩ := List.mem_flatMap.mp hs
        have hpayload : p.payload.node? = some m := Option.mem_toList.mp hm
        have hm : m ∈ (Node.widget w).children := List.mem_filterMap.mpr ⟨p, hp, hpayload⟩
        rcases List.mem_cons.mp hs with rfl | hs
        · exact .attach hself (hchildren m hm m.self_mem_walk) hpayload
        · exact ih m hm (hchildren m hm) hs
    | choice c =>
      rw [Node.assign_choice] at hs
      rcases List.mem_cons.mp hs with rfl | hs
      · exact .choosePage hself
      · obtain ⟨w, hw, hs⟩ := List.mem_flatMap.mp hs
        have hm : .widget w ∈ (Node.choice c).children := List.mem_map_of_mem hw
        exact ih (.widget w) hm (hchildren _ hm) hs

theorem Component.applies_of_mem_assigns {settings : Settings} {c : Component} {s : Statement}
    (hs : s ∈ c.assigns settings) : s.Applies settings c.walk := by
  obtain ⟨w, hw, hs⟩ := List.mem_flatMap.mp hs
  exact Node.applies_of_mem_assign (n := .widget w)
    (fun n hn => List.mem_flatMap.mpr ⟨w, hw, hn⟩) hs

theorem forall₂_flatMap {α β γ : Type} {R : β → γ → Prop} {f : α → List β} {g : α → List γ}
    {xs : List α} (h : ∀ x ∈ xs, List.Forall₂ R (f x) (g x)) :
    List.Forall₂ R (xs.flatMap f) (xs.flatMap g) := by
  induction xs with
  | nil => exact .nil
  | cons x xs ih =>
    have hmore := ih fun y hy => h y (List.mem_cons_of_mem x hy)
    exact List.rel_append (h x List.mem_cons_self) hmore

/-- The visits below a node that hang in a property. -/
def Node.attachedVisits (tree : Nat) (n : Node) : List Visit :=
  (n.links.flatMap fun (property, m) => m.visits tree n.name? property).filter
    (·.property.isSome)

theorem Node.filter_visits (tree : Nat) (parent : Option String) (property : Option Property)
    (n : Node) : (n.visits tree parent property).filter (·.property.isSome) =
      (if property.isSome then [⟨n, tree, parent, property⟩] else []) ++ n.attachedVisits tree := by
  rw [Node.visits_eq, List.filter_cons, attachedVisits]
  split <;> rfl

theorem Node.attachedVisits_widget (tree : Nat) (w : Widget) :
    (Node.widget w).attachedVisits tree = w.properties.flatMap fun p =>
      p.payload.node?.toList.flatMap fun m =>
        ⟨m, tree, w.name.get?, some p⟩ :: m.attachedVisits tree := by
  rw [attachedVisits, Node.links]
  induction w.properties with
  | nil => rfl
  | cons p ps ih =>
    rw [List.flatMap_cons, ← ih, List.filterMap_cons]
    cases p.payload.node? with
    | none => rfl
    | some m =>
      rw [Option.map_some, List.flatMap_cons, List.filter_append, Node.filter_visits]
      simp [Node.name?, Node.nodeName]

theorem Node.attachedVisits_choice (tree : Nat) (c : Choice) :
    (Node.choice c).attachedVisits tree =
      c.branches.widgets.flatMap fun w => (Node.widget w).attachedVisits tree := by
  rw [attachedVisits, Node.links, List.flatMap_map, List.filter_flatMap]
  refine List.flatMap_congr fun w _ => ?_
  exact Node.filter_visits tree _ none (.widget w)

/-- Each node in a property is attached once, in the order of the visits. -/
theorem Node.forall₂_attaches (settings : Settings) (nodes : List Node) (tree : Nat) (n : Node)
    (h : n.walk ⊆ nodes) :
    List.Forall₂ (Statement.Attaches settings nodes)
      ((n.assign settings).filter (·.isAttachment)) (n.attachedVisits tree) := by
  induction n using Node.induction with
  | step n ih =>
    have hbelow : ∀ m ∈ n.children, List.Forall₂ (Statement.Attaches settings nodes)
        ((m.assign settings).filter (·.isAttachment)) (m.attachedVisits tree) := fun m hm =>
      ih m hm (List.Subset.trans (Node.walk_subset_of_mem_children hm) h)
    cases n with
    | widget w =>
      rw [Node.assign_widget, Node.attachedVisits_widget, List.filter_flatMap]
      refine forall₂_flatMap fun p hp => ?_
      have happly : ((p.application? w.handle).toList.map Statement.apply).filter
          (·.isAttachment) = [] := by
        cases p.application? w.handle <;> rfl
      rw [Property.assign, List.filter_append, happly, List.nil_append, Property.attachBelow]
      cases hm : p.payload.node? with
      | none => exact .nil
      | some m =>
        have hchild : m ∈ (Node.widget w).children := List.mem_filterMap.mpr ⟨p, hp, hm⟩
        have hself : Node.widget w ∈ nodes := h (Node.self_mem_walk _)
        simp only [Option.toList_some, List.flatMap_cons, List.flatMap_nil, List.append_nil]
        exact .cons ⟨w, p, hself, rfl, rfl, hp, hm, rfl⟩ (hbelow m hchild)
    | choice c =>
      rw [Node.assign_choice, Node.attachedVisits_choice]
      show List.Forall₂ _ ((c.branches.widgets.flatMap (Widget.assign settings)).filter _) _
      rw [List.filter_flatMap]
      exact forall₂_flatMap fun w hw => hbelow (.widget w) (List.mem_map_of_mem hw)

theorem Component.forall₂_attaches (settings : Settings) (c : Component) :
    List.Forall₂ (Statement.Attaches settings c.walk)
      ((c.assigns settings).filter (·.isAttachment))
      (c.visits.filter (·.property.isSome)) := by
  have h (trees : List Widget) (i : Nat) (htrees : ∀ w ∈ trees, w.walk ⊆ c.walk) :
      List.Forall₂ (Statement.Attaches settings c.walk)
        ((trees.flatMap (Widget.assign settings)).filter (·.isAttachment))
        (((trees.zipIdx i).flatMap fun tree => tree.1.visits tree.2 none none).filter
          (·.property.isSome)) := by
    induction trees generalizing i with
    | nil => exact .nil
    | cons w ws ih =>
      have hfirst := Node.forall₂_attaches settings c.walk i (.widget w) (htrees w List.mem_cons_self)
      have hmore := ih (i + 1) fun v hv => htrees v (List.mem_cons_of_mem w hv)
      have hvisits := Node.filter_visits i none none (.widget w)
      rw [List.zipIdx_cons, List.flatMap_cons, List.filter_append, List.flatMap_cons,
        List.filter_append]
      refine List.rel_append ?_ hmore
      exact hvisits ▸ hfirst
  exact h c.trees 0 fun w hw n hn => List.mem_flatMap.mpr ⟨w, hw, hn⟩

end ViewTree
