import Mathlib.Data.List.Nodup
import ViewTree.Code.Statement
import ViewTree.Proofs.Collecting
import ViewTree.Tree.Naming

/-!
The trees of a component as trees of nodes. Main statements: what goes up from the children of a
node to the node holds of every node (`Node.induction`), and walking or visiting a tree takes each
node before what hangs on it (`Node.walk_eq`, `Component.map_node_visits`).
-/
namespace ViewTree

/-- The node that a property holds. -/
def Payload.node? : Payload → Option Node
  | .child _ w => some (.widget w)
  | .choice _ c => some (.choice c)
  | .method _ | .binding _ | .connection _ _ _ => none

namespace Node

def children : Node → List Node
  | .widget w => w.properties.filterMap (·.payload.node?)
  | .choice c => c.branches.widgets.map .widget

def walk : Node → List Node
  | .widget w => w.walk
  | .choice c => c.walk

end Node

mutual

theorem Widget.node_induction {P : Node → Prop} (step : ∀ n, (∀ m ∈ n.children, P m) → P n) :
    (w : Widget) → P (.widget w)
  | ⟨name, construction, isRoot, doc, place, properties⟩ =>
    step (.widget ⟨name, construction, isRoot, doc, place, properties⟩)
      (Property.node_induction step properties)

theorem Property.node_induction {P : Node → Prop} (step : ∀ n, (∀ m ∈ n.children, P m) → P n) :
    (ps : List Property) → ∀ m ∈ ps.filterMap (·.payload.node?), P m
  | [] => by simp
  | ⟨name, modifiers, place, payload⟩ :: more => by
    intro m hm
    have hpayload := Payload.node_induction step payload
    have hmore := Property.node_induction step more
    rw [List.filterMap_cons] at hm
    split at hm
    · exact hmore m hm
    · rename_i found hfound
      rcases List.mem_cons.mp hm with rfl | hm
      · exact hpayload m hfound
      · exact hmore m hm

theorem Payload.node_induction {P : Node → Prop} (step : ∀ n, (∀ m ∈ n.children, P m) → P n) :
    (p : Payload) → ∀ m, p.node? = some m → P m
  | .method _ | .binding _ | .connection _ _ _ => by simp [Payload.node?]
  | .child _ widget => by
    rintro m ⟨⟩
    exact Widget.node_induction step widget
  | .choice _ choice => by
    rintro m ⟨⟩
    exact Choice.node_induction step choice

theorem Choice.node_induction {P : Node → Prop} (step : ∀ n, (∀ m ∈ n.children, P m) → P n) :
    (c : Choice) → P (.choice c)
  | ⟨name, transition, doc, place, branches⟩ =>
    step (.choice ⟨name, transition, doc, place, branches⟩) (by
      intro m hm
      obtain ⟨w, hw, rfl⟩ := List.mem_map.mp hm
      exact Branches.node_induction step branches w hw)

theorem Branches.node_induction {P : Node → Prop} (step : ∀ n, (∀ m ∈ n.children, P m) → P n) :
    (b : Branches) → ∀ w ∈ b.widgets, P (.widget w)
  | .chain ⟨_, widget, _⟩ others last _ => by
    have hfirst := Widget.node_induction step widget
    have hothers := Branch.node_induction step others
    have hlast := Widget.node_induction step last
    intro w hw
    simp only [Branches.widgets, List.mem_append, List.mem_cons, List.not_mem_nil,
      or_false] at hw
    rcases hw with (rfl | hw) | rfl
    · exact hfirst
    · exact hothers w hw
    · exact hlast
  | .cases _ arms => CaseArm.node_induction step arms

theorem Branch.node_induction {P : Node → Prop} (step : ∀ n, (∀ m ∈ n.children, P m) → P n) :
    (bs : List Branch) → ∀ w ∈ bs.map (·.widget), P (.widget w)
  | [] => by simp
  | ⟨_, widget, _⟩ :: more => by
    have hfirst := Widget.node_induction step widget
    have hmore := Branch.node_induction step more
    intro w hw
    rcases List.mem_cons.mp hw with rfl | hw
    · exact hfirst
    · exact hmore w hw

theorem CaseArm.node_induction {P : Node → Prop} (step : ∀ n, (∀ m ∈ n.children, P m) → P n) :
    (as : List CaseArm) → ∀ w ∈ as.map (·.widget), P (.widget w)
  | [] => by simp
  | ⟨_, widget⟩ :: more => by
    have hfirst := Widget.node_induction step widget
    have hmore := CaseArm.node_induction step more
    intro w hw
    rcases List.mem_cons.mp hw with rfl | hw
    · exact hfirst
    · exact hmore w hw

end

/-- Every node has what each node has whose children have it. -/
theorem Node.induction {P : Node → Prop} (step : ∀ n, (∀ m ∈ n.children, P m) → P n) (n : Node) :
    P n := by
  cases n with
  | widget w => exact Widget.node_induction step w
  | choice c => exact Choice.node_induction step c

/-- A function that takes the trees of the branches in order. -/
theorem Branches.flatMap_widgets {β : Type} {all : Branches → List β}
    {branches : List Branch → List β} {arms : List CaseArm → List β} {f : Widget → List β}
    (chain : ∀ first others last place,
      all (.chain first others last place) = f first.widget ++ branches others ++ f last)
    (cases : ∀ subject as, all (.cases subject as) = arms as) (noBranch : branches [] = [])
    (branch : ∀ b bs, branches (b :: bs) = f b.widget ++ branches bs) (noArm : arms [] = [])
    (arm : ∀ a as, arms (a :: as) = f a.widget ++ arms as) (b : Branches) :
    all b = b.widgets.flatMap f := by
  have hbranches (bs : List Branch) : branches bs = bs.flatMap (f ·.widget) :=
    flatMap_of_cons noBranch branch bs
  have harms (as : List CaseArm) : arms as = as.flatMap (f ·.widget) :=
    flatMap_of_cons noArm arm as
  cases b with
  | chain first others last place =>
    simp [chain, hbranches, Branches.widgets, List.flatMap_map]
  | cases subject as => simp [cases, harms, Branches.widgets, List.flatMap_map]

theorem Branches.walk_eq (b : Branches) : b.walk = b.widgets.flatMap Widget.walk :=
  flatMap_widgets (fun ⟨_, _, _⟩ _ _ _ => rfl) (fun _ _ => rfl) rfl (fun ⟨_, _, _⟩ _ => rfl) rfl
    (fun ⟨_, _⟩ _ => rfl) b

theorem Payload.walk_eq (p : Payload) : p.walk = p.node?.toList.flatMap Node.walk := by
  cases p <;> simp [Payload.walk, Payload.node?, Node.walk]

theorem Property.walkAll_eq (ps : List Property) :
    Property.walkAll ps = (ps.filterMap (·.payload.node?)).flatMap Node.walk := by
  induction ps with
  | nil => rfl
  | cons p ps ih =>
    obtain ⟨name, modifiers, place, payload⟩ := p
    rw [Property.walkAll, ih, Payload.walk_eq, List.filterMap_cons]
    cases payload.node? <;> simp

/-- A walk takes a node first and then walks its children in order. -/
theorem Node.walk_eq (n : Node) : n.walk = n :: n.children.flatMap Node.walk := by
  cases n with
  | widget w =>
    obtain ⟨name, construction, isRoot, doc, place, properties⟩ := w
    exact congrArg (_ :: ·) (Property.walkAll_eq properties)
  | choice c =>
    obtain ⟨name, transition, doc, place, branches⟩ := c
    refine congrArg (_ :: ·) ?_
    rw [Branches.walk_eq, Node.children, List.flatMap_map]
    rfl

theorem Node.self_mem_walk (n : Node) : n ∈ n.walk := by
  rw [Node.walk_eq]
  exact List.mem_cons_self

theorem Node.walk_subset_of_mem_children {m n : Node} (h : m ∈ n.children) : m.walk ⊆ n.walk := by
  intro x hx
  rw [Node.walk_eq n]
  exact List.mem_cons_of_mem _ (List.mem_flatMap.mpr ⟨m, h, hx⟩)

def Node.visits (tree : Nat) (parent : Option String) (property : Option Property) :
    Node → List Visit
  | .widget w => w.visits tree parent property
  | .choice c => c.visits tree parent property

/-- The children of a node with the properties that hold them. -/
def Node.links : Node → List (Option Property × Node)
  | .widget w => w.properties.filterMap fun p => p.payload.node?.map (some p, ·)
  | .choice c => c.branches.widgets.map (none, .widget ·)

theorem Node.map_snd_links (n : Node) : n.links.map (·.2) = n.children := by
  cases n with
  | widget w =>
    simp only [Node.links, Node.children, List.map_filterMap]
    congr 1
    funext p
    cases p.payload.node? <;> rfl
  | choice c => simp [Node.links, Node.children]

theorem Branches.visits_eq (tree : Nat) (parent : Option String) (b : Branches) :
    b.visits tree parent = b.widgets.flatMap (Widget.visits tree parent none) :=
  flatMap_widgets (fun ⟨_, _, _⟩ _ _ _ => rfl) (fun _ _ => rfl) rfl (fun ⟨_, _, _⟩ _ => rfl) rfl
    (fun ⟨_, _⟩ _ => rfl) b

theorem Property.visitsAll_eq (tree : Nat) (parent : Option String) (ps : List Property) :
    Property.visitsAll tree parent ps =
      (ps.filterMap fun p => p.payload.node?.map (some p, ·)).flatMap
        fun (property, n) => n.visits tree parent property := by
  induction ps with
  | nil => rfl
  | cons p ps ih =>
    obtain ⟨name, modifiers, place, payload⟩ := p
    rw [Property.visitsAll, ih, List.filterMap_cons]
    cases payload <;> simp [Payload.visits, Payload.node?, Node.visits]

/-- A visit of a node comes first, then those below it, each with the node's name around it. -/
theorem Node.visits_eq (tree : Nat) (parent : Option String) (property : Option Property)
    (n : Node) : n.visits tree parent property =
      ⟨n, tree, parent, property⟩ ::
        n.links.flatMap fun (property, m) => m.visits tree n.name? property := by
  cases n with
  | widget w =>
    obtain ⟨name, construction, isRoot, doc, place, properties⟩ := w
    exact congrArg (_ :: ·) (Property.visitsAll_eq tree name.get? properties)
  | choice c =>
    obtain ⟨name, transition, doc, place, branches⟩ := c
    refine congrArg (_ :: ·) ?_
    rw [Branches.visits_eq, Node.links, List.flatMap_map]
    rfl

theorem Node.map_node_visits (n : Node) (tree : Nat) (parent : Option String)
    (property : Option Property) :
    (n.visits tree parent property).map (·.node) = n.walk := by
  induction n using Node.induction generalizing parent property with
  | step n ih =>
    rw [Node.visits_eq, Node.walk_eq, ← Node.map_snd_links, List.map_cons, List.map_flatMap,
      List.flatMap_map]
    refine congrArg (n :: ·) (List.flatMap_congr fun link hlink => ?_)
    refine ih link.2 ?_ n.name? link.1
    rw [← Node.map_snd_links]
    exact List.mem_map_of_mem hlink

theorem Node.tree_of_mem_visits {n : Node} {tree : Nat} {parent : Option String}
    {property : Option Property} {v : Visit} (h : v ∈ n.visits tree parent property) :
    v.tree = tree := by
  induction n using Node.induction generalizing parent property with
  | step n ih =>
    rw [Node.visits_eq] at h
    rcases List.mem_cons.mp h with rfl | h
    · rfl
    · obtain ⟨link, hlink, h⟩ := List.mem_flatMap.mp h
      exact ih link.2 (Node.map_snd_links n ▸ List.mem_map_of_mem hlink) h

namespace Component

/-- The tree with number `i` holds the node. -/
def InTree (c : Component) (i : Nat) (n : Node) : Prop := ∃ w, c.trees[i]? = some w ∧ n ∈ w.walk

theorem map_node_visits (c : Component) : c.visits.map (·.node) = c.walk := by
  have h (trees : List Widget) (i : Nat) :
      ((trees.zipIdx i).flatMap fun tree => tree.1.visits tree.2 none none).map (·.node) =
        trees.flatMap Widget.walk := by
    induction trees generalizing i with
    | nil => rfl
    | cons w ws ih =>
      rw [List.zipIdx_cons, List.flatMap_cons, List.map_append, ih, List.flatMap_cons]
      exact congrArg (· ++ _) (Node.map_node_visits (.widget w) i none none)
  exact h c.trees 0

theorem exists_visit {c : Component} {n : Node} (h : n ∈ c.walk) : ∃ v ∈ c.visits, v.node = n :=
  List.mem_map.mp (c.map_node_visits ▸ h)

theorem node_mem_walk {c : Component} {v : Visit} (h : v ∈ c.visits) : v.node ∈ c.walk :=
  c.map_node_visits ▸ List.mem_map_of_mem h

theorem inTree_of_mem_visits {c : Component} {v : Visit} (h : v ∈ c.visits) :
    c.InTree v.tree v.node := by
  obtain ⟨⟨w, i⟩, htree, hv⟩ := List.mem_flatMap.mp h
  have hi : v.tree = i := Node.tree_of_mem_visits (n := .widget w) hv
  refine ⟨w, ?_, ?_⟩
  · rw [hi]
    exact List.mem_zipIdx_iff_getElem?.mp htree
  · have hwalk : v.node ∈ (Node.widget w).walk := by
      rw [← Node.map_node_visits (.widget w) i none none]
      exact List.mem_map_of_mem hv
    exact hwalk

/-- A node that comes once in the component is in one tree only. -/
theorem eq_of_inTree {c : Component} (h : c.walk.Nodup) {n : Node} {i j : Nat}
    (hi : c.InTree i n) (hj : c.InTree j n) : i = j := by
  obtain ⟨w, hw, hn⟩ := hi
  obtain ⟨u, hu, hm⟩ := hj
  obtain ⟨hlt, rfl⟩ := List.getElem?_eq_some_iff.mp hw
  obtain ⟨hlt', rfl⟩ := List.getElem?_eq_some_iff.mp hu
  have hdisjoint := List.pairwise_iff_getElem.mp (List.nodup_flatMap.mp h).2
  rcases Nat.lt_trichotomy i j with hij | hij | hij
  · exact (hdisjoint i j hlt hlt' hij hn hm).elim
  · exact hij
  · exact (hdisjoint j i hlt' hlt hij hm hn).elim

theorem mem_propertyVisits {c : Component} {v : Visit} {p : Property} :
    (v, p) ∈ c.propertyVisits ↔ v ∈ c.visits ∧ p ∈ v.node.properties := by
  simp [propertyVisits]

end Component
end ViewTree
