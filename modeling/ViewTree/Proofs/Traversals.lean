import Mathlib.Data.List.Lex
import ViewTree.Proofs.Building
import ViewTree.Proofs.Naming
import ViewTree.Proofs.Steps

/-!
The passes over a component side by side. Each of them goes through the trees by a recursion of its own;
a script for each node says what it writes there and where it goes on. Main statements: the visits are
those of the nodes at all addresses, in the order of the addresses (`Component.addressed_visits`), a pass
whose scripts go on at the children of each node enters the nodes of the walk (`Act.runs_iff`), and so
all passes meet the same nodes in the same order (`Component.traversals_agree`).
-/
namespace ViewTree

/-- The node at an address, which numbers the child to go on at on each level. -/
def Node.at? : List Nat → Node → Option Node
  | [], n => some n
  | i :: address, n => n.children[i]?.bind (Node.at? address)

/-- The node at an address in several trees, whose first number is that of the tree. -/
def Node.among? (ns : List Node) : List Nat → Option Node
  | [] => none
  | i :: address => ns[i]?.bind (Node.at? address)

def Component.at? (c : Component) : List Nat → Option Node := Node.among? (c.trees.map .widget)

/-- The items go, one by one and in order, with all addresses at which there is a node. -/
def Addressed {β : Type} (at? : List Nat → Option Node) (R : List Nat → β → Prop) (items : List β) :
    Prop :=
  ∃ addresses : List (List Nat), addresses.Pairwise (· < ·) ∧
    (∀ address, address ∈ addresses ↔ (at? address).isSome) ∧ List.Forall₂ R addresses items

namespace Addressed
variable {β : Type}

theorem mono {at? : List Nat → Option Node} {R S : List Nat → β → Prop} {items : List β}
    (h : Addressed at? R items) (himp : ∀ address item, R address item → S address item) :
    Addressed at? S items := by
  obtain ⟨addresses, hsorted, hall, hitems⟩ := h
  exact ⟨addresses, hsorted, hall, hitems.imp himp⟩

/-- A node comes before what is below it. -/
theorem node {n : Node} {R : List Nat → β → Prop} {item : β} {items : List β} (hself : R [] item)
    (h : Addressed (Node.among? n.children) R items) :
    Addressed (Node.at? · n) R (item :: items) := by
  obtain ⟨addresses, hsorted, hall, hitems⟩ := h
  refine ⟨[] :: addresses, List.pairwise_cons.mpr ⟨fun address haddress => ?_, hsorted⟩,
    fun address => ?_, .cons hself hitems⟩
  · cases address with
    | nil => exact absurd ((hall []).mp haddress) nofun
    | cons i address => exact List.nil_lt_cons i address
  · cases address with
    | nil => simp [Node.at?]
    | cons i address =>
      rw [List.mem_cons, hall]
      exact or_iff_right nofun

theorem nil (R : List Nat → β → Prop) : Addressed (Node.among? []) R [] := by
  refine ⟨[], .nil, fun address => ?_, .nil⟩
  cases address <;> simp [Node.among?]

/-- The address in the trees behind the first one. -/
def shift : List Nat → List Nat
  | [] => []
  | i :: address => (i + 1) :: address

theorem shift_lt {a b : List Nat} (h : a < b) : shift a < shift b := by
  cases b with
  | nil => exact absurd h (List.not_lt_nil a)
  | cons j b =>
    cases a with
    | nil => exact List.nil_lt_cons _ _
    | cons i a =>
      refine List.cons_lt_cons_iff.mpr ((List.cons_lt_cons_iff.mp h).imp Nat.succ_lt_succ ?_)
      exact And.imp_left (congrArg _)

theorem cons {n : Node} {ns : List Node} {R : List Nat → β → Prop} {items more : List β}
    (h : Addressed (Node.at? · n) (fun address => R (0 :: address)) items)
    (hmore : Addressed (Node.among? ns) (fun address => R (shift address)) more) :
    Addressed (Node.among? (n :: ns)) R (items ++ more) := by
  obtain ⟨addresses, hsorted, hall, hitems⟩ := h
  obtain ⟨others, hothers, hrest, hlater⟩ := hmore
  refine ⟨addresses.map (0 :: ·) ++ others.map shift, ?_, fun address => ?_,
    List.rel_append (List.forall₂_map_left_iff.mpr hitems) (List.forall₂_map_left_iff.mpr hlater)⟩
  · refine List.pairwise_append.mpr
      ⟨List.pairwise_map.mpr (hsorted.imp List.cons_lt_cons_self.mpr),
        List.pairwise_map.mpr (hothers.imp shift_lt), fun a ha b hb => ?_⟩
    obtain ⟨path, -, rfl⟩ := List.mem_map.mp ha
    obtain ⟨address, hmem, rfl⟩ := List.mem_map.mp hb
    cases address with
    | nil => exact absurd ((hrest []).mp hmem) nofun
    | cons j b => exact List.cons_lt_cons_iff.mpr (.inl (Nat.succ_pos j))
  · rw [List.mem_append, List.mem_map, List.mem_map]
    match address with
    | [] =>
      refine iff_of_false ?_ nofun
      rintro (⟨path, -, hpath⟩ | ⟨path, hmem, hpath⟩)
      · nomatch hpath
      · cases path with
        | nil => exact absurd ((hrest []).mp hmem) nofun
        | cons j path => nomatch hpath
    | 0 :: address =>
      show _ ↔ (Node.at? address n).isSome
      rw [← hall]
      refine ⟨?_, fun h => .inl ⟨address, h, rfl⟩⟩
      rintro (⟨path, hmem, hpath⟩ | ⟨path, -, hpath⟩)
      · exact (List.cons.inj hpath).2 ▸ hmem
      · cases path <;> nomatch hpath
    | (j + 1) :: address =>
      show _ ↔ (Node.among? ns (j :: address)).isSome
      rw [← hrest]
      refine ⟨?_, fun h => .inr ⟨j :: address, h, rfl⟩⟩
      rintro (⟨path, -, hpath⟩ | ⟨path, hmem, hpath⟩)
      · nomatch hpath
      · cases path with
        | nil => nomatch hpath
        | cons i path =>
          obtain ⟨hi, rfl⟩ := List.cons.inj hpath
          exact Nat.succ.inj hi ▸ hmem

end Addressed

/-- The visit is that of the node at the address, in the tree with the number, and has the name of the
node one level up; at the top it has the name given. -/
structure Visit.IsAt (at? : List Nat → Option Node) (tree : Nat) (top : Option String)
    (address : List Nat) (v : Visit) : Prop where
  node : at? address = some v.node
  tree_eq : v.tree = tree
  parent : v.parent = if address = [] then top else (at? address.dropLast).bind Node.name?

theorem Visit.IsAt.below {n m : Node} {i tree : Nat} (hm : n.children[i]? = some m) {v : Visit}
    {address : List Nat} (h : v.IsAt (Node.at? · m) tree n.name? address) (top : Option String) :
    v.IsAt (Node.at? · n) tree top (i :: address) where
  node := by rw [Node.at?, hm, Option.bind_some, h.node]
  tree_eq := h.tree_eq
  parent := by
    rw [h.parent, if_neg (List.cons_ne_nil i address)]
    cases address with
    | nil => rfl
    | cons j address =>
      rw [if_neg (List.cons_ne_nil j address), List.dropLast_cons_cons, Node.at?, hm, Option.bind_some]

/-- What the trees give one after the other is addressed if what each of them gives is. -/
theorem Addressed.flatMap_zipIdx {β γ : Type} (node : γ → Node) (items : γ × Nat → List β) (xs : List γ)
    (k : Nat) {R : List Nat → β → Prop} (h : ∀ i x, xs[i]? = some x →
      Addressed (Node.at? · (node x)) (fun a => R (i :: a)) (items (x, k + i))) :
    Addressed (Node.among? (xs.map node)) R ((xs.zipIdx k).flatMap items) := by
  induction xs generalizing R k with
  | nil => exact .nil R
  | cons x xs ih =>
    refine .cons (h 0 x rfl) (ih (k + 1) fun i y hy => ?_)
    rw [Nat.add_assoc, Nat.add_comm 1]
    exact h (i + 1) y hy

theorem Node.addressed_visits (n : Node) (tree : Nat) (parent : Option String)
    (property : Option Property) :
    Addressed (Node.at? · n) (fun a v => v.IsAt (Node.at? · n) tree parent a)
      (n.visits tree parent property) := by
  induction n using Node.induction generalizing parent property with
  | step n ih =>
    have hlinks := Addressed.flatMap_zipIdx (·.2)
      (fun link => link.1.2.visits tree n.name? link.1.1) n.links 0
      (R := fun a v => v.IsAt (Node.at? · n) tree parent a) fun i link hlink => by
        have hchild : n.children[i]? = some link.2 := by
          rw [← Node.map_snd_links, List.getElem?_map, hlink]
          rfl
        exact (ih link.2 (List.mem_of_getElem? hchild) n.name? link.1).mono
          fun address v hv => hv.below hchild parent
    have hsame : (n.links.zipIdx.flatMap fun link => link.1.2.visits tree n.name? link.1.1) =
        n.links.flatMap fun link => link.2.visits tree n.name? link.1 := by
      rw [← List.zipIdx_map_fst 0 n.links, List.flatMap_map, List.zipIdx_map_fst]
    rw [Node.map_snd_links, hsame] at hlinks
    rw [Node.visits_eq]
    exact .node ⟨rfl, rfl, rfl⟩ hlinks

namespace Component

/-- The visit is that of the node at the address, in the tree that the address starts with, and has the
name of the node one level up, or none at the top. -/
structure Locates (c : Component) (address : List Nat) (v : Visit) : Prop where
  node : c.at? address = some v.node
  tree : address.head? = some v.tree
  parent : v.parent = (c.at? address.dropLast).bind Node.name?

/-- The visits of a component are those of the nodes at all addresses, in order. -/
theorem addressed_visits (c : Component) : Addressed c.at? c.Locates c.visits := by
  refine .flatMap_zipIdx .widget _ c.trees 0 fun i w hw => ?_
  refine (Node.addressed_visits (.widget w) (0 + i) none none).mono fun address v hv => ?_
  have hat (path : List Nat) : c.at? (i :: path) = (Node.widget w).at? path := by
    rw [Component.at?, Node.among?, List.getElem?_map, hw]
    rfl
  refine ⟨(hat address).trans hv.node, ?_, ?_⟩
  · rw [hv.tree_eq, Nat.zero_add]
    rfl
  · rw [hv.parent]
    cases address with
    | nil => rfl
    | cons j address =>
      rw [if_neg (List.cons_ne_nil j address), List.dropLast_cons_cons, hat]

end Component

theorem Node.mem_walk_of_at? {address : List Nat} {n m : Node} (h : n.at? address = some m) :
    m ∈ n.walk := by
  induction address generalizing n with
  | nil =>
    obtain rfl := Option.some.inj h
    exact n.self_mem_walk
  | cons i address ih =>
    obtain ⟨k, hk, hm⟩ := Option.bind_eq_some_iff.mp h
    exact Node.walk_subset_of_mem_children (List.mem_of_getElem? hk) (ih hm)

/-- There is a node at each beginning of an address. -/
theorem Node.isSome_at?_dropLast {address : List Nat} {n : Node} (h : (n.at? address).isSome) :
    (n.at? address.dropLast).isSome := by
  induction address generalizing n with
  | nil => rfl
  | cons i address ih =>
    cases address with
    | nil => rfl
    | cons j address =>
      rw [Node.at?] at h
      rw [List.dropLast_cons_cons, Node.at?]
      cases hm : n.children[i]? with
      | none =>
        rw [hm] at h
        nomatch h
      | some m =>
        rw [hm] at h
        exact ih h

namespace Component

theorem mem_walk_of_at? {c : Component} {address : List Nat} {n : Node}
    (h : c.at? address = some n) : n ∈ c.walk := by
  cases address with
  | nil => nomatch h
  | cons i address =>
    obtain ⟨m, hm, hn⟩ := Option.bind_eq_some_iff.mp h
    rw [List.getElem?_map] at hm
    obtain ⟨w, hw, rfl⟩ := Option.map_eq_some_iff.mp hm
    exact List.mem_flatMap.mpr ⟨w, List.mem_of_getElem? hw, Node.mem_walk_of_at? hn⟩

/-- Where every node has a name, a visit without one around it is at the top. -/
theorem Locates.parent_eq_none_iff {c : Component} (hnamed : ∀ n ∈ c.walk, n.name?.isSome)
    {address : List Nat} {v : Visit} (h : c.Locates address v) :
    v.parent = none ↔ address.length = 1 := by
  rw [h.parent]
  match address, h.node with
  | [i], _ => exact iff_of_true rfl rfl
  | i :: j :: path, hnode =>
    obtain ⟨m, hm, hbelow⟩ := Option.bind_eq_some_iff.mp hnode
    obtain ⟨k, hk⟩ := Option.isSome_iff_exists.mp
      (Node.isSome_at?_dropLast (Option.isSome_iff_exists.mpr ⟨_, hbelow⟩))
    have habove : c.at? (i :: j :: path).dropLast = some k := by
      rw [List.dropLast_cons_cons, Component.at?, Node.among?, hm]
      exact hk
    have hname := hnamed k (mem_walk_of_at? habove)
    rw [habove, Option.bind_some]
    refine iff_of_false (fun hnone => ?_) (by simp)
    rw [hnone] at hname
    nomatch hname

end Component

/-- A pass writes something, or goes on at a node. -/
inductive Act (β : Type) where
  | write (item : β)
  | enter (node : Node)

namespace Act
variable {β : Type}

def node? : Act β → Option Node
  | write _ => none
  | enter n => some n

def items (out : Node → List β) : Act β → List β
  | write item => [item]
  | enter n => out n

/-- How a pass goes: an act that enters a node is followed by the script of the node and then by the
acts behind it. Nodes are entered and items written in this order. -/
inductive Runs (script : Node → List (Act β)) : List (Act β) → List Node → List β → Prop where
  | nil : Runs script [] [] []
  | write {item : β} {acts : List (Act β)} {entered : List Node} {written : List β}
      (h : Runs script acts entered written) :
      Runs script (.write item :: acts) entered (item :: written)
  | enter {n : Node} {acts : List (Act β)} {below entered : List Node} {inner written : List β}
      (hbelow : Runs script (script n) below inner) (h : Runs script acts entered written) :
      Runs script (.enter n :: acts) (n :: (below ++ entered)) (inner ++ written)

/-- The script of each node goes on at its children, in order, and is all that the pass writes from the
node on. -/
structure Covers (script : Node → List (Act β)) (out : Node → List β) : Prop where
  children : ∀ n, (script n).filterMap node? = n.children
  written : ∀ n, (script n).flatMap (items out) = out n

variable {script : Node → List (Act β)} {out : Node → List β}

theorem Covers.runs (h : Covers script out) (acts : List (Act β)) :
    Runs script acts ((acts.filterMap node?).flatMap Node.walk) (acts.flatMap (items out)) := by
  -- a script runs as soon as what it enters does
  have hacts (acts : List (Act β)) (hnodes : ∀ n ∈ acts.filterMap node?,
      Runs script (script n) (n.children.flatMap Node.walk) (out n)) :
      Runs script acts ((acts.filterMap node?).flatMap Node.walk) (acts.flatMap (items out)) := by
    induction acts with
    | nil => exact .nil
    | cons act acts ih =>
      cases act with
      | write item => exact .write (ih hnodes)
      | enter n =>
        obtain ⟨hn, hmore⟩ := List.forall_mem_cons.mp hnodes
        rw [List.filterMap_cons_some (f := node?) rfl, List.flatMap_cons, List.flatMap_cons,
          Node.walk_eq]
        exact .enter hn (ih hmore)
  have hnode (n : Node) : Runs script (script n) (n.children.flatMap Node.walk) (out n) := by
    induction n using Node.induction with
    | step n ih =>
      have hscript := hacts (script n) (h.children n ▸ ih)
      rwa [h.children, h.written] at hscript
  exact hacts acts fun n _ => hnode n

theorem Runs.unique {acts : List (Act β)} {entered entered' : List Node} {written written' : List β}
    (h : Runs script acts entered written) (h' : Runs script acts entered' written') :
    entered = entered' ∧ written = written' := by
  induction h generalizing entered' written' with
  | nil =>
    cases h'
    exact ⟨rfl, rfl⟩
  | write _ ih =>
    cases h' with
    | write h' =>
      obtain ⟨rfl, rfl⟩ := ih h'
      exact ⟨rfl, rfl⟩
  | enter _ _ ihbelow ih =>
    cases h' with
    | enter hbelow' h' =>
      obtain ⟨rfl, rfl⟩ := ihbelow hbelow'
      obtain ⟨rfl, rfl⟩ := ih h'
      exact ⟨rfl, rfl⟩

/-- A pass whose scripts go on at the children enters the nodes of the walk. -/
theorem runs_iff (h : Covers script out) {acts : List (Act β)} {entered : List Node}
    {written : List β} : Runs script acts entered written ↔
      entered = (acts.filterMap node?).flatMap Node.walk ∧ written = acts.flatMap (items out) := by
  refine ⟨fun hruns => hruns.unique (h.runs acts), ?_⟩
  rintro ⟨rfl, rfl⟩
  exact h.runs acts

theorem filterMap_node?_write (items : List β) : (items.map write).filterMap node? = [] := by
  rw [List.filterMap_map]
  exact List.filterMap_eq_nil_iff.mpr fun _ _ => rfl

theorem filterMap_node?_enter (ns : List Node) : (ns.map (enter (β := β))).filterMap node? = ns := by
  rw [List.filterMap_map]
  exact List.filterMap_some

theorem flatMap_items_write (out : Node → List β) (written : List β) :
    (written.map write).flatMap (items out) = written := by
  rw [List.flatMap_map]
  exact List.flatMap_singleton' written

theorem flatMap_items_enter (out : Node → List β) (ns : List Node) :
    (ns.map enter).flatMap (items out) = ns.flatMap out := List.flatMap_map ..

end Act

open Act

/-- Building makes a widget before its children, and adds each branch behind its container when the
branch is built. -/
def buildScript : Node → List (Act Statement)
  | .widget w => w.buildSelf.map write ++ (Node.widget w).children.map enter
  | .choice c => write (.container c.name.text c.transition) ::
      c.branches.widgets.zipIdx.flatMap fun (w, i) =>
        [enter (.widget w), write (.addPage c.name.text w.handle i)]

/-- Properties are applied in order, and what is attached goes on with its own; the page of a choice is
chosen before its branches. -/
def assignScript (settings : Settings) : Node → List (Act Statement)
  | .widget w => w.properties.flatMap fun p =>
      (p.application? w.handle).toList.map (fun a => write (.apply a)) ++
        p.payload.node?.toList.flatMap fun m =>
          [write (.attach w.handle (Property.attachMethod settings w.construction p.name) m.handle
            p.payload.arguments?), enter m]
  | .choice c => write (.choosePage c.name.text c.branches) ::
      c.branches.widgets.map fun w => enter (.widget w)

/-- What refreshes is applied again in the same order. -/
def refreshScript : Node → List (Act Step)
  | .widget w => w.properties.flatMap fun p =>
      ((Step.ofProperty w p).filter (·.refreshes)).map write ++ p.payload.node?.toList.map enter
  | .choice c => write (.select c) :: c.branches.widgets.map fun w => enter (.widget w)

theorem filterMap_node?_widgets {β : Type} (ws : List Widget) :
    (ws.map fun w => enter (β := β) (.widget w)).filterMap node? = ws.map .widget := by
  rw [← filterMap_node?_enter (β := β) (ws.map .widget), List.map_map]
  rfl

theorem flatMap_items_widgets {β : Type} (out : Node → List β) (ws : List Widget) :
    (ws.map fun w => enter (.widget w)).flatMap (items out) = ws.flatMap fun w => out (.widget w) :=
  List.flatMap_map ..

theorem filterMap_properties {β : Type} {w : Widget} {acts : Property → List (Act β)}
    (h : ∀ p, (acts p).filterMap node? = p.payload.node?.toList) :
    (w.properties.flatMap acts).filterMap node? = (Node.widget w).children := by
  rw [List.filterMap_flatMap, List.flatMap_congr fun p _ => h p, Node.children,
    List.filterMap_eq_flatMap_toList]

theorem covers_buildScript : Covers buildScript Node.build where
  children n := by
    cases n with
    | widget w =>
      rw [buildScript, List.filterMap_append, filterMap_node?_write, filterMap_node?_enter,
        List.nil_append]
    | choice c =>
      rw [buildScript, List.filterMap_cons_none rfl, List.filterMap_flatMap]
      show c.branches.widgets.zipIdx.flatMap (fun page => [Node.widget page.1]) = _
      rw [← List.map_eq_flatMap, ← Function.comp_def Node.widget, ← List.map_map,
        List.zipIdx_map_fst]
      rfl
  written n := by
    cases n with
    | widget w =>
      rw [buildScript, List.flatMap_append, flatMap_items_write, flatMap_items_enter,
        Node.build_widget]
    | choice c =>
      rw [buildScript, List.flatMap_cons, Node.build_choice, List.flatMap_assoc]
      rfl

theorem covers_assignScript (settings : Settings) :
    Covers (assignScript settings) (Node.assign settings) where
  children n := by
    cases n with
    | widget w =>
      refine filterMap_properties fun p => ?_
      cases p.payload.node? <;> cases p.application? w.handle <;> rfl
    | choice c => exact filterMap_node?_widgets _
  written n := by
    cases n with
    | widget w =>
      rw [assignScript, Node.assign_widget, List.flatMap_assoc]
      refine List.flatMap_congr fun p _ => ?_
      rw [Property.assign, Property.attachBelow]
      cases p.payload.node? <;> cases p.application? w.handle <;> rfl
    | choice c =>
      rw [assignScript, List.flatMap_cons, Node.assign_choice, flatMap_items_widgets]
      rfl

theorem covers_refreshScript : Covers refreshScript fun n => n.steps.filter (·.refreshes) where
  children n := by
    cases n with
    | widget w =>
      refine filterMap_properties fun p => ?_
      rw [List.filterMap_append, filterMap_node?_write, filterMap_node?_enter, List.nil_append]
    | choice c => exact filterMap_node?_widgets _
  written n := by
    cases n with
    | widget w =>
      rw [refreshScript, Node.steps_widget, List.flatMap_assoc, List.filter_flatMap]
      refine List.flatMap_congr fun p _ => ?_
      rw [List.flatMap_append, flatMap_items_write, flatMap_items_enter, List.filter_append,
        List.filter_flatMap]
    | choice c =>
      rw [refreshScript, List.flatMap_cons, flatMap_items_widgets, Node.steps_choice,
        List.filter_cons_of_pos rfl, List.filter_flatMap]
      rfl

/-- Where a pass over all trees starts. -/
def Act.trees {β : Type} (c : Component) : List (Act β) := c.trees.map fun w => enter (.widget w)

theorem Act.runs_trees_iff {β : Type} {script : Node → List (Act β)} {out : Node → List β}
    (h : Covers script out) (c : Component) {entered : List Node} {written : List β} :
    Runs script (Act.trees c) entered written ↔
      entered = c.walk ∧ written = c.trees.flatMap fun w => out (.widget w) := by
  rw [runs_iff h, Act.trees, filterMap_node?_widgets, flatMap_items_widgets, List.flatMap_map]
  rfl

/-- Connecting passes over the choices. -/
theorem Component.connects_eq (c : Component) : c.connects = do
    return (← (c.walk.filterMap Node.widget?).mapM fun w => do
      return (← w.properties.mapM (Property.connects c.sender? w.handle)).flatten).flatten := by
  rw [Component.connects]
  induction c.walk with
  | nil => rfl
  | cons n ns ih =>
    rw [flatten_mapM_cons, ih]
    cases n with
    | widget w =>
      rw [List.filterMap_cons_some (f := Node.widget?) rfl, flatten_mapM_cons]
      rfl
    | choice choice =>
      rw [List.filterMap_cons_none (f := Node.widget?) rfl]
      exact bind_pure (m := Except CodeProblem) _

/-- All passes over a component meet its nodes in the order of the walk. -/
theorem Component.traversals_agree (settings : Settings) (c : Component) :
    c.visits.map (·.node) = c.walk ∧
    Addressed c.at? c.Locates c.visits ∧
    Addressed (c.assignNames settings).at?
      (fun address v => (c.assignNames settings).Locates address v ∧
        (v.parent = none ↔ address.length = 1)) (c.assignNames settings).visits ∧
    (∀ entered written, Runs buildScript
        ((Node.widget c.root).children.map enter ++ c.trees.tail.map fun w => enter (.widget w))
        entered written ↔
      .widget c.root :: entered = c.walk ∧ written = c.otherBuilds) ∧
    (∀ entered written, Runs (assignScript settings) (Act.trees c) entered written ↔
      entered = c.walk ∧ written = c.assigns settings) ∧
    (∀ (v : View) (symbols : Symbols), ∃ steps, (∀ entered written,
      Runs refreshScript (Act.trees (.view v)) entered written ↔
        entered = (Component.view v).walk ∧ written = steps) ∧
      v.refreshes symbols = steps.mapM (Step.again ⟨v.model, symbols⟩)) ∧
    c.connects = do
      return (← (c.walk.filterMap Node.widget?).mapM fun w => do
        return (← w.properties.mapM (Property.connects c.sender? w.handle)).flatten).flatten := by
  have hbuild : ∀ entered written, Runs buildScript
        ((Node.widget c.root).children.map enter ++ c.trees.tail.map fun w => enter (.widget w))
        entered written ↔
      .widget c.root :: entered = c.walk ∧ written = c.otherBuilds := by
    intro entered written
    have htrees : c.trees = c.root :: c.trees.tail := by cases c <;> rfl
    have hwalk : c.walk = .widget c.root :: ((Node.widget c.root).children.flatMap Node.walk ++
        c.trees.tail.flatMap Widget.walk) := by
      rw [Component.walk, htrees, List.flatMap_cons]
      exact congrArg (· ++ _) (Node.walk_eq (.widget c.root))
    have hbuilds : c.otherBuilds = (Node.widget c.root).children.flatMap Node.build ++
        c.trees.tail.flatMap Widget.build := by
      rw [Component.otherBuilds, Property.buildAll_eq]
      rfl
    rw [runs_iff covers_buildScript, List.filterMap_append, filterMap_node?_enter,
      filterMap_node?_widgets, List.flatMap_append, List.flatMap_append, flatMap_items_enter,
      flatMap_items_widgets, List.flatMap_map, hwalk, List.cons_inj_right, hbuilds]
    rfl
  refine ⟨c.map_node_visits, c.addressed_visits, ?_, hbuild,
    fun entered written => Act.runs_trees_iff (covers_assignScript settings) c,
    fun v symbols => ⟨_, fun entered written => Act.runs_trees_iff covers_refreshScript _, ?_⟩,
    c.connects_eq⟩
  · exact (c.assignNames settings).addressed_visits.mono fun address v hv =>
      ⟨hv, hv.parent_eq_none_iff fun n hn => c.isNamed_assignNames settings hn⟩
  · rw [View.refreshes_eq, Step.redo, Component.steps, List.filter_flatMap]
    rfl

end ViewTree
