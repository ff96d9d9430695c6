import Mathlib.Data.List.Perm.Basic
import ViewTree.Code.InitRoutine
import ViewTree.Proofs.Nodes

/-!
What the building statements of a tree are. Main statements: leaving the pages out, they construct
the nodes of the walk in its order, prebound widgets excepted (`Node.filter_isConstruction_build`);
leaving the constructions out, they are the pages of all choices, each once
(`Node.perm_filter_isPage_build`); and what builds a node stands unbroken in what builds the tree
around it (`Node.build_infix`).
-/
namespace ViewTree

namespace Statement

/-- Whether the statement makes a widget or a container. -/
def isConstruction : Statement → Bool
  | build _ _ | container _ _ => true
  | _ => false

/-- Whether the statement adds a branch to its container. -/
def isPage : Statement → Bool
  | addPage _ _ _ => true
  | _ => false

end Statement

namespace Node

def construct : Node → Statement
  | widget w => .build w.name.text w.construction
  | choice c => .container c.name.text c.transition

def pages : Node → List Statement
  | widget _ => []
  | choice c => c.branches.widgets.zipIdx.map fun (w, i) => .addPage c.name.text w.handle i

def build : Node → List Statement
  | widget w => w.build
  | choice c => c.build

end Node

/-- Builds a branch and adds it under its number. -/
def Widget.buildPage (choice : String) (page : Widget × Nat) : List Statement :=
  page.1.build ++ [.addPage choice page.1.handle page.2]

theorem Branches.build_eq (choice : String) (b : Branches) :
    b.build choice = b.widgets.zipIdx.flatMap (Widget.buildPage choice) := by
  have hbranches (bs : List Branch) (i : Nat) : Branch.buildAll choice i bs =
      ((bs.map (·.widget)).zipIdx i).flatMap (Widget.buildPage choice) := by
    rw [List.zipIdx_map, List.flatMap_map]
    exact flatMap_zipIdx_of_cons (fun _ => rfl)
      (fun _ ⟨_, _, _⟩ _ => by simp [Branch.buildAll, Widget.buildPage]) i bs
  have harms (as : List CaseArm) (i : Nat) : CaseArm.buildAll choice i as =
      ((as.map (·.widget)).zipIdx i).flatMap (Widget.buildPage choice) := by
    rw [List.zipIdx_map, List.flatMap_map]
    exact flatMap_zipIdx_of_cons (fun _ => rfl)
      (fun _ ⟨_, _⟩ _ => by simp [CaseArm.buildAll, Widget.buildPage]) i as
  cases b with
  | chain first others last place =>
    obtain ⟨condition, widget, firstPlace⟩ := first
    simp [Branches.build, Branches.widgets, hbranches, List.zipIdx_cons, List.zipIdx_append,
      Widget.buildPage, Nat.add_comm]
  | cases subject arms => exact harms arms 0

theorem Property.buildAll_eq (ps : List Property) :
    Property.buildAll ps = (ps.filterMap (·.payload.node?)).flatMap Node.build := by
  induction ps with
  | nil => rfl
  | cons p ps ih =>
    obtain ⟨name, modifiers, place, payload⟩ := p
    rw [Property.buildAll, ih, List.filterMap_cons]
    cases payload <;> simp [Payload.build, Payload.node?, Node.build]

namespace Node

theorem build_widget (w : Widget) :
    (widget w).build = w.buildSelf ++ (widget w).children.flatMap build := by
  obtain ⟨name, construction, isRoot, doc, place, properties⟩ := w
  exact congrArg (_ ++ ·) (Property.buildAll_eq properties)

/-- A container is made before its pages, which are built and added one by one. -/
theorem build_choice (c : Choice) :
    (choice c).build = (choice c).construct ::
      c.branches.widgets.zipIdx.flatMap (Widget.buildPage c.name.text) := by
  obtain ⟨name, transition, doc, place, branches⟩ := c
  exact congrArg (_ :: ·) (Branches.build_eq name.text branches)

end Node

/-- What building a tree is made of. -/
inductive Statement.Builds : Statement → Prop
  | build (name : String) (construction : Construction) : Builds (.build name construction)
  | container (name : String) (transition : Option String) : Builds (.container name transition)
  | addPage (choice : String) (page : Handle) (index : Nat) : Builds (.addPage choice page index)

theorem Node.builds_of_mem_build {n : Node} {s : Statement} (hs : s ∈ n.build) : s.Builds := by
  induction n using Node.induction with
  | step n ih =>
    cases n with
    | widget w =>
      rw [Node.build_widget, Widget.buildSelf] at hs
      rcases List.mem_append.mp hs with hs | hs
      · split at hs
        · nomatch hs
        · obtain rfl := List.mem_singleton.mp hs
          exact .build w.name.text w.construction
      · obtain ⟨m, hm, hs⟩ := List.mem_flatMap.mp hs
        exact ih m hm hs
    | choice c =>
      rw [Node.build_choice] at hs
      rcases List.mem_cons.mp hs with rfl | hs
      · exact .container c.name.text c.transition
      · obtain ⟨page, hpage, hs⟩ := List.mem_flatMap.mp hs
        rcases List.mem_append.mp hs with hs | hs
        · exact ih (.widget page.1) (List.mem_map_of_mem (List.fst_mem_of_mem_zipIdx hpage)) hs
        · obtain rfl := List.mem_singleton.mp hs
          exact .addPage c.name.text page.1.handle page.2

theorem Widget.filter_isConstruction_buildSelf (w : Widget) :
    w.buildSelf.filter (·.isConstruction) =
      if w.construction.isPrebound then [] else [(Node.widget w).construct] := by
  unfold Widget.buildSelf
  split <;> rfl

/-- A list with its numbers, of which only the elements are used. -/
theorem flatMap_zipIdx_fst {α β : Type} (xs : List α) (f : α → List β) :
    xs.zipIdx.flatMap (fun x => f x.1) = xs.flatMap f := by
  have h := List.flatMap_map (·.1) f xs.zipIdx
  rw [List.zipIdx_map_fst] at h
  exact h.symm

/-- The constructions of a tree come in the order of its walk. -/
theorem Node.filter_isConstruction_build (n : Node) :
    n.build.filter (·.isConstruction) = (n.walk.filter (!·.isPrebound)).map Node.construct := by
  induction n using Node.induction with
  | step n ih =>
    rw [Node.walk_eq, List.filter_cons, List.filter_flatMap]
    have hbelow : n.children.flatMap (fun m => m.build.filter (·.isConstruction)) =
        (n.children.flatMap fun m => m.walk.filter (!·.isPrebound)).map Node.construct := by
      rw [List.map_flatMap]
      exact List.flatMap_congr ih
    cases n with
    | widget w =>
      rw [Node.build_widget, List.filter_append, List.filter_flatMap, hbelow,
        Widget.filter_isConstruction_buildSelf]
      cases hprebound : w.construction.isPrebound <;> simp [Node.isPrebound, hprebound]
    | choice c =>
      have hpages (page : Widget × Nat) :
          (Widget.buildPage c.name.text page).filter (·.isConstruction) =
            (Node.widget page.1).build.filter (·.isConstruction) := by
        rw [Widget.buildPage, List.filter_append]
        exact List.append_nil _
      rw [Node.build_choice, List.filter_cons, List.filter_flatMap]
      simp only [hpages]
      rw [flatMap_zipIdx_fst c.branches.widgets
        fun w => (Node.widget w).build.filter (·.isConstruction)]
      rw [Node.children, List.flatMap_map] at hbelow
      rw [hbelow]
      rfl

theorem Node.construct_mem_build {n m : Node} (hm : m ∈ n.walk) (h : m.isPrebound = false) :
    m.construct ∈ n.build := by
  have hmem : m.construct ∈ n.build.filter (·.isConstruction) := by
    rw [Node.filter_isConstruction_build]
    exact List.mem_map_of_mem (List.mem_filter.mpr ⟨hm, by simp [h]⟩)
  exact (List.mem_filter.mp hmem).1

/-- Each branch of each choice is added once, under its number. -/
theorem Node.perm_filter_isPage_build (n : Node) :
    (n.build.filter (·.isPage)).Perm (n.walk.flatMap Node.pages) := by
  induction n using Node.induction with
  | step n ih =>
    rw [Node.walk_eq, List.flatMap_cons, List.flatMap_assoc]
    have hbelow : (n.children.flatMap fun m => m.build.filter (·.isPage)).Perm
        (n.children.flatMap fun m => m.walk.flatMap Node.pages) :=
      List.Perm.flatMap_left _ ih
    cases n with
    | widget w =>
      have hself : w.buildSelf.filter (·.isPage) = [] := by
        unfold Widget.buildSelf
        split <;> rfl
      rw [Node.build_widget, List.filter_append, List.filter_flatMap, hself]
      exact hbelow
    | choice c =>
      have hpages (page : Widget × Nat) :
          (Widget.buildPage c.name.text page).filter (·.isPage) =
            (Node.widget page.1).build.filter (·.isPage) ++
              [.addPage c.name.text page.1.handle page.2] := by
        rw [Widget.buildPage, List.filter_append]
        rfl
      rw [Node.build_choice, List.filter_cons, List.filter_flatMap]
      simp only [hpages]
      rw [Node.children, List.flatMap_map] at hbelow
      have hsplit := List.flatMap_append_perm c.branches.widgets.zipIdx
        (fun page => (Node.widget page.1).build.filter (·.isPage))
        (fun page => [Statement.addPage c.name.text page.1.handle page.2])
      rw [flatMap_zipIdx_fst c.branches.widgets fun w => (Node.widget w).build.filter (·.isPage),
        ← List.map_eq_flatMap] at hsplit
      exact hsplit.symm.trans (List.perm_append_comm.trans (hbelow.append_left _))

theorem infix_flatMap {α β : Type} {x : α} {xs : List α} (h : x ∈ xs) (f : α → List β) :
    f x <:+: xs.flatMap f := by
  obtain ⟨before, after, rfl⟩ := List.append_of_mem h
  exact ⟨before.flatMap f, after.flatMap f, by simp⟩

theorem Widget.build_infix_buildPage (choice : String) (page : Widget × Nat) :
    page.1.build <:+: Widget.buildPage choice page := (List.prefix_append _ _).isInfix

/-- Where a choice is built, each of its pages is built as a whole and added at once. -/
theorem Choice.buildPage_infix {c : Choice} {page : Widget × Nat}
    (h : page ∈ c.branches.widgets.zipIdx) :
    Widget.buildPage c.name.text page <:+: (Node.choice c).build := by
  rw [Node.build_choice]
  exact (infix_flatMap h _).trans (List.suffix_cons _ _).isInfix

theorem Node.build_infix_of_mem_children {m n : Node} (h : m ∈ n.children) :
    m.build <:+: n.build := by
  cases n with
  | widget w =>
    rw [Node.build_widget]
    exact (infix_flatMap h Node.build).trans (List.suffix_append _ _).isInfix
  | choice c =>
    obtain ⟨w, hw, rfl⟩ := List.mem_map.mp h
    obtain ⟨i, hi⟩ := List.getElem?_of_mem hw
    have hpage := Choice.buildPage_infix (List.mk_mem_zipIdx_iff_getElem?.mpr hi)
    exact (Widget.build_infix_buildPage c.name.text (w, i)).trans hpage

/-- A node is built without interruption where the tree around it is built. -/
theorem Node.build_infix {m n : Node} (h : m ∈ n.walk) : m.build <:+: n.build := by
  induction n using Node.induction with
  | step n ih =>
    rw [Node.walk_eq] at h
    rcases List.mem_cons.mp h with rfl | h
    · exact List.infix_rfl
    · obtain ⟨k, hk, hm⟩ := List.mem_flatMap.mp h
      exact (ih k hk hm).trans (Node.build_infix_of_mem_children hk)

namespace Component

/-- What builds the root and what builds all else together build the trees. -/
theorem builds_eq (c : Component) :
    c.rootBuilds ++ c.otherBuilds = c.trees.flatMap Widget.build := by
  have hroot (w : Widget) : w.build = w.buildSelf ++ Property.buildAll w.properties := by
    cases w
    rfl
  have htrees : c.trees = c.root :: c.trees.tail := by cases c <;> rfl
  rw [rootBuilds, otherBuilds, ← List.append_assoc, ← hroot, htrees]
  rfl

theorem builds_of_mem_builds {c : Component} {s : Statement}
    (hs : s ∈ c.rootBuilds ++ c.otherBuilds) : s.Builds := by
  rw [builds_eq] at hs
  obtain ⟨w, -, hs⟩ := List.mem_flatMap.mp hs
  exact Node.builds_of_mem_build (n := .widget w) hs

theorem filter_isConstruction_builds (c : Component) :
    (c.rootBuilds ++ c.otherBuilds).filter (·.isConstruction) =
      (c.walk.filter (!·.isPrebound)).map Node.construct := by
  rw [builds_eq, walk, List.filter_flatMap, List.filter_flatMap, List.map_flatMap]
  exact List.flatMap_congr fun w _ => Node.filter_isConstruction_build (.widget w)

theorem perm_filter_isPage_builds (c : Component) :
    ((c.rootBuilds ++ c.otherBuilds).filter (·.isPage)).Perm (c.walk.flatMap Node.pages) := by
  rw [builds_eq, walk, List.filter_flatMap, List.flatMap_assoc]
  exact List.Perm.flatMap_left _ fun w _ => Node.perm_filter_isPage_build (.widget w)

theorem build_infix_builds {c : Component} {n : Node} (h : n ∈ c.walk) :
    n.build <:+: c.rootBuilds ++ c.otherBuilds := by
  obtain ⟨w, hw, hn⟩ := List.mem_flatMap.mp h
  rw [builds_eq]
  exact (Node.build_infix (n := .widget w) hn).trans (infix_flatMap hw Widget.build)

/-- A branch is added when all that is below it has been constructed. -/
theorem constructed_before_page {c : Component} {choice : Choice} (h : .choice choice ∈ c.walk)
    {w : Widget} {i : Nat} (hi : choice.branches.widgets[i]? = some w) :
    ∃ before after, c.rootBuilds ++ c.otherBuilds =
        before ++ .addPage choice.name.text w.handle i :: after ∧
      ∀ n ∈ w.walk, n.isPrebound = false → n.construct ∈ before := by
  have hpage : Widget.buildPage choice.name.text (w, i) <:+: c.rootBuilds ++ c.otherBuilds :=
    (Choice.buildPage_infix (List.mk_mem_zipIdx_iff_getElem?.mpr hi)).trans (build_infix_builds h)
  obtain ⟨before, after, hsplit⟩ := hpage
  refine ⟨before ++ w.build, after, ?_, fun n hn hprebound => ?_⟩
  · rw [← hsplit]
    simp [Widget.buildPage]
  · exact List.mem_append_right _ (Node.construct_mem_build (n := .widget w) hn hprebound)

end Component
end ViewTree
