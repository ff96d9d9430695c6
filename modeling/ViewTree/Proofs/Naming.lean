import ViewTree.Proofs.Nodes

/-!
Naming the nodes of a component. Main statements: naming a tree is naming the nodes of its walk one
after the other (`Widget.nameAll_walk`), every node has a name afterwards
(`Component.isNamed_assignNames`), and nothing else is changed (`Component.map_walk_assignNames`).
-/
namespace ViewTree

/-- The stem of a made-up name. -/
def Node.stem (choiceStem : String) : Node → String
  | .widget w => w.construction.stem
  | .choice _ => choiceStem

namespace Naming

/-- The names of nodes that are named one after the other. -/
def nameAll (choiceStem : String) (s : Naming) : List Node → Naming × List NodeName
  | [] => (s, [])
  | n :: ns =>
    let first := s.assign (n.stem choiceStem) n.nodeName
    let others := nameAll choiceStem first.1 ns
    (others.1, first.2 :: others.2)

@[simp] theorem nameAll_nil (choiceStem : String) (s : Naming) :
    s.nameAll choiceStem [] = (s, []) := rfl

theorem nameAll_append (choiceStem : String) (s : Naming) (ns ms : List Node) :
    s.nameAll choiceStem (ns ++ ms) =
      (((s.nameAll choiceStem ns).1.nameAll choiceStem ms).1,
        (s.nameAll choiceStem ns).2 ++ ((s.nameAll choiceStem ns).1.nameAll choiceStem ms).2) := by
  induction ns generalizing s with
  | nil => simp
  | cons n ns ih => simp [nameAll, ih]

theorem isSome_get?_assign (s : Naming) (stem : String) (name : NodeName) :
    (s.assign stem name).2.get?.isSome := by
  cases name <;> rfl

theorem isSome_get?_of_mem_nameAll {choiceStem : String} {s : Naming} {ns : List Node}
    {name : NodeName} (h : name ∈ (s.nameAll choiceStem ns).2) : name.get?.isSome := by
  induction ns generalizing s with
  | nil => simp at h
  | cons n ns ih =>
    rcases List.mem_cons.mp h with rfl | h
    · exact isSome_get?_assign _ _ _
    · exact ih h

end Naming

mutual

theorem Widget.nameAll_walk (stem : String) (s : Naming) : (w : Widget) →
    s.nameAll stem w.walk =
      ((w.assignNames stem s).1, (w.assignNames stem s).2.walk.map Node.nodeName)
  | ⟨name, construction, isRoot, doc, place, properties⟩ => by
    simp only [Widget.walk, Widget.assignNames, Naming.nameAll, Property.nameAll_walk,
      List.map_cons, Node.stem, Node.nodeName]

theorem Property.nameAll_walk (stem : String) (s : Naming) : (ps : List Property) →
    s.nameAll stem (Property.walkAll ps) = ((Property.assignAll stem s ps).1,
      (Property.walkAll (Property.assignAll stem s ps).2).map Node.nodeName)
  | [] => rfl
  | ⟨name, modifiers, place, payload⟩ :: more => by
    simp only [Property.walkAll, Property.assignAll, Naming.nameAll_append, Payload.nameAll_walk,
      Property.nameAll_walk, List.map_append]

theorem Payload.nameAll_walk (stem : String) (s : Naming) : (p : Payload) →
    s.nameAll stem p.walk =
      ((p.assignNames stem s).1, (p.assignNames stem s).2.walk.map Node.nodeName)
  | .method _ | .binding _ | .connection _ _ _ => rfl
  | .child _ widget => by
    simp only [Payload.walk, Payload.assignNames, Widget.nameAll_walk]
  | .choice _ choice => by
    simp only [Payload.walk, Payload.assignNames, Choice.nameAll_walk]

theorem Choice.nameAll_walk (stem : String) (s : Naming) : (c : Choice) →
    s.nameAll stem c.walk =
      ((c.assignNames stem s).1, (c.assignNames stem s).2.walk.map Node.nodeName)
  | ⟨name, transition, doc, place, branches⟩ => by
    simp only [Choice.walk, Choice.assignNames, Naming.nameAll, Branches.nameAll_walk,
      List.map_cons, Node.stem, Node.nodeName]

theorem Branches.nameAll_walk (stem : String) (s : Naming) : (b : Branches) →
    s.nameAll stem b.walk =
      ((b.assignNames stem s).1, (b.assignNames stem s).2.walk.map Node.nodeName)
  | .chain ⟨condition, widget, place⟩ others last lastPlace => by
    simp only [Branches.walk, Branches.assignNames, Naming.nameAll_append, Widget.nameAll_walk,
      Branch.nameAll_walk, List.map_append]
  | .cases subject arms => by
    simp only [Branches.walk, Branches.assignNames, CaseArm.nameAll_walk]

theorem Branch.nameAll_walk (stem : String) (s : Naming) : (bs : List Branch) →
    s.nameAll stem (Branch.walkAll bs) = ((Branch.assignAll stem s bs).1,
      (Branch.walkAll (Branch.assignAll stem s bs).2).map Node.nodeName)
  | [] => rfl
  | ⟨condition, widget, place⟩ :: more => by
    simp only [Branch.walkAll, Branch.assignAll, Naming.nameAll_append, Widget.nameAll_walk,
      Branch.nameAll_walk, List.map_append]

theorem CaseArm.nameAll_walk (stem : String) (s : Naming) : (as : List CaseArm) →
    s.nameAll stem (CaseArm.walkAll as) = ((CaseArm.assignAll stem s as).1,
      (CaseArm.walkAll (CaseArm.assignAll stem s as).2).map Node.nodeName)
  | [] => rfl
  | ⟨pattern, widget⟩ :: more => by
    simp only [CaseArm.walkAll, CaseArm.assignAll, Naming.nameAll_append, Widget.nameAll_walk,
      CaseArm.nameAll_walk, List.map_append]

end

theorem Widget.nameAll_flatMap_walk (stem : String) (s : Naming) (ws : List Widget) :
    s.nameAll stem (ws.flatMap Widget.walk) = ((Widget.assignEach stem s ws).1,
      ((Widget.assignEach stem s ws).2.flatMap Widget.walk).map Node.nodeName) := by
  induction ws generalizing s with
  | nil => rfl
  | cons w ws ih =>
    simp only [List.flatMap_cons, Naming.nameAll_append, Widget.nameAll_walk, ih,
      Widget.assignEach, List.map_append]

namespace Component

theorem nameAll_walk (settings : Settings) (c : Component) :
    ((⟨c.writtenNames, []⟩ : Naming).nameAll (Text.snakeCase settings.switchContainer) c.walk).2 =
      (c.assignNames settings).walk.map Node.nodeName := by
  cases c with
  | view v =>
    simp only [walk, trees, assignNames, List.flatMap_cons, Naming.nameAll_append,
      Widget.nameAll_walk, Widget.nameAll_flatMap_walk, List.map_append]
  | template t =>
    simp only [walk, trees, assignNames, List.flatMap_cons, List.flatMap_nil, List.append_nil,
      Widget.nameAll_walk]

theorem isNamed_assignNames (settings : Settings) (c : Component) {n : Node}
    (h : n ∈ (c.assignNames settings).walk) : n.name?.isSome := by
  have hmem := List.mem_map_of_mem (f := Node.nodeName) h
  rw [← nameAll_walk] at hmem
  exact Naming.isSome_get?_of_mem_nameAll hmem

end Component

/-- What is asked of a node does not depend on the names in its tree. -/
structure Node.IsNameless {β : Type} (f : Node → β) : Prop where
  widget : ∀ stem s w, f (.widget (w.assignNames stem s).2) = f (.widget w)
  choice : ∀ stem s c, f (.choice (c.assignNames stem s).2) = f (.choice c)

section
variable {β : Type} {f : Node → β}

mutual

theorem Widget.map_walk_assignNames (hf : Node.IsNameless f) (stem : String) (s : Naming) :
    (w : Widget) → (w.assignNames stem s).2.walk.map f = w.walk.map f
  | ⟨name, construction, isRoot, doc, place, properties⟩ => by
    have hself := hf.widget stem s ⟨name, construction, isRoot, doc, place, properties⟩
    simp only [Widget.assignNames] at hself
    simp only [Widget.walk, Widget.assignNames, List.map_cons, hself, Property.map_walk_assignAll hf]

theorem Property.map_walk_assignAll (hf : Node.IsNameless f) (stem : String) (s : Naming) :
    (ps : List Property) →
      (Property.walkAll (Property.assignAll stem s ps).2).map f = (Property.walkAll ps).map f
  | [] => rfl
  | ⟨name, modifiers, place, payload⟩ :: more => by
    simp only [Property.walkAll, Property.assignAll, List.map_append,
      Payload.map_walk_assignNames hf, Property.map_walk_assignAll hf]

theorem Payload.map_walk_assignNames (hf : Node.IsNameless f) (stem : String) (s : Naming) :
    (p : Payload) → (p.assignNames stem s).2.walk.map f = p.walk.map f
  | .method _ | .binding _ | .connection _ _ _ => rfl
  | .child _ widget => by
    simp only [Payload.walk, Payload.assignNames, Widget.map_walk_assignNames hf]
  | .choice _ choice => by
    simp only [Payload.walk, Payload.assignNames, Choice.map_walk_assignNames hf]

theorem Choice.map_walk_assignNames (hf : Node.IsNameless f) (stem : String) (s : Naming) :
    (c : Choice) → (c.assignNames stem s).2.walk.map f = c.walk.map f
  | ⟨name, transition, doc, place, branches⟩ => by
    have hself := hf.choice stem s ⟨name, transition, doc, place, branches⟩
    simp only [Choice.assignNames] at hself
    simp only [Choice.walk, Choice.assignNames, List.map_cons, hself, Branches.map_walk_assignNames hf]

theorem Branches.map_walk_assignNames (hf : Node.IsNameless f) (stem : String) (s : Naming) :
    (b : Branches) → (b.assignNames stem s).2.walk.map f = b.walk.map f
  | .chain ⟨condition, widget, place⟩ others last lastPlace => by
    simp only [Branches.walk, Branches.assignNames, List.map_append, Widget.map_walk_assignNames hf,
      Branch.map_walk_assignAll hf]
  | .cases subject arms => by
    simp only [Branches.walk, Branches.assignNames, CaseArm.map_walk_assignAll hf]

theorem Branch.map_walk_assignAll (hf : Node.IsNameless f) (stem : String) (s : Naming) :
    (bs : List Branch) →
      (Branch.walkAll (Branch.assignAll stem s bs).2).map f = (Branch.walkAll bs).map f
  | [] => rfl
  | ⟨condition, widget, place⟩ :: more => by
    simp only [Branch.walkAll, Branch.assignAll, List.map_append, Widget.map_walk_assignNames hf,
      Branch.map_walk_assignAll hf]

theorem CaseArm.map_walk_assignAll (hf : Node.IsNameless f) (stem : String) (s : Naming) :
    (as : List CaseArm) →
      (CaseArm.walkAll (CaseArm.assignAll stem s as).2).map f = (CaseArm.walkAll as).map f
  | [] => rfl
  | ⟨pattern, widget⟩ :: more => by
    simp only [CaseArm.walkAll, CaseArm.assignAll, List.map_append, Widget.map_walk_assignNames hf,
      CaseArm.map_walk_assignAll hf]

end

theorem Widget.map_walk_assignEach (hf : Node.IsNameless f) (stem : String) (s : Naming)
    (ws : List Widget) : ((assignEach stem s ws).2.flatMap walk).map f = (ws.flatMap walk).map f := by
  induction ws generalizing s with
  | nil => rfl
  | cons w ws ih =>
    simp only [assignEach, List.flatMap_cons, List.map_append, map_walk_assignNames hf, ih]

/-- Naming leaves alone whatever is asked of the nodes that does not depend on names. -/
theorem Component.map_walk_assignNames (hf : Node.IsNameless f) (settings : Settings) (c : Component) :
    (c.assignNames settings).walk.map f = c.walk.map f := by
  cases c with
  | view v =>
    simp only [walk, trees, assignNames, List.flatMap_cons, List.map_append,
      Widget.map_walk_assignNames hf, Widget.map_walk_assignEach hf]
  | template t =>
    simp only [walk, trees, assignNames, List.flatMap_cons, List.flatMap_nil, List.append_nil,
      Widget.map_walk_assignNames hf]

end
end ViewTree
