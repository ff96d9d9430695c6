import ViewTree.Check.Component
import ViewTree.Proofs.Nodes

/-!
Components with other places. A map of places changes all places in a tree and nothing else. Main
statements: walking, visiting and naming go with such a map (`Node.walk_mapPlaces`,
`Component.visits_mapPlaces`, `Component.assignNames_mapPlaces`).
-/
namespace ViewTree

def Expr.mapPlaces (f : Place → Place) (e : Expr) : Expr := { e with place := f e.place }

def ArmPattern.mapPlaces (f : Place → Place) (p : ArmPattern) : ArmPattern :=
  { p with place := f p.place }

def Construction.mapPlaces (f : Place → Place) : Construction → Construction
  | .call path written chained => .call path (written.mapPlaces f) chained
  | construction => construction

def Tracking.mapPlaces (f : Place → Place) : Tracking → Tracking
  | .explicit predicate => .explicit (predicate.mapPlaces f)
  | tracking => tracking

def Modifiers.mapPlaces (f : Place → Place) (m : Modifiers) : Modifiers :=
  { m with tracking := m.tracking.mapPlaces f, chain := m.chain.map (Expr.mapPlaces f) }

def Capture.mapPlaces (f : Place → Place) (c : Capture) : Capture :=
  { c with value := c.value.map (Expr.mapPlaces f) }

mutual

def Widget.mapPlaces (f : Place → Place) : Widget → Widget
  | ⟨name, construction, isRoot, doc, place, properties⟩ =>
    ⟨name, construction.mapPlaces f, isRoot, doc, f place, Property.mapAll f properties⟩

def Property.mapPlaces (f : Place → Place) : Property → Property
  | ⟨name, modifiers, place, payload⟩ => ⟨name, modifiers.mapPlaces f, f place, payload.mapPlaces f⟩

def Property.mapAll (f : Place → Place) : List Property → List Property
  | [] => []
  | p :: more => p.mapPlaces f :: Property.mapAll f more

def Payload.mapPlaces (f : Place → Place) : Payload → Payload
  | .method value => .method (value.mapPlaces f)
  | .binding value => .binding (value.mapPlaces f)
  | .connection value captures guard =>
    .connection (value.mapPlaces f) (captures.map (Capture.mapPlaces f)) guard
  | .child arguments widget => .child (arguments.map (Expr.mapPlaces f)) (widget.mapPlaces f)
  | .choice arguments choice => .choice (arguments.map (Expr.mapPlaces f)) (choice.mapPlaces f)

def Choice.mapPlaces (f : Place → Place) : Choice → Choice
  | ⟨name, transition, doc, place, branches⟩ => ⟨name, transition, doc, f place, branches.mapPlaces f⟩

def Branches.mapPlaces (f : Place → Place) : Branches → Branches
  | .chain first others last place =>
    .chain (first.mapPlaces f) (Branch.mapAll f others) (last.mapPlaces f) (f place)
  | .cases subject arms => .cases (subject.mapPlaces f) (CaseArm.mapAll f arms)

def Branch.mapPlaces (f : Place → Place) : Branch → Branch
  | ⟨condition, widget, place⟩ => ⟨condition.mapPlaces f, widget.mapPlaces f, f place⟩

def Branch.mapAll (f : Place → Place) : List Branch → List Branch
  | [] => []
  | b :: more => b.mapPlaces f :: Branch.mapAll f more

def CaseArm.mapPlaces (f : Place → Place) : CaseArm → CaseArm
  | ⟨pattern, widget⟩ => ⟨pattern.mapPlaces f, widget.mapPlaces f⟩

def CaseArm.mapAll (f : Place → Place) : List CaseArm → List CaseArm
  | [] => []
  | a :: more => a.mapPlaces f :: CaseArm.mapAll f more

end

def Node.mapPlaces (f : Place → Place) : Node → Node
  | .widget w => .widget (w.mapPlaces f)
  | .choice c => .choice (c.mapPlaces f)

def Visit.mapPlaces (f : Place → Place) (v : Visit) : Visit :=
  { v with node := v.node.mapPlaces f, property := v.property.map (Property.mapPlaces f) }

def View.mapPlaces (f : Place → Place) (v : View) : View :=
  { v with root := v.root.mapPlaces f, trees := v.trees.map (Widget.mapPlaces f), place := f v.place }

def Template.mapPlaces (f : Place → Place) (t : Template) : Template :=
  { t with tree := t.tree.mapPlaces f, place := f t.place }

def Component.mapPlaces (f : Place → Place) : Component → Component
  | .view v => .view (v.mapPlaces f)
  | .template t => .template (t.mapPlaces f)

section
variable (f : Place → Place)

theorem Property.mapAll_eq (ps : List Property) :
    Property.mapAll f ps = ps.map (Property.mapPlaces f) := by
  induction ps with
  | nil => rfl
  | cons p ps ih => rw [Property.mapAll, ih, List.map_cons]

theorem Branch.mapAll_eq (bs : List Branch) :
    Branch.mapAll f bs = bs.map (Branch.mapPlaces f) := by
  induction bs with
  | nil => rfl
  | cons b bs ih => rw [Branch.mapAll, ih, List.map_cons]

theorem CaseArm.mapAll_eq (as : List CaseArm) :
    CaseArm.mapAll f as = as.map (CaseArm.mapPlaces f) := by
  induction as with
  | nil => rfl
  | cons a as ih => rw [CaseArm.mapAll, ih, List.map_cons]

@[simp] theorem Expr.text_mapPlaces (e : Expr) : (e.mapPlaces f).text = e.text := rfl

@[simp] theorem Expr.term_mapPlaces (e : Expr) : (e.mapPlaces f).term = e.term := rfl

@[simp] theorem Construction.isPrebound_mapPlaces (c : Construction) :
    (c.mapPlaces f).isPrebound = c.isPrebound := by cases c <;> rfl

@[simp] theorem Construction.isTemplate_mapPlaces (c : Construction) :
    (c.mapPlaces f).isTemplate = c.isTemplate := by cases c <;> rfl

@[simp] theorem Construction.path_mapPlaces (c : Construction) :
    (c.mapPlaces f).path = c.path := by cases c <;> rfl

@[simp] theorem Construction.type?_mapPlaces (c : Construction) :
    (c.mapPlaces f).type? = c.type? := by cases c <;> rfl

@[simp] theorem Capture.name_mapPlaces (c : Capture) : (c.mapPlaces f).name = c.name := rfl

@[simp] theorem Modifiers.tracks_mapPlaces (m : Modifiers) :
    (m.mapPlaces f).tracks = m.tracks := by
  unfold Modifiers.tracks Modifiers.mapPlaces
  cases m.tracking <;> rfl

@[simp] theorem Modifiers.watch_mapPlaces (m : Modifiers) : (m.mapPlaces f).watch = m.watch := rfl

@[simp] theorem Modifiers.blockSignals_mapPlaces (m : Modifiers) :
    (m.mapPlaces f).blockSignals = m.blockSignals := rfl

@[simp] theorem Modifiers.refreshes_mapPlaces (m : Modifiers) :
    (m.mapPlaces f).refreshes = m.refreshes := by simp [Modifiers.refreshes]

@[simp] theorem Modifiers.predicate?_mapPlaces (m : Modifiers) :
    (m.mapPlaces f).predicate? = m.predicate?.map (Expr.mapPlaces f) := by
  unfold Modifiers.predicate? Modifiers.mapPlaces
  cases m.tracking <;> rfl

@[simp] theorem Modifiers.names_mapPlaces (m : Modifiers) : (m.mapPlaces f).names = m.names := by
  have hchain : (m.mapPlaces f).chain.isEmpty = m.chain.isEmpty := List.isEmpty_map
  rw [Modifiers.names, Modifiers.tracks_mapPlaces, hchain]
  rfl

namespace Property

@[simp] theorem name_mapPlaces (p : Property) : (p.mapPlaces f).name = p.name := by
  cases p
  rfl

@[simp] theorem place_mapPlaces (p : Property) : (p.mapPlaces f).place = f p.place := by
  cases p
  rfl

@[simp] theorem modifiers_mapPlaces (p : Property) :
    (p.mapPlaces f).modifiers = p.modifiers.mapPlaces f := by
  cases p
  rfl

@[simp] theorem payload_mapPlaces (p : Property) :
    (p.mapPlaces f).payload = p.payload.mapPlaces f := by
  cases p
  rfl

@[simp] theorem label_mapPlaces (p : Property) : (p.mapPlaces f).label = p.label := by
  simp [label]

@[simp] theorem kind_mapPlaces (p : Property) : (p.mapPlaces f).kind = p.kind := by
  rw [kind, payload_mapPlaces, kind]
  cases p.payload <;> rfl

@[simp] theorem guard?_mapPlaces (p : Property) : (p.mapPlaces f).guard? = p.guard? := by
  rw [guard?, payload_mapPlaces, guard?]
  cases p.payload <;> rfl

@[simp] theorem value?_mapPlaces (p : Property) :
    (p.mapPlaces f).value? = p.value?.map (Expr.mapPlaces f) := by
  rw [value?, payload_mapPlaces, value?]
  cases p.payload <;> rfl

end Property

namespace Node

@[simp] theorem nodeName_mapPlaces (n : Node) : (n.mapPlaces f).nodeName = n.nodeName := by
  cases n with
  | widget w => cases w; rfl
  | choice c => cases c; rfl

@[simp] theorem name?_mapPlaces (n : Node) : (n.mapPlaces f).name? = n.name? := by simp [name?]

@[simp] theorem place_mapPlaces (n : Node) : (n.mapPlaces f).place = f n.place := by
  cases n with
  | widget w => cases w; rfl
  | choice c => cases c; rfl

@[simp] theorem isPrebound_mapPlaces (n : Node) : (n.mapPlaces f).isPrebound = n.isPrebound := by
  cases n with
  | widget w =>
    cases w
    exact Construction.isPrebound_mapPlaces f _
  | choice c => rfl

@[simp] theorem properties_mapPlaces (n : Node) :
    (n.mapPlaces f).properties = n.properties.map (Property.mapPlaces f) := by
  cases n with
  | widget w =>
    cases w
    exact Property.mapAll_eq f _
  | choice c => rfl

end Node

theorem Payload.node?_mapPlaces (p : Payload) :
    (p.mapPlaces f).node? = p.node?.map (Node.mapPlaces f) := by cases p <;> rfl

theorem Branches.widgets_mapPlaces (b : Branches) :
    (b.mapPlaces f).widgets = b.widgets.map (Widget.mapPlaces f) := by
  have hbranch (b : Branch) : (b.mapPlaces f).widget = b.widget.mapPlaces f := by
    cases b
    rfl
  have harm (a : CaseArm) : (a.mapPlaces f).widget = a.widget.mapPlaces f := by
    cases a
    rfl
  cases b with
  | chain first others last place =>
    simp [Branches.mapPlaces, Branches.widgets, Branch.mapAll_eq, hbranch]
  | cases subject arms => simp [Branches.mapPlaces, Branches.widgets, CaseArm.mapAll_eq, harm]

namespace Node

theorem links_mapPlaces (n : Node) : (n.mapPlaces f).links =
    n.links.map fun link => (link.1.map (Property.mapPlaces f), link.2.mapPlaces f) := by
  cases n with
  | widget w =>
    obtain ⟨name, construction, isRoot, doc, place, properties⟩ := w
    show (Property.mapAll f properties).filterMap _ = _
    rw [Property.mapAll_eq, List.filterMap_map, Node.links, List.map_filterMap]
    congr 1
    funext p
    simp only [Function.comp, Property.payload_mapPlaces, Payload.node?_mapPlaces]
    cases p.payload.node? <;> rfl
  | choice c =>
    obtain ⟨name, transition, doc, place, branches⟩ := c
    show (branches.mapPlaces f).widgets.map _ = _
    rw [Branches.widgets_mapPlaces, Node.links, List.map_map, List.map_map]
    rfl

theorem children_mapPlaces (n : Node) :
    (n.mapPlaces f).children = n.children.map (Node.mapPlaces f) := by
  rw [← Node.map_snd_links, links_mapPlaces, ← Node.map_snd_links, List.map_map, List.map_map]
  rfl

theorem walk_mapPlaces (n : Node) : (n.mapPlaces f).walk = n.walk.map (Node.mapPlaces f) := by
  induction n using Node.induction with
  | step n ih =>
    rw [Node.walk_eq, Node.walk_eq, children_mapPlaces, List.map_cons, List.flatMap_map,
      List.map_flatMap]
    exact congrArg (_ :: ·) (List.flatMap_congr ih)

theorem visits_mapPlaces (n : Node) (tree : Nat) (parent : Option String)
    (property : Option Property) :
    (n.mapPlaces f).visits tree parent (property.map (Property.mapPlaces f)) =
      (n.visits tree parent property).map (Visit.mapPlaces f) := by
  induction n using Node.induction generalizing parent property with
  | step n ih =>
    rw [Node.visits_eq, Node.visits_eq, links_mapPlaces, List.map_cons, List.flatMap_map,
      List.map_flatMap, name?_mapPlaces]
    refine congrArg (_ :: ·) (List.flatMap_congr fun link hlink => ?_)
    refine ih link.2 ?_ n.name? link.1
    rw [← Node.map_snd_links]
    exact List.mem_map_of_mem hlink

end Node

namespace Component

theorem trees_mapPlaces (c : Component) :
    (c.mapPlaces f).trees = c.trees.map (Widget.mapPlaces f) := by cases c <;> rfl

@[simp] theorem name_mapPlaces (c : Component) : (c.mapPlaces f).name = c.name := by
  cases c <;> rfl

@[simp] theorem kind_mapPlaces (c : Component) : (c.mapPlaces f).kind = c.kind := by
  cases c <;> rfl

@[simp] theorem params_mapPlaces (c : Component) : (c.mapPlaces f).params = c.params := by
  cases c <;> rfl

theorem walk_mapPlaces (c : Component) :
    (c.mapPlaces f).walk = c.walk.map (Node.mapPlaces f) := by
  rw [walk, trees_mapPlaces, walk, List.flatMap_map, List.map_flatMap]
  exact List.flatMap_congr fun w _ => Node.walk_mapPlaces f (.widget w)

theorem visits_mapPlaces (c : Component) :
    (c.mapPlaces f).visits = c.visits.map (Visit.mapPlaces f) := by
  rw [visits, trees_mapPlaces, visits, List.zipIdx_map, List.flatMap_map, List.map_flatMap]
  exact List.flatMap_congr fun tree _ => Node.visits_mapPlaces f (.widget tree.1) tree.2 none none

theorem propertyVisits_mapPlaces (c : Component) : (c.mapPlaces f).propertyVisits =
    c.propertyVisits.map fun (v, p) => (v.mapPlaces f, p.mapPlaces f) := by
  rw [propertyVisits, visits_mapPlaces, propertyVisits, List.flatMap_map, List.map_flatMap]
  refine List.flatMap_congr fun v _ => ?_
  show (v.node.mapPlaces f).properties.map _ = _
  rw [Node.properties_mapPlaces, List.map_map, List.map_map]
  rfl

end Component

@[simp] theorem Construction.stem_mapPlaces (c : Construction) :
    (c.mapPlaces f).stem = c.stem := by simp [Construction.stem]

mutual

theorem Widget.assignNames_mapPlaces (stem : String) (s : Naming) : (w : Widget) →
    (w.mapPlaces f).assignNames stem s =
      ((w.assignNames stem s).1, (w.assignNames stem s).2.mapPlaces f)
  | ⟨name, construction, isRoot, doc, place, properties⟩ => by
    have hproperties (s : Naming) := Property.assignAll_mapAll stem s properties
    simp only [Widget.mapPlaces, Widget.assignNames, Construction.stem_mapPlaces, hproperties]

theorem Property.assignAll_mapAll (stem : String) (s : Naming) : (ps : List Property) →
    Property.assignAll stem s (Property.mapAll f ps) =
      ((Property.assignAll stem s ps).1, Property.mapAll f (Property.assignAll stem s ps).2)
  | [] => rfl
  | ⟨name, modifiers, place, payload⟩ :: more => by
    have hpayload (s : Naming) := Payload.assignNames_mapPlaces stem s payload
    have hmore (s : Naming) := Property.assignAll_mapAll stem s more
    simp only [Property.mapAll, Property.mapPlaces, Property.assignAll, hpayload, hmore]

theorem Payload.assignNames_mapPlaces (stem : String) (s : Naming) : (p : Payload) →
    (p.mapPlaces f).assignNames stem s =
      ((p.assignNames stem s).1, (p.assignNames stem s).2.mapPlaces f)
  | .method value => rfl
  | .binding value => rfl
  | .connection value captures guard => rfl
  | .child arguments widget => by
    have hwidget (s : Naming) := Widget.assignNames_mapPlaces stem s widget
    simp only [Payload.mapPlaces, Payload.assignNames, hwidget]
  | .choice arguments c => by
    have hchoice (s : Naming) := Choice.assignNames_mapPlaces stem s c
    simp only [Payload.mapPlaces, Payload.assignNames, hchoice]

theorem Choice.assignNames_mapPlaces (stem : String) (s : Naming) : (c : Choice) →
    (c.mapPlaces f).assignNames stem s =
      ((c.assignNames stem s).1, (c.assignNames stem s).2.mapPlaces f)
  | ⟨name, transition, doc, place, branches⟩ => by
    have hbranches (s : Naming) := Branches.assignNames_mapPlaces stem s branches
    simp only [Choice.mapPlaces, Choice.assignNames, hbranches]

theorem Branches.assignNames_mapPlaces (stem : String) (s : Naming) : (b : Branches) →
    (b.mapPlaces f).assignNames stem s =
      ((b.assignNames stem s).1, (b.assignNames stem s).2.mapPlaces f)
  | .chain ⟨condition, widget, place⟩ others last lastPlace => by
    have hfirst (s : Naming) := Widget.assignNames_mapPlaces stem s widget
    have hothers (s : Naming) := Branch.assignAll_mapAll stem s others
    have hlast (s : Naming) := Widget.assignNames_mapPlaces stem s last
    simp only [Branches.mapPlaces, Branch.mapPlaces, Branches.assignNames, hfirst, hothers, hlast]
  | .cases subject arms => by
    have harms (s : Naming) := CaseArm.assignAll_mapAll stem s arms
    simp only [Branches.mapPlaces, Branches.assignNames, harms]

theorem Branch.assignAll_mapAll (stem : String) (s : Naming) : (bs : List Branch) →
    Branch.assignAll stem s (Branch.mapAll f bs) =
      ((Branch.assignAll stem s bs).1, Branch.mapAll f (Branch.assignAll stem s bs).2)
  | [] => rfl
  | ⟨condition, widget, place⟩ :: more => by
    have hwidget (s : Naming) := Widget.assignNames_mapPlaces stem s widget
    have hmore (s : Naming) := Branch.assignAll_mapAll stem s more
    simp only [Branch.mapAll, Branch.mapPlaces, Branch.assignAll, hwidget, hmore]

theorem CaseArm.assignAll_mapAll (stem : String) (s : Naming) : (as : List CaseArm) →
    CaseArm.assignAll stem s (CaseArm.mapAll f as) =
      ((CaseArm.assignAll stem s as).1, CaseArm.mapAll f (CaseArm.assignAll stem s as).2)
  | [] => rfl
  | ⟨pattern, widget⟩ :: more => by
    have hwidget (s : Naming) := Widget.assignNames_mapPlaces stem s widget
    have hmore (s : Naming) := CaseArm.assignAll_mapAll stem s more
    simp only [CaseArm.mapAll, CaseArm.mapPlaces, CaseArm.assignAll, hwidget, hmore]

end

theorem Widget.assignEach_map_mapPlaces (stem : String) (s : Naming) (ws : List Widget) :
    Widget.assignEach stem s (ws.map (Widget.mapPlaces f)) =
      ((Widget.assignEach stem s ws).1, (Widget.assignEach stem s ws).2.map (Widget.mapPlaces f)) := by
  induction ws generalizing s with
  | nil => rfl
  | cons w ws ih =>
    simp only [List.map_cons, Widget.assignEach, Widget.assignNames_mapPlaces, ih]

namespace Component

theorem writtenNames_mapPlaces (c : Component) : (c.mapPlaces f).writtenNames = c.writtenNames := by
  have hnode (n : Node) : (n.mapPlaces f).name?.toList ++
      (n.mapPlaces f).properties.filterMap (·.guard?) =
        n.name?.toList ++ n.properties.filterMap (·.guard?) := by
    rw [Node.name?_mapPlaces, Node.properties_mapPlaces, List.filterMap_map]
    congr 2
    funext p
    exact Property.guard?_mapPlaces f p
  rw [writtenNames, walk_mapPlaces, params_mapPlaces, List.flatMap_map]
  exact congrArg (_ ++ ·) (List.flatMap_congr fun n _ => hnode n)

/-- Names do not depend on places. -/
theorem assignNames_mapPlaces (settings : Settings) (c : Component) :
    (c.mapPlaces f).assignNames settings = (c.assignNames settings).mapPlaces f := by
  have hwritten := writtenNames_mapPlaces f c
  cases c with
  | view v =>
    show (view (v.mapPlaces f)).assignNames settings = _
    simp only [mapPlaces, assignNames] at hwritten ⊢
    rw [hwritten]
    simp only [View.mapPlaces, Widget.assignNames_mapPlaces, Widget.assignEach_map_mapPlaces]
  | template t =>
    show (template (t.mapPlaces f)).assignNames settings = _
    simp only [mapPlaces, assignNames] at hwritten ⊢
    rw [hwritten]
    simp only [Template.mapPlaces, Widget.assignNames_mapPlaces]

end Component
end

theorem Construction.mapPlaces_id (c : Construction) : c.mapPlaces (fun p => p) = c := by
  cases c <;> rfl

theorem Tracking.mapPlaces_id (t : Tracking) : t.mapPlaces (fun p => p) = t := by
  cases t <;> rfl

theorem Expr.mapPlaces_id : Expr.mapPlaces (fun p => p) = id := rfl

theorem Modifiers.mapPlaces_id (m : Modifiers) : m.mapPlaces (fun p => p) = m := by
  rw [mapPlaces, Tracking.mapPlaces_id, Expr.mapPlaces_id, List.map_id]

theorem Capture.map_mapPlaces_id (cs : List Capture) : cs.map (Capture.mapPlaces fun p => p) = cs := by
  refine (List.map_congr_left fun c _ => ?_).trans (List.map_id cs)
  obtain ⟨name, value⟩ := c
  cases value <;> rfl

mutual

theorem Widget.mapPlaces_id : (w : Widget) → w.mapPlaces (fun p => p) = w
  | ⟨name, construction, isRoot, doc, place, properties⟩ => by
    rw [Widget.mapPlaces, Construction.mapPlaces_id, Property.mapAll_id properties]

theorem Property.mapAll_id : (ps : List Property) → Property.mapAll (fun p => p) ps = ps
  | [] => rfl
  | ⟨name, modifiers, place, payload⟩ :: more => by
    rw [Property.mapAll, Property.mapPlaces, Modifiers.mapPlaces_id, Payload.mapPlaces_id payload,
      Property.mapAll_id more]

theorem Payload.mapPlaces_id : (p : Payload) → p.mapPlaces (fun p => p) = p
  | .method value => rfl
  | .binding value => rfl
  | .connection value captures guard => by
    rw [Payload.mapPlaces, Capture.map_mapPlaces_id]
    rfl
  | .child arguments widget => by
    rw [Payload.mapPlaces, Expr.mapPlaces_id, Option.map_id, Widget.mapPlaces_id widget, id]
  | .choice arguments c => by
    rw [Payload.mapPlaces, Expr.mapPlaces_id, Option.map_id, Choice.mapPlaces_id c, id]

theorem Choice.mapPlaces_id : (c : Choice) → c.mapPlaces (fun p => p) = c
  | ⟨name, transition, doc, place, branches⟩ => by
    rw [Choice.mapPlaces, Branches.mapPlaces_id branches]

theorem Branches.mapPlaces_id : (b : Branches) → b.mapPlaces (fun p => p) = b
  | .chain ⟨condition, widget, place⟩ others last lastPlace => by
    rw [Branches.mapPlaces, Branch.mapPlaces, Expr.mapPlaces_id, Widget.mapPlaces_id widget,
      Branch.mapAll_id others, Widget.mapPlaces_id last, id]
  | .cases subject arms => by
    rw [Branches.mapPlaces, Expr.mapPlaces_id, CaseArm.mapAll_id arms, id]

theorem Branch.mapAll_id : (bs : List Branch) → Branch.mapAll (fun p => p) bs = bs
  | [] => rfl
  | ⟨condition, widget, place⟩ :: more => by
    rw [Branch.mapAll, Branch.mapPlaces, Expr.mapPlaces_id, Widget.mapPlaces_id widget,
      Branch.mapAll_id more, id]

theorem CaseArm.mapAll_id : (as : List CaseArm) → CaseArm.mapAll (fun p => p) as = as
  | [] => rfl
  | ⟨pattern, widget⟩ :: more => by
    rw [CaseArm.mapAll, CaseArm.mapPlaces, Widget.mapPlaces_id widget, CaseArm.mapAll_id more]
    rfl

end

theorem Component.mapPlaces_id (c : Component) : c.mapPlaces (fun p => p) = c := by
  have hwidgets (ws : List Widget) : ws.map (Widget.mapPlaces fun p => p) = ws :=
    (List.map_congr_left fun w _ => w.mapPlaces_id).trans (List.map_id ws)
  cases c with
  | view v =>
    show view (v.mapPlaces _) = _
    rw [View.mapPlaces, Widget.mapPlaces_id, hwidgets]
  | template t =>
    show template (t.mapPlaces _) = _
    rw [Template.mapPlaces, Widget.mapPlaces_id]

end ViewTree
