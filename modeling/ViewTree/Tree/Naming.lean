import ViewTree.Settings
import ViewTree.Tree

/-!
Names for the nodes that have none: the type in small letters and a number, counted for each type in
the order of the tree. Names that are written anywhere in the component are never made up.
-/
namespace ViewTree

/-- The names in use, and the next number of each stem. -/
structure Naming where
  taken : List String
  counters : List (String × Nat)

namespace Naming

/-- The first number from `n` on that makes a free name with the stem; `count` bounds the search
and is never short when it exceeds the number of taken names. -/
def freeNumber (taken : List String) (stem : String) : (count n : Nat) → Nat
  | 0, n => n
  | count + 1, n =>
    if taken.contains (stem ++ "_" ++ toString n) then freeNumber taken stem count (n + 1) else n

def counter (s : Naming) (stem : String) : Nat :=
  ((s.counters.find? (·.1 = stem)).map (·.2)).getD 0

def fresh (s : Naming) (stem : String) : Naming × String :=
  let n := freeNumber s.taken stem (s.taken.length + 1) (s.counter stem)
  let name := stem ++ "_" ++ toString n
  (⟨name :: s.taken, (stem, n + 1) :: s.counters.filter (·.1 ≠ stem)⟩, name)

def assign (s : Naming) (stem : String) (name : NodeName) : Naming × NodeName :=
  match name with
  | .absent =>
    let (s, made) := s.fresh stem
    (s, .synthesized made)
  | name => (s, name)

end Naming

/-- The stem of a widget's made-up name. -/
def Construction.stem (c : Construction) : String :=
  Text.snakeCase (Text.lastSegment (c.type?.getD c.path))

mutual

def Widget.assignNames (choiceStem : String) (s : Naming) : Widget → Naming × Widget
  | ⟨name, construction, isRoot, doc, place, properties⟩ =>
    let (s, name) := s.assign construction.stem name
    let (s, properties) := Property.assignAll choiceStem s properties
    (s, ⟨name, construction, isRoot, doc, place, properties⟩)

def Property.assignAll (choiceStem : String) (s : Naming) :
    List Property → Naming × List Property
  | [] => (s, [])
  | ⟨name, modifiers, place, payload⟩ :: more =>
    let (s, payload) := payload.assignNames choiceStem s
    let (s, more) := Property.assignAll choiceStem s more
    (s, ⟨name, modifiers, place, payload⟩ :: more)

def Payload.assignNames (choiceStem : String) (s : Naming) : Payload → Naming × Payload
  | .method value => (s, .method value)
  | .binding value => (s, .binding value)
  | .connection value captures guard => (s, .connection value captures guard)
  | .child arguments widget =>
    let (s, widget) := widget.assignNames choiceStem s
    (s, .child arguments widget)
  | .choice arguments choice =>
    let (s, choice) := choice.assignNames choiceStem s
    (s, .choice arguments choice)

def Choice.assignNames (choiceStem : String) (s : Naming) : Choice → Naming × Choice
  | ⟨name, transition, doc, place, branches⟩ =>
    let (s, name) := s.assign choiceStem name
    let (s, branches) := branches.assignNames choiceStem s
    (s, ⟨name, transition, doc, place, branches⟩)

def Branches.assignNames (choiceStem : String) (s : Naming) : Branches → Naming × Branches
  | .chain ⟨condition, widget, place⟩ others last lastPlace =>
    let (s, widget) := widget.assignNames choiceStem s
    let (s, others) := Branch.assignAll choiceStem s others
    let (s, last) := last.assignNames choiceStem s
    (s, .chain ⟨condition, widget, place⟩ others last lastPlace)
  | .cases subject arms =>
    let (s, arms) := CaseArm.assignAll choiceStem s arms
    (s, .cases subject arms)

def Branch.assignAll (choiceStem : String) (s : Naming) : List Branch → Naming × List Branch
  | [] => (s, [])
  | ⟨condition, widget, place⟩ :: more =>
    let (s, widget) := widget.assignNames choiceStem s
    let (s, more) := Branch.assignAll choiceStem s more
    (s, ⟨condition, widget, place⟩ :: more)

def CaseArm.assignAll (choiceStem : String) (s : Naming) : List CaseArm → Naming × List CaseArm
  | [] => (s, [])
  | ⟨pattern, widget⟩ :: more =>
    let (s, widget) := widget.assignNames choiceStem s
    let (s, more) := CaseArm.assignAll choiceStem s more
    (s, ⟨pattern, widget⟩ :: more)

end

def Widget.assignEach (choiceStem : String) (s : Naming) : List Widget → Naming × List Widget
  | [] => (s, [])
  | w :: ws =>
    let (s, w) := w.assignNames choiceStem s
    let (s, ws) := Widget.assignEach choiceStem s ws
    (s, w :: ws)

namespace Component

/-- The names that are written in a component: parameters, nodes and guards. -/
def writtenNames (c : Component) : List String :=
  c.params ++ c.walk.flatMap fun n => n.name?.toList ++ n.properties.filterMap (·.guard?)

/-- The component with a name for every node. -/
def assignNames (settings : Settings) (c : Component) : Component :=
  let stem := Text.snakeCase settings.switchContainer
  let start : Naming := ⟨c.writtenNames, []⟩
  match c with
  | view v =>
    let (s, root) := v.root.assignNames stem start
    view { v with root, trees := (Widget.assignEach stem s v.trees).2 }
  | template t => template { t with tree := (t.tree.assignNames stem start).2 }

end Component
end ViewTree
