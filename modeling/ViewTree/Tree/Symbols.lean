import ViewTree.Tree

/-!
The names of a component in one flat table: its nodes, and the guards of its connections. Building
the table stops at the first name that is there already; collecting it reports every one and keeps
the first entry.
-/
namespace ViewTree

inductive SymbolProblem where
  | duplicateName (name : String)
  | duplicateGuard (guard owner : String)
  | guardNamedAsNode (guard : String)
deriving DecidableEq, Repr

def SymbolProblem.message : SymbolProblem → String
  | duplicateName name => "Duplicate name '" ++ name ++ "'"
  | duplicateGuard guard owner =>
    "Duplicate guard '@" ++ guard ++ "' (already declared on '" ++ owner ++ "')"
  | guardNamedAsNode guard => "Guard '@" ++ guard ++ "' has the same name as a widget"

structure NodeEntry where
  name : String
  tree : Nat
  node : Node

/-- A guard, the name of the widget whose connection declares it, and their tree. -/
structure GuardEntry where
  name : String
  owner : String
  tree : Nat

/-- Nodes in the order of the component, and guards. -/
structure Symbols where
  nodes : List NodeEntry := []
  guards : List GuardEntry := []

namespace Symbols

def node? (t : Symbols) (name : String) : Option NodeEntry := t.nodes.find? (·.name = name)

def guard? (t : Symbols) (name : String) : Option GuardEntry := t.guards.find? (·.name = name)

def addNode (t : Symbols) (e : NodeEntry) : Except SymbolProblem Symbols :=
  if (t.node? e.name).isSome || (t.guard? e.name).isSome then .error (.duplicateName e.name)
  else .ok { t with nodes := t.nodes ++ [e] }

def addGuard (t : Symbols) (e : GuardEntry) : Except SymbolProblem Symbols :=
  match t.guard? e.name with
  | some other => .error (.duplicateGuard e.name other.owner)
  | none =>
    if (t.node? e.name).isSome then .error (.guardNamedAsNode e.name)
    else .ok { t with guards := t.guards ++ [e] }

end Symbols

def Visit.entry? (v : Visit) : Option NodeEntry :=
  v.node.name?.map fun name => ⟨name, v.tree, v.node⟩

def Visit.guardEntry? (v : Visit) (p : Property) : Option GuardEntry :=
  match p.guard?, v.node.name? with
  | some guard, some owner => some ⟨guard, owner, v.tree⟩
  | _, _ => none

namespace Component

def nodeEntries (c : Component) : List NodeEntry := c.visits.filterMap Visit.entry?

def guardEntries (c : Component) : List GuardEntry :=
  c.propertyVisits.filterMap fun (v, p) => v.guardEntry? p

/-- The table of a component in which no name comes twice. -/
def symbols (c : Component) : Except SymbolProblem Symbols := do
  let t ← c.nodeEntries.foldlM Symbols.addNode {}
  c.guardEntries.foldlM Symbols.addGuard t

end Component
end ViewTree
