import ViewTree.Embedded.Names

/-!
A model that knows which of its fields were set since the last reset. A field counts as changed when
it is set, whatever the value; fields whose names start with an underscore are private and never
count. The names of the changed fields stand among the fields themselves, in a private one that
comes into being when it is first asked for.
-/
namespace ViewTree
open Embedded

/-- What a field holds: the value that it was given, or the names of changed fields. -/
inductive Held (α : Type) where
  | value (v : α)
  | names (changed : List String)

def Held.value? {α : Type} : Held α → Option α
  | value v => some v
  | names _ => none

/-- The fields of a model in the order in which they came. -/
structure Tracker (α : Type) where
  fields : List (String × Held α) := []

namespace Tracker

variable {α : Type}

def isPrivate (name : String) : Bool := name.toList.head? = some '_'

def changesField : String := "_changed_fields"

def held? (t : Tracker α) (name : String) : Option (Held α) :=
  (t.fields.find? (·.1 = name)).map (·.2)

/-- Replaces what a field holds, or adds the field at the end. -/
def putField (name : String) (held : Held α) : List (String × Held α) → List (String × Held α)
  | [] => [(name, held)]
  | f :: more => if f.1 = name then (name, held) :: more else f :: putField name held more

def put (t : Tracker α) (name : String) (held : Held α) : Tracker α :=
  ⟨putField name held t.fields⟩

def changes (t : Tracker α) : List String :=
  match t.held? changesField with
  | some (.names changed) => changed
  | _ => []

/-- Changes the names of changed fields; there are none yet if their field is missing. A value that
stands in their place stays. -/
def updateChanges (t : Tracker α) (update : List String → List String) : Tracker α :=
  match t.held? changesField with
  | none => t.put changesField (.names (update []))
  | some (.names changed) => t.put changesField (.names (update changed))
  | some (.value _) => t

def set (t : Tracker α) (name : String) (value : α) : Tracker α :=
  let t := t.put name (.value value)
  if isPrivate name then t else t.updateChanges (·.insert name)

def get? (t : Tracker α) (name : String) : Option α := (t.held? name).bind Held.value?

/-- Whether any of the fields changed; without fields, whether any field at all did. -/
def changed (t : Tracker α) (names : List String) : Bool :=
  if names.isEmpty then !t.changes.isEmpty else names.any t.changes.contains

/-- The answer to a question for changes, and the model behind it. -/
def query (t : Tracker α) (names : List String) : Bool × Tracker α :=
  (t.changed names, t.updateChanges id)

def reset (t : Tracker α) : Tracker α := t.updateChanges fun _ => []

/-- The names of the changed fields in alphabetical order. -/
def changedNames (t : Tracker α) : List String := sortNames t.changes

inductive Request (α : Type) where
  | set (name : String) (value : α)
  | query (names : List String)
  | reset

def step (t : Tracker α) : Request α → Tracker α
  | .set name value => t.set name value
  | .query names => (t.query names).2
  | .reset => t.reset

/-- A fresh model after requests. -/
def run (requests : List (Request α)) : Tracker α := requests.foldl step {}

end Tracker
end ViewTree
