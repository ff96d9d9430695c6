import ViewTree.Toml.Scalar

/-!
TOML documents: keys, arrays, inline tables, and the statements of which a document is made. A
table is written in one place only: tables that a header or dotted key has opened are marked, and so
are values that nothing may be added to.
-/
namespace ViewTree.Toml
open Reader

abbrev Table := List (String × Datum)

abbrev Key := List String

namespace Table

def replace (key : String) (value : Datum) (t : Table) : Table :=
  t.map fun entry => if entry.1 = key then (key, value) else entry

/-- Changes the table at a path. Tables on the way are made if they are missing; with `last`, an
array of tables stands for its last one. -/
def modifyAt (last : Bool) (change : Table → Option Table) : Key → Table → Option Table
  | [], t => change t
  | k :: path, t =>
    match Datum.find? k t with
    | none => do return t ++ [(k, .table (← modifyAt last change path []))]
    | some (.table inner) => do return replace k (.table (← modifyAt last change path inner)) t
    | some (.list items) =>
      match items.getLast?, last with
      | some (.table inner), true => do
        return replace k (.list (items.dropLast ++ [.table (← modifyAt last change path inner)])) t
      | _, _ => none
    | some _ => none

def add (key : String) (value : Datum) (t : Table) : Option Table :=
  if t.any (·.1 = key) then none else some (t ++ [(key, value)])

def addItem (key : String) (t : Table) : Option Table :=
  match Datum.find? key t with
  | none => some (t ++ [(key, .list [.table []])])
  | some (.list items) => some (replace key (.list (items ++ [.table []])) t)
  | some _ => none

end Table

/-- The table that the key's table is in, and the last part of the key. -/
def splitKey (key : Key) : Key × String := (key.dropLast, key.getLastD "")

def isClosed : Datum → Bool
  | .table _ | .list _ => true
  | _ => false

def isBelow (keys : List Key) (key : Key) : Bool := keys.any fun k => k.isPrefixOf key

def isKeyChar (c : Char) : Bool := c.isAlphanum || c = '-' || c = '_'

def keyPart : Reader String := do
  let word := (← get).takeWhile isKeyChar
  if word.isEmpty then
    if ← accept "'" then literalText false
    else if ← accept "\"" then basicText false
    else fail
  else
    skip isKeyChar
    pure (String.ofList word)

/-- Parts with points between them. -/
def key : Reader Key := do
  let first ← keyPart
  skip isGap
  let parts ← repeating (fun parts => do
    if ← accept "." then
      skip isGap
      let part ← keyPart
      skip isGap
      pure (some (part :: parts))
    else pure none) [first]
  pure parts.reverse

def comment : Reader Unit := do
  if ← accept "#" then
    skip (isPlain false)
    match (← get).head? with
    | none | some '\n' => pure ()
    | some _ => fail

/-- Takes blanks, line ends and comments. -/
def skipLines : Reader Unit := do
  repeating (fun _ => do
    skip isGapOrLineEnd
    if (← get).head? = some '#' then
      comment
      pure (some ())
    else pure none) ()

/-- The items of an array behind its opening bracket. -/
def items (value : Reader Datum) : Reader (List Datum) := do
  skipLines
  let found ← repeating (fun found => do
    if ← accept "]" then pure none
    else
      let item ← value
      skipLines
      if ← accept "," then skipLines
      else if (← get).head? ≠ some ']' then fail
      pure (some (item :: found))) []
  pure found.reverse

def pair (value : Reader Datum) : Reader (Key × Datum) := do
  let k ← key
  require "="
  skip isGap
  return (k, ← value)

/-- An inline table as far as it is read: its entries, the keys of the values in it that nothing
may be added to, and whether there is more. -/
structure InlineTable where
  entries : Table := []
  closed : List Key := []
  isOpen : Bool := true

/-- The table with one pair more. -/
def InlineTable.add? (t : InlineTable) (k : Key) (value : Datum) : Option Table :=
  let (path, name) := splitKey k
  if isBelow t.closed k then none
  else Table.modifyAt false (Table.add name value) path t.entries

/-- The entries of an inline table behind its opening brace. -/
def entries (value : Reader Datum) : Reader Table := do
  skip isGap
  if ← accept "\x7d" then return []
  let t ← repeating (fun (t : InlineTable) => do
    if !t.isOpen then pure none
    else
      let (k, v) ← pair value
      match t.add? k v with
      | none => fail
      | some entries =>
        skip isGap
        let isOpen := !(← accept "\x7d")
        if isOpen then
          require ","
          skip isGap
        pure (some ⟨entries, if isClosed v then k :: t.closed else t.closed, isOpen⟩)) {}
  pure t.entries

/-- The values in another one, whose reading takes calls; `room` is how many are left. -/
def within {α : Type} (calls room : Nat) (found : Reader α) : Reader α :=
  if room < calls then throw (.oversized .nesting) else found

/-- The calls in one another that an array takes, and an inline table. -/
def arrayCalls : Nat := 2
def tableCalls : Nat := 3

/-- A value. Arrays and inline tables nest as deep as there is `room` for; `depth` exceeds that of
every value in the text. -/
def value : (depth room : Nat) → Reader Datum
  | 0, _ => fail
  | depth + 1, room => do
    match ← anyText? with
    | some text => pure (.text text)
    | none =>
      if ← accept "true" then pure (.truth true)
      else if ← accept "false" then pure (.truth false)
      else if ← accept "[" then
        .list <$> within arrayCalls room (items (value depth (room - arrayCalls)))
      else if ← accept "\x7b" then
        .table <$> within tableCalls room (entries (value depth (room - tableCalls)))
      else measure

/-- A document as far as it is read. -/
structure Document where
  root : Table := []
  /-- The table that statements belong to. -/
  header : Key := []
  /-- Tables that no header may open any more. -/
  opened : List Key := []
  /-- Tables that dotted keys have opened, which are marked at the next header. -/
  pending : List Key := []
  /-- Values that nothing may be added to. -/
  closed : List Key := []

namespace Document

def assign (d : Document) (k : Key) (value : Datum) : Option Document := do
  let (path, name) := splitKey k
  let full := d.header ++ k
  let steps := (List.range path.length).map fun i => d.header ++ k.take (i + 1)
  if steps.any d.opened.contains || isBelow d.closed (d.header ++ path) then none
  else
    let root ← Table.modifyAt true (Table.add name value) (d.header ++ path) d.root
    pure { d with
      root
      pending := steps ++ d.pending
      closed := if isClosed value then full :: d.closed else d.closed }

def markPending (d : Document) : Document :=
  { d with opened := d.pending ++ d.opened, pending := [] }

def openTable (d : Document) (k : Key) : Option Document := do
  if d.opened.contains k || isBelow d.closed k then none
  else
    let root ← Table.modifyAt true some k d.root
    pure { d with root, header := k, opened := k :: d.opened }

/-- Opens a new table of an array. What was written for the one before it does not matter. -/
def openItem (d : Document) (k : Key) : Option Document := do
  let (path, name) := splitKey k
  if isBelow d.closed k then none
  else
    let root ← Table.modifyAt true (Table.addItem name) path d.root
    pure { d with
      root
      header := k
      opened := k :: d.opened.filter (!k.isPrefixOf ·)
      closed := d.closed.filter (!k.isPrefixOf ·) }

def orFail {α : Type} : Option α → Reader α
  | some x => pure x
  | none => fail

/-- The header of a table or of an array of tables. -/
def readHeader (d : Document) : Reader Document := do
  let d := d.markPending
  let isItem ← accept "[["
  if !isItem then require "["
  skip isGap
  let k ← key
  let d ← orFail (if isItem then d.openItem k else d.openTable k)
  require (if isItem then "]]" else "]")
  pure d

/-- What a statement does; a line may hold nothing but a comment. -/
def readStatement (room : Nat) (d : Document) : Reader Document := do
  match (← get).head? with
  | some '[' => d.readHeader
  | some '#' => pure d
  | some _ =>
    let (k, v) ← pair (value ((← get).length + 1) room)
    orFail (d.assign k v)
  | none => pure d

def readLine (room : Nat) (d : Document) : Reader (Option Document) := do
  skip isGap
  if (← get).isEmpty then pure none
  else if ← accept "\n" then pure (some d)
  else
    let d ← d.readStatement room
    skip isGap
    comment
    if !(← get).isEmpty then require "\n"
    pure (some d)

/-- The root table of the document that a text is, if values nest no deeper than there is `room`
for. -/
def read (text : String) (room : Nat) : Except Problem Table :=
  match (repeating (readLine room) ({} : Document)).run text.toList with
  | .ok (d, _) => .ok d.root
  | .error problem => .error problem

end Document
end ViewTree.Toml
