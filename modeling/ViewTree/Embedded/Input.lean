import ViewTree.Embedded.Lexeme
import ViewTree.Embedded.Term
import ViewTree.Loop

/-!
Reading from a list of lexemes. A reader takes lexemes from the front and fails without a trace, so
alternatives start over at the same place; loops are a step and a runner that makes at most as many
rounds as there are lexemes.
-/
namespace ViewTree.Embedded

/-- The lexemes still to come, and where the last one taken stopped. -/
structure Input where
  rest : List Lexeme
  last : Nat

abbrev Reader := StateT Input Option

namespace Reader

def peek : Reader (Option LexemeKind) := do pure ((← get).rest.head?.map (·.kind))

def peekSecond : Reader (Option LexemeKind) := do pure ((← get).rest[1]?.map (·.kind))

/-- Where the next lexeme starts. -/
def here : Reader Nat := do pure ((← get).rest.head?.elim 0 (·.start))

def next : Reader LexemeKind := fun input =>
  match input.rest with
  | [] => none
  | t :: rest => some (t.kind, ⟨rest, t.stop⟩)

def expect (kind : LexemeKind) : Reader Unit := do
  if (← next) = kind then pure () else failure

def symbol (text : String) : Reader Unit := expect (.symbol text)
def keyword (word : String) : Reader Unit := expect (.keyword word)

/-- Takes the lexeme if it is the next one, and says whether it was. -/
def accept (kind : LexemeKind) : Reader Bool := do
  if (← peek) = some kind then
    let _ ← next
    pure true
  else pure false

def name : Reader String := do
  match ← next with
  | .name id => pure id
  | _ => failure

/-- A term from `start` up to the last lexeme taken. -/
def close (start : Nat) (form : Form) : Reader Term := do
  pure (.mk start (← get).last form)

/-- Rounds of a step that takes a lexeme each time it goes on. -/
def repeating {σ : Type} (step : σ → Reader (Option σ)) (s : σ) : Reader σ := do
  rounds failure step ((← get).rest.length + 1) s

def many {α : Type} (item : Reader (Option α)) : Reader (List α) := do
  let found ← repeating (fun found => do pure ((← item).map (· :: found))) []
  pure found.reverse

def endsItems : LexemeKind → Bool
  | .lineEnd => true
  | .keyword word => word = "in"
  | .symbol s => isCloser s
  | _ => false

/-- Items after `first` with commas between them; one more comma may stand at the end, which `ends`
tells. The flag says whether there was any comma. -/
def itemsAfter {α : Type} (first : α) (item : Reader α) (ends : LexemeKind → Bool := endsItems) :
    Reader (List α × Bool) := do
  let (found, commas) ← repeating (fun (found, _) => do
    if !(← accept (.symbol ",")) then pure none
    else if (← peek).all ends then pure (some (found, true))
    else pure (some ((← item) :: found, true))) ([first], false)
  pure (found.reverse, commas)

def items {α : Type} (item : Reader α) (ends : LexemeKind → Bool := endsItems) :
    Reader (List α × Bool) := do itemsAfter (← item) item ends

end Reader
end ViewTree.Embedded
