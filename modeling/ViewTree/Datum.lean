import ViewTree.Number.Double

/-!
Values of configuration: what a settings file can hold for a key.
-/
namespace ViewTree

inductive Datum where
  | null
  | truth (value : Bool)
  | whole (value : Int)
  | real (negative : Bool) (size : Double)
  | notANumber
  | text (value : String)
  /-- A date, a time or both. -/
  | moment
  | list (items : List Datum)
  | table (entries : List (String × Datum))
deriving Inhabited

namespace Datum

/-- The value of a key of a table. -/
def find? (key : String) (entries : List (String × Datum)) : Option Datum :=
  (entries.find? (·.1 = key)).map (·.2)

/-- The whole number that a finite real one is, if it is one. -/
def wholeOf? (negative : Bool) (size : Double) : Option Int :=
  size.wholeUnits?.bind fun units =>
    if units % Double.twoTo 1074 = 0 then
      let n : Int := units / Double.twoTo 1074
      some (if negative then -n else n)
    else none

end Datum
end ViewTree
