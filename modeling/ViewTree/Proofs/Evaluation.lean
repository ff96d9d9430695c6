import ViewTree.ViewFile

/-!
Evaluating what is stated about a fixed text. To take a text apart is to decode its bytes, while a
literal stands for the list of its characters. So a text that is written in literals is given with
that list, and what is evaluated is about the list.
-/
namespace ViewTree

/-- A text and its characters. -/
class Spelled (text : String) where
  chars : List Char
  toList_eq : text.toList = chars

namespace Spelled

/-- The characters of other texts are decoded. -/
instance (priority := low) (text : String) : Spelled text := ⟨text.toList, rfl⟩

@[reducible]
def literal {cs : List Char} : Spelled (String.ofList cs) := ⟨cs, String.toList_ofList⟩

@[reducible]
def append {s t : String} (hs : Spelled s) (ht : Spelled t) : Spelled (s ++ t) :=
  ⟨hs.chars ++ ht.chars, by rw [String.toList_append, hs.toList_eq, ht.toList_eq]⟩

end Spelled

/-- The sections of a source are read from its characters. -/
theorem readSource?_spelled (settings : Settings) (source : String) [Spelled source] :
    readSource? settings source =
      ((Section.ofText (Spelled.chars source)).mapM
        (Outcome.ofSection? ⟨Spelled.chars source, settings⟩)).map List.flatten := by
  rw [readSource?, Spelled.toList_eq]

end ViewTree
