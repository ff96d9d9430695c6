/-!
Cutting texts at a separator and joining the pieces again. Main statement: joining the fields of a
text gives the text back.
-/
namespace ViewTree.Text

/-- The pieces of a text between the occurrences of `sep`; there is always one more piece than
there are separators. -/
def fields (sep : Char) : List Char → List (List Char)
  | [] => [[]]
  | c :: cs =>
    if c = sep then [] :: fields sep cs
    else match fields sep cs with
      | [] => [[c]]
      | f :: fs => (c :: f) :: fs

theorem fields_ne_nil (sep : Char) (cs : List Char) : fields sep cs ≠ [] := by
  cases cs with
  | nil => simp [fields]
  | cons c cs =>
    simp only [fields]
    split
    · simp
    · split <;> simp

/-- The pieces with `sep` between them. -/
def joinFields (sep : Char) : List (List Char) → List Char
  | [] => []
  | [f] => f
  | f :: fs => f ++ sep :: joinFields sep fs

theorem joinFields_fields (sep : Char) (cs : List Char) :
    joinFields sep (fields sep cs) = cs := by
  induction cs with
  | nil => rfl
  | cons c cs ih =>
    simp only [fields]
    split
    · next h =>
      subst h
      obtain ⟨f, fs, hf⟩ := List.exists_cons_of_ne_nil (fields_ne_nil c cs)
      rw [hf] at ih ⊢
      simp [joinFields, ih]
    · obtain ⟨f, fs, hf⟩ := List.exists_cons_of_ne_nil (fields_ne_nil sep cs)
      rw [hf] at ih ⊢
      cases fs with
      | nil => simpa [joinFields] using ih
      | cons g gs => simpa [joinFields] using ih

/-- The lines of a text, cut at line feeds only. -/
def lines (text : String) : List String :=
  (fields '\n' text.toList).map String.ofList

/-- Whether the text has more than one line. -/
def isMultiline (text : String) : Bool := text.toList.contains '\n'

/-- The characters of `text` from offset `start` up to, but not including, `stop`. -/
def slice (text : List Char) (start stop : Nat) : List Char :=
  (text.drop start).take (stop - start)

end ViewTree.Text
