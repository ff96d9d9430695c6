import Mathlib.Data.List.Basic
import ViewTree.Proofs.Capture.Scanning
import ViewTree.Settings

/-!
Names of constants. A text that is all capitals or holds an underscore only changes case, any other one
is cut in front of its capitals. Main statements: for lists of words both ways meet, whichever way the
list is spelled (`constantCase_write`), and a text without small letters stays as it is
(`constantCase_of_isLarge`), so a constant is the constant of its own name.
-/
namespace ViewTree.Text

/-- What holds of the first 128 characters holds of all ASCII. -/
theorem forall_ascii {P : Char → Prop} (h : ∀ n < 128, P (Char.ofNat n)) {c : Char}
    (hc : c.toNat < 128) : P c := by
  rw [← Char.ofNat_toNat c]
  exact h c.toNat hc

/-- An ASCII character that is no small letter. -/
def IsLarge (c : Char) : Prop := c.toNat < 128 ∧ c.isLower = false

theorem isLarge_toUpper {c : Char} (hc : c.toNat < 128) : IsLarge c.toUpper :=
  forall_ascii (P := fun c => c.toUpper.toNat < 128 ∧ c.toUpper.isLower = false) (by decide) hc

theorem toUpper_of_isLarge {c : Char} (h : IsLarge c) : c.toUpper = c :=
  forall_ascii (P := fun c => c.isLower = false → c.toUpper = c) (by decide) h.1 h.2

/-- A letter has a small and a large form, and both are letters. -/
structure HasForms (c : Char) : Prop where
  small : c.toLower.isAlpha
  isLower : c.toLower.isLower
  notUpper : c.toLower.isUpper = false
  toUpper : c.toLower.toUpper = c.toUpper
  large : c.toUpper.isAlpha
  isUpper : c.toUpper.isUpper

instance : DecidablePred HasForms := fun c =>
  decidable_of_iff (c.toLower.isAlpha ∧ c.toLower.isLower ∧ c.toLower.isUpper = false ∧
    c.toLower.toUpper = c.toUpper ∧ c.toUpper.isAlpha ∧ c.toUpper.isUpper)
    ⟨fun ⟨h, h', h'', i, i', i''⟩ => ⟨h, h', h'', i, i', i''⟩,
      fun h => ⟨h.small, h.isLower, h.notUpper, h.toUpper, h.large, h.isUpper⟩⟩

theorem hasForms_of_isAlpha {c : Char} (h : c.isAlpha) : HasForms c :=
  forall_ascii (P := fun c => c.isAlpha → HasForms c) (by decide) (Embedded.toNat_lt_of_isAlpha h) h

theorem isUpper_of_ascii {c : Char} (hc : c.toNat < 128) : isUpper c = c.isUpper := if_pos hc

theorem upperChar_of_ascii {c : Char} (hc : c.toNat < 128) : upperChar c = [c.toUpper] := if_pos hc

theorem upperText_of_ascii {cs : List Char} (h : ∀ c ∈ cs, c.toNat < 128) :
    upperText cs = cs.map Char.toUpper := by
  rw [upperText, List.map_eq_flatMap]
  exact List.flatMap_congr fun c hc => upperChar_of_ascii (h c hc)

theorem isUpperText_iff {cs : List Char} (h : ∀ c ∈ cs, c.toNat < 128) :
    isUpperText cs ↔ (∃ c ∈ cs, c.isUpper) ∧ ∀ c ∈ cs, c.isLower = false := by
  have hlower : ∀ c ∈ cs, (isLower c || isTitle c) = c.isLower := fun c hc => by
    rw [isLower, isTitle, if_pos (h c hc), if_pos (h c hc), Bool.or_false]
  rw [isUpperText, Bool.and_eq_true, List.any_eq_true, Bool.not_eq_true', List.any_eq_false]
  refine and_congr (exists_congr fun c => and_congr_right fun hc => ?_) ?_
  · rw [isUpper_of_ascii (h c hc)]
  · refine forall₂_congr fun c hc => ?_
    rw [hlower c hc, Bool.not_eq_true]

theorem constantFrom_of_isLarge {cs : List Char} (h : ∀ c ∈ cs, IsLarge c)
    (hupper : ∀ c ∈ cs, c.isUpper = false) (before : Option Char) : constantFrom before cs = cs := by
  induction cs generalizing before with
  | nil => rfl
  | cons c cs ih =>
    obtain ⟨hc, hcs⟩ := List.forall_mem_cons.mp h
    obtain ⟨hplain, hmore⟩ := List.forall_mem_cons.mp hupper
    rw [constantFrom, ih hcs hmore, isUpper_of_ascii hc.1, hplain, upperChar_of_ascii hc.1,
      toUpper_of_isLarge hc]
    rfl

/-- A text without small letters is the name of a constant already. -/
theorem constantCase_of_isLarge {cs : List Char} (h : ∀ c ∈ cs, IsLarge c) :
    constantCase (String.ofList cs) = String.ofList cs := by
  have hascii : ∀ c ∈ cs, c.toNat < 128 := fun c hc => (h c hc).1
  have hsame : cs.map Char.toUpper = cs :=
    (List.map_congr_left fun c hc => toUpper_of_isLarge (h c hc)).trans (List.map_id' cs)
  rw [constantCase, String.toList_ofList]
  split
  · rw [upperText_of_ascii hascii, hsame]
  · next hcut =>
    refine congrArg _ (constantFrom_of_isLarge h (fun c hc => ?_) none)
    refine Bool.eq_false_iff.mpr fun hupper => hcut ?_
    rw [(isUpperText_iff hascii).mpr ⟨⟨c, hc, hupper⟩, fun d hd => (h d hd).2⟩, Bool.true_or]

theorem isLarge_of_mem_constantFrom {cs : List Char} (h : ∀ c ∈ cs, c.toNat < 128)
    {before : Option Char} : ∀ c ∈ constantFrom before cs, IsLarge c := by
  induction cs generalizing before with
  | nil => nofun
  | cons c cs ih =>
    obtain ⟨hc, hcs⟩ := List.forall_mem_cons.mp h
    rw [constantFrom, upperChar_of_ascii hc]
    refine List.forall_mem_append.mpr ⟨List.forall_mem_append.mpr ⟨?_, ?_⟩, ih hcs⟩
    · split
      · exact List.forall_mem_singleton.mpr ⟨by decide, rfl⟩
      · nofun
    · exact List.forall_mem_singleton.mpr (isLarge_toUpper hc)

/-- The name of a constant has no small letters. -/
theorem isLarge_of_mem_constantCase {kind : String} (h : ∀ c ∈ kind.toList, c.toNat < 128) :
    ∀ c ∈ (constantCase kind).toList, IsLarge c := by
  rw [constantCase, String.toList_ofList]
  split
  · rw [upperText_of_ascii h]
    exact List.forall_mem_map.mpr fun c hc => isLarge_toUpper (h c hc)
  · exact isLarge_of_mem_constantFrom h

/-- A word of two ASCII letters or more. -/
structure IsLong (w : List Char) : Prop where
  two : 2 ≤ w.length
  letters : ∀ c ∈ w, c.isAlpha

instance : DecidablePred IsLong := fun w => decidable_of_iff (2 ≤ w.length ∧ w.all Char.isAlpha)
  ⟨fun ⟨h, h'⟩ => ⟨h, List.all_eq_true.mp h'⟩, fun h => ⟨h.two, List.all_eq_true.mpr h.letters⟩⟩

/-- The ways to write a list of words as one name: `SlideLeft`, `slideLeft`, `slide_left` and
`SLIDE_LEFT`. -/
inductive Spelling where
  | pascal | camel | snake | constant
deriving DecidableEq, Repr

def capitalized : List Char → List Char
  | [] => []
  | c :: cs => c.toUpper :: cs.map Char.toLower

def Spelling.write : Spelling → List (List Char) → List Char
  | pascal, ws => ws.flatMap capitalized
  | camel, [] => []
  | camel, w :: ws => w.map Char.toLower ++ ws.flatMap capitalized
  | snake, ws => ['_'].intercalate (ws.map (·.map Char.toLower))
  | constant, ws => ['_'].intercalate (ws.map (·.map Char.toUpper))

theorem intercalate_cons (w : List Char) (ws : List (List Char)) :
    ['_'].intercalate (w :: ws) = w ++ ws.flatMap ('_' :: ·) := by
  induction ws generalizing w with
  | nil => rw [List.intercalate_singleton, List.flatMap_nil, List.append_nil]
  | cons v ws ih =>
    rw [List.intercalate_cons_cons, ih, List.flatMap_cons, List.append_assoc]
    rfl

/-- Small letters are put into capitals, and nothing stands in front of them. -/
theorem constantFrom_small {cs rest written : List Char} (hcs : cs ≠ []) (h : ∀ c ∈ cs, c.isAlpha)
    (hrest : ∀ d, isUpper d = false → constantFrom (some d) rest = written) (before : Option Char) :
    constantFrom before (cs.map Char.toLower ++ rest) = cs.map Char.toUpper ++ written := by
  induction cs generalizing before with
  | nil => exact absurd rfl hcs
  | cons c cs ih =>
    obtain ⟨hc, hmore⟩ := List.forall_mem_cons.mp h
    have hforms := hasForms_of_isAlpha hc
    have hascii := Embedded.toNat_lt_of_isAlpha hforms.small
    have hupper : isUpper c.toLower = false := by rw [isUpper_of_ascii hascii, hforms.notUpper]
    have hbehind : constantFrom (some c.toLower) (cs.map Char.toLower ++ rest) =
        cs.map Char.toUpper ++ written := by
      cases cs with
      | nil => exact hrest _ hupper
      | cons d cs => exact ih (List.cons_ne_nil d cs) hmore _
    rw [List.map_cons, List.cons_append, constantFrom, hbehind, hupper,
      upperChar_of_ascii hascii, hforms.toUpper]
    rfl

/-- A word with a capital in front. -/
theorem constantFrom_capitalized {w rest written : List Char} (hw : IsLong w)
    (hrest : ∀ d, isUpper d = false → constantFrom (some d) rest = written) (before : Option Char) :
    constantFrom before (capitalized w ++ rest) =
      (if before.any (!isUpper ·) then ['_'] else []) ++ w.map Char.toUpper ++ written := by
  obtain ⟨htwo, hletters⟩ := hw
  cases w with
  | nil => exact absurd htwo (by decide)
  | cons c cs =>
    obtain ⟨hc, hcs⟩ := List.forall_mem_cons.mp hletters
    have hsome : cs ≠ [] := List.ne_nil_of_length_pos (Nat.lt_of_succ_lt_succ htwo)
    have hlarge := isLarge_toUpper (Embedded.toNat_lt_of_isAlpha hc)
    rw [capitalized, List.cons_append, constantFrom, constantFrom_small hsome hcs hrest,
      isUpper_of_ascii hlarge.1, (hasForms_of_isAlpha hc).isUpper, upperChar_of_ascii hlarge.1,
      toUpper_of_isLarge hlarge, Bool.true_and, List.map_cons, List.append_assoc, List.append_assoc]
    rfl

theorem constantFrom_words {ws : List (List Char)} (h : ∀ w ∈ ws, IsLong w) {d : Char}
    (hd : isUpper d = false) :
    constantFrom (some d) (ws.flatMap capitalized) = ws.flatMap fun w => '_' :: w.map Char.toUpper := by
  induction ws generalizing d with
  | nil => rfl
  | cons w ws ih =>
    obtain ⟨hw, hws⟩ := List.forall_mem_cons.mp h
    rw [List.flatMap_cons, List.flatMap_cons, constantFrom_capitalized hw fun e he => ih hws he]
    simp [hd]

/-- Letters of which some are small are cut in front of the capitals. -/
theorem constantCase_letters {cs : List Char} (h : ∀ c ∈ cs, c.isAlpha)
    (hsmall : ∃ c ∈ cs, c.isLower) :
    constantCase (String.ofList cs) = String.ofList (constantFrom none cs) := by
  have hascii : ∀ c ∈ cs, c.toNat < 128 := fun c hc => Embedded.toNat_lt_of_isAlpha (h c hc)
  have hcut : ¬(isUpperText cs || cs.contains '_') = true := by
    rw [Bool.or_eq_true, isUpperText_iff hascii, List.contains_iff_mem]
    rintro (⟨-, hlarge⟩ | hmark)
    · obtain ⟨c, hc, hlower⟩ := hsmall
      exact Bool.false_ne_true ((hlarge c hc).symm.trans hlower)
    · exact absurd (h '_' hmark) (by decide)
  rw [constantCase, String.toList_ofList]
  exact congrArg String.ofList (if_neg hcut)

def constantName (ws : List (List Char)) : List Char :=
  ['_'].intercalate (ws.map (·.map Char.toUpper))

theorem constantName_cons (w : List Char) (ws : List (List Char)) :
    constantName (w :: ws) = w.map Char.toUpper ++ ws.flatMap fun w => '_' :: w.map Char.toUpper := by
  rw [constantName, List.map_cons, intercalate_cons, List.flatMap_map]

theorem isAlpha_of_mem_small {w : List Char} (h : ∀ c ∈ w, c.isAlpha) :
    ∀ c ∈ w.map Char.toLower, c.isAlpha :=
  List.forall_mem_map.mpr fun c hc => (hasForms_of_isAlpha (h c hc)).small

theorem isAlpha_of_mem_capitalized {w : List Char} (h : ∀ c ∈ w, c.isAlpha) :
    ∀ c ∈ capitalized w, c.isAlpha := by
  cases w with
  | nil => nofun
  | cons c cs =>
    obtain ⟨hc, hcs⟩ := List.forall_mem_cons.mp h
    exact List.forall_mem_cons.mpr ⟨(hasForms_of_isAlpha hc).large, isAlpha_of_mem_small hcs⟩

theorem exists_isLower_small {w : List Char} (hw : w ≠ []) (h : ∀ c ∈ w, c.isAlpha) :
    ∃ c ∈ w.map Char.toLower, c.isLower := by
  obtain ⟨c, cs, rfl⟩ := List.exists_cons_of_ne_nil hw
  exact ⟨c.toLower, List.mem_cons_self, (hasForms_of_isAlpha (h c List.mem_cons_self)).isLower⟩

theorem exists_isLower_capitalized {w : List Char} (h : IsLong w) :
    ∃ c ∈ capitalized w, c.isLower := by
  obtain ⟨htwo, hletters⟩ := h
  cases w with
  | nil => exact absurd htwo (by decide)
  | cons c cs =>
    have hsome : cs ≠ [] := List.ne_nil_of_length_pos (Nat.lt_of_succ_lt_succ htwo)
    obtain ⟨d, hd, hlower⟩ := exists_isLower_small hsome (List.forall_mem_cons.mp hletters).2
    exact ⟨d, List.mem_cons_of_mem _ hd, hlower⟩

/-- The two spellings without marks are cut in front of each word. -/
theorem constantCase_joined {w : List Char} {ws : List (List Char)} (hw : IsLong w)
    (hws : ∀ v ∈ ws, IsLong v) {first : List Char}
    (hfirst : first = capitalized w ∨ first = w.map Char.toLower) :
    constantCase (String.ofList (first ++ ws.flatMap capitalized)) =
      String.ofList (constantName (w :: ws)) := by
  have hnil : w ≠ [] := List.ne_nil_of_length_pos (Nat.lt_of_succ_lt hw.two)
  have hmore : ∀ c ∈ ws.flatMap capitalized, c.isAlpha :=
    List.forall_mem_flatMap.mpr fun v hv => isAlpha_of_mem_capitalized (hws v hv).letters
  have hrest (d : Char) (hd : isUpper d = false) := constantFrom_words hws hd
  rw [constantName_cons]
  rcases hfirst with rfl | rfl
  · obtain ⟨c, hc, hlower⟩ := exists_isLower_capitalized hw
    have hletters := List.forall_mem_append.mpr ⟨isAlpha_of_mem_capitalized hw.letters, hmore⟩
    rw [constantCase_letters hletters ⟨c, List.mem_append_left _ hc, hlower⟩,
      constantFrom_capitalized hw hrest]
    rfl
  · obtain ⟨c, hc, hlower⟩ := exists_isLower_small hnil hw.letters
    have hletters := List.forall_mem_append.mpr ⟨isAlpha_of_mem_small hw.letters, hmore⟩
    rw [constantCase_letters hletters ⟨c, List.mem_append_left _ hc, hlower⟩,
      constantFrom_small hnil hw.letters hrest]

/-- A text of ASCII with a mark between two words only changes case. -/
theorem constantCase_marked {cs : List Char} (hascii : ∀ c ∈ cs, c.toNat < 128) (hmark : '_' ∈ cs) :
    constantCase (String.ofList cs) = String.ofList (cs.map Char.toUpper) := by
  have hcontains : (isUpperText cs || cs.contains '_') = true := by
    rw [List.contains_iff_mem.mpr hmark, Bool.or_true]
  rw [constantCase, String.toList_ofList]
  exact congrArg String.ofList ((if_pos hcontains).trans (upperText_of_ascii hascii))

theorem isLarge_of_mem_constantName {ws : List (List Char)} (h : ∀ w ∈ ws, ∀ c ∈ w, c.isAlpha) :
    ∀ c ∈ constantName ws, IsLarge c := by
  have hword {w : List Char} (hw : ∀ c ∈ w, c.isAlpha) : ∀ c ∈ w.map Char.toUpper, IsLarge c :=
    List.forall_mem_map.mpr fun c hc => isLarge_toUpper (Embedded.toNat_lt_of_isAlpha (hw c hc))
  cases ws with
  | nil => nofun
  | cons w ws =>
    obtain ⟨hw, hws⟩ := List.forall_mem_cons.mp h
    rw [constantName_cons]
    refine List.forall_mem_append.mpr ⟨hword hw, List.forall_mem_flatMap.mpr fun v hv => ?_⟩
    exact List.forall_mem_cons.mpr ⟨⟨by decide, rfl⟩, hword (hws v hv)⟩

/-- Words with marks between them, as they stand in small letters. -/
theorem constantCase_snake {w v : List Char} {ws : List (List Char)}
    (h : ∀ u ∈ w :: v :: ws, ∀ c ∈ u, c.isAlpha) :
    constantCase (String.ofList (Spelling.snake.write (w :: v :: ws))) =
      String.ofList (constantName (w :: v :: ws)) := by
  have hcs : Spelling.snake.write (w :: v :: ws) =
      w.map Char.toLower ++ (v :: ws).flatMap fun u => '_' :: u.map Char.toLower := by
    rw [Spelling.write, List.map_cons, intercalate_cons, List.flatMap_map]
  have hword {u : List Char} (hu : ∀ c ∈ u, c.isAlpha) :
      ∀ c ∈ u.map Char.toLower, c.toNat < 128 :=
    fun c hc => Embedded.toNat_lt_of_isAlpha (isAlpha_of_mem_small hu c hc)
  have hlarge {u : List Char} (hu : ∀ c ∈ u, c.isAlpha) :
      (u.map Char.toLower).map Char.toUpper = u.map Char.toUpper := by
    rw [List.map_map]
    exact List.map_congr_left fun c hc => (hasForms_of_isAlpha (hu c hc)).toUpper
  obtain ⟨hw, hws⟩ := List.forall_mem_cons.mp h
  rw [hcs, constantCase_marked, constantName_cons, List.map_append, hlarge hw, List.map_flatMap]
  · refine congrArg (String.ofList <| _ ++ ·) (List.flatMap_congr fun u hu => ?_)
    rw [List.map_cons, hlarge (hws u hu)]
    rfl
  · refine List.forall_mem_append.mpr ⟨hword hw, List.forall_mem_flatMap.mpr fun u hu => ?_⟩
    exact List.forall_mem_cons.mpr ⟨by decide, hword (hws u hu)⟩
  · exact List.mem_append_right _ List.mem_cons_self

/-- Whichever way words are spelled, they name one constant. -/
theorem constantCase_write (spelling : Spelling) {ws : List (List Char)} (hsome : ws ≠ [])
    (h : ∀ w ∈ ws, IsLong w) :
    constantCase (String.ofList (spelling.write ws)) = String.ofList (constantName ws) := by
  have hletters : ∀ w ∈ ws, ∀ c ∈ w, c.isAlpha := fun w hw => (h w hw).letters
  obtain ⟨w, ws, rfl⟩ := List.exists_cons_of_ne_nil hsome
  obtain ⟨hw, hws⟩ := List.forall_mem_cons.mp h
  cases spelling with
  | pascal =>
    rw [Spelling.write, List.flatMap_cons]
    exact constantCase_joined hw hws (.inl rfl)
  | camel => exact constantCase_joined hw hws (.inr rfl)
  | snake =>
    cases ws with
    | nil =>
      -- a single word has no mark, so it is cut like the others
      rw [Spelling.write, List.map_singleton, List.intercalate_singleton,
        ← constantCase_joined hw hws (.inr rfl), List.flatMap_nil, List.append_nil]
    | cons v ws => exact constantCase_snake hletters
  | constant => exact constantCase_of_isLarge (isLarge_of_mem_constantName hletters)

end ViewTree.Text

namespace ViewTree
open Text

/-- All spellings of a list of words stand for one kind of transition. The name of a constant is
spelled as itself, and so the settings find the constant by its own name. -/
theorem Settings.transitionValue_spelled (s : Settings) :
    (∀ (spelling : Spelling) (ws : List (List Char)), ws ≠ [] → (∀ w ∈ ws, IsLong w) →
      constantCase (String.ofList (spelling.write ws)) = String.ofList (constantName ws)) ∧
    ∀ kind : String, (∀ c ∈ kind.toList, c.toNat < 128) →
      constantCase (constantCase kind) = constantCase kind ∧
        s.transitionValue (constantCase kind) =
          s.toolkitModule ++ "." ++ s.transitionEnum ++ "." ++ constantCase kind := by
  refine ⟨fun spelling ws hsome h => constantCase_write spelling hsome h, fun kind hascii => ?_⟩
  have hsame : constantCase (constantCase kind) = constantCase kind := by
    have hlarge := constantCase_of_isLarge (isLarge_of_mem_constantCase hascii)
    rwa [String.ofList_toList] at hlarge
  exact ⟨hsame, by rw [transitionValue, hsame]⟩

/-- Two words, in small letters and in capitals. -/
def slideLeft : List (List Char) := [['s', 'l', 'i', 'd', 'e'], ['L', 'E', 'F', 'T']]

theorem Settings.transitionValue_spelled_slideLeft :
    (slideLeft ≠ [] ∧ ∀ w ∈ slideLeft, IsLong w) ∧
    (∀ spelling : Spelling, constantCase (String.ofList (spelling.write slideLeft)) = "SLIDE_LEFT") ∧
    (∀ c ∈ "xRay2Left".toList, c.toNat < 128) ∧
    constantCase (constantCase "xRay2Left") = "X_RAY2_LEFT" ∧
    ({} : Settings).transitionValue (constantCase "xRay2Left") =
      "Gtk.StackTransitionType.X_RAY2_LEFT" := by
  have hspelled := transitionValue_spelled {}
  have hwords : slideLeft ≠ [] ∧ ∀ w ∈ slideLeft, IsLong w := by decide
  have hascii : ∀ c ∈ "xRay2Left".toList, c.toNat < 128 := forall_of_all (by decide)
  have hname : constantCase "xRay2Left" = "X_RAY2_LEFT" := by decide
  obtain ⟨hsame, hvalue⟩ := hspelled.2 "xRay2Left" hascii
  refine ⟨hwords, fun spelling => ?_, hascii, hsame.trans hname, ?_⟩
  · exact (hspelled.1 spelling slideLeft hwords.1 hwords.2).trans (by decide)
  · rw [hvalue, hname]
    decide

end ViewTree
