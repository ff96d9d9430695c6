import ViewTree.Proofs.Definitions
import ViewTree.Proofs.Pasting.Lines

/-!
Writers that are used side by side. What is done with them is a script: lines, blocks whose body may
fail, and writers taken over by others. A script determines an outline of each writer, that is its texts
and their levels, and the code is that of the outline (`realizes_written`). Main statement: code nests by
adding levels and keeps every text as it is, blocks end at the level they began at, and other widths only
change blanks in front of texts (`streams_compose`).
-/
namespace ViewTree

/-- What is done with writers, which are known by names of type `ι`. A writer does not take over itself. -/
inductive WriterAction (ι : Type) where
  | line (writer : ι) (text : String)
  | block (writer : ι) (header : String) (body : List (WriterAction ι))
  | extend (writer other : ι) (h : writer ≠ other)
  /-- Fails, and everything around it up to the next attempt. -/
  | fail
  | attempt (body : List (WriterAction ι))

/-- What a writer can do. -/
structure Writing (σ : Type) where
  line : σ → String → σ
  enter : σ → String → σ
  leave : σ → σ
  extend : σ → σ → σ

namespace WriterAction
variable {ι σ τ : Type} [DecidableEq ι]

mutual

/-- The writers after an action, and whether it went through. A block is left in any case. -/
def run (d : Writing σ) : WriterAction ι → (ι → σ) → Bool × (ι → σ)
  | line w text, s => (true, Function.update s w (d.line (s w) text))
  | block w header body, s =>
    let (through, after) := runAll d body (Function.update s w (d.enter (s w) header))
    (through, Function.update after w (d.leave (after w)))
  | extend w o _, s => (true, Function.update s w (d.extend (s w) (s o)))
  | fail, s => (false, s)
  | attempt body, s => (true, (runAll d body s).2)

def runAll (d : Writing σ) : List (WriterAction ι) → (ι → σ) → Bool × (ι → σ)
  | [], s => (true, s)
  | a :: more, s =>
    let (through, after) := a.run d s
    if through then runAll d more after else (false, after)

end

end WriterAction

/-- What the one does, the other does too: operations keep the relation between them. -/
structure Writing.Simulates {ι σ τ : Type} (d : Writing σ) (d' : Writing τ) (R : ι → σ → τ → Prop) :
    Prop where
  line : ∀ {n x y}, R n x y → ∀ text, R n (d.line x text) (d'.line y text)
  enter : ∀ {n x y}, R n x y → ∀ header, R n (d.enter x header) (d'.enter y header)
  leave : ∀ {n x y}, R n x y → R n (d.leave x) (d'.leave y)
  extend : ∀ {n x y}, R n x y → ∀ {m x' y'}, R m x' y' → R n (d.extend x x') (d'.extend y y')

namespace WriterAction
variable {ι σ τ : Type} [DecidableEq ι]

section
variable {d : Writing σ} {d' : Writing τ} {R : ι → σ → τ → Prop}

theorem related_update {s : ι → σ} {t : ι → τ} (hst : ∀ n, R n (s n) (t n)) {w : ι} {x : σ} {y : τ}
    (h : R w x y) (n : ι) : R n (Function.update s w x n) (Function.update t w y n) := by
  by_cases hn : n = w
  · subst hn
    rwa [Function.update_self, Function.update_self]
  · rw [Function.update_of_ne hn, Function.update_of_ne hn]
    exact hst n

mutual

theorem run_related (h : d.Simulates d' R) (a : WriterAction ι) {s : ι → σ} {t : ι → τ}
    (hst : ∀ n, R n (s n) (t n)) :
    (a.run d s).1 = (a.run d' t).1 ∧ ∀ n, R n ((a.run d s).2 n) ((a.run d' t).2 n) := by
  cases a with
  | line w text => exact ⟨rfl, related_update hst (h.line (hst w) text)⟩
  | block w header body =>
    obtain ⟨hthrough, hbody⟩ := runAll_related h body (related_update hst (h.enter (hst w) header))
    exact ⟨hthrough, related_update hbody (h.leave (hbody w))⟩
  | extend w o _ => exact ⟨rfl, related_update hst (h.extend (hst w) (hst o))⟩
  | fail => exact ⟨rfl, hst⟩
  | attempt body => exact ⟨rfl, (runAll_related h body hst).2⟩

theorem runAll_related (h : d.Simulates d' R) (script : List (WriterAction ι)) {s : ι → σ} {t : ι → τ}
    (hst : ∀ n, R n (s n) (t n)) :
    (runAll d script s).1 = (runAll d' script t).1 ∧
      ∀ n, R n ((runAll d script s).2 n) ((runAll d' script t).2 n) := by
  cases script with
  | nil => exact ⟨rfl, hst⟩
  | cons a more =>
    obtain ⟨hthrough, hfirst⟩ := run_related h a hst
    rw [runAll, runAll]
    dsimp only
    rw [hthrough]
    by_cases hgoes : (a.run d' t).1
    · rw [if_pos hgoes, if_pos hgoes]
      exact runAll_related h more hfirst
    · rw [if_neg hgoes, if_neg hgoes]
      exact ⟨rfl, hfirst⟩

end

end
end WriterAction

/-- A writer before and after something is done with it are in a relation. Of a block, the body is
between the writer inside and the one that is left. -/
structure Writing.Keeps {σ : Type} (d : Writing σ) (R : σ → σ → Prop) : Prop where
  refl : ∀ x, R x x
  trans : ∀ {x y z}, R x y → R y z → R x z
  line : ∀ x text, R x (d.line x text)
  block : ∀ x header {y}, R (d.enter x header) y → R x (d.leave y)
  extend : ∀ x y, R x (d.extend x y)

namespace WriterAction
variable {ι σ : Type} [DecidableEq ι] {d : Writing σ} {R : σ → σ → Prop}

theorem kept_update (h : d.Keeps R) {s : ι → σ} {w : ι} {x : σ} (hx : R (s w) x) (n : ι) :
    R (s n) (Function.update s w x n) := by
  by_cases hn : n = w
  · subst hn
    rwa [Function.update_self]
  · rw [Function.update_of_ne hn]
    exact h.refl _

mutual

/-- Whether or not an action goes through. -/
theorem run_keeps (h : d.Keeps R) (a : WriterAction ι) (s : ι → σ) (n : ι) : R (s n) ((a.run d s).2 n) := by
  cases a with
  | line w text => exact kept_update h (h.line (s w) text) n
  | block w header body =>
    have hbody := runAll_keeps h body (Function.update s w (d.enter (s w) header)) n
    rw [run]
    dsimp only
    by_cases hn : n = w
    · subst hn
      rw [Function.update_self] at hbody ⊢
      exact h.block (s n) header hbody
    · rw [Function.update_of_ne hn] at hbody ⊢
      exact hbody
  | extend w o _ => exact kept_update h (h.extend (s w) (s o)) n
  | fail => exact h.refl _
  | attempt body => exact runAll_keeps h body s n

theorem runAll_keeps (h : d.Keeps R) (script : List (WriterAction ι)) (s : ι → σ) (n : ι) :
    R (s n) ((runAll d script s).2 n) := by
  cases script with
  | nil => exact h.refl _
  | cons a more =>
    have hfirst := run_keeps h a s n
    rw [runAll]
    dsimp only
    split
    · exact h.trans hfirst (runAll_keeps h more _ n)
    · exact hfirst

end
end WriterAction

def codeWriting : Writing CodeWriter := ⟨.line, .enter, .leave, .extend⟩

/-- The level in front of a block is one less than that of its body. -/
theorem keeps_level : codeWriting.Keeps fun w w' => w'.level = w.level where
  refl := fun _ => rfl
  trans := fun h h' => h'.trans h
  line := fun _ _ => rfl
  block := fun _ _ _ h => congrArg (· - 1) h
  extend := fun _ _ => rfl

/-- A text that was passed to a writer, and the level it stands at. -/
structure Passage where
  level : Nat
  text : String
deriving DecidableEq, Repr

/-- The texts of a writer without layout. -/
structure Outline where
  level : Nat := 0
  passages : List Passage := []
deriving DecidableEq, Repr

namespace Outline

def line (o : Outline) (text : String) : Outline := { o with passages := o.passages ++ [⟨o.level, text⟩] }

def enter (o : Outline) (header : String) : Outline := { o.line header with level := o.level + 1 }

def leave (o : Outline) : Outline := { o with level := o.level - 1 }

/-- The texts of the other writer stand further in. -/
def extend (o other : Outline) : Outline :=
  { o with passages := o.passages ++ other.passages.map fun p => { p with level := p.level + o.level } }

end Outline

def outlining : Writing Outline := ⟨.line, .enter, .leave, .extend⟩

theorem keeps_passages : outlining.Keeps fun o o' => o.passages <+: o'.passages where
  refl := fun _ => List.prefix_rfl
  trans := fun h h' => h.trans h'
  line := fun _ _ => List.prefix_append _ _
  block := fun _ _ _ h => (List.prefix_append _ _).trans h
  extend := fun _ _ => List.prefix_append _ _

namespace Passage

def rows (p : Passage) : Code := (Code.line p.text).indent p.level

/-- What stands in front of a text. There is nothing in front of a first line without text. -/
def blanks (width level : Int) (p : Passage) : String :=
  if (Text.lines p.text).head? = some "" then "" else "".pushn ' ' (width * (p.level + level)).toNat

/-- The lines of a text, of which only the first one has blanks in front. -/
def lines (width level : Int) (p : Passage) : List String :=
  match Text.lines p.text with
  | [] => []
  | first :: more => (p.blanks width level ++ first) :: more

theorem map_render_rows (width level : Int) (p : Passage) :
    p.rows.map (Row.render width level) = p.lines width level := by
  unfold rows lines blanks Code.line Code.indent
  cases Text.lines p.text with
  | nil => rfl
  | cons first more =>
    by_cases hfirst : first = ""
    · simp [Row.indent, Row.render, Function.comp_def, hfirst]
    · simp [Row.indent, Row.render, Function.comp_def, hfirst]

theorem intercalate_lines (width level : Int) (p : Passage) :
    "\n".intercalate (p.lines width level) = p.blanks width level ++ p.text := by
  have htext := Text.intercalate_lines p.text
  unfold lines
  cases hlines : Text.lines p.text with
  | nil => exact absurd hlines (Text.lines_ne_nil p.text)
  | cons first more =>
    dsimp only
    rw [← htext, hlines]
    cases more with
    | nil => rw [String.intercalate_singleton, String.intercalate_singleton]
    | cons second more =>
      rw [String.intercalate_cons_of_ne_nil (List.cons_ne_nil _ _),
        String.intercalate_cons_of_ne_nil (List.cons_ne_nil _ _)]
      simp only [String.append_assoc]

theorem rows_shift (p : Passage) (levels : Nat) :
    ({ p with level := p.level + levels } : Passage).rows = p.rows.indent levels := by
  simp [rows, Code.indent, Function.comp_def, Row.indent_indent]

end Passage

/-- The writer's code is that of the outline. -/
structure Realizes (width : Int) (w : CodeWriter) (o : Outline) : Prop where
  width_eq : w.width = width
  level_eq : w.level = o.level
  rows_eq : w.rows = o.passages.flatMap Passage.rows

namespace Realizes
variable {width width' : Int} {w w' : CodeWriter} {o o' : Outline}

theorem line (h : Realizes width w o) (text : String) : Realizes width (w.line text) (o.line text) := by
  refine ⟨h.width_eq, h.level_eq, ?_⟩
  rw [CodeWriter.line, Outline.line, List.flatMap_append, List.flatMap_singleton, ← h.rows_eq, h.level_eq]
  rfl

theorem enter (h : Realizes width w o) (header : String) :
    Realizes width (w.enter header) (o.enter header) :=
  ⟨h.width_eq, congrArg (· + 1) h.level_eq, (h.line header).rows_eq⟩

theorem extend (h : Realizes width w o) (h' : Realizes width' w' o') :
    Realizes width (w.extend w') (o.extend o') := by
  refine ⟨h.width_eq, h.level_eq, ?_⟩
  rw [CodeWriter.extend, Outline.extend, List.flatMap_append, ← h.rows_eq, h'.rows_eq, h.level_eq,
    List.flatMap_map]
  simp only [Passage.rows_shift, Code.indent, List.map_flatMap]

end Realizes

theorem simulates_outlining {ι : Type} (widths : ι → Int) :
    codeWriting.Simulates outlining fun n => Realizes (widths n) where
  line := fun h => h.line
  enter := fun h => h.enter
  leave := fun h => ⟨h.width_eq, congrArg (· - 1) h.level_eq, h.rows_eq⟩
  extend := fun h _ _ _ h' => h.extend h'

/-- The lines of a writer's code, so many levels further in. -/
def CodeWriter.lines (w : CodeWriter) (level : Int) : List String :=
  w.rows.map (Row.render w.width level)

theorem CodeWriter.lines_extend {w o : CodeWriter} (h : w.width = o.width) (level : Int) :
    (w.extend o).lines level = w.lines level ++ o.lines (level + w.level) := by
  simp only [lines, extend, List.map_append, Code.indent, List.map_map, Function.comp_def,
    Row.render_indent, h]

theorem Realizes.lines_eq {width : Int} {w : CodeWriter} {o : Outline} (h : Realizes width w o)
    (level : Int) : w.lines level = o.passages.flatMap (Passage.lines width level) := by
  rw [CodeWriter.lines, h.width_eq, h.rows_eq, List.map_flatMap]
  exact List.flatMap_congr fun p _ => p.map_render_rows width level

namespace Passage

/-- The text stands in the page as it is, with nothing but its blanks in front of its first line. -/
def StandsIn (p : Passage) (width level : Int) (page : String) : Prop :=
  ∃ above below, page = "\n".intercalate (above ++ (p.blanks width level ++ p.text) :: below)

theorem lines_ne_nil (width level : Int) (p : Passage) : p.lines width level ≠ [] := by
  obtain ⟨first, more, hlines⟩ := List.exists_cons_of_ne_nil (Text.lines_ne_nil p.text)
  rw [lines, hlines]
  exact List.cons_ne_nil _ _

theorem standsIn_of_mem {p : Passage} {passages : List Passage} (h : p ∈ passages) (width level : Int) :
    p.StandsIn width level ("\n".intercalate (passages.flatMap (Passage.lines width level))) := by
  obtain ⟨before, behind, rfl⟩ := List.append_of_mem h
  have hsome : ∀ g ∈ (before ++ p :: behind).map (Passage.lines width level), g ≠ [] :=
    List.forall_mem_map.mpr fun q _ => q.lines_ne_nil width level
  refine ⟨before.map fun q => q.blanks width level ++ q.text,
    behind.map fun q => q.blanks width level ++ q.text, ?_⟩
  rw [List.flatMap_def, ← intercalate_flatten "\n" hsome, List.map_map]
  simp only [Function.comp_def, intercalate_lines, List.map_append, List.map_cons]

theorem exists_lines (p : Passage) : ∃ first more, Text.lines p.text = first :: more ∧
    ∀ width level, ∃ blanks, p.lines width level = ("".pushn ' ' blanks ++ first) :: more := by
  obtain ⟨first, more, hlines⟩ := List.exists_cons_of_ne_nil (Text.lines_ne_nil p.text)
  refine ⟨first, more, hlines, fun width level => ?_⟩
  simp only [lines, blanks, hlines]
  split
  · exact ⟨0, rfl⟩
  · exact ⟨_, rfl⟩

end Passage

/-- What has been done up to some moment: an action that is over, or the beginning of a block that is
not. -/
inductive Stage (ι : Type) where
  | done (action : WriterAction ι)
  | inside (writer : ι) (header : String)

section
variable {ι σ τ : Type} [DecidableEq ι]

def Stage.pass (d : Writing σ) : Stage ι → (ι → σ) → ι → σ
  | done a, s => (a.run d s).2
  | inside w header, s => Function.update s w (d.enter (s w) header)

def passAll (d : Writing σ) (stages : List (Stage ι)) (s : ι → σ) : ι → σ :=
  stages.foldl (fun s stage => stage.pass d s) s

theorem passAll_related {d : Writing σ} {d' : Writing τ} {R : ι → σ → τ → Prop} (h : d.Simulates d' R)
    (stages : List (Stage ι)) {s : ι → σ} {t : ι → τ} (hst : ∀ n, R n (s n) (t n)) (n : ι) :
    R n (passAll d stages s n) (passAll d' stages t n) := by
  induction stages generalizing s t with
  | nil => exact hst n
  | cons stage stages ih =>
    refine ih fun m => ?_
    cases stage with
    | done a => exact (WriterAction.run_related h a hst).2 m
    | inside w header => exact WriterAction.related_update hst (h.enter (hst w) header) m

theorem passages_passAll (stages : List (Stage ι)) (o : ι → Outline) (n : ι) :
    (o n).passages <+: (passAll outlining stages o n).passages := by
  induction stages generalizing o with
  | nil => exact List.prefix_rfl
  | cons stage stages ih =>
    refine List.IsPrefix.trans ?_ (ih (stage.pass outlining o))
    cases stage with
    | done a => exact WriterAction.run_keeps keeps_passages a o n
    | inside w header =>
      exact WriterAction.kept_update keeps_passages (List.prefix_append (o w).passages _) n

/-- The writers at some moment of a script that began with empty ones. -/
def written (widths : ι → Int) (stages : List (Stage ι)) : ι → CodeWriter :=
  passAll codeWriting stages fun n => { width := widths n }

/-- The texts that each writer, or one that it took over, has got by then. -/
def outlined (stages : List (Stage ι)) : ι → Outline := passAll outlining stages fun _ => {}

theorem realizes_written (widths : ι → Int) (stages : List (Stage ι)) (n : ι) :
    Realizes (widths n) (written widths stages n) (outlined stages n) :=
  passAll_related (simulates_outlining widths) stages (fun _ => ⟨rfl, rfl, rfl⟩) n

/-- Writers of equal widths nest line by line. A text that was passed to a writer, or to one that it
took over, stands in its code ever after as it is. A block ends at the level that it began at, also
when its body fails. With other widths the same texts have other blanks in front of their first
lines. -/
theorem streams_compose (widths : ι → Int) (stages : List (Stage ι)) :
    (∀ w o, w ≠ o → widths w = widths o → ∀ level,
      ((written widths stages w).extend (written widths stages o)).lines level =
        (written widths stages w).lines level ++
          (written widths stages o).lines (level + (written widths stages w).level)) ∧
    (∀ n, ∀ p ∈ (outlined stages n).passages, ∀ later level,
      p.StandsIn (widths n) level
        ((passAll codeWriting later (written widths stages) n).render level)) ∧
    (∀ w header body (s : ι → CodeWriter),
      (((WriterAction.block w header body).run codeWriting s).2 w).level = (s w).level) ∧
    ∀ widths' : ι → Int, ∀ n level,
      (written widths stages n).lines level =
        (outlined stages n).passages.flatMap (Passage.lines (widths n) level) ∧
      (written widths' stages n).lines level =
        (outlined stages n).passages.flatMap (Passage.lines (widths' n) level) ∧
      ∀ p ∈ (outlined stages n).passages, ∃ first more blanks blanks',
        Text.lines p.text = first :: more ∧
        p.lines (widths n) level = ("".pushn ' ' blanks ++ first) :: more ∧
        p.lines (widths' n) level = ("".pushn ' ' blanks' ++ first) :: more := by
  have hwritten := realizes_written widths stages
  refine ⟨?nest, ?text, ?level, ?width⟩
  case nest =>
    intro w o _ hwidths level
    refine CodeWriter.lines_extend ?_ level
    rw [(hwritten w).width_eq, (hwritten o).width_eq, hwidths]
  case text =>
    intro n p hp later level
    have hlater := passAll_related (simulates_outlining widths) later hwritten n
    have hkept := (passages_passAll later (outlined stages) n).subset hp
    have hstands := Passage.standsIn_of_mem hkept (widths n) level
    rwa [← hlater.lines_eq] at hstands
  case level =>
    intro w header body s
    exact WriterAction.run_keeps keeps_level (.block w header body) s w
  case width =>
    intro widths' n level
    refine ⟨(hwritten n).lines_eq level, (realizes_written widths' stages n).lines_eq level, ?_⟩
    intro p _
    obtain ⟨first, more, hlines, hall⟩ := p.exists_lines
    obtain ⟨blanks, hblanks⟩ := hall (widths n) level
    obtain ⟨blanks', hblanks'⟩ := hall (widths' n) level
    exact ⟨first, more, blanks, blanks', hlines, hblanks, hblanks'⟩

end

/-- A loop whose body fails behind a text of two lines, and then, in a routine that is not over, the
writer that takes it over. -/
def takenOver : List (Stage Bool) :=
  [.done (.attempt [.block false "for item in items:"
    [.line false "print(\"\"\"one\ntwo\"\"\")", .fail]]), .inside true "def routine():",
    .done (.extend true false Bool.noConfusion)]

theorem streams_compose_takenOver :
    true ≠ false ∧ (4 : Int) = 4 ∧ (written (fun _ => 4) takenOver true).level = 1 ∧
    (⟨2, "print(\"\"\"one\ntwo\"\"\")"⟩ : Passage) ∈ (outlined takenOver true).passages ∧
    (written (fun _ => 4) takenOver true).render 0 =
      "def routine():\n    for item in items:\n        print(\"\"\"one\ntwo\"\"\")" ∧
    (⟨2, "print(\"\"\"one\ntwo\"\"\")"⟩ : Passage).StandsIn 4 0
      ((written (fun _ => 4) takenOver true).render 0) ∧
    ((written (fun _ => 4) takenOver true).extend (written (fun _ => 4) takenOver false)).lines 0 =
      (written (fun _ => 4) takenOver true).lines 0 ++
        (written (fun _ => 4) takenOver false).lines (0 + (written (fun _ => 4) takenOver true).level) := by
  have hmem : (⟨2, "print(\"\"\"one\ntwo\"\"\")"⟩ : Passage) ∈ (outlined takenOver true).passages := by
    decide
  obtain ⟨hnest, htext, -⟩ := streams_compose (fun _ => 4) takenOver
  exact ⟨by decide, rfl, by decide, hmem, by decide, htext true _ hmem [] 0,
    hnest true false (by decide) rfl 0⟩

end ViewTree
