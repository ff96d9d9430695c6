import ViewTree.Proofs.Output
import ViewTree.Proofs.Totality

/-!
What a check command puts out. A file ends the run if it cannot be read, if there are no settings for
it, or if compiling it has no result at all. Main statements: a run over several files prints what the
runs over each of them print, up to the first file that ends it, it is successful exactly if all of these
are, and no file changes (`Command.checks_each`); the last kind of end is not wanted, and it hides the
files behind (`Command.check_panelFiles`).
-/
namespace ViewTree

/-- The elements up to the first at which it stops. -/
def upTo {α : Type} (stops : α → Bool) : List α → List α
  | [] => []
  | x :: xs => if stops x then [x] else x :: upTo stops xs

section
variable {α : Type} {stops : α → Bool} {x : α} {xs : List α}

theorem upTo_cons_of_stops (h : stops x = true) : upTo stops (x :: xs) = [x] := if_pos h

theorem upTo_cons_of_goes (h : stops x = false) : upTo stops (x :: xs) = x :: upTo stops xs := by
  rw [upTo, h, if_neg Bool.false_ne_true]

/-- It goes on everywhere but at the last one. -/
theorem goes_of_mem_dropLast (h : x ∈ (upTo stops xs).dropLast) : stops x = false := by
  induction xs with
  | nil => cases h
  | cons y ys ih =>
    cases hy : stops y with
    | true =>
      rw [upTo_cons_of_stops hy] at h
      cases h
    | false =>
      rw [upTo_cons_of_goes hy] at h
      cases hmore : upTo stops ys with
      | nil =>
        rw [hmore] at h
        cases h
      | cons z zs =>
        rw [hmore, List.dropLast_cons_cons] at h
        rw [hmore] at ih
        obtain rfl | h := List.mem_cons.mp h
        · exact hy
        · exact ih h

theorem upTo_subset (xs : List α) : upTo stops xs ⊆ xs := by
  induction xs with
  | nil => exact List.Subset.refl _
  | cons x xs ih =>
    cases hx : stops x with
    | true => exact upTo_cons_of_stops hx ▸ List.cons_subset_cons x (List.nil_subset xs)
    | false => exact upTo_cons_of_goes hx ▸ List.cons_subset_cons x ih

/-- Where it never stops it gets to the end. -/
theorem upTo_eq_self (h : ∀ x ∈ upTo stops xs, stops x = false) : upTo stops xs = xs := by
  induction xs with
  | nil => rfl
  | cons x xs ih =>
    cases hx : stops x with
    | true =>
      have hfirst := h x (by rw [upTo_cons_of_stops hx]; exact List.mem_singleton_self x)
      rw [hx] at hfirst
      cases hfirst
    | false =>
      rw [upTo_cons_of_goes hx] at h ⊢
      rw [ih fun y hy => h y (List.mem_cons_of_mem x hy)]

end

/-- What only the last element can give is what it gives. -/
theorem findSome?_eq_getLast? {α β : Type} {f : α → Option β} {xs : List α}
    (h : ∀ x ∈ xs.dropLast, f x = none) : xs.findSome? f = xs.getLast?.bind f := by
  obtain rfl | ⟨ys, x, rfl⟩ := List.eq_nil_or_concat xs
  · rfl
  · rw [List.concat_eq_append] at h ⊢
    rw [List.dropLast_concat] at h
    have hnone : ys.findSome? f = none := List.findSome?_eq_none_iff.mpr h
    rw [List.findSome?_append, hnone, List.getLast?_concat, Option.none_or, Option.bind_some,
      List.findSome?_singleton]

namespace Printed

def all (parts : List Printed) : Printed := parts.foldr (· ++ ·) {}

theorem all_eq (parts : List Printed) : all parts = ⟨String.join (parts.map (·.stdout)),
    String.join (parts.map (·.stderr)), parts.any (·.failed), parts.any (·.stopped),
    parts.findSome? (·.abort)⟩ := by
  induction parts with
  | nil => rfl
  | cons part parts ih =>
    rw [all, List.foldr_cons, ← all, ih, append_eq, List.findSome?_cons]
    cases part.abort <;> simp

theorem all_singleton (part : Printed) : all [part] = part := by
  rw [all_eq]
  simp

end Printed

/-- Nothing about the compilation counts as a failure. -/
theorem Compilation.passes_iff {strict : Bool} (c : Compilation) :
    (!c.isSuccess || (strict && c.hasWarnings)) = false ↔
      c.isSuccess = true ∧ (strict = true → c.IsQuiet) := by
  have hquiet : c.hasWarnings = false ↔ c.IsQuiet := by
    simp [hasWarnings, IsQuiet]
  rw [← hquiet]
  cases strict <;> simp

namespace Command

section
variable {p : Platform} {files : Files} {given : Option Settings} {strict extended : Bool}
  {source : Path}

variable (p files given extended source) in
/-- Whether a run over several files ends at the file. -/
def endsAt : Bool :=
  match compileFile p files given extended source with
  | .ok _ => false
  | .error _ => true

theorem endsAt_eq_false : endsAt p files given extended source = false ↔
    ∃ c, compileFile p files given extended source = .ok c := by
  unfold endsAt
  cases compileFile p files given extended source <;> simp

/-- A file ends the run without settings, without a text, or with one that has no result. -/
theorem endsAt_eq_true : endsAt p files given extended source = true ↔
    (∃ e, given.elim (Settings.discover files source p.loader) .ok = .error e) ∨
    (∃ e, files.readText source = .error e) ∨
    ∃ settings text, given.elim (Settings.discover files source p.loader) .ok = .ok settings ∧
      files.readText source = .ok text ∧
      Compilation.ofSource? settings source extended text = none := by
  constructor
  · intro h
    unfold endsAt compileFile at h
    cases hsettings : given.elim (Settings.discover files source p.loader) .ok with
    | error e => exact .inl ⟨e, rfl⟩
    | ok settings =>
      cases htext : files.readText source with
      | error e => exact .inr (.inl ⟨e, rfl⟩)
      | ok text =>
        cases hc : Compilation.ofSource? settings source extended text with
        | none => exact .inr (.inr ⟨settings, text, rfl, rfl, hc⟩)
        | some c => simp [hsettings, htext, hc] at h
  · intro h
    by_contra hcompiles
    obtain ⟨c, hc⟩ := endsAt_eq_false.mp (eq_false_of_ne_true hcompiles)
    obtain ⟨settings, text, hsettings, htext, hsource⟩ := exists_ofSource?_of_compileFile hc
    rcases h with ⟨e, he⟩ | ⟨e, he⟩ | ⟨settings', text', hsettings', htext', hnone⟩
    · simp [hsettings] at he
    · simp [htext] at he
    · obtain rfl := Except.ok.inj (hsettings'.symm.trans hsettings)
      obtain rfl := Except.ok.inj (htext'.symm.trans htext)
      simp [hsource] at hnone

/-- Without settings a run has failed and goes no further. -/
theorem stopped_withoutSettings (label : String) (e : LoadError) :
    (withoutSettings p label e).stopped = true ∧ (withoutSettings p label e).failed = true := by
  cases e <;> exact ⟨rfl, rfl⟩

/-- A file that cannot be compiled ends the run as a failure. -/
theorem stopped_of_compileFile {printed : Printed}
    (h : compileFile p files given extended source = .error printed) :
    printed.stopped = true ∧ printed.failed = true := by
  unfold compileFile at h
  dsimp only at h
  split at h
  · next e _ =>
    obtain rfl := Except.error.inj h
    exact stopped_withoutSettings _ e
  split at h
  · obtain rfl := Except.error.inj h
    exact ⟨rfl, rfl⟩
  · obtain rfl := Except.error.inj h
    exact ⟨rfl, rfl⟩
  split at h
  · cases h
  · obtain rfl := Except.error.inj h
    exact ⟨rfl, rfl⟩

/-- A compiled file prints its diagnostics and how many components it has. -/
theorem checkFile_of_compiles {c : Compilation}
    (h : compileFile p files given extended source = .ok c) :
    checkFile p files given strict extended source = ⟨c.warningRows p ++ (c.summary p).stdout,
      c.errorRows p, !c.isSuccess || (strict && c.hasWarnings), false, none⟩ := by
  rw [checkFile, h]
  dsimp only
  rw [Compilation.diagnostics_eq, Printed.append_eq, Printed.append_eq, Compilation.summary]
  simp

theorem checkFile_of_endsAt (h : endsAt p files given extended source = true) :
    (checkFile p files given strict extended source).stopped = true ∧
      (checkFile p files given strict extended source).failed = true := by
  cases hcompile : compileFile p files given extended source with
  | error printed =>
    rw [checkFile, hcompile]
    exact stopped_of_compileFile hcompile
  | ok c =>
    rw [endsAt_eq_false.mpr ⟨c, hcompile⟩] at h
    cases h

/-- Files are checked one by one, and what is printed is put together. -/
theorem checkFiles_eq (sources : List Path) : checkFiles p files given strict extended sources =
    Printed.all ((upTo (endsAt p files given extended) sources).map
      (checkFile p files given strict extended)) := by
  induction sources with
  | nil => rfl
  | cons source others ih =>
    rw [checkFiles]
    cases hends : endsAt p files given extended source with
    | true =>
      rw [upTo_cons_of_stops hends, if_pos (checkFile_of_endsAt hends).1]
      exact (Printed.all_singleton _).symm
    | false =>
      obtain ⟨c, hc⟩ := endsAt_eq_false.mp hends
      have hgoes : ¬(checkFile p files given strict extended source).stopped = true := by
        rw [checkFile_of_compiles hc]
        exact Bool.false_ne_true
      rw [upTo_cons_of_goes hends, if_neg hgoes, ih]
      rfl

/-- A file passes if its components all have code and, in a strict run, no warnings. -/
theorem checkFile_passes_iff : (checkFile p files given strict extended source).failed = false ↔
    ∃ c, compileFile p files given extended source = .ok c ∧ c.isSuccess = true ∧
      (strict = true → c.IsQuiet) := by
  cases hends : endsAt p files given extended source with
  | true =>
    refine iff_of_false (fun hpasses => ?_) fun ⟨c, hc, _⟩ => ?_
    · exact Bool.false_ne_true (hpasses.symm.trans (checkFile_of_endsAt hends).2)
    · exact Bool.false_ne_true ((endsAt_eq_false.mpr ⟨c, hc⟩).symm.trans hends)
  | false =>
    obtain ⟨c, hc⟩ := endsAt_eq_false.mp hends
    rw [checkFile_of_compiles hc, c.passes_iff]
    refine ⟨fun hpasses => ⟨c, hc, hpasses⟩, ?_⟩
    rintro ⟨c', hc', hpasses⟩
    obtain rfl := Except.ok.inj (hc'.symm.trans hc)
    exact hpasses

end

theorem exit_finish {files : Files} {printed : Printed} :
    (finish files printed).exit = 0 ↔ printed.failed = false := by
  cases hfailed : printed.failed <;> simp [finish, hfailed]

section
variable {p : Platform} {files : Files} {given : Option Settings} {o : CompileOptions}

theorem run_check (h : givenSettings p files o = .ok given) (strict : Bool) (sources : List Path) :
    run p files (.check sources strict o) =
      finish files (Printed.all ((upTo (endsAt p files given o.extended) sources).map
        (checkFile p files given strict o.extended))) := by
  rw [run, withSettings, h]
  dsimp only
  rw [checkFiles_eq]

theorem run_single (h : givenSettings p files o = .ok given) (strict : Bool) (source : Path) :
    run p files (.check [source] strict o) =
      finish files (checkFile p files given strict o.extended source) := by
  have hreached : upTo (endsAt p files given o.extended) [source] = [source] := by
    rw [upTo, upTo, ite_self]
  rw [run_check h, hreached, List.map_singleton, Printed.all_singleton]

end

/-- How the run over several files and those over each of them come out. -/
structure ChecksEach (p : Platform) (files : Files) (given : Option Settings) (strict : Bool)
    (o : CompileOptions) (sources : List Path) : Prop where
  /-- All that is printed is what the single runs print, as far as the run gets. -/
  stdout : (run p files (.check sources strict o)).stdout =
    String.join ((upTo (endsAt p files given o.extended) sources).map fun source =>
      (run p files (.check [source] strict o)).stdout)
  stderr : (run p files (.check sources strict o)).stderr =
    String.join ((upTo (endsAt p files given o.extended) sources).map fun source =>
      (run p files (.check [source] strict o)).stderr)
  /-- It is aborted as the single run over the last file that it gets to is. -/
  abort : (run p files (.check sources strict o)).abort =
    (upTo (endsAt p files given o.extended) sources).getLast?.bind fun source =>
      (run p files (.check [source] strict o)).abort
  kept : (run p files (.check sources strict o)).files = files
  /-- It is successful if all single runs are. -/
  exit : (run p files (.check sources strict o)).exit = 0 ↔
    ∀ source ∈ sources, (run p files (.check [source] strict o)).exit = 0
  /-- A single run is successful if every component is compiled and none has a warning that counts. -/
  single : ∀ source, (run p files (.check [source] strict o)).exit = 0 ↔
    ∃ c, Compiles p files o source c ∧ c.isSuccess = true ∧ (strict = true → c.IsQuiet)
  /-- A run gets past a file that has settings, can be read and gives a result. -/
  ends : ∀ source, endsAt p files given o.extended source = true ↔
    (∃ e, given.elim (Settings.discover files source p.loader) .ok = .error e) ∨
    (∃ e, files.readText source = .error e) ∨
    ∃ settings text, given.elim (Settings.discover files source p.loader) .ok = .ok settings ∧
      files.readText source = .ok text ∧
      Compilation.ofSource? settings source o.extended text = none

theorem checks_each {p : Platform} {files : Files} {given : Option Settings} {o : CompileOptions}
    (h : givenSettings p files o = .ok given) (strict : Bool) (sources : List Path) :
    ChecksEach p files given strict o sources := by
  constructor
  case stdout =>
    simp only [run_single h, run_check h, Printed.all_eq, finish, List.map_map, Function.comp_def]
  case stderr =>
    simp only [run_single h, run_check h, Printed.all_eq, finish, List.map_map, Function.comp_def]
  case abort =>
    simp only [run_single h, run_check h, Printed.all_eq, finish, List.findSome?_map,
      Function.comp_def]
    refine findSome?_eq_getLast? fun source hsource => ?_
    obtain ⟨c, hc⟩ := endsAt_eq_false.mp (goes_of_mem_dropLast hsource)
    rw [checkFile_of_compiles hc]
  case kept =>
    rw [run_check h]
    rfl
  case exit =>
    simp only [run_single h, run_check h, exit_finish, Printed.all_eq, List.any_map,
      Function.comp_def, List.any_eq_false, Bool.not_eq_true]
    constructor
    · intro hreached
      have hall : upTo (endsAt p files given o.extended) sources = sources := by
        refine upTo_eq_self fun source hsource => ?_
        obtain ⟨c, hc, -⟩ := checkFile_passes_iff.mp (hreached source hsource)
        exact endsAt_eq_false.mpr ⟨c, hc⟩
      rwa [hall] at hreached
    · exact fun hall source hsource => hall source (upTo_subset sources hsource)
  case single =>
    intro source
    rw [run_single h, exit_finish, checkFile_passes_iff]
    refine exists_congr fun c => and_congr_left fun _ => ⟨fun hc => ⟨given, h, hc⟩, ?_⟩
    rintro ⟨given', hgiven', hc⟩
    obtain rfl := Except.ok.inj (hgiven'.symm.trans h)
    exact hc
  case ends => exact fun source => endsAt_eq_true

/-- A file that compiles with a warning and an error, one that is missing, and the first again. -/
def modesSources : List Path := [modesPath, ⟨"", ["n.view"]⟩, modesPath]

theorem checks_each_modesFiles : givenSettings openPlatform modesFiles ⟨none, false⟩ = .ok none ∧
    ChecksEach openPlatform modesFiles none true ⟨none, false⟩ modesSources ∧
    upTo (endsAt openPlatform modesFiles none false) modesSources = modesSources.take 2 ∧
    (run openPlatform modesFiles (.check modesSources true ⟨none, false⟩)).exit = 1 ∧
    (run openPlatform modesFiles (.check modesSources true ⟨none, false⟩)).stdout =
      modesRow ++ "t.view: 1/2 components OK\n" :=
  ⟨rfl, checks_each rfl true modesSources, by decide +kernel, by decide +kernel, by decide +kernel⟩

/-- A file with a pattern that cannot be written on one line, and one with nothing wrong. -/
def panelFiles : Files :=
  ⟨[], [(["panel.view"], .text Compilation.panelView),
    (["clock.view"], .text "view Clock(model) \x7b Gtk.Label \x7d\n")]⟩

def panelPath : Path := ⟨"", ["panel.view"]⟩
def clockPath : Path := ⟨"", ["clock.view"]⟩

/-- The first file ends the run though it has settings and can be read; nothing is said about the
second one, which passes. -/
theorem check_panelFiles :
    (Settings.discover panelFiles panelPath).toOption.isSome ∧
    panelFiles.readText panelPath = .ok Compilation.panelView ∧
    (run openPlatform panelFiles (.check [panelPath, clockPath] false ⟨none, false⟩)).abort =
      some .unusable ∧
    (run openPlatform panelFiles (.check [panelPath, clockPath] false ⟨none, false⟩)).stdout = "" ∧
    (run openPlatform panelFiles (.check [clockPath] false ⟨none, false⟩)).exit = 0 ∧
    (run openPlatform panelFiles (.check [clockPath] false ⟨none, false⟩)).stdout =
      "clock.view: 1/1 components OK\n" := by
  decide +kernel

end Command
end ViewTree
