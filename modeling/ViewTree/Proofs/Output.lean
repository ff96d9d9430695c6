import ViewTree.Command
import ViewTree.Proofs.Writing

/-!
What a compile command puts out. Main statement: the run that prints the code and the run that writes
it to a file report the same errors and end with the same code, which says whether a component failed;
the file holds the module, and what is printed instead is the rows of the warnings with the module
behind them, which is the module alone only if there are no warnings (`Command.outputs_of_compiles`).
-/
namespace ViewTree

theorem Printed.append_eq (a b : Printed) : a ++ b = ⟨a.stdout ++ b.stdout, a.stderr ++ b.stderr,
    a.failed || b.failed, a.stopped || b.stopped, a.abort.or b.abort⟩ :=
  rfl

section
variable (p : Platform)

namespace Compilation

def warningRows (c : Compilation) : String :=
  String.join (c.components.map fun component => (c.componentRows p component).stdout)

def errorRows (c : Compilation) : String :=
  String.join (c.components.map fun component => (c.componentRows p component).stderr)

theorem foldl_rows (c : Compilation) (components : List CompiledComponent) (printed : Printed) :
    components.foldl (fun printed component => printed ++ c.componentRows p component) printed =
      { printed with
        stdout := printed.stdout ++ String.join (components.map fun k => (c.componentRows p k).stdout)
        stderr :=
          printed.stderr ++ String.join (components.map fun k => (c.componentRows p k).stderr) } := by
  induction components generalizing printed with
  | nil => simp
  | cons component components ih =>
    have hfailed : (c.componentRows p component).failed = false := rfl
    have hstopped : (c.componentRows p component).stopped = false := rfl
    have habort : (c.componentRows p component).abort = none := rfl
    rw [List.foldl_cons, ih, Printed.append_eq]
    simp [hfailed, hstopped, habort, String.append_assoc]

/-- The warnings go to one side and the errors to the other. -/
theorem diagnostics_eq (c : Compilation) :
    c.diagnostics p = { stdout := c.warningRows p, stderr := c.errorRows p } := by
  rw [diagnostics, foldl_rows]
  simp [warningRows, errorRows]

def IsQuiet (c : Compilation) : Prop := ∀ component ∈ c.components, component.warnings = []

variable {p} in
theorem warningRows_eq_empty_iff (hp : p.console.Lawful) (c : Compilation) :
    c.warningRows p = "" ↔ c.IsQuiet := by
  have hjoin (texts : List String) : String.join texts = "" ↔ ∀ text ∈ texts, text = "" := by
    simp [← String.toList_eq_nil_iff, String.toList_join]
  have hrow (component : CompiledComponent) :
      (c.componentRows p component).stdout = "" ↔ component.warnings = [] := by
    rw [componentRows, hjoin, List.forall_mem_map, List.eq_nil_iff_forall_not_mem]
    exact forall₂_congr fun w _ => iff_false_intro (hp.row_ne _)
  rw [warningRows, hjoin, List.forall_mem_map]
  exact forall₂_congr fun component _ => hrow component

end Compilation

namespace Command

section
variable {p} {files : Files} {given : Option Settings} {extended : Bool} {source : Path}
  {c : Compilation}

theorem exists_ofSource?_of_compileFile (h : compileFile p files given extended source = .ok c) :
    ∃ settings text, given.elim (Settings.discover files source p.loader) .ok = .ok settings ∧
      files.readText source = .ok text ∧
      Compilation.ofSource? settings source extended text = some c := by
  unfold compileFile at h
  dsimp only at h
  split at h
  · cases h
  next settings hsettings =>
  split at h
  · cases h
  · cases h
  next text htext =>
  split at h
  · next c' hc =>
    obtain rfl := Except.ok.inj h
    exact ⟨settings, text, hsettings, htext, hc⟩
  · cases h

theorem compileTo_none (h : compileFile p files given extended source = .ok c) :
    compileTo p files given extended source none = ⟨if c.isSuccess then 0 else 1,
      c.warningRows p ++ p.console.code c.render, c.errorRows p, files, none⟩ := by
  rw [compileTo, h]
  dsimp only
  rw [Compilation.diagnostics_eq, Printed.append_eq, Printed.append_eq, finish]
  cases c.isSuccess <;> simp

theorem compileTo_some {output : Path} {after : Files}
    (h : compileFile p files given extended source = .ok c)
    (hafter : files.write? output c.render = some after) :
    compileTo p files given extended source (some output) = ⟨if c.isSuccess then 0 else 1,
      c.warningRows p ++ (c.summary p).stdout, c.errorRows p, after, none⟩ := by
  rw [compileTo, h]
  dsimp only
  rw [hafter, Compilation.diagnostics_eq]
  dsimp only
  rw [Printed.append_eq, Printed.append_eq, finish, Compilation.summary]
  cases c.isSuccess <;> simp

end

/-- The settings, the file and its embedded texts can be read, and give the compilation. -/
def Compiles (files : Files) (o : CompileOptions) (source : Path) (c : Compilation) : Prop :=
  ∃ given, givenSettings p files o = .ok given ∧ compileFile p files given o.extended source = .ok c

/-- How the run that prints the code and the run that writes it to a file come out. -/
structure Outputs (files : Files) (c : Compilation) (output : Path) (printed written : Finished) :
    Prop where
  ended : printed.abort = none ∧ written.abort = none
  exit : printed.exit = written.exit
  failed : written.exit = if c.components.all (·.isSuccess) then 0 else 1
  /-- The errors are all that goes to the other side. -/
  errors : printed.stderr = c.errorRows p ∧ written.stderr = c.errorRows p
  /-- The file holds the module. No other file changes, and without an output none at all. -/
  file : written.files.find output = .file (some c.render)
  kept : files.Keeps written.files (some (output.resolve files.here)) ∧ printed.files = files
  /-- The warnings stand in front of the module, or of the row that counts the components. -/
  stdout : printed.stdout = c.warningRows p ++ p.console.code c.render ∧
    written.stdout = c.warningRows p ++ (c.summary p).stdout
  /-- So the module, if nothing in it can colour a terminal, is all that is printed exactly if there
  are no warnings. -/
  exact : '\x1b' ∉ c.render.toList → (printed.stdout = c.render ↔ c.IsQuiet)

variable {p} in
/-- Two runs that differ in the output alone, where reading and writing succeed: what the one prints
and the other writes. -/
theorem outputs_of_compiles (hp : p.console.Lawful) {files after : Files} {source output : Path}
    {o : CompileOptions} {c : Compilation} (h : Compiles p files o source c)
    (hafter : files.write? output c.render = some after) :
    Outputs p files c output (run p files (.compile source none o))
      (run p files (.compile source (some output) o)) := by
  obtain ⟨given, hgiven, hcompile⟩ := h
  obtain ⟨hfile, hkeeps⟩ := Files.find_of_write? hafter
  have hrun (output : Option Path) : run p files (.compile source output o) =
      compileTo p files given o.extended source output := by
    rw [run, withSettings, hgiven]
  rw [hrun, hrun, compileTo_none hcompile, compileTo_some hcompile hafter]
  constructor
  case ended => exact ⟨rfl, rfl⟩
  case exit => rfl
  case failed => rfl
  case errors => exact ⟨rfl, rfl⟩
  case file => exact hfile
  case kept => exact ⟨hkeeps, rfl⟩
  case stdout => exact ⟨rfl, rfl⟩
  case exact =>
    intro hplain
    rw [hp.code_eq _ hplain, ← Compilation.warningRows_eq_empty_iff hp, String.append_eq_right_iff]

end Command
end

namespace Console

theorem uncoloured_eq_self {count : Nat} {cs : List Char} (h : '\x1b' ∉ cs)
    (hcount : cs.length ≤ count) : uncoloured count cs = cs := by
  fun_induction uncoloured count cs with
  | case1 => rfl
  | case2 => rfl
  | case3 => exact (h List.mem_cons_self).elim
  | case4 => exact (h List.mem_cons_self).elim
  | case5 count c cs hother ih =>
    rw [ih (fun hmem => h (List.mem_cons_of_mem c hmem)) (Nat.le_of_succ_le_succ hcount)]

theorem lawful_plain : plain.Lawful where
  row_ne text := by
    show plainRow text ≠ ""
    simp [plainRow, ← String.toList_inj]
  code_eq text h := by
    show String.ofList (uncoloured text.length text.toList) = text
    rw [uncoloured_eq_self h (Nat.le_of_eq String.length_toList), String.ofList_toList]

end Console

namespace Command

/-- A component that never switches, which is worth a warning, and one that cannot be read. -/
def modesFiles : Files :=
  ⟨[], [(["t.view"], .text ("view Modes(m) \x7b Box \x7b match m \x7b _ => Label \x7d \x7d \x7d\n" ++
    "view Broken(m) \x7b Box \x7b title: \x7d \x7d\n"))]⟩

def modesPath : Path := ⟨"", ["t.view"]⟩
def modulePath : Path := ⟨"", ["gen", "t.py"]⟩

/-- A platform on whose console texts are written as they are. -/
def openPlatform : Platform := { console := ⟨(· ++ "\n"), fun code => code⟩ }

theorem lawful_openPlatform : openPlatform.console.Lawful where
  row_ne text := by simp [openPlatform]
  code_eq _ _ := rfl

def modesRow : String :=
  "WARNING: view Modes: t.view:1:23: Match 'stack_0' has a single arm and never switches\n"

/-- Whether the file is compiled and its code written, with what is said about the components. -/
def modesTest : Bool :=
  match compileFile openPlatform modesFiles none false modesPath with
  | .ok c => (modesFiles.write? modulePath c.render).isSome &&
      (c.components.map (·.isSuccess) = [true, false] && c.warningRows openPlatform = modesRow)
  | _ => false

theorem exists_compiles_modesFiles : ∃ c after,
    Compiles openPlatform modesFiles ⟨none, false⟩ modesPath c ∧
      modesFiles.write? modulePath c.render = some after ∧
      c.components.map (·.isSuccess) = [true, false] ∧ c.warningRows openPlatform = modesRow := by
  have htest : modesTest := by decide +kernel
  unfold modesTest at htest
  split at htest
  · next c hc =>
    simp only [Bool.and_eq_true, Option.isSome_iff_exists, decide_eq_true_eq] at htest
    obtain ⟨⟨after, hafter⟩, hsuccess, hrows⟩ := htest
    exact ⟨c, after, ⟨none, rfl, hc⟩, hafter, hsuccess, hrows⟩
  · cases htest

theorem outputs_modesFiles : openPlatform.console.Lawful ∧ ∃ c after,
    Compiles openPlatform modesFiles ⟨none, false⟩ modesPath c ∧
      modesFiles.write? modulePath c.render = some after ∧
      c.components.map (·.isSuccess) = [true, false] ∧
      Outputs openPlatform modesFiles c modulePath
        (run openPlatform modesFiles (.compile modesPath none ⟨none, false⟩))
        (run openPlatform modesFiles (.compile modesPath (some modulePath) ⟨none, false⟩)) := by
  obtain ⟨c, after, hc, hafter, hsuccess, -⟩ := exists_compiles_modesFiles
  exact ⟨lawful_openPlatform, c, after, hc, hafter, hsuccess,
    outputs_of_compiles lawful_openPlatform hc hafter⟩

/-- A warning is printed in front of the module that goes to the same side. -/
theorem stdout_modesFiles : ∃ c after,
    Compiles openPlatform modesFiles ⟨none, false⟩ modesPath c ∧
    modesFiles.write? modulePath c.render = some after ∧
    (run openPlatform modesFiles (.compile modesPath none ⟨none, false⟩)).stdout =
      modesRow ++ c.render ∧ modesRow ++ c.render ≠ c.render := by
  obtain ⟨c, after, ⟨given, hgiven, hcompile⟩, hafter, -, hrows⟩ := exists_compiles_modesFiles
  refine ⟨c, after, ⟨given, hgiven, hcompile⟩, hafter, ?_, fun heq => ?_⟩
  · rw [run, withSettings, hgiven]
    dsimp only
    rw [compileTo_none hcompile, hrows]
    rfl
  · rw [String.append_eq_right_iff] at heq
    exact absurd heq (by decide)

end Command
end ViewTree
