import Mathlib.Data.List.Infix
import ViewTree.Proofs.Settings.Loading

/-!
Settings from the nearest file. Main statement: the settings that apply to a path are those of the
first file that is met on the way from its directory up to the root, and no other file matters
(`Settings.discover_nearest`).
-/
namespace ViewTree

def stepTo (place : List String) (segment : String) : List String :=
  if segment = ".." then place.dropLast else place ++ [segment]

theorem Path.resolve_eq (here : List String) (p : Path) :
    p.resolve here = p.segments.foldl stepTo (if p.root = "" then here else []) := rfl

theorem foldl_stepTo (place : List String) {segments : List String} (h : ".." ∉ segments) :
    segments.foldl stepTo place = place ++ segments := by
  induction segments generalizing place with
  | nil => simp
  | cons s segments ih =>
    rw [List.mem_cons, not_or] at h
    rw [List.foldl_cons, ih _ h.2, stepTo, if_neg (Ne.symm h.1)]
    simp

theorem dots_notMem_foldl_stepTo {place segments : List String} (h : ".." ∉ place) :
    ".." ∉ segments.foldl stepTo place := by
  induction segments generalizing place with
  | nil => exact h
  | cons s segments ih =>
    refine ih ?_
    unfold stepTo
    split
    · exact fun hmem => h (List.mem_of_mem_dropLast hmem)
    · rename_i hs
      simp [h, Ne.symm hs]

theorem Path.resolve_child (here : List String) (p : Path) {name : String} (h : name ≠ "..") :
    (p.child name).resolve here = p.resolve here ++ [name] := by
  rw [resolve_eq, resolve_eq, child]
  simp [List.foldl_append, stepTo, h]

namespace Files

variable {f : Files}

/-- Nothing is inside a file, neither what is stored nor the working directory, which is named by
the segments from the root on. -/
structure IsTree (f : Files) : Prop where
  files : ∀ s ∈ f.stored, ∀ t ∈ f.stored, s.1 <+: t.1 → s.1 ≠ t.1 → s.2 = .folder
  here : ∀ s ∈ f.stored, s.1 <+: f.here → s.2 = .folder
  dots : ".." ∉ f.here

theorem IsTree.entry_eq_folder (hf : f.IsTree) {place : List String} {name : String}
    (h : f.entry (place ++ [name]) ≠ .missing) : f.entry place = .folder := by
  have hbelow : place ++ [name] <+: f.here ∨ ∃ t ∈ f.stored, place ++ [name] <+: t.1 := by
    unfold entry stored? at h
    cases hfind : f.stored.find? fun s => s.1 = place ++ [name] with
    | some t =>
      have hplace : t.1 = place ++ [name] := by simpa using List.find?_some hfind
      exact .inr ⟨t, List.mem_of_find?_eq_some hfind, hplace ▸ List.prefix_rfl⟩
    | none =>
      rw [hfind] at h
      simp only [Option.map_none, ne_eq, ite_eq_right_iff, reduceCtorEq, imp_false,
        Decidable.not_not, Bool.or_eq_true, List.isPrefixOf_iff_prefix, List.any_eq_true] at h
      exact h
  have hplace : place <+: place ++ [name] := List.prefix_append ..
  unfold entry stored?
  cases hfind : f.stored.find? fun s => s.1 = place with
  | some s =>
    have hsame : s.1 = place := by simpa using List.find?_some hfind
    have hfolder : s.2 = .folder := by
      have hs := List.mem_of_find?_eq_some hfind
      rcases hbelow with hhere | ⟨t, ht, hprefix⟩
      · exact hf.here s hs (hsame ▸ hplace.trans hhere)
      · refine hf.files s hs t ht (hsame ▸ hplace.trans hprefix) fun heq => ?_
        have hlength := hprefix.length_le
        rw [← heq, hsame, List.length_append, List.length_singleton] at hlength
        omega
    simp [hfolder]
  | none =>
    refine if_pos ?_
    simp only [Bool.or_eq_true, List.isPrefixOf_iff_prefix, List.any_eq_true]
    exact hbelow.imp hplace.trans fun ⟨t, ht, hprefix⟩ => ⟨t, ht, hplace.trans hprefix⟩

/-- Each pair of dots among the segments leaves a folder. -/
def LeavesFolders (f : Files) (place : List String) : List String → Prop
  | [] => True
  | s :: more => (s = ".." → f.entry place = .folder) ∧ f.LeavesFolders (stepTo place s) more

theorem leavesFolders_of_notMem {place segments : List String} (h : ".." ∉ segments) :
    f.LeavesFolders place segments := by
  induction segments generalizing place with
  | nil => trivial
  | cons s segments ih =>
    rw [List.mem_cons, not_or] at h
    exact ⟨fun hs => absurd hs.symm h.1, ih h.2⟩

theorem leavesFolders_concat {place segments : List String} {name : String} (hname : name ≠ "..") :
    f.LeavesFolders place (segments ++ [name]) ↔ f.LeavesFolders place segments := by
  induction segments generalizing place with
  | nil => simp [LeavesFolders, hname]
  | cons s segments ih => rw [List.cons_append, LeavesFolders, LeavesFolders, ih]

theorem walk_cons_of_folder {place : List String} (h : f.entry place = .folder) (s : String)
    (more : List String) : f.walk place (s :: more) = f.walk (stepTo place s) more := by
  rw [walk, h]
  rfl

/-- Whatever is found at the end of a way is at the place that the segments lead to. -/
theorem entry_of_walk {place segments : List String} {found : Found}
    (h : f.walk place segments = found) (hmissing : found ≠ .missing) (hblocked : found ≠ .blocked) :
    f.entry (segments.foldl stepTo place) = found := by
  induction segments generalizing place with
  | nil => exact h
  | cons s more ih =>
    cases hentry : f.entry place with
    | folder => exact ih ((walk_cons_of_folder hentry s more).symm.trans h)
    | file content => exact absurd (by rw [← h, walk, hentry]) hblocked
    | missing => exact absurd (by rw [← h, walk, hentry]) hmissing
    | blocked => exact absurd (by rw [← h, walk, hentry]) hblocked

/-- In a tree, what is at a place is found along every way that leads there. -/
theorem IsTree.walk_eq (hf : f.IsTree) {place segments : List String}
    (hdots : f.LeavesFolders place segments)
    (h : f.entry (segments.foldl stepTo place) ≠ .missing) :
    f.walk place segments = f.entry (segments.foldl stepTo place) := by
  induction segments generalizing place with
  | nil => rfl
  | cons s more ih =>
    rw [List.foldl_cons] at h ⊢
    have hmore := ih hdots.2 h
    refine (walk_cons_of_folder ?_ s more).trans hmore
    by_cases hs : s = ".."
    · exact hdots.1 hs
    · have hnext : f.entry (stepTo place s) ≠ .missing := by
        intro hmissing
        refine h (hmore ▸ ?_)
        cases more with
        | nil => exact hmissing
        | cons s more => rw [walk, hmissing]
      rw [stepTo, if_neg hs] at hnext
      exact hf.entry_eq_folder hnext

instance decidableLeavesFolders (f : Files) :
    (place segments : List String) → Decidable (f.LeavesFolders place segments)
  | _, [] => .isTrue trivial
  | place, s :: more =>
    have := decidableLeavesFolders f (stepTo place s) more
    inferInstanceAs (Decidable ((s = ".." → f.entry place = .folder) ∧ _))

/-- The path leaves only folders by dots. -/
def IsSound (f : Files) (p : Path) : Prop :=
  f.LeavesFolders (if p.root = "" then f.here else []) p.segments

instance (f : Files) (p : Path) : Decidable (f.IsSound p) := decidableLeavesFolders ..

theorem IsSound.child {p : Path} (h : f.IsSound p) {name : String} (hname : name ≠ "..") :
    f.IsSound (p.child name) := (leavesFolders_concat hname).mpr h

/-- The file at the path is the one at the place that the path leads to. -/
theorem IsTree.find_eq_file_iff (hf : f.IsTree) {p : Path} (hp : f.IsSound p)
    {content : Option String} :
    f.find p = .file content ↔ f.entry (p.resolve f.here) = .file content := by
  rw [Path.resolve_eq, find]
  refine ⟨fun h => entry_of_walk h nofun nofun, fun h => ?_⟩
  rw [hf.walk_eq hp (by rw [h]; nofun), h]

theorem resolve_pathTo (f : Files) {place : List String} (h : ".." ∉ place) :
    (f.pathTo place).resolve f.here = place := by
  rw [Path.resolve_eq, pathTo]
  split
  · rename_i hprefix
    obtain ⟨more, rfl⟩ := List.isPrefixOf_iff_prefix.mp hprefix
    simp only [List.mem_append, not_or] at h
    simp [foldl_stepTo _ h.2]
  · simpa using foldl_stepTo [] h

theorem isSound_pathTo (f : Files) {place : List String} (h : ".." ∉ place) :
    f.IsSound (f.pathTo place) := by
  refine leavesFolders_of_notMem ?_
  rw [pathTo]
  split
  · exact fun hmem => h (List.mem_of_mem_drop hmem)
  · exact h

/-- The directory of a path: the path itself if a folder is there, else what the path is in. -/
def directory (f : Files) (start : Path) : Path := if f.isFolder start then start else start.parent

def levels (place : List String) : List (List String) := place.inits.reverse

theorem levels_eq (place : List String) :
    levels place = place :: ((List.range place.length).reverse.map place.take) := by
  have hinits : place.inits = (List.range (place.length + 1)).map place.take := by
    refine List.ext_getElem (by simp) fun i h _ => ?_
    simp [List.getElem_inits]
  rw [levels, hinits, List.range_succ]
  simp

def startPlace (f : Files) (start : Path) : List String := (f.directory start).resolve f.here

theorem dots_notMem_startPlace (hf : f.IsTree) (start : Path) : ".." ∉ f.startPlace start := by
  rw [startPlace, Path.resolve_eq]
  refine dots_notMem_foldl_stepTo ?_
  split
  · exact hf.dots
  · simp

/-- The directories that are looked at are those of the levels, from the place of the start on. -/
theorem map_resolve_directories (hf : f.IsTree) (start : Path) :
    (f.directories start).map (Path.resolve f.here) = levels (f.startPlace start) := by
  have hdots := dots_notMem_startPlace hf start
  rw [startPlace, levels_eq, directories]
  simp only [List.map_cons, List.map_map]
  refine congrArg _ (List.map_congr_left fun n _ => ?_)
  exact f.resolve_pathTo fun hmem => hdots (List.mem_of_mem_take hmem)

theorem isSound_of_mem_directories (hf : f.IsTree) {start : Path}
    (h : f.IsSound (f.directory start)) : ∀ d ∈ f.directories start, f.IsSound d := by
  refine List.forall_mem_cons.mpr ⟨h, fun d hd => ?_⟩
  obtain ⟨n, -, rfl⟩ := List.mem_map.mp hd
  exact f.isSound_pathTo fun hmem => dots_notMem_startPlace hf start (List.mem_of_mem_take hmem)

def holdsFile (f : Files) (place : List String) : Bool :=
  match f.entry place with
  | .file _ => true
  | _ => false

def textAt? (f : Files) (place : List String) : Option String :=
  match f.entry place with
  | .file (some content) => some (String.ofList (Text.unifyLineEnds content.toList))
  | _ => none

theorem exists_of_holdsFile {place : List String} (h : f.holdsFile place) :
    ∃ content, f.entry place = .file content := by
  unfold holdsFile at h
  split at h
  · rename_i content hentry
    exact ⟨content, hentry⟩
  · nomatch h

theorem IsTree.isFile_eq (hf : f.IsTree) {p : Path} (hp : f.IsSound p) :
    f.isFile p = f.holdsFile (p.resolve f.here) := by
  refine Bool.eq_iff_iff.mpr ⟨fun h => ?_, fun h => ?_⟩
  · unfold isFile at h
    split at h
    · rename_i content hfind
      rw [holdsFile, (hf.find_eq_file_iff hp).mp hfind]
    · nomatch h
  · obtain ⟨content, hentry⟩ := exists_of_holdsFile h
    rw [isFile, (hf.find_eq_file_iff hp).mpr hentry]

theorem IsTree.isFile_child (hf : f.IsTree) {d : Path} (hd : f.IsSound d) {name : String}
    (hname : name ≠ "..") : f.isFile (d.child name) = f.holdsFile (d.resolve f.here ++ [name]) := by
  rw [hf.isFile_eq (hd.child hname), Path.resolve_child _ _ hname]

theorem IsTree.readText_eq (hf : f.IsTree) {p : Path} (hp : f.IsSound p) {text : String}
    (h : f.textAt? (p.resolve f.here) = some text) : f.readText p = .ok text := by
  unfold textAt? at h
  split at h
  · rename_i content hentry
    rw [readText, (hf.find_eq_file_iff hp).mpr hentry]
    exact congrArg _ (Option.some.inj h)
  · nomatch h

end Files

namespace Settings

/-- The file at the place is a document with an entry for settings among those of the tools. -/
def describesSettings (l : Loader) (f : Files) (place : List String) : Bool :=
  match (f.textAt? place).map (Toml.Document.read · l.room) with
  | some (.ok root) =>
    match Datum.find? "tool" root with
    | some (.table tools) => (Datum.find? "viewforge" tools).isSome
    | _ => false
  | _ => false

/-- The name of the file with the settings of a directory: its settings file, else its project file
if that says something about settings. -/
def settingsName? (l : Loader) (f : Files) (place : List String) : Option String :=
  if f.holdsFile (place ++ [settingsFile]) then some settingsFile
  else if describesSettings l f (place ++ [projectFile]) then some projectFile
  else none

/-- The place of the first file with settings on the way from a place up to the root. -/
def nearest? (l : Loader) (f : Files) (place : List String) : Option (List String) :=
  (Files.levels place).findSome? fun level => (settingsName? l f level).map (level ++ [·])

def searched (l : Loader) (f : Files) : List (List String) → List (List String)
  | [] => []
  | place :: more =>
    place :: if (settingsName? l f place).isSome then [] else searched l f more

/-- A project file of the directory is a text, and no document with too many digits or nested values or
with something else than a table of tools. -/
def hasPlainProject (l : Loader) (f : Files) (place : List String) : Bool :=
  !f.holdsFile (place ++ [projectFile]) ||
    (f.textAt? (place ++ [projectFile])).any fun text =>
      match Toml.Document.read text l.room with
      | .ok root => match Datum.find? "tool" root with
        | none | some (.table _) => true
        | some _ => false
      | .error problem => problem = .malformed

section
variable {l : Loader}

theorem mem_names_of_settingsName? {f : Files} {place : List String} {name : String}
    (h : settingsName? l f place = some name) :
    name ∈ [settingsFile, projectFile] ∧ f.holdsFile (place ++ [name]) := by
  unfold settingsName? at h
  split at h
  · rename_i hown
    obtain rfl := Option.some.inj h
    exact ⟨by simp, hown⟩
  · split at h
    · rename_i hproject
      obtain rfl := Option.some.inj h
      refine ⟨by simp, ?_⟩
      unfold describesSettings at hproject
      unfold Files.textAt? at hproject
      rw [Files.holdsFile]
      split <;> simp_all
    · nomatch h

theorem ne_dots_of_mem_names {name : String} (h : name ∈ [settingsFile, projectFile]) :
    name ≠ ".." := by
  rcases List.mem_pair.mp h with rfl | rfl <;> decide

theorem mentions_table (name : String) (entries : List (String × Datum)) :
    mentions name (.table entries) = .ok (Datum.find? name entries).isSome := by
  refine congrArg Except.ok (Bool.eq_iff_iff.mpr ?_)
  simp [Datum.find?]

section Directory

variable {f : Files} (hf : f.IsTree) {d : Path} (hd : f.IsSound d)
include hf hd

theorem hasSettings_child (hproject : hasPlainProject l f (d.resolve f.here))
    (h : f.holdsFile (d.resolve f.here ++ [projectFile])) :
    hasSettings l f (d.child projectFile) =
      .ok (describesSettings l f (d.resolve f.here ++ [projectFile])) := by
  have hname : projectFile ≠ ".." := by decide
  rw [hasPlainProject, h, Bool.not_true, Bool.false_or, Option.any_eq_true] at hproject
  obtain ⟨text, htext, hplain⟩ := hproject
  have hread : f.readText (d.child projectFile) = .ok text :=
    hf.readText_eq (hd.child hname) (by rw [Path.resolve_child _ _ hname, htext])
  rw [hasSettings, readDocument_eq hread, describesSettings, htext, Option.map_some]
  cases hdocument : Toml.Document.read text l.room with
  | error problem =>
    cases problem with
    | malformed => rfl
    | oversized e => rw [hdocument] at hplain; nomatch hplain
  | ok root =>
    cases hfind : Datum.find? "tool" root with
    | none =>
      simp only [hfind, Option.getD_none, mentions_table]
      rfl
    | some own =>
      simp only [hdocument, hfind] at hplain
      cases own with
      | table tools =>
        simp only [hfind, Option.getD_some, mentions_table]
        rfl
      | _ => nomatch hplain

/-- The search ends at a directory that has settings, and goes on from one that has none. -/
theorem firstOf_cons (hproject : hasPlainProject l f (d.resolve f.here)) (more : List Path) :
    firstOf l f (d :: more) = match settingsName? l f (d.resolve f.here) with
      | some name => load f (d.child name) l
      | none => firstOf l f more := by
  have hown := hf.isFile_child hd (show settingsFile ≠ ".." by decide)
  have hother := hf.isFile_child hd (show projectFile ≠ ".." by decide)
  rw [firstOf, settingsName?, hown, hother]
  split
  · rfl
  · by_cases hholds : f.holdsFile (d.resolve f.here ++ [projectFile])
    · rw [if_pos hholds, hasSettings_child hf hd hproject hholds]
      simp only [bind, Except.bind]
      split <;> rfl
    · have hnone : describesSettings l f (d.resolve f.here ++ [projectFile]) = false := by
        unfold describesSettings Files.textAt?
        unfold Files.holdsFile at hholds
        split at hholds <;> simp_all
      rw [if_neg hholds, hnone]
      rfl

end Directory

theorem firstOf_eq {f : Files} (hf : f.IsTree) {directories : List Path}
    (hsound : ∀ d ∈ directories, f.IsSound d)
    (hproject : ∀ level ∈ searched l f (directories.map (Path.resolve f.here)),
      hasPlainProject l f level) :
    match (directories.map (Path.resolve f.here)).findSome? fun level =>
        (settingsName? l f level).map (level ++ [·]) with
    | none => firstOf l f directories = .ok {}
    | some target => ∃ p, p.resolve f.here = target ∧ f.find p = f.entry target ∧
        firstOf l f directories = load f p l := by
  induction directories with
  | nil => rfl
  | cons d more ih =>
    rw [List.forall_mem_cons] at hsound
    rw [List.map_cons, searched, List.forall_mem_cons] at hproject
    rw [List.map_cons, List.findSome?_cons, firstOf_cons hf hsound.1 hproject.1]
    cases hname : settingsName? l f (d.resolve f.here) with
    | none =>
      rw [hname] at hproject
      exact ih hsound.2 hproject.2
    | some name =>
      obtain ⟨hmem, hholds⟩ := mem_names_of_settingsName? hname
      have hdots := ne_dots_of_mem_names hmem
      have hplace := Path.resolve_child f.here d hdots
      obtain ⟨content, hentry⟩ := Files.exists_of_holdsFile hholds
      refine ⟨d.child name, hplace, ?_, rfl⟩
      rw [hentry, hf.find_eq_file_iff (hsound.1.child hdots), hplace, hentry]

section Agreement

variable {f g : Files} {place : List String}
  (h : ∀ name ∈ [settingsFile, projectFile], g.entry (place ++ [name]) = f.entry (place ++ [name]))
include h

theorem settingsName?_congr : settingsName? l g place = settingsName? l f place := by
  have hown : g.holdsFile (place ++ [settingsFile]) = f.holdsFile (place ++ [settingsFile]) := by
    rw [Files.holdsFile, Files.holdsFile, h settingsFile (by simp)]
  have hproject : g.textAt? (place ++ [projectFile]) = f.textAt? (place ++ [projectFile]) := by
    rw [Files.textAt?, Files.textAt?, h projectFile (by simp)]
  rw [settingsName?, settingsName?, hown, describesSettings, describesSettings, hproject]

theorem hasPlainProject_congr : hasPlainProject l g place = hasPlainProject l f place := by
  have hproject := h projectFile (by simp)
  rw [hasPlainProject, hasPlainProject, Files.holdsFile, Files.holdsFile, Files.textAt?,
    Files.textAt?, hproject]

end Agreement

theorem load_congr {f g : Files} {p : Path} (h : g.find p = f.find p) : load g p l = load f p l := by
  have hread : g.readText p = f.readText p := by rw [Files.readText, Files.readText, h]
  rw [load, load, readDocument, readDocument, hread]

/-- Files that agree in the directories up to the first one with settings give the same settings. -/
theorem firstOf_congr {f g : Files} (hf : f.IsTree) (hg : g.IsTree) (hhere : g.here = f.here)
    {directories : List Path} (hsound : ∀ d ∈ directories, f.IsSound d)
    (hsound' : ∀ d ∈ directories, g.IsSound d)
    (hproject : ∀ level ∈ searched l f (directories.map (Path.resolve f.here)),
      hasPlainProject l f level)
    (hsame : ∀ level ∈ searched l f (directories.map (Path.resolve f.here)),
      ∀ name ∈ [settingsFile, projectFile],
        g.entry (level ++ [name]) = f.entry (level ++ [name])) :
    firstOf l g directories = firstOf l f directories := by
  induction directories with
  | nil => rfl
  | cons d more ih =>
    rw [List.forall_mem_cons] at hsound hsound'
    rw [List.map_cons, searched, List.forall_mem_cons] at hproject hsame
    have hproject' := (hasPlainProject_congr hsame.1).trans hproject.1
    rw [firstOf_cons hf hsound.1 hproject.1, firstOf_cons hg hsound'.1 (hhere ▸ hproject'), hhere,
      settingsName?_congr hsame.1]
    cases hname : settingsName? l f (d.resolve f.here) with
    | none =>
      rw [hname] at hproject hsame
      exact ih hsound.2 hsound'.2 hproject.2 hsame.2
    | some name =>
      obtain ⟨hmem, hholds⟩ := mem_names_of_settingsName? hname
      have hdots := ne_dots_of_mem_names hmem
      obtain ⟨content, hentry⟩ := Files.exists_of_holdsFile hholds
      have hfind := (hf.find_eq_file_iff (hsound.1.child hdots)).mpr
        ((congrArg f.entry (Path.resolve_child f.here d hdots)).trans hentry)
      have hfind' := (hg.find_eq_file_iff (hsound'.1.child hdots)).mpr
        ((congrArg g.entry (hhere ▸ Path.resolve_child g.here d hdots)).trans
          ((hsame.1 name hmem).trans hentry))
      exact load_congr (hfind'.trans hfind.symm)

/-- The settings that apply to a path are those of the first file with settings on the way from its
directory up to the root, reported as those of this file are, and the default ones if there is no
such file. Files that agree with these up to there give the same settings. -/
theorem discover_nearest (l : Loader) {files : Files} (h : files.IsTree) {start : Path}
    (hstart : files.IsSound (files.directory start))
    (hproject : ∀ level ∈ searched l files (Files.levels (files.startPlace start)),
      hasPlainProject l files level) :
    (nearest? l files (files.startPlace start) = none → discover files start l = .ok {}) ∧
    (∀ target, nearest? l files (files.startPlace start) = some target →
      ∃ p, p.resolve files.here = target ∧ files.find p = files.entry target ∧
        discover files start l = load files p l) ∧
    ∀ others : Files, others.IsTree → others.here = files.here →
      others.isFolder start = files.isFolder start → others.IsSound (others.directory start) →
      (∀ level ∈ searched l files (Files.levels (files.startPlace start)),
        ∀ name ∈ [settingsFile, projectFile],
          others.entry (level ++ [name]) = files.entry (level ++ [name])) →
      discover others start l = discover files start l := by
  have hway := Files.map_resolve_directories h start
  have hsound := Files.isSound_of_mem_directories h hstart
  rw [← hway] at hproject
  rw [nearest?, ← hway]
  have hfirst := firstOf_eq h hsound hproject
  refine ⟨fun hnone => ?_, fun target htarget => ?_,
    fun others hothers hhere hfolder hstart' hsame => ?_⟩
  · simp only [hnone] at hfirst
    exact hfirst
  · simp only [htarget] at hfirst
    exact hfirst
  · have hdirectories : others.directories start = files.directories start := by
      simp only [Files.directories, Files.pathTo, hhere, hfolder]
    have hsound' := Files.isSound_of_mem_directories hothers hstart'
    rw [discover, discover, hdirectories]
    exact firstOf_congr h hothers hhere hsound (hdirectories ▸ hsound') hproject hsame

end

/-- A project in a folder with settings of its own: its settings are among those of other tools, and
a part of it has a project file without any. -/
def nestedFiles (outer : String) : Files where
  here := ["app"]
  stored := [
    (["viewforge.toml"], .text outer),
    (["app", "pyproject.toml"], .text "[tool.viewforge]\nindent_width = 3\n"),
    (["app", "ui", "pyproject.toml"], .text "[tool.other]\nviewforge = 5\n"),
    (["app", "ui", "main.view"], .text "")]

def nestedStart : Path := ⟨"", ["ui", "..", "ui", "main.view"]⟩

theorem discover_nearest_nestedFiles :
    (nestedFiles "").IsTree ∧ (nestedFiles "").IsSound ((nestedFiles "").directory nestedStart) ∧
    (∀ level ∈ searched {} (nestedFiles "") (Files.levels ((nestedFiles "").startPlace nestedStart)),
      hasPlainProject {} (nestedFiles "") level) ∧
    (∃ p, p.resolve ["app"] = ["app", "pyproject.toml"] ∧
      discover (nestedFiles "") nestedStart = load (nestedFiles "") p) ∧
    discover (nestedFiles "[broken") nestedStart = discover (nestedFiles "") nestedStart := by
  have htree (outer : String) : (nestedFiles outer).IsTree := by
    refine ⟨?_, ?_, ?_⟩ <;> simp [nestedFiles]
  have hsound : (nestedFiles "").IsSound ((nestedFiles "").directory nestedStart) := by
    decide +kernel
  have hplain : ∀ level ∈ searched {} (nestedFiles "")
      (Files.levels ((nestedFiles "").startPlace nestedStart)),
      hasPlainProject {} (nestedFiles "") level := by
    decide +kernel
  have hnearest : nearest? {} (nestedFiles "") ((nestedFiles "").startPlace nestedStart) =
      some ["app", "pyproject.toml"] := by
    decide +kernel
  obtain ⟨-, hfound, hothers⟩ := discover_nearest {} (htree "") hsound hplain
  obtain ⟨p, hp, -, hload⟩ := hfound _ hnearest
  refine ⟨htree "", hsound, hplain, ⟨p, hp, hload⟩, ?_⟩
  exact hothers (nestedFiles "[broken") (htree _) rfl (by decide +kernel) (by decide +kernel)
    (by decide +kernel)

/-- A path that leaves a folder by dots. -/
def backStart : Path := ⟨"", ["part", "..", "main.view"]⟩

def projectWith (others : List (List String × Stored)) : Files :=
  ⟨[], ([projectFile], .text widthText) :: others⟩

/-- Where the folder that is left by dots is not there, the settings beside it are passed over. They
count as soon as any file is in the folder. -/
theorem discover_backStart :
    (projectWith []).IsTree ∧
    nearest? {} (projectWith []) ((projectWith []).startPlace backStart) = some [projectFile] ∧
    load (projectWith []) projectPath ≠ .ok {} ∧
    discover (projectWith []) backStart = .ok {} ∧
    discover (projectWith [(["part", "notes"], .text "")]) backStart ≠ .ok {} := by
  refine ⟨⟨?_, ?_, ?_⟩, by decide +kernel⟩ <;> simp [projectWith, projectFile]

end Settings
end ViewTree
