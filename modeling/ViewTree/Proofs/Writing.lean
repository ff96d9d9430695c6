import ViewTree.Files
import Mathlib.Data.List.Basic

/-!
Writing files. Main statement: what is written at a path is found at that path, and every other file
is there with its content as before (`Files.find_of_write?`).
-/
namespace ViewTree.Files

/-- Nothing is lost from one state of the files to another except where a text is put. -/
structure Keeps (f after : Files) (change : Option (List String)) : Prop where
  here : after.here = f.here
  file : ∀ place, change ≠ some place → ∀ content, after.entry place = .file content ↔
    f.entry place = .file content
  folder : ∀ place, f.entry place = .folder → after.entry place = .folder

theorem Keeps.refl (f : Files) : f.Keeps f none := ⟨rfl, fun _ _ _ => Iff.rfl, fun _ h => h⟩

theorem Keeps.trans {f g after : Files} {change : Option (List String)} (h : f.Keeps g none)
    (hafter : g.Keeps after change) : f.Keeps after change where
  here := hafter.here.trans h.here
  file place hplace content :=
    (hafter.file place hplace content).trans (h.file place (Option.some_ne_none place).symm content)
  folder place hplace := hafter.folder place (h.folder place hplace)

/-- Whether something at a place or below it is stored, or the program runs there. -/
def reaches (f : Files) (place : List String) : Bool :=
  place.isPrefixOf f.here || f.stored.any fun s => place.isPrefixOf s.1

theorem entry_of_none {f : Files} {place : List String} (h : f.stored? place = none) :
    f.entry place = if f.reaches place then .folder else .missing := by
  rw [entry, h]
  rfl

/-- Two states with the same thing stored at a place differ there only in what is below it. -/
theorem entry_congr {f after : Files} {place : List String}
    (h : after.stored? place = f.stored? place)
    (hreaches : f.reaches place = true → after.reaches place = true) :
    (∀ content, after.entry place = .file content ↔ f.entry place = .file content) ∧
      (f.entry place = .folder → after.entry place = .folder) := by
  cases hstored : f.stored? place with
  | some stored =>
    have hsame : after.entry place = f.entry place := by
      rw [entry, entry, h, hstored]
      rcases stored with content | _ | _ <;> rfl
    exact ⟨fun _ => by rw [hsame], fun hfolder => hsame.trans hfolder⟩
  | none =>
    rw [entry_of_none hstored, entry_of_none (h.trans hstored)]
    cases hbefore : f.reaches place with
    | true => simp [hreaches hbefore]
    | false => cases after.reaches place <;> simp

theorem stored?_cons (f : Files) (place other : List String) (stored : Stored) :
    stored? { f with stored := (place, stored) :: f.stored } other =
      if place = other then some stored else f.stored? other := by
  unfold stored?
  rw [List.find?_cons]
  by_cases h : place = other <;> simp [h]

theorem keeps_of_enter? {f after : Files} {place : List String} (h : f.enter? place = some after) :
    f.Keeps after none ∧ after.entry place = .folder := by
  unfold enter? at h
  split at h
  · next hfolder =>
    obtain rfl := Option.some.inj h
    exact ⟨.refl f, hfolder⟩
  · next hmissing =>
    obtain rfl := Option.some.inj h
    have hentry : entry { f with stored := (place, .folder) :: f.stored } place = .folder := by
      rw [entry, stored?_cons, if_pos rfl]
    have hother (other : List String) (hne : place ≠ other) :=
      @entry_congr f { f with stored := (place, .folder) :: f.stored } other
        (by rw [stored?_cons, if_neg hne])
        (fun hreaches : f.reaches other = true => by
          rw [reaches, List.any_cons, Bool.or_left_comm]
          exact Bool.or_eq_true_iff.mpr (.inr hreaches))
    refine ⟨⟨rfl, fun other _ content => ?_, fun other hfolder => ?_⟩, hentry⟩
    · by_cases hne : place = other
      · subst hne
        rw [hentry, hmissing]
        simp
      · exact (hother other hne).1 content
    · by_cases hne : place = other
      · exact hne ▸ hentry
      · exact (hother other hne).2 hfolder
  · cases h

/-- A text takes the place of whatever is no folder. -/
theorem keeps_put {f : Files} {place : List String} (content : String)
    (h : f.entry place ≠ .folder) : f.Keeps (f.put place content) (some place) ∧
      (f.put place content).entry place = .file (some content) := by
  have hstored (other : List String) (hne : place ≠ other) :
      (f.put place content).stored? other = f.stored? other := by
    rw [put, stored?_cons { f with stored := f.stored.filter (·.1 ≠ place) }, if_neg hne]
    unfold stored?
    rw [List.find?_filter]
    congr 2
    funext s
    by_cases hs : s.1 = other <;> simp [hs, Ne.symm hne]
  have hreaches (other : List String) (hbefore : f.reaches other = true) :
      (f.put place content).reaches other = true := by
    rcases Bool.or_eq_true_iff.mp hbefore with hhere | hany
    · exact Bool.or_eq_true_iff.mpr (.inl hhere)
    · obtain ⟨s, hs, hprefix⟩ := List.any_eq_true.mp hany
      refine Bool.or_eq_true_iff.mpr (.inr (List.any_eq_true.mpr ?_))
      by_cases hplace : s.1 = place
      · exact ⟨_, List.mem_cons_self, hplace ▸ hprefix⟩
      · exact ⟨s, List.mem_cons_of_mem _ (List.mem_filter.mpr ⟨hs, by simpa using hplace⟩), hprefix⟩
  refine ⟨⟨rfl, fun other hne content' => ?_, fun other hfolder => ?_⟩, ?_⟩
  · have hne : place ≠ other := fun heq => hne (congrArg some heq)
    exact (entry_congr (hstored other hne) (hreaches other)).1 content'
  · have hne : place ≠ other := fun heq => h (heq ▸ hfolder)
    exact (entry_congr (hstored other hne) (hreaches other)).2 hfolder
  · rw [entry, put, stored?_cons { f with stored := f.stored.filter (·.1 ≠ place) }, if_pos rfl]

theorem makeFolders?_cons {f after : Files} {place : List String} {s : String} {more : List String}
    (h : f.makeFolders? place (s :: more) = some after) : ∃ g, f.enter? place = some g ∧
      g.makeFolders? (if s = ".." then place.dropLast else place ++ [s]) more = some after := by
  rw [makeFolders?] at h
  exact Option.bind_eq_some_iff.mp h

/-- Folders that are made are passed on the way, as long as they stay. -/
theorem keeps_of_makeFolders? {f after : Files} {place segments : List String}
    (h : f.makeFolders? place segments = some after) : f.Keeps after none ∧
      ∀ g : Files, (∀ q, after.entry q = .folder → g.entry q = .folder) → ∀ last,
        g.walk place (segments ++ [last]) = g.entry ((segments ++ [last]).foldl
          (fun acc s => if s = ".." then acc.dropLast else acc ++ [s]) place) := by
  induction segments generalizing f place with
  | nil =>
    obtain ⟨hkeeps, hfolder⟩ := keeps_of_enter? h
    refine ⟨hkeeps, fun g hg last => ?_⟩
    rw [List.nil_append, walk, hg place hfolder]
    rfl
  | cons s more ih =>
    obtain ⟨middle, hmiddle, hmore⟩ := makeFolders?_cons h
    obtain ⟨hkeeps, hfolder⟩ := keeps_of_enter? hmiddle
    obtain ⟨hrest, hwalk⟩ := ih hmore
    refine ⟨hkeeps.trans hrest, fun g hg last => ?_⟩
    rw [List.cons_append, walk, hg place (hrest.folder place hfolder)]
    exact hwalk g hg last

/-- What is written is found, and all other files are as before. -/
theorem find_of_write? {f after : Files} {p : Path} {content : String}
    (h : f.write? p content = some after) :
    after.find p = .file (some content) ∧ f.Keeps after (some (p.resolve f.here)) := by
  obtain ⟨g, hg, h⟩ := Option.bind_eq_some_iff.mp h
  obtain ⟨hkeeps, hwalk⟩ := keeps_of_makeFolders? hg
  dsimp only at h
  split at h
  · cases h
  next hplace =>
  obtain rfl := Option.some.inj h
  obtain ⟨hput, hentry⟩ := keeps_put content hplace
  refine ⟨?_, hkeeps.trans hput⟩
  obtain ⟨root, segments⟩ := p
  rcases List.eq_nil_or_concat' segments with rfl | ⟨front, last, rfl⟩
  · -- a path without segments leads to a folder that is there
    exact absurd (keeps_of_enter? hg).2 hplace
  · rw [Path.parent, List.dropLast_concat] at hwalk
    rw [find, (hkeeps.trans hput).here]
    exact (hwalk _ hput.folder last).trans hentry

end ViewTree.Files
