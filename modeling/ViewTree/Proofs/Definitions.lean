import Mathlib.Data.List.Nodup
import Mathlib.Data.List.Perm.Basic
import ViewTree.Proofs.Signatures
import ViewTree.Proofs.Spelling
import ViewTree.Proofs.Totality

/-!
What a module defines. A template is a class, a view is a class and two routines that are named after
it, and nothing else stands in a module. Main statements: the definitions have distinct names exactly
if the components have distinct names, the views distinct ones in small letters too, and no component
the name of a routine (`nodup_definedNames_iff`), and this is so where components are named by words
with one capital each (`nodup_definedNames_of_isCamel`). No check compares two components: one may hide
another in a module that is reported as a success (`Compilation.hides_cardViews`).
-/
namespace ViewTree
open Text

/-- A definition at the top level of a module: what stands around its name, and its text. -/
structure Definition where
  front : String
  name : String
  behind : String
  text : String

/-- The text begins with the name between its marks. -/
def Definition.Begins (d : Definition) : Prop :=
  (d.front ++ d.name ++ d.behind).toList <+: d.text.toList

namespace Artifact

def name : Artifact → String
  | view name .. => name
  | template name _ => name

def definitions : Artifact → List Definition
  | view name record init update =>
    [⟨"@dataclass\nclass ", name, ":", record⟩, ⟨"def ", "init_" ++ snakeCase name, "(", init⟩,
      ⟨"def ", "update_" ++ snakeCase name, "(", update⟩]
  | template name source => [⟨"@dataclass\nclass ", name, "(WidgetTemplate):", source⟩]

theorem source_eq (a : Artifact) : a.source = partGap.intercalate (a.definitions.map (·.text)) := by
  cases a with
  | view => rfl
  | template => exact String.intercalate_singleton.symm

theorem definitions_ne_nil (a : Artifact) : a.definitions ≠ [] := by
  cases a <;> exact List.cons_ne_nil _ _

end Artifact

/-- Joining the joined groups is joining all. -/
theorem intercalate_flatten (sep : String) {groups : List (List String)} (h : ∀ g ∈ groups, g ≠ []) :
    sep.intercalate (groups.map (sep.intercalate ·)) = sep.intercalate groups.flatten := by
  induction groups with
  | nil => rfl
  | cons g groups ih =>
    obtain ⟨hg, hgroups⟩ := List.forall_mem_cons.mp h
    cases groups with
    | nil => simp [String.intercalate_singleton]
    | cons g' groups =>
      have hflat : (g' :: groups).flatten ≠ [] := by
        simpa using fun h => absurd h (hgroups g' List.mem_cons_self)
      rw [List.map_cons, String.intercalate_cons_of_ne_nil (by simp), ih hgroups, List.flatten_cons (l := g),
        String.intercalate_append_of_ne_nil hg hflat]

/-- Joining what artifacts are made of is joining the artifacts. -/
theorem intercalate_source (front : List String) (parts : List Artifact) :
    partGap.intercalate (front ++ parts.map Artifact.source) =
      partGap.intercalate (front ++ (parts.flatMap Artifact.definitions).map (·.text)) := by
  have hsome : ∀ g ∈ front.map ([·]) ++ parts.map fun a => a.definitions.map (·.text), g ≠ [] := by
    refine List.forall_mem_append.mpr ⟨?_, ?_⟩
    · exact List.forall_mem_map.mpr fun _ _ => List.cons_ne_nil _ _
    · exact List.forall_mem_map.mpr fun a _ => by simpa using a.definitions_ne_nil
  have hfront : (front.map ([·])).map (partGap.intercalate ·) = front := by
    simp only [List.map_map, Function.comp_def, String.intercalate_singleton, List.map_id']
  have hparts : (parts.map fun a => a.definitions.map (·.text)).map (partGap.intercalate ·) =
      parts.map Artifact.source := by
    rw [List.map_map]
    exact List.map_congr_left fun a _ => a.source_eq.symm
  have hflat : (front.map ([·]) ++ parts.map fun a => a.definitions.map (·.text)).flatten =
      front ++ (parts.flatMap Artifact.definitions).map (·.text) := by
    rw [List.flatten_append, ← List.flatMap_def, ← List.flatMap_def, List.flatMap_singleton',
      List.map_flatMap]
  rw [← hflat, ← intercalate_flatten partGap hsome, List.map_append, hfront, hparts]

/-- Behind a row, a block begins with its header. -/
theorem Code.prefix_render_line (width : Int) (first header : String) (body : Code) :
    (first ++ "\n" ++ header).toList <+:
      ((line first ++ block header body).render width 0).toList := by
  have hlines (text : String) : (line text).map (Row.render width 0) ≠ [] := by
    rw [map_render_line]
    exact Text.lines_ne_nil text
  have hblock : (block header body).map (Row.render width 0) ≠ [] := by
    rw [block, List.map_append]
    exact List.append_ne_nil_of_left_ne_nil (hlines header) _
  have hrender : (line first ++ block header body).render width 0 =
      first ++ "\n" ++ (block header body).render width 0 := by
    rw [render, List.map_append, String.intercalate_append_of_ne_nil (hlines first) hblock,
      map_render_line, Text.intercalate_lines]
    rfl
  obtain ⟨more, hmore⟩ := prefix_render_block width header body
  refine ⟨more, ?_⟩
  simp only [hrender, String.toList_append, List.append_assoc, hmore]

namespace Definition

theorem begins_of_block {front name behind header : String} (more : String)
    (h : header = front ++ name ++ behind ++ more) (width : Int) (body : Code) :
    Begins ⟨front, name, behind, (Code.block header body).render width 0⟩ := by
  refine List.IsPrefix.trans ?_ (Code.prefix_render_block width header body)
  rw [h]
  show _ <+: (front ++ name ++ behind ++ more).toList
  rw [String.toList_append (s := front ++ name ++ behind)]
  exact List.prefix_append _ _

/-- A class for data stands behind the row that says so. -/
theorem begins_of_dataclass (name behind : String) (width : Int) (body : Code) :
    Begins ⟨"@dataclass\nclass ", name, behind,
      (Code.line "@dataclass" ++ Code.block ("class " ++ name ++ behind) body).render width 0⟩ := by
  have hfront : "@dataclass\nclass " ++ name ++ behind =
      "@dataclass" ++ "\n" ++ ("class " ++ name ++ behind) := by
    rw [← String.append_assoc, ← String.append_assoc]
    rfl
  unfold Begins
  dsimp only
  rw [hfront]
  exact Code.prefix_render_line width _ _ body

end Definition

theorem Template.artifact_eq_ok {settings : Settings} {t : Template} {a : Artifact}
    (h : (Component.template t).artifact settings = .ok a) : ∃ r,
      (Component.template t).initRoutine settings = .ok r ∧
        a = .template t.name ((templateCode t.name ((Component.template t).templateFields settings)
          t.tree.handle (statementsCode settings r.statements)).render settings.indentWidth 0) := by
  unfold Component.artifact at h
  cases hsymbols : (Component.template t).symbols.mapError CodeProblem.symbol with
  | error problem => simp [hsymbols, bind, Except.bind] at h
  | ok symbols =>
    cases hinit : (Component.template t).initRoutine settings with
    | error problem => simp [hsymbols, hinit, bind, Except.bind] at h
    | ok r =>
      simp only [hsymbols, hinit, bind, Except.bind] at h
      exact ⟨r, rfl, (Except.ok.inj h).symm⟩

namespace Component

/-- Code is named after its component, and begins with what it defines. -/
theorem begins_of_artifact {settings : Settings} {c : Component} {a : Artifact}
    (h : c.artifact settings = .ok a) : a.name = c.name ∧ ∀ d ∈ a.definitions, d.Begins := by
  cases c with
  | view v =>
    obtain ⟨r, updates, -, -, rfl⟩ := View.artifact_eq_ok h
    refine ⟨rfl, List.forall_mem_cons.mpr ⟨?_, List.forall_mem_cons.mpr ⟨?_,
      List.forall_mem_singleton.mpr ?_⟩⟩⟩
    · exact Definition.begins_of_dataclass v.name ":" _ _
    · exact Definition.begins_of_block _ (by simp only [String.append_assoc]; rfl) _ _
    · exact Definition.begins_of_block _ (by simp only [String.append_assoc]; rfl) _ _
  | template t =>
    obtain ⟨r, -, rfl⟩ := Template.artifact_eq_ok h
    exact ⟨rfl, List.forall_mem_singleton.mpr (Definition.begins_of_dataclass t.name _ _ _)⟩

end Component

def definedNames (artifacts : List Artifact) : List String :=
  artifacts.flatMap fun a => a.definitions.map fun d => compatible d.name

/-- What the routines of a view are named after. -/
def Artifact.stem (a : Artifact) : String := compatible (snakeCase a.name)

/-- No component hides another one: the names of all components are distinct, so are those of the
views in small letters, and no component has the name of a routine. -/
structure NamesApart (artifacts : List Artifact) : Prop where
  components : (artifacts.map fun a => compatible a.name).Nodup
  views : ((artifacts.filter (!·.isTemplate)).map Artifact.stem).Nodup
  routines : ∀ a ∈ artifacts, ∀ v ∈ artifacts.filter (!·.isTemplate),
    compatible a.name ≠ "init_" ++ v.stem ∧ compatible a.name ≠ "update_" ++ v.stem

theorem compatible_init (text : String) : compatible ("init_" ++ text) = "init_" ++ compatible text := by
  have h := compatible_append (p := ['i', 'n', 'i', 't']) (by decide) text
  exact h

theorem compatible_update (text : String) :
    compatible ("update_" ++ text) = "update_" ++ compatible text := by
  have h := compatible_append (p := ['u', 'p', 'd', 'a', 't', 'e']) (by decide) text
  exact h

theorem definedNames_cons (a : Artifact) (artifacts : List Artifact) :
    definedNames (a :: artifacts) = compatible a.name ::
      (if a.isTemplate then [] else ["init_" ++ a.stem, "update_" ++ a.stem]) ++
        definedNames artifacts := by
  cases a with
  | view name record init update =>
    show compatible name :: compatible ("init_" ++ _) :: compatible ("update_" ++ _) :: _ = _
    rw [compatible_init, compatible_update]
    rfl
  | template name source => rfl

/-- The names of the components, and those of the routines behind them. -/
theorem definedNames_perm (artifacts : List Artifact) :
    (definedNames artifacts).Perm (artifacts.map (compatible ·.name) ++
      ((artifacts.filter (!·.isTemplate)).map ("init_" ++ ·.stem) ++
        (artifacts.filter (!·.isTemplate)).map ("update_" ++ ·.stem))) := by
  have hmove (x y : String) (xs ys zs : List String) :
      (x :: y :: (xs ++ (ys ++ zs))).Perm (xs ++ (x :: ys ++ y :: zs)) := by
    have hy : (y :: (xs ++ (ys ++ zs))).Perm (xs ++ (ys ++ y :: zs)) := by
      rw [← List.append_assoc, ← List.append_assoc]
      exact List.perm_middle.symm
    exact (hy.cons x).trans List.perm_middle.symm
  induction artifacts with
  | nil => exact .nil
  | cons a artifacts ih =>
    rw [definedNames_cons, List.map_cons, List.cons_append, List.cons_append]
    refine .cons _ ?_
    cases a with
    | template name source => exact ih
    | view name record init update => exact ((ih.cons _).cons _).trans (hmove _ _ _ _ _)

/-- The definitions have distinct names exactly if no component hides another one. -/
theorem nodup_definedNames_iff (artifacts : List Artifact) :
    (definedNames artifacts).Nodup ↔ NamesApart artifacts := by
  have hinjective (front : String) : Function.Injective (front ++ ·) := fun x y h => by
    simpa using h
  have hother (x y : String) : "init_" ++ x ≠ "update_" ++ y := fun h => by
    have hfirst := congrArg (·.toList.head?) h
    simp at hfirst
  have hroutines (front : String) : (artifacts.filter (!·.isTemplate)).map (front ++ ·.stem) =
      ((artifacts.filter (!·.isTemplate)).map Artifact.stem).map (front ++ ·) := by
    rw [List.map_map]
    rfl
  rw [(definedNames_perm artifacts).nodup_iff, List.nodup_append, List.nodup_append, hroutines,
    hroutines, List.nodup_map_iff (hinjective _), List.nodup_map_iff (hinjective _)]
  constructor
  · rintro ⟨hcomponents, ⟨hviews, -, -⟩, hdisjoint⟩
    refine ⟨hcomponents, hviews, fun a ha v hv => ?_⟩
    have hname := List.mem_map_of_mem (f := (compatible ·.name)) ha
    have hstem := List.mem_map_of_mem (f := Artifact.stem) hv
    exact ⟨hdisjoint _ hname _ (List.mem_append_left _ (List.mem_map_of_mem hstem)),
      hdisjoint _ hname _ (List.mem_append_right _ (List.mem_map_of_mem hstem))⟩
  · rintro ⟨hcomponents, hviews, hapart⟩
    refine ⟨hcomponents, ⟨hviews, hviews, ?_⟩, ?_⟩
    · intro x hx y hy
      obtain ⟨s, -, rfl⟩ := List.mem_map.mp hx
      obtain ⟨t, -, rfl⟩ := List.mem_map.mp hy
      exact hother s t
    · intro x hx y hy
      obtain ⟨a, ha, rfl⟩ := List.mem_map.mp hx
      rcases List.mem_append.mp hy with hy | hy
      all_goals
        obtain ⟨s, hs, rfl⟩ := List.mem_map.mp hy
        obtain ⟨v, hv, rfl⟩ := List.mem_map.mp hs
      · exact (hapart a ha v hv).1
      · exact (hapart a ha v hv).2

/-- Components that are named by words with one capital each do not hide one another. -/
theorem nodup_definedNames_of_isCamel {artifacts : List Artifact}
    (hcamel : ∀ a ∈ artifacts, IsCamel a.name.toList) (h : (artifacts.map Artifact.name).Nodup) :
    (definedNames artifacts).Nodup := by
  have hname {a : Artifact} (ha : a ∈ artifacts) : compatible a.name = a.name :=
    (hcamel a ha).compatible_eq
  have hsub : artifacts.filter (!·.isTemplate) ⊆ artifacts := List.filter_subset_self _
  rw [nodup_definedNames_iff]
  refine ⟨?_, ?_, fun a ha v hv => ?_⟩
  · rwa [List.map_congr_left fun a ha => hname ha]
  · have hstems : (artifacts.filter (!·.isTemplate)).map Artifact.stem =
        ((artifacts.filter (!·.isTemplate)).map Artifact.name).map snakeCase := by
      rw [List.map_map]
      exact List.map_congr_left fun v hv => (hcamel v (hsub hv)).compatible_snakeCase
    have hviews : ∀ name ∈ (artifacts.filter (!·.isTemplate)).map Artifact.name, IsCamel name.toList :=
      List.forall_mem_map.mpr fun v hv => hcamel v (hsub hv)
    rw [hstems]
    refine List.Nodup.map_on (fun x hx y hy => snakeCase_injOn (hviews x hx) (hviews y hy)) ?_
    exact h.sublist (List.filter_sublist.map _)
  · rw [hname ha]
    have hother (front behind : String) (hfront : ∃ c ∈ front.toList.head?, c.isUpper = false) :
        a.name ≠ front ++ behind := by
      intro heq
      have hcapital := (hcamel a ha).capital
      obtain ⟨d, hd, hlower⟩ := hfront
      rw [heq, String.toList_append, List.head?_append, Option.mem_def.mp hd, Option.some_or,
        Option.any_some, hlower] at hcapital
      nomatch hcapital
    exact ⟨hother _ _ ⟨'i', rfl, rfl⟩, hother _ _ ⟨'u', rfl, rfl⟩⟩

theorem Component.exists_of_artifact? {settings : Settings} {extended : Bool} {c : Component}
    {a : Artifact} (h : (c.compile settings extended).artifact? = some a) :
    ∃ k : Component, k.artifact settings = .ok a ∧
      (c.compile settings extended).name = some k.name := by
  refine ⟨c.assignNames settings, ?_⟩
  unfold compile at h ⊢
  dsimp only at h ⊢
  cases herrors : ((c.assignNames settings).check settings).errors with
  | cons first more =>
    rw [herrors] at h
    nomatch h
  | nil =>
    rw [herrors] at h
    cases hartifact : (c.assignNames settings).artifact settings with
    | error problem =>
      rw [hartifact] at h
      nomatch h
    | ok b =>
      rw [hartifact] at h
      exact ⟨congrArg _ (Option.some.inj h), rfl⟩

/-- Code of a file is the code of a component by that name. -/
theorem Outcome.exists_of_artifact? {settings : Settings} {extended : Bool} {o : Outcome} {a : Artifact}
    (h : (o.compile settings extended).artifact? = some a) :
    ∃ k : Component, k.artifact settings = .ok a ∧
      (o.compile settings extended).name = some k.name := by
  unfold compile at h ⊢
  cases hresult : o.result with
  | error e =>
    rw [hresult] at h
    nomatch h
  | ok c =>
    rw [hresult] at h
    exact Component.exists_of_artifact? h

namespace Compilation

def artifacts (c : Compilation) : List Artifact := c.components.filterMap (·.artifact?)

/-- A module is its header and the definitions of its parts. -/
theorem render_eq (c : Compilation) :
    let parts := c.artifacts.filter (·.isTemplate) ++ c.artifacts.filter (!·.isTemplate)
    c.render = partGap.intercalate ((if c.settings.emitHeader then
      [moduleHeader c.settings c.file.name (parts.any (·.isTemplate))] else []) ++
        (parts.flatMap Artifact.definitions).map (·.text)) ++ "\n" := by
  dsimp only
  rw [any_isTemplate, ← intercalate_source]
  rfl

/-- What a module defines: the definitions of its components and nothing else, each under its name.
Whether they hide one another is for the names of the components to say; they do not if these are
distinct words with one capital each. -/
theorem nodup_definitions_iff {settings : Settings} {file : Path} {extended : Bool} {source : String}
    {c : Compilation} (h : ofSource? settings file extended source = some c) :
    (∃ parts, IsArranged c.artifacts parts ∧
      c.render = partGap.intercalate ((if settings.emitHeader then
        [moduleHeader settings file.name (parts.any (·.isTemplate))] else []) ++
          (parts.flatMap Artifact.definitions).map (·.text)) ++ "\n") ∧
    (∀ component ∈ c.components, ∀ a ∈ component.artifact?,
      component.name = some a.name ∧ ∀ d ∈ a.definitions, d.Begins) ∧
    ((definedNames c.artifacts).Nodup ↔ NamesApart c.artifacts) ∧
    ((∀ a ∈ c.artifacts, IsCamel a.name.toList) → (c.artifacts.map Artifact.name).Nodup →
      (definedNames c.artifacts).Nodup) := by
  obtain ⟨outcomes, -, rfl⟩ := Option.map_eq_some_iff.mp h
  refine ⟨⟨_, isArranged_filter _, render_eq _⟩, fun component hcomponent a ha => ?_,
    nodup_definedNames_iff _, nodup_definedNames_of_isCamel⟩
  obtain ⟨o, -, rfl⟩ := List.mem_map.mp hcomponent
  obtain ⟨k, hk, hname⟩ := Outcome.exists_of_artifact? ha
  obtain ⟨hsame, hbegins⟩ := Component.begins_of_artifact hk
  exact ⟨by rw [hname, hsame], hbegins⟩

/-- A template and two views, each named by words with one capital. -/
def cardFile : String :=
  "view Card(m) \x7bB\x7d\ntemplate CardBox \x7bB\x7d\nview CardView(m) \x7bB\x7d\n"

theorem nodup_definitions_cardFile :
    ∃ c, ofSource? {} (.ofString "t.view") false cardFile = some c ∧
      c.artifacts.map Artifact.name = ["Card", "CardBox", "CardView"] ∧
      (∃ parts, IsArranged c.artifacts parts ∧
        c.render = partGap.intercalate ([moduleHeader {} "t.view" (parts.any (·.isTemplate))] ++
          (parts.flatMap Artifact.definitions).map (·.text)) ++ "\n") ∧
      (∀ component ∈ c.components, ∀ a ∈ component.artifact?,
        component.name = some a.name ∧ ∀ d ∈ a.definitions, d.Begins) ∧
      (definedNames c.artifacts).Nodup ∧ NamesApart c.artifacts := by
  have hread : (ofSource? {} (.ofString "t.view") false cardFile).any fun c =>
      c.artifacts.map Artifact.name = ["Card", "CardBox", "CardView"] := by decide +kernel
  obtain ⟨c, hc, htest⟩ := (Option.any_eq_true _ _).mp hread
  have hnames := of_decide_eq_true htest
  have hcamel : ∀ name ∈ c.artifacts.map Artifact.name, IsCamel name.toList := by
    rw [hnames]
    decide
  obtain ⟨hparts, hbegins, hiff, hnodup⟩ := nodup_definitions_iff hc
  have hdistinct := hnodup (fun a ha => hcamel a.name (List.mem_map_of_mem ha)) (by rw [hnames]; decide)
  exact ⟨c, hc, hnames, hparts, hbegins, hdistinct, hiff.mp hdistinct⟩

/-- All components of the file have code, and a name is defined twice. -/
def Hides (source : String) : Prop :=
  ∃ c, ofSource? {} (.ofString "t.view") false source = some c ∧ c.isSuccess ∧
    ¬(definedNames c.artifacts).Nodup

theorem hides_of_any {source : String}
    (h : (ofSource? {} (.ofString "t.view") false source).any fun c =>
      c.isSuccess && !decide (definedNames c.artifacts).Nodup) : Hides source := by
  obtain ⟨c, hc, htest⟩ := (Option.any_eq_true _ _).mp h
  obtain ⟨hsuccess, hnot⟩ := Bool.and_eq_true_iff.mp htest
  exact ⟨c, hc, hsuccess, by simpa using hnot⟩

/-- Two views whose names are the same in small letters, a view and a template with one name, and a
template with the name of a routine. -/
theorem hides_cardViews :
    Hides ("view CardView(model) \x7b\n    Gtk.Label,\n\x7d\n" ++
      "view cardView(model) \x7b\n    Gtk.Label,\n\x7d\n") ∧
    Hides "view Card(m) \x7bB\x7d\ntemplate Card \x7bB\x7d\n" ∧
    Hides "view Card(m) \x7bB\x7d\ntemplate init_card \x7bB\x7d\n" :=
  ⟨hides_of_any (by decide +kernel), hides_of_any (by decide +kernel), hides_of_any (by decide +kernel)⟩

end Compilation
end ViewTree
