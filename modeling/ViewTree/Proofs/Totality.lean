import ViewTree.Compilation
import ViewTree.Proofs.Generation
import ViewTree.Proofs.Reading.Files

/-!
Compiling whole files. A component is rejected by the readers or by the checks and never later
(`Outcome.compile_cases`), and what can go wrong in one leaves the others alone. Main statements: a
file whose embedded texts all have a meaning is compiled to the end, each of its components gives
either code or errors, and the module holds the code of exactly those that have some, templates first
(`Compilation.exists_ofSource`); one pattern that cannot be written on one line is the end of the whole
file (`Compilation.ofSource_panelView`).
-/
namespace ViewTree

theorem Outcome.exists_ofSection? {context : Context} (husable : context.Usable) {s : Section}
    (hs : s ∈ Section.ofText context.text) : ∃ outcomes, ofSection? context s = some outcomes := by
  unfold ofSection?
  cases hlex : lex context.text s.start s.stop with
  | error e => exact ⟨_, rfl⟩
  | ok tokens =>
    refine exists_mapM_eq_pure fun chunk hchunk => ?_
    have hread := Component.ofTokens_ne_unusable husable (Chunk.sound_of_mem_split hs hlex hchunk)
    unfold ofChunk?
    split
    · exact ⟨_, rfl⟩
    · exact ⟨_, rfl⟩
    · next hunusable => exact absurd hunusable hread

theorem exists_readSource {settings : Settings} {source : String}
    (husable : Context.Usable ⟨source.toList, settings⟩) :
    ∃ outcomes, readSource? settings source = some outcomes := by
  obtain ⟨sections, hsections⟩ :=
    exists_mapM_eq_pure fun s hs => Outcome.exists_ofSection? husable (s := s) hs
  exact ⟨sections.flatten, by rw [readSource?, hsections]; rfl⟩

/-- What becomes of a component: it has code, or the readers or the checks have rejected it. No pass
meets what it cannot handle. -/
theorem Outcome.compile_cases (settings : Settings) (extended : Bool) (o : Outcome) :
    (∃ artifact, (o.compile settings extended).result = .ok artifact) ∨
      (∃ error, (o.compile settings extended).result = .error (.source error)) ∨
      ∃ first more, (o.compile settings extended).result = .error (.invalid first more) := by
  unfold compile
  cases o.result with
  | error e => exact .inr (.inl ⟨e, rfl⟩)
  | ok c =>
    dsimp only
    unfold Component.compile
    dsimp only
    cases herrors : ((c.assignNames settings).check settings).errors with
    | cons first more => exact .inr (.inr ⟨first, more, rfl⟩)
    | nil =>
      have hgenerable := Component.generable_of_check settings c herrors
      obtain ⟨artifact, hartifact⟩ := hgenerable.exists_artifact settings
      exact .inl ⟨artifact, by rw [hartifact]; rfl⟩

theorem Rejection.messages_ne_nil (file source : String) (r : Rejection) :
    r.messages file source ≠ [] := by
  cases r <;> exact List.cons_ne_nil _ _

/-- A component has code and no errors, or errors and no code. -/
def CompiledComponent.IsSettled (file source : String) (c : CompiledComponent) : Prop :=
  (∃ artifact, c.artifact? = some artifact) ∧ c.errors file source = [] ∨
    c.artifact? = none ∧ c.errors file source ≠ []

theorem CompiledComponent.isSettled (file source : String) (c : CompiledComponent) :
    c.IsSettled file source := by
  unfold IsSettled artifact? errors
  cases c.result with
  | ok artifact => exact .inl ⟨⟨artifact, rfl⟩, rfl⟩
  | error rejection => exact .inr ⟨rfl, rejection.messages_ne_nil file source⟩

/-- The parts of a module are its artifacts, each once: templates stand before views, and each of
the two kinds keeps its order. -/
structure IsArranged (artifacts parts : List Artifact) : Prop where
  perm : parts.Perm artifacts
  templatesFirst : parts.Pairwise fun a b => b.isTemplate → a.isTemplate
  order : ∀ isTemplate, parts.filter (·.isTemplate = isTemplate) =
    artifacts.filter (·.isTemplate = isTemplate)

theorem isArranged_filter (artifacts : List Artifact) : IsArranged artifacts
    (artifacts.filter (·.isTemplate) ++ artifacts.filter (!·.isTemplate)) := by
  have htemplate : ∀ a ∈ artifacts.filter (·.isTemplate), a.isTemplate = true := fun a ha =>
    (List.mem_filter.mp ha).2
  have hview : ∀ a ∈ artifacts.filter (!·.isTemplate), a.isTemplate = false := fun a ha =>
    by simpa using (List.mem_filter.mp ha).2
  refine ⟨List.filter_append_perm _ _, List.pairwise_append.mpr ⟨?_, ?_, ?_⟩, fun isTemplate => ?_⟩
  · exact List.pairwise_of_forall_mem_list fun a ha _ _ _ => htemplate a ha
  · exact List.pairwise_of_forall_mem_list fun _ _ b hb h => absurd h (by simp [hview b hb])
  · exact fun a ha _ _ _ => htemplate a ha
  · cases isTemplate <;> simp [List.filter_filter]

theorem any_isTemplate (artifacts : List Artifact) :
    (artifacts.filter (·.isTemplate) ++ artifacts.filter (!·.isTemplate)).any (·.isTemplate) =
      !(artifacts.filter (·.isTemplate)).isEmpty := by
  rw [Bool.eq_iff_iff]
  simp

namespace Compilation

/-- A file whose embedded texts all have a meaning is compiled whatever else is wrong with it. No
component is lost between errors and code, and the module holds the code of those that have some. -/
theorem exists_ofSource {settings : Settings} {source : String}
    (husable : Context.Usable ⟨source.toList, settings⟩) (file : Path) (extended : Bool) :
    ∃ c, ofSource? settings file extended source = some c ∧
      (∀ component ∈ c.components, component.IsSettled file.toString source ∧
        ∀ problem, component.result ≠ .error (.code problem)) ∧
      ∃ parts, IsArranged (c.components.filterMap (·.artifact?)) parts ∧
        c.render = partGap.intercalate ((if settings.emitHeader then
          [moduleHeader settings file.name (parts.any (·.isTemplate))] else []) ++
            parts.map Artifact.source) ++ "\n" := by
  obtain ⟨outcomes, hread⟩ := exists_readSource husable
  refine ⟨_, by rw [ofSource?, hread]; rfl, fun component hcomponent => ⟨?_, fun problem h => ?_⟩,
    _, isArranged_filter _, ?_⟩
  · exact component.isSettled _ _
  · obtain ⟨o, -, rfl⟩ := List.mem_map.mp hcomponent
    rcases o.compile_cases settings extended with ⟨_, hresult⟩ | ⟨_, hresult⟩ | ⟨_, _, hresult⟩
    all_goals
      rw [hresult] at h
      nomatch h
  · rw [render, moduleText, any_isTemplate]

/-- A file with two views: a match of the first one has a pattern of two lines with a field that
holds a control character. -/
def panelView : String :=
  "view Panel(model) \x7b Gtk.Box \x7b match model \x7b\n  1 |\n  2 if f\"\x7b'\x7f'\x7d\" => Gtk.Label,\n" ++
    "  _ => Gtk.Spinner \x7d \x7d \x7d\nview Clock(model) \x7b Gtk.Label \x7d\n"

instance : Spelled panelView := .append .literal .literal

/-- Compiling the file gives no result at all. -/
theorem ofSource_panelView : panelView.toList.any TreeReader.endsTexts = false ∧
    ofSource? {} (.ofString "t.view") false panelView = none := by
  have hread : (readSource? {} panelView).isNone := by
    rw [readSource?_spelled]
    decide +kernel
  have hends : panelView.toList.any TreeReader.endsTexts = false := by
    rw [Spelled.toList_eq]
    decide
  exact ⟨hends, by rw [ofSource?, Option.isNone_iff_eq_none.mp hread]; rfl⟩

/-- A file with a view that takes an expression from a string, one with a pattern of two lines, and
one that cannot be read. -/
def meterFile : String :=
  "view A(m) tracked \x7bB \x7b#[track = \"m.a\"] c: m\x7d\x7d\n" ++
    "template T \x7bB \x7bmatch m \x7b1 |\n2 => D\x7d\x7d\x7d\nview Q(m) \x7b\x7d\n"

instance : Spelled meterFile := .append .literal .literal

theorem exists_ofSource_meterFile : Context.Usable ⟨meterFile.toList, {}⟩ ∧
    ∃ c, ofSource? {} (.ofString "t.view") false meterFile = some c ∧
      (∀ component ∈ c.components, component.IsSettled "t.view" meterFile ∧
        ∀ problem, component.result ≠ .error (.code problem)) ∧
      ∃ parts, IsArranged (c.components.filterMap (·.artifact?)) parts ∧
        c.render = partGap.intercalate ([moduleHeader {} "t.view" (parts.any (·.isTemplate))] ++
          parts.map Artifact.source) ++ "\n" := by
  have husable : Context.Usable ⟨meterFile.toList, {}⟩ := by
    rw [Spelled.toList_eq]
    exact ⟨by decide +kernel, by decide +kernel, by decide +kernel⟩
  exact ⟨husable, exists_ofSource husable (.ofString "t.view") false⟩

end Compilation
end ViewTree
