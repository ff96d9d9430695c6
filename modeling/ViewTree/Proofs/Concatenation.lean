import ViewTree.Compilation
import ViewTree.Proofs.Relocation.Checks
import ViewTree.Proofs.Relocation.Code
import ViewTree.Proofs.Relocation.Lexing

/-!
Compiling a text of whole lines and one that starts with a header. Main statement: what becomes of
the components of both together is what becomes of the first ones, then of the second ones further
down (`Compilation.summaries_append`), whatever is wrong with any of them.
-/
namespace ViewTree

def Rejection.mapPlaces (f : Place → Place) : Rejection → Rejection
  | .source e => .source (e.mapPlaces f)
  | .invalid first more => .invalid (first.mapPlaces f) (more.map (Diagnostic.mapPlaces f))
  | .code problem => .code problem

def CompiledComponent.mapPlaces (f : Place → Place) (c : CompiledComponent) : CompiledComponent :=
  { c with
    result := c.result.mapError (Rejection.mapPlaces f)
    warnings := c.warnings.map (Diagnostic.mapPlaces f) }

section
variable (f : Place → Place) (settings : Settings) (extended : Bool)

theorem Component.compile_mapPlaces (c : Component) :
    (c.mapPlaces f).compile settings extended = (c.compile settings extended).mapPlaces f := by
  unfold Component.compile
  dsimp only
  rw [assignNames_mapPlaces, check_mapPlaces, lint_mapPlaces, artifact_mapPlaces, name_mapPlaces,
    kind_mapPlaces]
  cases herrors : ((c.assignNames settings).check settings).errors with
  | nil =>
    have hmoved : (((c.assignNames settings).check settings).mapPlaces f).errors = [] := by
      simp only [Findings.mapPlaces, herrors, List.map_nil]
    rw [hmoved]
    cases (c.assignNames settings).artifact settings with
    | ok artifact => simp [CompiledComponent.mapPlaces, Findings.mapPlaces, Except.mapError]
    | error problem =>
      simp [CompiledComponent.mapPlaces, Findings.mapPlaces, Except.mapError, Rejection.mapPlaces]
  | cons first more =>
    have hmoved : (((c.assignNames settings).check settings).mapPlaces f).errors =
        first.mapPlaces f :: more.map (Diagnostic.mapPlaces f) := by
      simp only [Findings.mapPlaces, herrors, List.map_cons]
    rw [hmoved]
    rfl

theorem Outcome.compile_mapPlaces (o : Outcome) :
    (o.mapPlaces f).compile settings extended = (o.compile settings extended).mapPlaces f := by
  obtain ⟨name, kind, result⟩ := o
  cases result with
  | error e => rfl
  | ok c => exact Component.compile_mapPlaces f settings extended c

end

theorem SourceError.mapPlaces_id (e : SourceError) : e.mapPlaces (fun p => p) = e := by
  cases e with
  | lexical e => rfl
  | grammar e => cases e <;> rfl

theorem Outcome.mapPlaces_id (o : Outcome) : o.mapPlaces (fun p => p) = o := by
  obtain ⟨name, kind, result⟩ := o
  cases result with
  | ok c =>
    show Outcome.mk name kind (.ok (c.mapPlaces fun p => p)) = _
    rw [Component.mapPlaces_id]
  | error e =>
    show Outcome.mk name kind (.error (e.mapPlaces fun p => p)) = _
    rw [SourceError.mapPlaces_id]

/-- The place `lines` lines further down. -/
def Place.down (lines : Nat) (p : Place) : Place := { p with line := p.line + lines }

theorem slice_between (u t v : List Char) (start : Nat) {stop : Nat} (h : stop ≤ t.length) :
    Text.slice (u ++ t ++ v) (start + u.length) (stop + u.length) = Text.slice t start stop := by
  have hcount : stop + u.length - (start + u.length) = stop - start := by omega
  unfold Text.slice
  rw [hcount, List.append_assoc, Nat.add_comm start, List.drop_length_add_append]
  by_cases hle : start ≤ stop
  · rw [List.drop_append_of_le_length (Nat.le_trans hle h)]
    refine List.take_append_of_le_length ?_
    rw [List.length_drop]
    omega
  · have hnone : stop - start = 0 := by omega
    rw [hnone, List.take_zero, List.take_zero]

theorem count_between (u t v : List Char) {start : Nat} (h : start ≤ t.length) :
    ((u ++ t ++ v).take (start + u.length)).count '\n' =
      (t.take start).count '\n' + u.count '\n' := by
  rw [List.append_assoc, Nat.add_comm start, List.take_length_add_append, List.take_append_of_le_length h,
    List.count_append, Nat.add_comm]

/-- A text between two others. -/
def Placement.between (settings : Settings) (u t v : List Char) : Placement where
  source := ⟨t, settings⟩
  target := ⟨u ++ t ++ v, settings⟩
  offset := u.length
  lines := u.count '\n'
  bound := t.length
  settings_eq := rfl
  slice_eq := fun start _ h => slice_between u t v start h
  lines_eq := fun _ h => count_between u t v h

/-- The components in a list of sections; none if an embedded text is unusable. -/
def readSections? (settings : Settings) (text : List Char) (sections : List Section) :
    Option (List Outcome) :=
  (sections.mapM (Outcome.ofSection? ⟨text, settings⟩)).map List.flatten

theorem readSections?_append (settings : Settings) (text : List Char) (as bs : List Section) :
    readSections? settings text (as ++ bs) =
      (readSections? settings text as).bind fun first =>
        (readSections? settings text bs).map (first ++ ·) := by
  unfold readSections?
  rw [List.mapM_append]
  cases as.mapM (Outcome.ofSection? ⟨text, settings⟩) with
  | none => rfl
  | some first =>
    cases bs.mapM (Outcome.ofSection? ⟨text, settings⟩) with
    | none => rfl
    | some second => simp

/-- A text is read the same between two others, but for the lines in front. -/
theorem readSections?_between (settings : Settings) (u t v : List Char) :
    readSections? settings (u ++ t ++ v) ((Section.ofText t).map (.shift u.length)) =
      (readSections? settings t (Section.ofText t)).map
        (List.map (.mapPlaces (.down (u.count '\n')))) := by
  have hread : ((Section.ofText t).map (.shift u.length)).mapM
      (Outcome.ofSection? ⟨u ++ t ++ v, settings⟩) =
        ((Section.ofText t).mapM (Outcome.ofSection? ⟨t, settings⟩)).map
          (List.map (List.map (.mapPlaces (.down (u.count '\n'))))) := by
    refine mapM_map fun s hs => ?_
    obtain ⟨hstart, hstop⟩ := Section.le_of_mem_ofText hs
    exact (Placement.between settings u t v).ofSection?_shift s hstart hstop
  unfold readSections?
  rw [hread, Option.map_map, Option.map_map]
  congr 1
  funext outcomes
  exact List.map_flatten.symm

theorem readSections?_nil (settings : Settings) :
    readSections? settings [] (Section.ofText []) = some [] := by
  have hlex : lex [] 0 0 = .ok ⟨[], ⟨.eof, "", 1, 1, 0, 0⟩⟩ := Lexer.run_nil _
  have hsection : Outcome.ofSection? ⟨[], settings⟩ ⟨0, 0, none⟩ = some [] := by
    unfold Outcome.ofSection?
    rw [hlex]
    rfl
  show ([⟨0, 0, none⟩].mapM (Outcome.ofSection? ⟨[], settings⟩)).map _ = _
  rw [List.mapM_cons, hsection]
  rfl

/-- Components are read the same whatever whole lines stand in front and whatever starts with
another header behind. -/
theorem readSections?_concat (settings : Settings) (p s : List Char)
    (hp : p = [] ∨ p.getLast? = some '\n') (hs : (Header.read? s).isSome) :
    readSections? settings (p ++ s) (Section.ofText (p ++ s)) =
      (readSections? settings p (Section.ofText p)).bind fun first =>
        (readSections? settings s (Section.ofText s)).map fun second =>
          first ++ second.map (.mapPlaces (.down (p.count '\n'))) := by
  have hbehind := readSections?_between settings p s []
  rw [List.append_nil] at hbehind
  rcases hp with rfl | hp
  · have hshift : (Section.ofText s).map (.shift 0) = Section.ofText s := List.map_id _
    rw [List.length_nil, hshift] at hbehind
    rw [readSections?_nil]
    exact hbehind
  · obtain ⟨u, rfl⟩ := List.getLast?_eq_some_iff.mp hp
    have hlength : (u ++ ['\n']).length = u.length + 1 := List.length_append
    have hsections : Section.ofText (u ++ ['\n'] ++ s) = Section.ofText (u ++ ['\n']) ++
        (Section.ofText s).map (.shift (u ++ ['\n']).length) := by
      rw [hlength, List.append_assoc]
      exact Section.ofText_append u s hs
    have hshift : (Section.ofText (u ++ ['\n'])).map (.shift 0) = Section.ofText (u ++ ['\n']) :=
      List.map_id _
    have hid : List.map (Outcome.mapPlaces (.down 0)) = id := by
      funext outcomes
      exact (List.map_congr_left fun o _ => o.mapPlaces_id).trans (List.map_id outcomes)
    have hfront := readSections?_between settings [] (u ++ ['\n']) s
    rw [List.nil_append, List.length_nil, hshift, List.count_nil, hid, Option.map_id] at hfront
    rw [hsections, readSections?_append, hbehind, hfront]
    cases readSections? settings s (Section.ofText s) with
    | none => rfl
    | some second => rfl

/-- What becomes of the components in a list of sections; none if an embedded text is unusable. -/
def compileSections? (settings : Settings) (extended : Bool) (text : List Char)
    (sections : List Section) : Option (List CompiledComponent) :=
  (sections.mapM (Outcome.ofSection? ⟨text, settings⟩)).map fun outcomes =>
    outcomes.flatten.map (Outcome.compile settings extended)

/-- Components are compiled the same whatever whole lines stand in front and whatever starts with
another header behind. -/
theorem compileSections?_concat (settings : Settings) (extended : Bool) (p s : List Char)
    (hp : p = [] ∨ p.getLast? = some '\n') (hs : (Header.read? s).isSome) :
    compileSections? settings extended (p ++ s) (Section.ofText (p ++ s)) =
      (compileSections? settings extended p (Section.ofText p)).bind fun first =>
        (compileSections? settings extended s (Section.ofText s)).map fun second =>
          first ++ second.map (.mapPlaces (.down (p.count '\n'))) := by
  have hcompile (text : List Char) (sections : List Section) :
      compileSections? settings extended text sections =
        (readSections? settings text sections).map (List.map (Outcome.compile settings extended)) :=
    (Option.map_map ..).symm
  rw [hcompile, hcompile, hcompile, readSections?_concat settings p s hp hs]
  cases readSections? settings p (Section.ofText p) with
  | none => rfl
  | some first =>
    cases readSections? settings s (Section.ofText s) with
    | none => rfl
    | some second =>
      refine congrArg some ?_
      show (first ++ second.map _).map _ = first.map _ ++ (second.map _).map _
      rw [List.map_append, List.map_map, List.map_map]
      refine congrArg (_ ++ ·) (List.map_congr_left fun o _ => ?_)
      exact Outcome.compile_mapPlaces _ settings extended o

/-- The report without an excerpt, for a source that starts `lines` lines further down. -/
def Report.plain (lines : Nat) (r : Report) : Report :=
  { r with
    site := r.site.map fun s =>
      { s with
        line := s.line + lines
        endLine := s.endLine.map (· + lines)
        excerpt := none } }

/-- The messages without excerpts, for a source that starts `lines` lines further down. -/
def Rejection.plainMessages (faults : Faults) (file source : String) (lines : Nat) :
    Rejection → List String
  | .source error => [((error.report file source faults).plain lines).render]
  | .invalid first more => (first :: more).map fun d => (d.mapPlaces (.down lines)).render file
  | .code problem => [problem.message]

/-- What is said about a component: its name, kind and code, and the messages without excerpts. -/
structure Summary where
  name : Option String
  kind : Option ComponentKind
  artifact? : Option Artifact
  errors : List String
  warnings : List String

/-- The summary of a component whose source starts `lines` lines further down. -/
def CompiledComponent.summary (faults : Faults) (file source : String) (lines : Nat)
    (c : CompiledComponent) : Summary where
  name := c.name
  kind := c.kind
  artifact? := c.artifact?
  errors := match c.result with
    | .ok _ => []
    | .error rejection => rejection.plainMessages faults file source lines
  warnings := c.warnings.map fun d => (d.mapPlaces (.down lines)).render file

def Compilation.summaries (faults : Faults) (lines : Nat) (c : Compilation) : List Summary :=
  c.components.map (·.summary faults c.file.toString c.source lines)

section
variable (faults : Faults) (file source moved : String) (lines : Nat)

/-- A text further down is told further down, whatever is wrong inside it. -/
theorem ParseError.told_mapPlaces (e : ParseError) :
    (e.mapPlaces (.down lines)).told faults =
      ((e.told faults).1, (e.told faults).2.1 + lines, (e.told faults).2.2) := by
  cases e with
  | found problem place width => rfl
  | noExpression text start hint =>
    have hline (line : Int) : (start.line + lines : Nat) + line - 1 = start.line + line - 1 + lines := by
      omega
    simp only [mapPlaces, told, ofInner, Place.down, hline]
  | noPattern text start => rfl

theorem ParseError.plain_report_mapPlaces (e : ParseError) :
    ((e.mapPlaces (.down lines)).report file moved faults).plain 0 =
      (e.report file source faults).plain lines := by
  have hwidth : (e.mapPlaces (.down lines)).width? = e.width? := by cases e <;> rfl
  unfold report site problem
  rw [told_mapPlaces, hwidth]
  cases e.width? with
  | none => simp [Report.plain]
  | some width => simp [Report.plain]

theorem SourceError.plain_report_mapPlaces (e : SourceError) :
    ((e.mapPlaces (.down lines)).report file moved faults).plain 0 =
      (e.report file source faults).plain lines := by
  cases e with
  | lexical e => rfl
  | grammar e => exact ParseError.plain_report_mapPlaces faults file source moved lines e

theorem Rejection.plainMessages_mapPlaces (r : Rejection) :
    (r.mapPlaces (.down lines)).plainMessages faults file moved 0 =
      r.plainMessages faults file source lines := by
  cases r with
  | source e =>
    show [Report.render _] = [Report.render _]
    rw [SourceError.plain_report_mapPlaces faults file source]
  | invalid first more =>
    show ((first :: more).map (.mapPlaces (.down lines))).map
      (fun d : Diagnostic => (d.mapPlaces (.down 0)).render file) = _
    rw [List.map_map]
    rfl
  | code problem => rfl

/-- Lines are added to the messages when the places are moved down. -/
theorem CompiledComponent.summary_mapPlaces (c : CompiledComponent) :
    (c.mapPlaces (.down lines)).summary faults file moved 0 =
      c.summary faults file source lines := by
  have hwarnings : (c.mapPlaces (.down lines)).warnings.map (fun d =>
      (d.mapPlaces (.down 0)).render file) =
        c.warnings.map fun d => (d.mapPlaces (.down lines)).render file := by
    show (c.warnings.map _).map _ = _
    rw [List.map_map]
    rfl
  unfold summary
  rw [hwarnings]
  obtain ⟨name, kind, result, warnings⟩ := c
  cases result with
  | ok artifact => rfl
  | error rejection =>
    show Summary.mk name kind none ((rejection.mapPlaces _).plainMessages faults file moved 0) _ = _
    rw [Rejection.plainMessages_mapPlaces faults file source]
    rfl

/-- Excerpts apart, the rest of the source does not show in what is said about a component. -/
theorem CompiledComponent.summary_source (c : CompiledComponent) :
    c.summary faults file source lines = c.summary faults file moved lines := by
  rw [← summary_mapPlaces faults file source source, summary_mapPlaces faults file moved source]

end

/-- Components are isolated: a text of whole lines and one that starts with a header are compiled
as each of them by itself, whatever is wrong with their components and whatever is said about
embedded texts. -/
theorem Compilation.summaries_append (faults : Faults) (settings : Settings) (file : Path)
    (extended : Bool) (p s : String) (hp : p = "" ∨ p.toList.getLast? = some '\n')
    (hs : (Header.read? s.toList).isSome) :
    (ofSource? settings file extended (p ++ s)).map (·.summaries faults 0) =
      (ofSource? settings file extended p).bind fun first =>
        (ofSource? settings file extended s).map fun second =>
          first.summaries faults 0 ++ second.summaries faults (p.toList.count '\n') := by
  have hcompile (source : String) : ofSource? settings file extended source =
      (compileSections? settings extended source.toList (Section.ofText source.toList)).map
        (⟨file, source, settings, ·⟩) := by
    unfold ofSource? readSource? compileSections?
    rw [Option.map_map, Option.map_map]
    rfl
  have hp : p.toList = [] ∨ p.toList.getLast? = some '\n' :=
    hp.imp_left fun hempty => by rw [hempty]; rfl
  have hconcat := compileSections?_concat settings extended p.toList s.toList hp hs
  rw [hcompile, hcompile, hcompile, String.toList_append, hconcat]
  cases compileSections? settings extended p.toList (Section.ofText p.toList) with
  | none => rfl
  | some first =>
    cases compileSections? settings extended s.toList (Section.ofText s.toList) with
    | none => rfl
    | some second =>
      show some (List.map _ (first ++ second.map _)) = some (first.map _ ++ second.map _)
      rw [List.map_append, List.map_map]
      refine congrArg some (congr (congrArg _ ?_) ?_)
      · exact List.map_congr_left fun c _ => c.summary_source ..
      · exact List.map_congr_left fun c _ => c.summary_mapPlaces ..

/-- A view that never ends, and a string that does not either. -/
def brokenViews : String := "view Open(model) \x7b\n  Gtk.Label[(\nview Quote(model) \x7b '\n"

/-- A view with a text on two lines that is no expression. -/
def doubtView : String :=
  "view Doubt(model) \x7b\n  Gtk.Label \x7b set_label: model.a\n    is is \x7d\n\x7d\n"

/-- What is said about that text. -/
def doubtFaults : Faults :=
  { Faults.plain with
    expression := fun text =>
      if text = "model.a\n    is is" then ⟨"invalid syntax", some 2, some 8⟩
      else Faults.plain.expression text }

theorem summaries_brokenViews :
    (brokenViews = "" ∨ brokenViews.toList.getLast? = some '\n') ∧
      (Header.read? doubtView.toList).isSome ∧
      (Compilation.ofSource? {} ⟨"", ["t.view"]⟩ true
          (brokenViews ++ doubtView)).map (·.summaries doubtFaults 0) =
        (Compilation.ofSource? {} ⟨"", ["t.view"]⟩ true brokenViews).bind fun first =>
          (Compilation.ofSource? {} ⟨"", ["t.view"]⟩ true doubtView).map fun second =>
            first.summaries doubtFaults 0 ++
              second.summaries doubtFaults (brokenViews.toList.count '\n') :=
  ⟨.inr (by decide), by decide,
    Compilation.summaries_append _ _ _ _ _ _ (.inr (by decide)) (by decide)⟩

end ViewTree
