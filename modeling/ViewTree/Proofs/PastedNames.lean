import ViewTree.Proofs.Reading.Files
import ViewTree.Proofs.Words

/-!
Names that the generated code takes over from the source as they stand, without a check: those of
the component, of properties and captures, the segments of paths, and the made-up names of nodes.
Main statements: if the source is plain they are identifiers, and the made-up ones are never keywords
(`Component.isPasted_of_readSource`); a property that is named by a keyword gets past the checks
(`Component.isKeyword_badgeSource`).
-/
namespace ViewTree
open Embedded

/-- The name of a property, if it has one, and the names that its callback takes along. -/
def Property.words (p : Property) : List String :=
  (if p.name = "" then [] else [p.name]) ++ p.payload.captures.map (·.name)

/-- The segments of a path that the code goes on from. A call is taken over as a whole, and that is
checked. -/
def Construction.words : Construction → List String
  | call _ _ _ => []
  | block path | template path | prebound path _ => Text.segments path

def Node.words : Node → List String
  | widget w => w.construction.words ++ w.properties.flatMap Property.words
  | choice _ => []

def NodeName.made? : NodeName → Option String
  | synthesized name => some name
  | _ => none

namespace Component

/-- What the code of a component takes over from the source. -/
def words (c : Component) : List String := c.name :: c.walk.flatMap Node.words

def madeNames (c : Component) : List String := c.walk.filterMap fun n => n.nodeName.made?

/-- All names that stand in the code without having been checked. -/
def pastedNames (c : Component) : List String := c.words ++ c.madeNames

end Component

theorem Payload.captures_assignNames (stem : String) (s : Naming) (p : Payload) :
    (p.assignNames stem s).2.captures = p.captures := by
  cases p <;> rfl

theorem Property.map_words_assignAll (stem : String) (s : Naming) (ps : List Property) :
    (assignAll stem s ps).2.map words = ps.map words := by
  induction ps generalizing s with
  | nil => rfl
  | cons p ps ih =>
    obtain ⟨name, modifiers, place, payload⟩ := p
    simp only [assignAll, List.map_cons, words, Payload.captures_assignNames, ih]

/-- Naming leaves alone what the nodes take over from the source. -/
theorem Node.isNameless_words : Node.IsNameless Node.words where
  widget stem s w := by
    obtain ⟨name, construction, isRoot, doc, place, properties⟩ := w
    simp only [Widget.assignNames, words, List.flatMap_def, Property.map_words_assignAll]
  choice _ _ _ := rfl

namespace Component

theorem words_assignNames (settings : Settings) (c : Component) :
    (c.assignNames settings).words = c.words := by
  have hwalk := map_walk_assignNames Node.isNameless_words settings c
  rw [words, words, name_assignNames, List.flatMap_def, List.flatMap_def, hwalk]

end Component

variable {context : Context}

theorem Context.WritesPath.exists_words {path : String} (h : context.WritesPath path) :
    ∃ words, words ≠ [] ∧ (∀ w ∈ words, context.Writes w) ∧ path = ".".intercalate words ∧
      Text.segments path = words := by
  obtain ⟨words, hsome, hwrites, rfl⟩ := h
  exact ⟨words, hsome, hwrites, rfl, Text.segments_intercalate hsome fun w hw => (hwrites w hw).word⟩

theorem Node.Sound.writes_words {n : Node} (h : n.Sound context) :
    ∀ w ∈ n.words, context.Writes w := by
  have hwritten := h.written
  cases n with
  | choice c => exact nofun
  | widget w =>
    obtain ⟨hpath, hproperties⟩ := hwritten
    obtain ⟨segments, -, hsegments, -, hpath⟩ := hpath.exists_words
    refine List.forall_mem_append.mpr ⟨?_, List.forall_mem_flatMap.mpr fun p hp => ?_⟩
    · cases hconstruction : w.construction with
      | call => exact nofun
      | block | template | prebound =>
        rw [hconstruction] at hpath
        rw [← hpath] at hsegments
        exact hsegments
    · obtain ⟨hname, hcaptures⟩ := hproperties p hp
      refine List.forall_mem_append.mpr ⟨?_, List.forall_mem_map.mpr hcaptures⟩
      split
      · exact nofun
      · next hnamed => exact List.forall_mem_singleton.mpr (hname.resolve_left hnamed)

namespace Component
variable {c : Component}

theorem Sound.writes_words (h : c.Sound context) : ∀ w ∈ c.words, context.Writes w :=
  List.forall_mem_cons.mpr ⟨h.name, List.forall_mem_flatMap.mpr fun n hn => (h.nodes n hn).writes_words⟩

/-- A name is made up from that of the container for choices or from a word of the source. -/
theorem Sound.exists_made (h : c.Sound context) {settings : Settings} {name : String}
    (hname : name ∈ (c.assignNames settings).madeNames) : ∃ m : MadeName, m.text = name ∧
      (m.stem = Text.snakeCase settings.switchContainer ∨
        ∃ w, context.Writes w ∧ m.stem = Text.snakeCase w) := by
  obtain ⟨n, hn, hname⟩ := List.mem_filterMap.mp hname
  have hmade : n.nodeName = .synthesized name := by
    cases hnode : n.nodeName with
    | synthesized made =>
      rw [hnode] at hname
      rw [Option.some.inj hname]
    | absent | given => rw [hnode] at hname; nomatch hname
  obtain ⟨m, rfl, owner, howner, hstem⟩ := exists_madeName h.wellFormed.isGiven hn hmade
  refine ⟨m, rfl, ?_⟩
  have hwritten := (h.nodes owner howner).written
  cases owner with
  | choice choice => exact .inl hstem
  | widget w =>
    obtain ⟨hpath, -⟩ := hwritten
    obtain ⟨words, hsome, hwords, hpath, -⟩ := hpath.exists_words
    obtain ⟨word, hword, hsnake⟩ :=
      Construction.exists_stem hsome (fun w hw => (hwords w hw).word) hpath
    exact .inr ⟨word, hwords word hword, hstem.trans hsnake⟩

/-- All names that the code takes over without a check are identifiers. A keyword is one of them
only if the source has it as a word, and no made-up name is one. -/
structure IsPasted (context : Context) (c : Component) : Prop where
  identifiers : ∀ name ∈ c.pastedNames, Text.isIdentifier name
  keywords : ∀ name ∈ c.pastedNames, isKeyword name → name ∈ c.words ∧ context.Writes name
  made : ∀ name ∈ c.madeNames, ¬isKeyword name

/-- The code of a component that is read from a plain source takes over identifiers. -/
theorem isPasted_of_readSource {settings : Settings} {source : String}
    (hsource : Text.IsPlain source.toList)
    (hchoice : Text.isIdentifier (Text.snakeCase settings.switchContainer))
    {outcomes : List Outcome} (h : readSource? settings source = some outcomes) {o : Outcome}
    (ho : o ∈ outcomes) (hc : o.result = .ok c) :
    (c.assignNames settings).IsPasted ⟨source.toList, settings⟩ := by
  have hsound := sound_of_readSource h ho hc
  have hwords : ∀ name ∈ (c.assignNames settings).words,
      Context.Writes ⟨source.toList, settings⟩ name := by
    rw [words_assignNames]
    exact hsound.writes_words
  have hmade : ∀ name ∈ (c.assignNames settings).madeNames,
      Text.isIdentifier name ∧ ¬isKeyword name := by
    intro name hname
    obtain ⟨m, rfl, hstem⟩ := hsound.exists_made hname
    refine ⟨m.isIdentifier ?_, m.not_isKeyword⟩
    rcases hstem with hstem | ⟨w, hw, hstem⟩
    · rwa [hstem]
    · rw [hstem]
      exact hw.word.isIdentifier_snakeCase hsource hw.copied
  constructor
  case identifiers =>
    refine List.forall_mem_append.mpr ⟨fun name hname => ?_, fun name hname => (hmade name hname).1⟩
    have hwrites := hwords name hname
    exact hwrites.word.isIdentifier hsource hwrites.copied
  case keywords =>
    refine List.forall_mem_append.mpr ⟨fun name hname _ => ⟨hname, hwords name hname⟩, ?_⟩
    exact fun name hname hkeyword => absurd hkeyword (hmade name hname).2
  case made => exact fun name hname => (hmade name hname).2

end Component

/-- A view with a capture, a template, a choice and paths of several segments. -/
def dialSource : String :=
  "view Dial(m, s) \x7b\n  Gtk.Box \x7b\n    connect_x[f = m] => lambda: f,\n    #[template]\n" ++
    "    Card,\n    if m \x7b Gtk.A \x7d else \x7b B \x7d \x7d\n\x7d\n"

instance : Spelled dialSource := .append .literal .literal

theorem isPlain_dialSource : Text.IsPlain dialSource.toList :=
  Text.isPlain_of_ascii (by decide +kernel)

theorem Component.isPasted_dialSource : Text.IsPlain dialSource.toList ∧
    Text.isIdentifier (Text.snakeCase ({} : Settings).switchContainer) ∧
    ∃ outcomes o c, readSource? {} dialSource = some outcomes ∧ o ∈ outcomes ∧ o.result = .ok c ∧
      ((c.assignNames {}).check {}).errors = [] ∧
      (c.assignNames {}).pastedNames = ["Dial", "Gtk", "Box", "connect_x", "f", "Card", "Gtk", "A",
        "B", "box_0", "card_0", "stack_0", "a_0", "b_0"] ∧
      (c.assignNames {}).IsPasted ⟨dialSource.toList, {}⟩ := by
  have hchoice : Text.isIdentifier (Text.snakeCase ({} : Settings).switchContainer) := by
    decide
  have hread : holdsComponent {} dialSource fun c =>
      ((c.assignNames {}).check {}).errors = [] ∧
      (c.assignNames {}).pastedNames = ["Dial", "Gtk", "Box", "connect_x", "f", "Card", "Gtk", "A",
        "B", "box_0", "card_0", "stack_0", "a_0", "b_0"] := by decide +kernel
  obtain ⟨outcomes, o, c, houtcomes, ho, hc, htest⟩ := exists_of_holdsComponent hread
  obtain ⟨herrors, hnames⟩ := of_decide_eq_true htest
  exact ⟨isPlain_dialSource, hchoice, outcomes, o, c, houtcomes, ho, hc, herrors, hnames,
    isPasted_of_readSource isPlain_dialSource hchoice houtcomes ho hc⟩

/-- A view with a property that is named by a keyword. -/
def badgeSource : String := "view Badge(model) \x7b\n  Gtk.Label \x7b class: 1 \x7d\n\x7d\n"

instance : Spelled badgeSource := .literal

/-- The checks find no error, and the code has the keyword as the name of a method. -/
theorem Component.isKeyword_badgeSource : ∃ outcomes o c, readSource? {} badgeSource = some outcomes ∧
    o ∈ outcomes ∧ o.result = .ok c ∧ ((c.assignNames {}).check {}).errors = [] ∧
      "class" ∈ (c.assignNames {}).pastedNames ∧ isKeyword "class" ∧
      ∃ statement ∈ (c.assignNames {}).assigns {},
        statement.code {} = Code.line "label_0.class(1)" := by
  have hread : holdsComponent {} badgeSource fun c =>
      ((c.assignNames {}).check {}).errors = [] ∧ "class" ∈ (c.assignNames {}).pastedNames ∧
        ∃ statement ∈ (c.assignNames {}).assigns {},
          statement.code {} = Code.line "label_0.class(1)" := by
    decide +kernel
  obtain ⟨outcomes, o, c, houtcomes, ho, hc, htest⟩ := exists_of_holdsComponent hread
  obtain ⟨herrors, hname, hcode⟩ := of_decide_eq_true htest
  exact ⟨outcomes, o, c, houtcomes, ho, hc, herrors, hname, by decide, hcode⟩

end ViewTree
