import ViewTree.Proofs.Evaluation
import ViewTree.Proofs.Reading.Productions
import ViewTree.Proofs.Relocation.Lexing

/-!
What view files read as. Main statement: whatever a file holds, each of its components that is read
at all is well-formed (`wellFormed_of_readSource`).
-/
namespace ViewTree

/-- Each component ends where its section does. -/
theorem Chunk.eof_of_mem_split {ts : Tokens} {c : Chunk} (hc : c ∈ split ts) :
    c.tokens.eof = ts.eof := by
  obtain ⟨items, -, rfl⟩ := List.mem_map.mp hc
  rfl

theorem Lexer.eof_of_run {p : Position} {cs : List Char} {ts : Tokens}
    (h : run p cs = .ok ts) : ts.eof.kind = .eof ∧ ts.eof.text = "" := by
  induction cs using Lexer.induction generalizing p ts with
  | nil =>
    rw [run_nil] at h
    obtain rfl := Except.ok.inj h
    exact ⟨rfl, rfl⟩
  | step c rest ih =>
    obtain ⟨kind?, n, more, -, hrun, rfl⟩ := exists_step_of_run h
    show more.eof.kind = .eof ∧ more.eof.text = ""
    exact ih n hrun

/-- A chunk is read from its first token on. -/
theorem Chunk.sound_of_mem_split {context : Context} {s : Section} {ts : Tokens} {c : Chunk}
    (hs : s ∈ Section.ofText context.text) (hlex : lex context.text s.start s.stop = .ok ts)
    (hc : c ∈ split ts) : Cursor.Sound context ⟨none, c.tokens.items, c.tokens.eof⟩ := by
  refine ⟨Context.mem_remainders_iff.mpr ⟨s, hs, ts, hlex, c, hc, List.suffix_refl _⟩, ?_⟩
  rw [eof_of_mem_split hc]
  exact Lexer.eof_of_run hlex

theorem Component.sound_of_ofTokens {context : Context} {ts : Tokens} {c : Component}
    (hts : Cursor.Sound context ⟨none, ts.items, ts.eof⟩) (h : ofTokens context ts = .ok c) :
    c.Sound context := by
  have hyields : TreeReader.Yields context (Sound context) Component.read := yields_component
  unfold ofTokens at h
  split at h
  · next component rest hread =>
    obtain rfl := Except.ok.inj h
    exact ((hyields ⟨none, ts.items, ts.eof⟩ hts).gives component rest hread).1
  · nomatch h

/-- Reading a component of a usable source comes to an end that can be reported. -/
theorem Component.ofTokens_ne_unusable {context : Context} {ts : Tokens} (husable : context.Usable)
    (hts : Cursor.Sound context ⟨none, ts.items, ts.eof⟩) :
    ofTokens context ts ≠ .error .unusable := by
  have hyields : TreeReader.Yields context (Sound context) Component.read := yields_component
  have hread := (hyields ⟨none, ts.items, ts.eof⟩ hts).ends husable
  intro h
  unfold ofTokens at h
  split at h
  · nomatch h
  · next failure hfailure =>
    obtain rfl := Except.error.inj h
    exact hread hfailure

theorem Outcome.sound_of_ofChunk? {context : Context} {chunk : Chunk} {o : Outcome}
    {c : Component} (hchunk : Cursor.Sound context ⟨none, chunk.tokens.items, chunk.tokens.eof⟩)
    (h : ofChunk? context chunk = some o) (hc : o.result = .ok c) : c.Sound context := by
  unfold ofChunk? at h
  split at h
  · next component hread =>
    obtain rfl := Option.some.inj h
    obtain rfl := Except.ok.inj hc
    exact Component.sound_of_ofTokens hchunk hread
  · obtain rfl := Option.some.inj h
    nomatch hc
  · nomatch h

theorem Outcome.sound_of_ofSection? {context : Context} {s : Section} {outcomes : List Outcome}
    (hs : s ∈ Section.ofText context.text) (h : ofSection? context s = some outcomes)
    {o : Outcome} (ho : o ∈ outcomes) {c : Component} (hc : o.result = .ok c) :
    c.Sound context := by
  unfold ofSection? at h
  split at h
  · obtain rfl := Option.some.inj h
    obtain rfl := List.mem_singleton.mp ho
    cases hc
  · next tokens hlex =>
    obtain ⟨chunk, hchunk, houtcome⟩ := exists_mem_of_mapM_eq_some h o ho
    exact sound_of_ofChunk? (Chunk.sound_of_mem_split hs hlex hchunk) houtcome hc

/-- Where a component of a file that is read comes from. -/
theorem exists_section_of_readSource {settings : Settings} {source : String}
    {outcomes : List Outcome} (h : readSource? settings source = some outcomes) {o : Outcome}
    (ho : o ∈ outcomes) : ∃ s ∈ Section.ofText source.toList, ∃ own,
      Outcome.ofSection? ⟨source.toList, settings⟩ s = some own ∧ o ∈ own := by
  obtain ⟨sections, hsections, rfl⟩ := Option.map_eq_some_iff.mp h
  obtain ⟨own, hown, ho⟩ := List.mem_flatten.mp ho
  obtain ⟨s, hs, hread⟩ := exists_mem_of_mapM_eq_some hsections own hown
  exact ⟨s, hs, own, hread, ho⟩

/-- All components of a file that are read are sound, whatever is wrong with the others. -/
theorem Component.sound_of_readSource {settings : Settings} {source : String}
    {outcomes : List Outcome} (h : readSource? settings source = some outcomes) {o : Outcome}
    (ho : o ∈ outcomes) {c : Component} (hc : o.result = .ok c) :
    c.Sound ⟨source.toList, settings⟩ := by
  obtain ⟨s, hs, own, hread, ho⟩ := exists_section_of_readSource h ho
  exact Outcome.sound_of_ofSection? hs hread ho hc

/-- All components of a file that are read are well-formed, whatever is wrong with the others. -/
theorem wellFormed_of_readSource {settings : Settings} {source : String} {outcomes : List Outcome}
    (h : readSource? settings source = some outcomes) {o : Outcome} (ho : o ∈ outcomes)
    {c : Component} (hc : o.result = .ok c) : c.WellFormed :=
  (Component.sound_of_readSource h ho hc).wellFormed

/-- A result that is tested is there. -/
theorem exists_ok_of_any {ε α : Type} {x : Except ε α} {test : α → Bool} (h : x.toOption.any test) :
    ∃ a, x = .ok a ∧ test a := by
  cases x with
  | error e => cases h
  | ok a => exact ⟨a, rfl, h⟩

theorem exists_error_of_test {ε α : Type} {x : Except ε α} {test : ε → Bool}
    (h : (match x with
      | .ok _ => false
      | .error e => test e) = true) : ∃ e, x = .error e ∧ test e := by
  cases x with
  | error e => exact ⟨e, rfl, h⟩
  | ok a => cases h

def holdsComponent (settings : Settings) (source : String) [Spelled source]
    (test : Component → Bool) : Bool :=
  (((Section.ofText (Spelled.chars source)).mapM
    (Outcome.ofSection? ⟨Spelled.chars source, settings⟩)).map List.flatten).any fun outcomes =>
      outcomes.any fun o => o.result.toOption.any test

theorem exists_of_holdsComponent {settings : Settings} {source : String} [Spelled source]
    {test : Component → Bool} (h : holdsComponent settings source test) : ∃ outcomes o c,
      readSource? settings source = some outcomes ∧ o ∈ outcomes ∧ o.result = .ok c ∧ test c := by
  rw [holdsComponent, ← readSource?_spelled] at h
  obtain ⟨outcomes, houtcomes, hany⟩ := (Option.any_eq_true _ _).mp h
  obtain ⟨o, ho, hany⟩ := List.any_eq_true.mp hany
  obtain ⟨c, hc, htest⟩ := exists_ok_of_any hany
  exact ⟨outcomes, o, c, houtcomes, ho, hc, htest⟩

/-- The file has a view for which, once its nodes are named, the test holds. -/
def holdsView (settings : Settings) (source : String) [Spelled source] (test : View → Bool) : Bool :=
  holdsComponent settings source fun c =>
    match c.assignNames settings with
    | .view w => test w
    | .template _ => false

theorem exists_of_holdsView {settings : Settings} {source : String} [Spelled source]
    {test : View → Bool} (h : holdsView settings source test) : ∃ outcomes o v w,
      readSource? settings source = some outcomes ∧ o ∈ outcomes ∧ o.result = .ok (.view v) ∧
        (Component.view v).assignNames settings = .view w ∧ test w := by
  obtain ⟨outcomes, o, c, houtcomes, ho, hc, htest⟩ := exists_of_holdsComponent h
  cases c with
  | template t => nomatch htest
  | view v => exact ⟨outcomes, o, v, _, houtcomes, ho, hc, rfl, htest⟩

/-- A view with a connection and a choice. -/
def mixerView : String :=
  "view Mixer(model, sender) \x7b\n  Gtk.Box \x7b\n    connect_close => Quit,\n" ++
    "    append = if model.ready \x7b Gtk.Label \x7d else \x7b Gtk.Spinner \x7d\n  \x7d\n\x7d\n"

instance : Spelled mixerView := .append .literal .literal

theorem wellFormed_mixerView : ∃ outcomes o c, readSource? {} mixerView = some outcomes ∧
    o ∈ outcomes ∧ o.result = .ok c ∧ c.kind = .view ∧ c.WellFormed := by
  have hread : holdsComponent {} mixerView fun c => c.kind = .view := by decide +kernel
  obtain ⟨outcomes, o, c, houtcomes, ho, hc, hkind⟩ := exists_of_holdsComponent hread
  exact ⟨outcomes, o, c, houtcomes, ho, hc, of_decide_eq_true hkind,
    wellFormed_of_readSource houtcomes ho hc⟩

end ViewTree
