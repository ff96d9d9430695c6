import ViewTree.Proofs.Concatenation
import ViewTree.Proofs.Headers

/-!
Reading on behind components with errors. Main statement: a component is found behind all whole lines,
whatever is wrong with them, if its header can be recognized, and only then (`readSource?_recovers`).
The name of a view can be one that the header may not have (`not_readSource?_openView`).
-/
namespace ViewTree
open Lexer

theorem exists_of_readSections?_cons {settings : Settings} {text : List Char} {s : Section}
    {sections : List Section} {outcomes : List Outcome}
    (h : readSections? settings text (s :: sections) = some outcomes) :
    ∃ first more, Outcome.ofSection? ⟨text, settings⟩ s = some first ∧
      readSections? settings text sections = some more ∧ outcomes = first ++ more := by
  rw [readSections?, List.mapM_cons] at h
  obtain ⟨read, hread, rfl⟩ := Option.map_eq_some_iff.mp h
  obtain ⟨first, hfirst, hread⟩ := Option.bind_eq_some_iff.mp hread
  obtain ⟨more, hmore, hread⟩ := Option.bind_eq_some_iff.mp hread
  obtain rfl := Option.some.inj hread
  exact ⟨first, more.flatten, hfirst, by rw [readSections?, hmore]; rfl, rfl⟩

namespace Section

theorem fromStarts_cons (stop start : Nat) (header : Option Header) (more : List (Nat × Option Header)) :
    ∃ next, fromStarts stop ((start, header) :: more) = ⟨start, next, header⟩ :: fromStarts stop more := by
  cases more with
  | nil => exact ⟨stop, rfl⟩
  | cons entry more => exact ⟨entry.1, rfl⟩

/-- A section that starts with a character of a token is not passed over. -/
theorem exists_outcome {context : Context} {s : Section} {c : Char} {rest : List Char}
    (hslice : Text.slice context.text s.start s.stop = c :: rest)
    (hc : isSkipped c = false ∧ c ≠ '#') {outcomes : List Outcome}
    (h : Outcome.ofSection? context s = some outcomes) : ∃ o more, outcomes = o :: more := by
  unfold Outcome.ofSection? at h
  split at h
  · exact ⟨_, [], (Option.some.inj h).symm⟩
  · next tokens hlex =>
    rw [lex, hslice] at hlex
    cases hsplit : Chunk.split tokens with
    | nil =>
      have hitems := Chunk.items_split tokens
      obtain ⟨kind?, n, later, hstep, -, rfl⟩ := exists_step_of_run hlex
      rw [hsplit] at hitems
      cases kind? with
      | none =>
        rcases step_eq_none hstep with ⟨hskipped, -⟩ | ⟨hcomment, -⟩
        · rw [hc.1] at hskipped
          nomatch hskipped
        · exact absurd hcomment hc.2
      | some kind => nomatch hitems
    | cons chunk chunks =>
      rw [hsplit, List.mapM_cons] at h
      obtain ⟨o, -, h⟩ := Option.bind_eq_some_iff.mp h
      obtain ⟨others, -, h⟩ := Option.bind_eq_some_iff.mp h
      exact ⟨o, others, (Option.some.inj h).symm⟩

/-- Without a header at the start, a text has none at all, or a section of its own in front of them. -/
theorem ofText_cases {c : Char} {rest : List Char} (hnone : Header.read? (c :: rest) = none) :
    headerStarts (c :: rest) = [] ∨ ∃ start stop header others,
      ofText (c :: rest) = ⟨0, start + 1, none⟩ :: ⟨start + 1, stop, some header⟩ :: others := by
  have hlater : headerStarts (c :: rest) =
      (Header.findFrom 1 (c = '\n') rest).map (Prod.map id some) := by
    rw [headerStarts, Header.findFrom, if_pos rfl, hnone]
    rfl
  cases hstarts : Header.findFrom 1 (c = '\n') rest with
  | nil => exact .inl (by rw [hlater, hstarts, List.map_nil])
  | cons entry more =>
    obtain ⟨start, header⟩ := entry
    obtain ⟨start, rfl⟩ := Nat.exists_eq_add_of_le'
      (Header.lt_of_mem_findFrom (hstarts ▸ List.mem_cons_self : (start, header) ∈ _)).1
    rw [hstarts, List.map_cons] at hlater
    have hfirst : ofText (c :: rest) = ⟨0, start + 1, none⟩ :: fromStarts (c :: rest).length
        ((start + 1, some header) :: more.map (Prod.map id some)) := by
      rw [ofText_eq, hlater]
      rfl
    obtain ⟨stop, hstop⟩ := fromStarts_cons (c :: rest).length (start + 1) (some header)
      (more.map (Prod.map id some))
    exact .inr ⟨start, stop, header, _, hfirst.trans (congrArg _ hstop)⟩

/-- A text that starts as a component does and holds just one has no header but at its start. -/
theorem headerStarts_eq_nil {settings : Settings} {cs : List Char} {o : Outcome}
    (hstart : ∃ kind : ComponentKind, kind.word.toList <+: cs) (hnone : Header.read? cs = none)
    (h : readSections? settings cs (ofText cs) = some [o]) : headerStarts cs = [] := by
  obtain ⟨c, rest, rfl, hc⟩ : ∃ c rest, cs = c :: rest ∧ isSkipped c = false ∧ c ≠ '#' := by
    obtain ⟨kind, more, rfl⟩ := hstart
    cases kind with
    | view => exact ⟨'v', ['i', 'e', 'w'] ++ more, rfl, by decide⟩
    | template => exact ⟨'t', ['e', 'm', 'p', 'l', 'a', 't', 'e'] ++ more, rfl, by decide⟩
  refine (ofText_cases hnone).resolve_right ?_
  -- The sections in front of the next header and behind it would have an outcome each.
  rintro ⟨start, stop, header, others, hsections⟩
  have hmem : ⟨start + 1, stop, some header⟩ ∈ ofText (c :: rest) := by
    rw [hsections]
    exact List.mem_cons_of_mem _ List.mem_cons_self
  rw [hsections] at h
  obtain ⟨first, behind, hfirst, hbehind, houtcomes⟩ := exists_of_readSections?_cons h
  obtain ⟨second, last, hsecond, -, rfl⟩ := exists_of_readSections?_cons hbehind
  obtain ⟨_, _, rfl⟩ := exists_outcome (s := ⟨0, start + 1, none⟩) rfl hc hfirst
  obtain ⟨_, _, rfl, -⟩ := reports_header hmem rfl hsecond
  simp at houtcomes

end Section

/-- A line with a character that no token is made of. -/
def strayMark : String := "$\n"

theorem Section.ofText_stray {cs : List Char} (h : headerStarts cs = []) :
    ofText ('$' :: '\n' :: cs) = [⟨0, cs.length + 2, none⟩] := by
  have hstarts := headerStarts_append ['$'] cs
  rw [h] at hstarts
  rw [ofText_eq]
  exact congrArg (fromStarts _ <| anchored ·) hstarts

theorem lex_stray (cs : List Char) : lex ('$' :: '\n' :: cs) 0 (cs.length + 2) =
    .error ⟨.unexpectedChar '$', ⟨1, 1⟩⟩ := by
  have hstep : step '$' ('\n' :: cs) = .error (.unexpectedChar '$') := rfl
  have hslice : Text.slice ('$' :: '\n' :: cs) 0 (cs.length + 2) = '$' :: '\n' :: cs :=
    List.take_of_length_le (Nat.le_refl _)
  rw [lex, hslice, run_error hstep]
  rfl

theorem usable_strayMark (settings : Settings) : Context.Usable ⟨strayMark.toList, settings⟩ := by
  have hnone : Context.remainders ⟨['$', '\n'], settings⟩ = [] := by
    have hsections : Section.ofText ['$', '\n'] = [⟨0, 2, none⟩] := Section.ofText_stray rfl
    have hlex : lex ['$', '\n'] 0 2 = .error ⟨.unexpectedChar '$', ⟨1, 1⟩⟩ := lex_stray []
    rw [Context.remainders, hsections, List.flatMap_singleton, hlex]
  have hmem (ts : List Token) (hts : ts ∈ Context.remainders ⟨strayMark.toList, settings⟩) : False := by
    rw [show strayMark.toList = ['$', '\n'] from rfl, hnone] at hts
    cases hts
  exact ⟨rfl, fun ts hts => (hmem ts hts).elim, fun ts hts => (hmem ts hts).elim⟩

/-- A text without header is lost behind the line. -/
theorem readSource?_strayMark (settings : Settings) {s : String}
    (hs : Section.headerStarts s.toList = []) : readSource? settings (strayMark ++ s) =
      some [⟨none, none, .error (.lexical ⟨.unexpectedChar '$', ⟨1, 1⟩⟩)⟩] := by
  have htext : (strayMark ++ s).toList = '$' :: '\n' :: s.toList := String.toList_append
  rw [readSource?, htext, Section.ofText_stray hs, List.mapM_cons, Outcome.ofSection?, lex_stray]
  rfl

/-- A text of whole lines and one that starts with a header are read as each of them by itself. -/
theorem readSource?_append (settings : Settings) {p s : String}
    (hp : p = "" ∨ p.toList.getLast? = some '\n') (hs : (Header.read? s.toList).isSome) :
    readSource? settings (p ++ s) =
      (readSource? settings p).bind fun first =>
        (readSource? settings s).map fun second =>
          first ++ second.map (.mapPlaces (.down (p.toList.count '\n'))) := by
  have hp : p.toList = [] ∨ p.toList.getLast? = some '\n' :=
    hp.imp_left fun hempty => by rw [hempty]; rfl
  have hconcat := readSections?_concat settings p.toList s.toList hp hs
  rw [← String.toList_append] at hconcat
  exact hconcat

/-- A component is found behind any whole lines, the same but for the lines in front, exactly if its
header can be recognized. -/
theorem readSource?_recovers {settings : Settings} {s : String}
    (hstart : ∃ kind : ComponentKind, kind.word.toList <+: s.toList) {o : Outcome} {c : Component}
    (ho : readSource? settings s = some [o]) (hc : o.result = .ok c) :
    (Header.read? s.toList).isSome ↔ ∀ p : String, (p = "" ∨ p.toList.getLast? = some '\n') →
      Context.Usable ⟨p.toList, settings⟩ → ∃ first, readSource? settings p = some first ∧
        readSource? settings (p ++ s) =
          some (first ++ [⟨o.name, o.kind, .ok (c.mapPlaces (.down (p.toList.count '\n')))⟩]) := by
  constructor
  · intro hs p hp husable
    obtain ⟨first, hfirst⟩ := exists_readSource husable
    refine ⟨first, hfirst, ?_⟩
    rw [readSource?_append settings hp hs, hfirst, ho]
    show some (first ++ [o.mapPlaces _]) = _
    rw [Outcome.mapPlaces, hc]
    rfl
  · intro hfound
    by_contra hnone
    have hstarts := Section.headerStarts_eq_nil hstart (Option.not_isSome_iff_eq_none.mp hnone) ho
    obtain ⟨first, -, hread⟩ := hfound strayMark (.inr (by decide)) (usable_strayMark settings)
    rw [readSource?_strayMark settings hstarts] at hread
    have hlast := congrArg List.getLast? (Option.some.inj hread)
    rw [List.getLast?_append] at hlast
    simp at hlast

theorem exists_ok {settings : Settings} {source : String}
    (h : (readSource? settings source).map (List.map (·.result.toOption.isSome)) = some [true]) :
    ∃ o c, readSource? settings source = some [o] ∧ o.result = .ok c := by
  obtain ⟨outcomes, houtcomes, hresults⟩ := Option.map_eq_some_iff.mp h
  obtain ⟨o, rfl, hsome⟩ := List.map_eq_singleton_iff.mp hresults
  cases hresult : o.result with
  | ok c => exact ⟨o, c, houtcomes, hresult⟩
  | error e => rw [hresult] at hsome; nomatch hsome

def strayLines : String := "view Open(model) \x7b\n  Gtk.Label[(\nstray \x7d) view 'text\n"
def clockView : String := "view Clock(m) \x7b Box \x7d\n"

instance : Spelled strayLines := .literal
instance : Spelled clockView := .literal

theorem readSource?_recovers_clockView :
    (∃ kind : ComponentKind, kind.word.toList <+: clockView.toList) ∧
      (strayLines = "" ∨ strayLines.toList.getLast? = some '\n') ∧
      Context.Usable ⟨strayLines.toList, {}⟩ ∧
      ∃ o c, readSource? {} clockView = some [o] ∧ o.result = .ok c ∧
        ∃ first, readSource? {} strayLines = some first ∧ readSource? {} (strayLines ++ clockView) =
          some (first ++ [⟨o.name, o.kind, .ok (c.mapPlaces (.down 3))⟩]) := by
  have hstart : ∃ kind : ComponentKind, kind.word.toList <+: clockView.toList := ⟨.view, by decide⟩
  have husable : Context.Usable ⟨strayLines.toList, {}⟩ := by
    rw [Spelled.toList_eq]
    exact ⟨by decide +kernel, by decide +kernel, by decide +kernel⟩
  obtain ⟨o, c, ho, hc⟩ : ∃ o c, readSource? {} clockView = some [o] ∧ o.result = .ok c :=
    exists_ok (by rw [readSource?_spelled]; decide +kernel)
  refine ⟨hstart, .inr (by decide), husable, o, c, ho, hc, ?_⟩
  exact (readSource?_recovers hstart ho hc).mp (by decide) strayLines (.inr (by decide)) husable

/-- A view that never ends, and one whose name starts with a letter of another script. -/
def openView : String := "view Open(model) \x7b\n"
def craneView : String := "view Żuraw(model) \x7b\n    Gtk.Label,\n\x7d\n"

instance : Spelled craneView := .literal
instance : Spelled (openView ++ craneView) := .append .literal .literal

/-- The second view is lost behind the first one. -/
theorem not_readSource?_openView :
    (openView.toList.getLast? = some '\n' ∧ Context.Usable ⟨openView.toList, {}⟩ ∧
      "view".toList <+: craneView.toList) ∧
      (∃ o c, readSource? {} craneView = some [o] ∧ o.result = .ok c) ∧
      (readSource? {} (openView ++ craneView)).map (List.map (·.result.toOption.isSome)) =
        some [false] := by
  have hread : (readSource? {} craneView).map (List.map (·.result.toOption.isSome)) = some [true] ∧
      (readSource? {} (openView ++ craneView)).map (List.map (·.result.toOption.isSome)) =
        some [false] := by
    rw [readSource?_spelled, readSource?_spelled]
    decide +kernel
  exact ⟨⟨by decide, ⟨by decide +kernel, by decide +kernel, by decide +kernel⟩, by decide⟩,
    exists_ok hread.1, hread.2⟩

end ViewTree
