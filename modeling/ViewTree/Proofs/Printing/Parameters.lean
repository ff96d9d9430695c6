import ViewTree.Proofs.Printing.Lambdas
import ViewTree.Proofs.Printing.Terms

/-!
The parameters of a lambda as they are printed: one item after the other, as they have been read. Main
statement: `joinParams_of_follow`.
-/
namespace ViewTree.Embedded
open Text Grammar

/-- A parameter list by what its parameters take. -/
structure Segments where
  positional : List (String × Option Term) := []
  ordinary : List (String × Option Term) := []
  star : Option (Option String) := none
  named : List (String × Option Term) := []
  last : Option String := none

namespace Segments

def plain (p : String × Option Term) : ParameterItem := .plain p.1 p.2

def items (s : Segments) : List ParameterItem :=
  s.positional.map plain ++ (if s.positional.isEmpty then [] else [.slash]) ++ s.ordinary.map plain ++
    s.star.toList.map .star ++ s.named.map plain ++ s.last.toList.map .keywords

/-- The parameter that a star collects others in. -/
def rest : Option (Option String) → List Param
  | some (some id) => [.mk .rest id none]
  | _ => []

def param (kind : ParamKind) (p : String × Option Term) : Param := .mk kind p.1 p.2

def params (s : Segments) : List Param :=
  s.positional.map (param .positionalOnly) ++ s.ordinary.map (param .ordinary) ++ rest s.star ++
    s.named.map (param .keywordOnly) ++ s.last.toList.map fun id => .mk .keywords id none

end Segments

namespace Grammar.Parameters

/-- What the parameters read so far say of the items before. -/
structure Matches (read : Parameters) (s : Segments) : Prop where
  found : read.found.reverse = s.params
  slash : read.slash = !s.positional.isEmpty
  star : read.star = s.star.isSome
  waiting : read.waiting = (s.star = some none && s.named.isEmpty)
  last : read.last = s.last.isSome
  named : s.star = none → s.named = []

theorem Matches.push {read : Parameters} {s : Segments} (h : read.Matches s) (hlast : read.last = false)
    {item : ParameterItem} (hallows : read.Allows item) :
    ∃ s' : Segments, (read.push item).Matches s' ∧ s'.items = s.items ++ [item] := by
  obtain ⟨positional, ordinary, star, named, last⟩ := s
  obtain ⟨hfound, hslash, hstar, hwaiting, hends, hnamed⟩ := h
  obtain rfl : last = none := by simpa [hlast] using hends.symm
  cases item with
  | plain id default =>
    cases star with
    | none =>
      obtain rfl := hnamed rfl
      refine ⟨⟨positional, ordinary ++ [(id, default)], none, [], none⟩,
        ⟨?_, hslash, hstar, rfl, hends, hnamed⟩, ?_⟩
      · simp [Parameters.push, hfound, hstar, Segments.params, Segments.rest, Segments.param]
      · simp [Segments.items, Segments.plain]
    | some star =>
      refine ⟨⟨positional, ordinary, some star, named ++ [(id, default)], none⟩,
        ⟨?_, hslash, hstar, ?_, hends, by simp⟩, ?_⟩
      · simp [Parameters.push, hfound, hstar, Segments.params, Segments.param]
      · simp [Parameters.push]
      · simp [Segments.items, Segments.plain]
  | slash =>
    obtain ⟨⟨hnone, hbare⟩, hsome⟩ : (read.slash = false ∧ read.star = false) ∧ read.found ≠ [] := by
      simpa [Allows, and_assoc] using hallows
    obtain rfl : positional = [] := by simpa [hnone] using hslash.symm
    obtain rfl : star = none := by simpa [hbare] using hstar.symm
    obtain rfl := hnamed rfl
    have hfound : read.found.reverse = ordinary.map (Segments.param .ordinary) := by
      simpa [Segments.params, Segments.rest] using hfound
    have hordinary : ordinary ≠ [] := by
      rintro rfl
      exact hsome (by simpa using hfound)
    -- the parameters so far turn out to be positional
    refine ⟨⟨ordinary, [], none, [], none⟩, ⟨?_, ?_, hstar, hwaiting, hends, hnamed⟩, ?_⟩
    · simp [Parameters.push, ← List.map_reverse, hfound, Segments.params, Segments.rest, Segments.param,
        positionalOnly, Function.comp_def]
    · simp [Parameters.push, hordinary]
    · simp [Segments.items, hordinary]
  | star name =>
    obtain rfl : star = none := by simpa [show read.star = false from hallows] using hstar.symm
    obtain rfl := hnamed rfl
    refine ⟨⟨positional, ordinary, some name, [], none⟩, ?_, by simp [Segments.items]⟩
    cases name with
    | none => exact ⟨hfound, hslash, rfl, rfl, hends, by simp⟩
    | some id =>
      refine ⟨?_, hslash, rfl, hwaiting, hends, by simp⟩
      simp [Parameters.push, hfound, Segments.params, Segments.rest]
  | keywords id =>
    refine ⟨⟨positional, ordinary, star, named, some id⟩, ⟨?_, hslash, hstar, hwaiting, rfl, hnamed⟩, ?_⟩
    · simp [Parameters.push, hfound, Segments.params]
    · simp [Segments.items]

theorem exists_matches_foldl {items : List ParameterItem} {read : Parameters} (hfollow : read.Follow items)
    {s : Segments} (h : read.Matches s) :
    ∃ s' : Segments, (items.foldl Parameters.push read).Matches s' ∧ s'.items = s.items ++ items := by
  induction items generalizing read s with
  | nil => exact ⟨s, h, (List.append_nil _).symm⟩
  | cons item items ih =>
    obtain ⟨hlast, hallows, hfollow⟩ := hfollow
    obtain ⟨middle, hmiddle, hitems⟩ := h.push hlast hallows
    obtain ⟨s', hs', hall⟩ := ih hfollow hmiddle
    exact ⟨s', hs', by rw [hall, hitems, List.append_assoc, List.singleton_append]⟩

theorem matches_empty : Matches {} {} := ⟨rfl, rfl, rfl, rfl, rfl, fun _ => rfl⟩

end Grammar.Parameters

def defaultCodes (default : Option Term) : Codes := (Term.printOption false "=" default).getD []

def ParameterItem.codes : ParameterItem → Codes
  | plain id default => codesOf id ++ defaultCodes default
  | slash => codesOf "/"
  | star none => codesOf "*"
  | star (some id) => codesOf "*" ++ codesOf id
  | keywords id => codesOf "**" ++ codesOf id

def Param.written (p : Param) : ParamKind × Codes := (p.kind, codesOf p.name ++ defaultCodes p.default)

theorem printAll_eq {params : List Param} {written : List (ParamKind × Codes)}
    (h : Param.printAll false params = some written) :
    written = params.map Param.written ∧
      ∀ p ∈ params, (Term.printOption false "=" p.default).isSome := by
  induction params generalizing written with
  | nil =>
    obtain rfl := Option.some.inj h
    exact ⟨rfl, nofun⟩
  | cons p params ih =>
    obtain ⟨kind, name, default⟩ := p
    obtain ⟨value, hvalue, h⟩ := Option.bind_eq_some_iff.mp h
    obtain ⟨later, hlater, h⟩ := Option.bind_eq_some_iff.mp h
    obtain rfl := Option.some.inj h
    obtain ⟨rfl, hall⟩ := ih hlater
    refine ⟨?_, List.forall_mem_cons.mpr ⟨Option.isSome_of_eq_some hvalue, hall⟩⟩
    simp [Param.written, Param.kind, Param.name, Param.default, defaultCodes, hvalue]

def ofKind (kind : ParamKind) (params : List Param) : List Codes :=
  ((params.map Param.written).filter (·.1 = kind)).map (·.2)

theorem ofKind_append (kind : ParamKind) (params more : List Param) :
    ofKind kind (params ++ more) = ofKind kind params ++ ofKind kind more := by
  simp [ofKind]

theorem ofKind_segment (kind other : ParamKind) (ps : List (String × Option Term)) :
    ofKind kind (ps.map (Segments.param other)) =
      if other = kind then ps.map (fun p => (Segments.plain p).codes) else [] := by
  by_cases h : other = kind <;>
    simp [ofKind, Segments.param, Param.written, Param.kind, Param.name, Param.default, Segments.plain,
      ParameterItem.codes, Function.comp_def, List.filter_map, h]

theorem ofKind_keywords (kind : ParamKind) (last : Option String) :
    ofKind kind (last.toList.map fun id => .mk .keywords id none) =
      if kind = .keywords then last.toList.map codesOf else [] := by
  cases last <;> cases kind <;> simp [ofKind, Param.written, Param.kind, Param.name, Param.default,
    defaultCodes, Term.printOption]

theorem ofKind_rest (kind : ParamKind) (star : Option (Option String)) :
    ofKind kind (Segments.rest star) = if kind = .rest then star.join.toList.map codesOf else [] := by
  rcases star with _ | _ | id <;> cases kind <;> simp [ofKind, Segments.rest, Param.written, Param.kind,
    Param.name, Param.default, defaultCodes, Term.printOption]

/-- The parameters of a lambda are printed as the items that they have been read from. -/
theorem joinParams_segments {s : Segments} (h : s.star = some none → s.named ≠ [])
    (hnamed : s.star = none → s.named = []) :
    joinParams (s.params.map Param.written) = joinCodes ", " (s.items.map ParameterItem.codes) := by
  obtain ⟨positional, ordinary, star, named, last⟩ := s
  have hjoin (params : List Param) : joinParams (params.map Param.written) = joinCodes ", "
      (ofKind .positionalOnly params ++
        (if (ofKind .positionalOnly params).isEmpty then [] else [codesOf "/"]) ++ ofKind .ordinary params ++
        (if ((ofKind .rest params).map (codesOf "*" ++ ·)).isEmpty && !(ofKind .keywordOnly params).isEmpty
          then [codesOf "*"] else (ofKind .rest params).map (codesOf "*" ++ ·)) ++
        ofKind .keywordOnly params ++ (ofKind .keywords params).map (codesOf "**" ++ ·)) := rfl
  have hstar : (if ((star.join.toList.map codesOf).map (codesOf "*" ++ ·)).isEmpty &&
      !(named.map fun p => (Segments.plain p).codes).isEmpty then [codesOf "*"]
      else (star.join.toList.map codesOf).map (codesOf "*" ++ ·)) = star.toList.map fun name =>
        (ParameterItem.star name).codes := by
    rcases star with _ | _ | id
    · obtain rfl := hnamed rfl
      rfl
    · simp [h rfl, ParameterItem.codes]
    · simp [ParameterItem.codes]
  rw [hjoin]
  simp only [Segments.params, ofKind_append, ofKind_segment, ofKind_keywords, ofKind_rest, reduceCtorEq,
    if_true, if_false, List.append_nil, List.nil_append]
  rw [hstar]
  congr 1
  cases positional <;> cases last <;> simp [Segments.items, ParameterItem.codes, Function.comp_def]

namespace Grammar.Parameters

theorem push_unplaced (read : Parameters) (item : ParameterItem) :
    (read.push item).unplaced = read.unplaced.push item.unplaced := by
  cases item with
  | slash => simp [push, Parameters.unplaced, ParameterItem.unplaced, positionalOnly_unplaced]
  | plain id default =>
    simp only [push, Parameters.unplaced, ParameterItem.unplaced, List.map_cons, Param.unplaced,
      Term.optionUnplaced_eq, Option.isSome_map]
    rfl
  | star name => cases name <;> rfl
  | keywords => rfl

theorem foldl_push_unplaced (items : List ParameterItem) (read : Parameters) :
    (items.foldl push read).unplaced = (items.map ParameterItem.unplaced).foldl push read.unplaced := by
  induction items generalizing read with
  | nil => rfl
  | cons item items ih => rw [List.foldl_cons, ih, push_unplaced, List.map_cons, List.foldl_cons]

theorem Follow.unplaced {items : List ParameterItem} {read : Parameters} (h : read.Follow items) :
    read.unplaced.Follow (items.map ParameterItem.unplaced) := by
  induction items generalizing read with
  | nil => trivial
  | cons item items ih =>
    obtain ⟨hlast, hallows, hfollow⟩ := h
    refine ⟨hlast, ?_, push_unplaced read item ▸ ih hfollow⟩
    cases item with
    | slash => simpa [Allows, Parameters.unplaced, ParameterItem.unplaced] using hallows
    | plain id default => simpa [Allows, Parameters.unplaced, ParameterItem.unplaced] using hallows
    | _ => exact hallows

end Grammar.Parameters

/-- Items that may follow each other make a parameter list. -/
theorem exists_segments {items : List ParameterItem} (hfollow : Parameters.Follow {} items)
    (hend : (items.foldl Parameters.push {}).waiting = false) : ∃ s : Segments, s.items = items ∧
      (items.foldl Parameters.push {}).found.reverse = s.params ∧
        (s.star = some none → s.named ≠ []) ∧ (s.star = none → s.named = []) := by
  obtain ⟨s, hs, hitems⟩ := Parameters.exists_matches_foldl hfollow Parameters.matches_empty
  refine ⟨s, hitems, hs.found, fun hstar => ?_, hs.named⟩
  have hwaiting := hs.waiting
  rw [hend, hstar] at hwaiting
  simpa using hwaiting.symm

theorem joinParams_of_follow {items : List ParameterItem} (hfollow : Parameters.Follow {} items)
    (hend : (items.foldl Parameters.push {}).waiting = false) :
    joinParams ((items.foldl Parameters.push {}).found.reverse.map Param.written) =
      joinCodes ", " (items.map ParameterItem.codes) := by
  obtain ⟨s, rfl, hfound, hstar, hnamed⟩ := exists_segments hfollow hend
  rw [hfound, joinParams_segments hstar hnamed]

/-- Without parameters there are no items. -/
theorem items_eq_nil {items : List ParameterItem} (hfollow : Parameters.Follow {} items)
    (hend : (items.foldl Parameters.push {}).waiting = false)
    (hnone : (items.foldl Parameters.push {}).found = []) : items = [] := by
  obtain ⟨⟨positional, ordinary, star, named, last⟩, rfl, hfound, hstar, hnamed⟩ :=
    exists_segments hfollow hend
  rw [hnone] at hfound
  obtain ⟨rfl, rfl, hrest, rfl, rfl⟩ : positional = [] ∧ ordinary = [] ∧ Segments.rest star = [] ∧
      named = [] ∧ last = none := by
    simpa [Segments.params] using hfound.symm
  rcases star with _ | _ | id
  · rfl
  · exact absurd rfl (hstar rfl)
  · cases hrest

/-- An item whose name and default are printed as themselves. -/
inductive ParameterItem.Rereads : ParameterItem → Prop where
  | plain {id default} (hid : StandsForItself id) (h : ∀ t ∈ default, Embedded.Rereads t) :
    ParameterItem.Rereads (.plain id default)
  | slash : ParameterItem.Rereads .slash
  | star {name : Option String} (h : ∀ id ∈ name, StandsForItself id) : ParameterItem.Rereads (.star name)
  | keywords {id} (hid : StandsForItself id) : ParameterItem.Rereads (.keywords id)

def ParameterItem.isPrinted : ParameterItem → Bool
  | plain _ default => (Term.printOption false "=" default).isSome
  | _ => true

section
variable {item : ParameterItem} {items : List ParameterItem} {body : Term} {s e : Nat}

theorem startsWith_name_endsSymbol {id : String} (hid : StandsForItself id) :
    StartsWith endsSymbol id.toList :=
  (startsWith_name hid).imp fun _ hc => endsSymbol_of_startsPart (startsPart_of_isWordByte hc)

theorem ParameterItem.Rereads.written (h : item.Rereads) (hprint : item.isPrinted) :
    ∃ kinds, PartOf item.codes kinds ∧ ParameterAt kinds item.unplaced := by
  have hname {id : String} (hid : StandsForItself id) : Scans endsPart id.toList [.name id] :=
    (scans_name hid).mono fun c hc => (ends_of_endsPart hc).1
  have hsymbol {s : String} (hsign : s ∈ printedSymbols) : Scans endsPart s.toList [.symbol s] :=
    (scans_symbol hsign).mono fun c hc => (ends_of_endsPart hc).2.2.2
  cases h with
  | @plain id default hid h =>
    cases default with
    | none => exact ⟨_, by
        simpa [PartOf, ParameterItem.codes, defaultCodes, Term.printOption] using hname hid, .bare⟩
    | some t =>
      obtain ⟨codes, hcodes⟩ := Option.isSome_iff_exists.mp hprint
      obtain ⟨value, hvalue, rfl⟩ := Option.map_eq_some_iff.mp hcodes
      obtain ⟨ks, hstart, hks, hreads⟩ := (h t rfl).part (l := 4) (by decide) (by decide) hvalue
      refine ⟨_, ?_, .default hreads⟩
      have hall := scans_assigned hid hstart hks
      rw [PartOf, ParameterItem.codes, defaultCodes, hcodes]
      simpa using hall
  | slash => exact ⟨_, by simpa [PartOf, ParameterItem.codes] using hsymbol (s := "/") (by decide), .slash⟩
  | @star name h =>
    cases name with
    | none => exact ⟨_, by simpa [PartOf, ParameterItem.codes] using hsymbol (s := "*") (by decide), .star⟩
    | some id =>
      have hall := (scans_symbol (s := "*") (by decide)).append (hname (h id rfl))
        (startsWith_name_endsSymbol (h id rfl))
      exact ⟨_, by simpa [PartOf, ParameterItem.codes] using hall, .rest⟩
  | @keywords id hid =>
    have hall := (scans_symbol (s := "**") (by decide)).append (hname hid) (startsWith_name_endsSymbol hid)
    exact ⟨_, by simpa [PartOf, ParameterItem.codes] using hall, .keywords⟩

theorem isPrinted_of_params (hfollow : Parameters.Follow {} items)
    (hend : (items.foldl Parameters.push {}).waiting = false)
    (h : ∀ p ∈ (items.foldl Parameters.push {}).found.reverse,
      (Term.printOption false "=" p.default).isSome) :
    ∀ item ∈ items, item.isPrinted := by
  obtain ⟨s, rfl, hfound, -, -⟩ := exists_segments hfollow hend
  rw [hfound] at h
  intro item hitem
  simp only [Segments.items, List.mem_append, List.mem_map] at hitem
  have hparam {kind : ParamKind} {p : String × Option Term} (hp : Segments.param kind p ∈ s.params) :
      (Segments.plain p).isPrinted := h _ hp
  simp only [Segments.params, List.mem_append, List.mem_map] at hparam
  rcases hitem with
    ((((⟨p, hp, rfl⟩ | hslash) | ⟨p, hp, rfl⟩) | ⟨name, -, rfl⟩) | ⟨p, hp, rfl⟩) | ⟨id, -, rfl⟩
  · exact hparam (.inl (.inl (.inl (.inl ⟨p, hp, rfl⟩))))
  · split at hslash
    · cases hslash
    · rw [List.mem_singleton] at hslash
      exact hslash ▸ rfl
  · exact hparam (.inl (.inl (.inl (.inr ⟨p, hp, rfl⟩))))
  · rfl
  · exact hparam (.inl (.inr ⟨p, hp, rfl⟩))
  · rfl

theorem exists_parameters (h : ∀ item ∈ items, item.Rereads) (hprinted : ∀ item ∈ items, item.isPrinted) :
    ∃ kss, List.Forall₂ PartOf (items.map ParameterItem.codes) kss ∧
      List.Forall₂ ParameterAt kss (items.map ParameterItem.unplaced) := by
  have hcodes : List.Forall₂ (fun (item : ParameterItem) codes => codes = item.codes) items
      (items.map ParameterItem.codes) := by
    rw [List.forall₂_map_right_iff]
    exact List.forall₂_same.mpr fun _ _ => rfl
  obtain ⟨kss, hkss, hitems⟩ := exists_forall₂ (P := PartOf)
    (Q := fun ks (item : ParameterItem) => ParameterAt ks item.unplaced) hcodes
    fun item hitem codes hcodes => hcodes ▸ (h item hitem).written (hprinted item hitem)
  exact ⟨kss, hkss, by rwa [List.forall₂_map_right_iff]⟩

theorem rereads_lambda (h : ∀ item ∈ items, item.Rereads) (hfollow : Parameters.Follow {} items)
    (hend : (items.foldl Parameters.push {}).waiting = false) (hbody : Rereads body) :
    Rereads (.mk s e (.lambda (items.foldl Parameters.push {}).found.reverse body)) := by
  refine rereads_of_level (l := 4) (by decide) (by decide) fun place codes hprint => ?_
  obtain ⟨written, hwritten, hprint⟩ := Option.bind_eq_some_iff.mp hprint
  obtain ⟨inside, hinside, hprint⟩ := Option.bind_eq_some_iff.mp hprint
  obtain rfl := Option.some.inj hprint
  refine ⟨_, rfl, ?_⟩
  obtain ⟨rfl, hprinted⟩ := printAll_eq hwritten
  obtain ⟨kss, hkss, hitems⟩ := exists_parameters h (isPrinted_of_params hfollow hend hprinted)
  obtain ⟨ls, -, hls, hreads⟩ := hbody.part (l := 4) (by decide) (by decide) hinside
  rw [joinParams_of_follow hfollow hend]
  have hjoined := (scans_joined hkss).append
    (((scans_symbol (s := ":") (by decide)).blank rfl).append_any hls) rfl
  have hfold : (items.foldl Parameters.push {}).unplaced =
      (items.map ParameterItem.unplaced).foldl Parameters.push {} := Parameters.foldl_push_unplaced items {}
  have hfollow' : Parameters.Follow {} (items.map ParameterItem.unplaced) := hfollow.unplaced
  have hparams : Param.allUnplaced (items.foldl Parameters.push {}).found.reverse =
      ((items.map ParameterItem.unplaced).foldl Parameters.push {}).found.reverse := by
    rw [Param.allUnplaced_eq, List.map_reverse, ← hfold]
    rfl
  have hread := readsAt_lambda hitems hfollow' (hfold ▸ hend) hreads
  rw [← hparams] at hread
  have hlambda := scans_keyword (s := "lambda") (by decide)
  by_cases hnone : (items.foldl Parameters.push {}).found = []
  · obtain rfl := items_eq_nil hfollow hend hnone
    obtain _ | _ := hkss
    refine written_of_part (by decide) (hlambda.append hjoined rfl) hread rfl ?_
    simp
  · refine written_of_part (by decide) ((hlambda.blank rfl).append_any hjoined) hread rfl ?_
    simp [hnone]

end
end ViewTree.Embedded
