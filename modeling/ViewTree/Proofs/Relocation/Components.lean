import ViewTree.Proofs.Relocation.Nodes

/-!
Readers of components at two places. Main statement: a component that stands in another text is read
there as it is by itself, with its places moved (`Placement.ofTokens_tokens`).
-/
namespace ViewTree
open TreeReader

namespace Placement

variable {m : Placement}

theorem misplacedRoot?_map (f : Place → Place) (trees : List Widget) :
    Component.misplacedRoot? (trees.map (Widget.mapPlaces f)) =
      (Component.misplacedRoot? trees).map f := by
  have hwalk : (trees.map (Widget.mapPlaces f)).flatMap Widget.walk =
      (trees.flatMap Widget.walk).map (Node.mapPlaces f) := by
    rw [List.flatMap_map, List.map_flatMap]
    exact List.flatMap_congr fun w _ => Node.walk_mapPlaces f (.widget w)
  have hmarked (n : Node) : (n.mapPlaces f).widget?.filter (·.isRoot) =
      (n.widget?.filter (·.isRoot)).map (Widget.mapPlaces f) := by
    cases n with
    | widget w =>
      obtain ⟨name, construction, isRoot, doc, place, properties⟩ := w
      cases isRoot <;> rfl
    | choice c => rfl
  have hplace (w : Widget) : (w.mapPlaces f).place = f w.place := by
    cases w
    rfl
  simp only [Component.misplacedRoot?, hwalk, ← List.map_drop, List.findSome?_map,
    List.map_findSome?, Function.comp_def, hmarked, Option.map_map, hplace]

theorem agree_checkRoot (trees : List Widget) : m.Agree Eq (Component.checkRoot trees)
    (Component.checkRoot (trees.map (Widget.mapPlaces m.place))) := by
  unfold Component.checkRoot
  rw [misplacedRoot?_map]
  cases Component.misplacedRoot? trees with
  | some place => exact fun _ _ => .error (.problem _)
  | none => exact agree_pure rfl

theorem fixes_parameters : m.Fixes Component.parameters := by
  unfold Component.parameters
  refine (agree_repeating (S := Eq) ?_ rfl).bind ?_
  · rintro found _ rfl
    refine (fixes_isNext .rparen).bind ?_
    rintro closing _ rfl
    refine Agree.ite (fun _ => agree_pure .none) fun _ => ?_
    refine fixes_name.bind ?_
    rintro id _ rfl
    refine (fixes_accept .comma).bind ?_
    rintro comma _ rfl
    refine (fixes_isNext .rparen).bind ?_
    rintro closing _ rfl
    refine Agree.ite (fun _ => ?_) fun _ => agree_pure (.some rfl)
    refine agree_current.bind ?_
    rintro t _ rfl
    exact agree_fail_bind _
  · rintro found _ rfl
    exact (agree_expect .rparen).bind fun _ _ _ => agree_pure rfl

theorem markRoot_mapPlaces (f : Place → Place) (w : Widget) :
    Component.markRoot (w.mapPlaces f) = (Component.markRoot w).mapPlaces f := by
  cases w
  rfl

namespace Nested
variable {r : NodeReaders} (h : m.Nested r)
include h

theorem readView : m.Maps (View.mapPlaces m.place) (Component.readView r)
    (Component.readView r) := by
  unfold Component.readView
  refine (agree_expect .view).bind ?_
  rintro start _ rfl
  refine fixes_name.bind ?_
  rintro id _ rfl
  refine (agree_expect .lparen).bind fun _ _ _ => ?_
  refine fixes_parameters.bind ?_
  rintro parameters _ rfl
  cases parameters with
  | nil => exact agree_failAt _ start
  | cons model others =>
    refine (fixes_accept .tracked).bind ?_
    rintro tracked _ rfl
    refine (agree_expect .lbrace).bind ?_
    rintro opening _ rfl
    refine (agree_block h.tree opening).bind ?_
    rintro trees _ rfl
    cases trees with
    | nil => exact agree_failAt _ start
    | cons root trees =>
      refine (agree_checkRoot (root :: trees)).bind fun _ _ _ => agree_pure ?_
      rw [markRoot_mapPlaces]
      rfl

theorem readTemplate : m.Maps (Template.mapPlaces m.place) (Component.readTemplate r)
    (Component.readTemplate r) := by
  unfold Component.readTemplate
  refine (agree_expect .template).bind ?_
  rintro start _ rfl
  refine fixes_name.bind ?_
  rintro id _ rfl
  refine (agree_expect .lbrace).bind fun _ _ _ => ?_
  refine h.tree.bind ?_
  rintro tree _ rfl
  refine (fixes_accept .comma).bind fun _ _ _ => ?_
  refine (fixes_isNext .rbrace).bind ?_
  rintro closing _ rfl
  extract_lets rest rest'
  have hrest : m.Maps (Template.mapPlaces m.place) (rest ()) (rest' ()) := by
    refine agree_advance.bind fun _ _ _ => ?_
    refine (agree_checkRoot [tree]).bind fun _ _ _ => agree_pure ?_
    rw [markRoot_mapPlaces]
    rfl
  refine Agree.ite (fun _ => ?_) fun _ => hrest
  refine agree_current.bind ?_
  rintro t _ rfl
  exact agree_fail_bind _

theorem readOne : m.Maps (Component.mapPlaces m.place) (Component.readOne r)
    (Component.readOne r) := by
  unfold Component.readOne
  refine (fixes_isNext .view).bind ?_
  rintro isView _ rfl
  refine Agree.ite (fun _ => ?_) fun _ => ?_
  · refine h.readView.bind ?_
    rintro v _ rfl
    exact agree_pure rfl
  · refine (fixes_isNext .template).bind ?_
    rintro isTemplate _ rfl
    refine Agree.ite (fun _ => ?_) fun _ => ?_
    · refine h.readTemplate.bind ?_
      rintro t _ rfl
      exact agree_pure rfl
    · refine agree_current.bind ?_
      rintro t _ rfl
      exact agree_fail _

end Nested

theorem agree_read_component : m.Maps (Component.mapPlaces m.place) Component.read
    Component.read := by
  refine agree_get.bind ?_
  rintro c _ ⟨rfl, -⟩
  have hlength : (m.cursor c).rest.length = c.rest.length := List.length_map m.token
  rw [hlength]
  refine (nested_nodeReaders m (c.rest.length + 1)).readOne.bind ?_
  rintro component _ rfl
  refine (fixes_isNext .eof).bind ?_
  rintro ended _ rfl
  extract_lets rest rest'
  have hrest : m.Maps (Component.mapPlaces m.place) (rest ()) (rest' ()) := agree_pure rfl
  refine Agree.ite (fun _ => ?_) fun _ => hrest
  refine agree_current.bind ?_
  rintro t _ rfl
  rw [Component.kind_mapPlaces, Component.name_mapPlaces]
  exact agree_fail_bind _

/-- What the tokens of a piece of text read as, read where the piece stands in another text. -/
theorem ofTokens_tokens (m : Placement) (ts : Tokens) (h : ∀ t ∈ ts.items, t.stop ≤ m.bound) :
    Component.ofTokens m.target (m.tokens ts) =
      ((Component.ofTokens m.source ts).map (Component.mapPlaces m.place)).mapError
        (Failure.mapPlaces m.place) := by
  have hread : m.Results _ ((Component.read.run m.source).run ⟨none, ts.items, ts.eof⟩)
      ((Component.read.run m.target).run ⟨none, (m.tokens ts).items, (m.tokens ts).eof⟩) :=
    agree_read_component (m := m) ⟨none, ts.items, ts.eof⟩ h
  unfold Component.ofTokens
  generalize (Component.read.run m.source).run ⟨none, ts.items, ts.eof⟩ = here,
    (Component.read.run m.target).run ⟨none, (m.tokens ts).items, (m.tokens ts).eof⟩ = there at hread ⊢
  cases hread with
  | ok hcomponent hc =>
    obtain rfl := hcomponent
    rfl
  | error e => rfl

end Placement
end ViewTree
