import ViewTree.Proofs.Relocation.Cursors
import ViewTree.Tree.Reader

/-!
Readers of attributes and of the parts of nodes at two places. Main statement: what stands in front of
a node is read alike at both, with its places moved (`Placement.agree_lead`).
-/
namespace ViewTree
open TreeReader

namespace Placement

def mark (m : Placement) (a : Attribute) : Attribute :=
  { a with token := m.token a.token, expr := a.expr.map (Expr.mapPlaces m.place) }

def lead (m : Placement) (l : Lead) : Lead :=
  { l with node := l.node.map m.mark, property := l.property.map m.mark }

variable {m : Placement}

theorem agree_nameArguments (a : Attribute) :
    m.Maps m.mark a.nameArguments (m.mark a).nameArguments := by
  unfold Attribute.nameArguments
  refine (agree_repeating (S := fun s t => t = (m.mark s.1, s.2)) ?_ rfl).bind ?_
  · rintro ⟨a, more⟩ _ rfl
    refine Agree.ite (fun _ => agree_pure .none) fun _ => ?_
    refine (fixes_isNext .mutWord).bind ?_
    rintro isMarked _ rfl
    refine (agree_ahead 1).bind ?_
    rintro t _ rfl
    extract_lets marked rest marked' rest'
    have hrest : m.Agree (Option.Rel fun s t => t = (m.mark s.1, s.2)) (rest ()) (rest' ()) := by
      refine fixes_name.bind ?_
      rintro word _ rfl
      refine (fixes_accept .comma).bind ?_
      rintro comma _ rfl
      refine Agree.ite (fun _ => ?_) fun _ => agree_pure (.some rfl)
      refine (fixes_isNext .rparen).bind ?_
      rintro closing _ rfl
      exact agree_pure (.some rfl)
    exact Agree.ite (fun _ => agree_advance.bind fun _ _ _ => hrest) fun _ => hrest
  · rintro ⟨a, more⟩ _ rfl
    exact agree_pure rfl

theorem agree_stringArgument (a : Attribute) :
    m.Maps m.mark a.stringArgument (m.mark a).stringArgument := by
  unfold Attribute.stringArgument
  refine (agree_expect .string).bind ?_
  rintro t _ rfl
  refine (agree_stringValue t).bind ?_
  rintro value _ rfl
  cases value with
  | none => exact agree_failAt _ t
  | some value =>
    refine Agree.ite (fun _ => ?_) fun _ => ?_
    · refine (agree_expression value t none).bind ?_
      rintro e _ rfl
      exact agree_pure rfl
    · dsimp only
      have hkind : (m.mark a).kind = a.kind := rfl
      rw [hkind]
      split
      · exact agree_failAt _ t
      · exact agree_pure rfl

theorem agree_arguments (a : Attribute) :
    m.Maps m.mark a.arguments (m.mark a).arguments := by
  unfold Attribute.arguments
  refine (fixes_accept .lparen).bind ?_
  rintro opened _ rfl
  refine Agree.ite (fun _ => ?_) fun _ => ?_
  · refine (fixes_isNext .rparen).bind ?_
    rintro closing _ rfl
    extract_lets finish rest rest'
    have hfinish (b : Attribute) : m.Maps m.mark (finish b) (finish (m.mark b)) :=
      (agree_expect .rparen).bind fun _ _ _ => agree_pure rfl
    have hrest : m.Maps m.mark (rest ()) (rest' ()) := by
      refine Agree.ite (fun _ => ?_) fun _ => Agree.ite (fun _ => ?_) fun _ => ?_
      · refine (agree_nameArguments a).bind ?_
        rintro b _ rfl
        exact hfinish b
      · refine (agree_captureExpression [] _ none).bind ?_
        rintro e _ rfl
        exact hfinish { a with expr := some e }
      · exact agree_failAt_bind _ a.token
    exact Agree.ite (fun _ => agree_fail_bind _) fun _ => hrest
  · refine (fixes_accept .equals).bind ?_
    rintro assigned _ rfl
    refine Agree.ite (fun _ => ?_) fun _ => ?_
    · exact Agree.ite (fun _ => agree_stringArgument a) fun _ => agree_failAt _ a.token
    · exact Agree.ite (fun _ => agree_failAt _ a.token) fun _ => agree_pure rfl

theorem agree_readAttribute : m.Maps m.mark Attribute.read Attribute.read := by
  unfold Attribute.read
  refine (agree_expect .attrOpen).bind fun _ _ _ => ?_
  refine agree_current.bind ?_
  rintro t _ rfl
  refine fixes_name.bind ?_
  rintro word _ rfl
  cases AttributeKind.ofWord? word with
  | none => exact agree_failAt _ t
  | some kind =>
    refine (agree_arguments { kind, token := t }).bind ?_
    rintro a _ rfl
    refine (agree_expect .rbracket).bind fun _ _ _ => ?_
    exact Agree.ite (fun _ => agree_failAt_bind _ t) fun _ => agree_pure rfl

theorem agree_lead : m.Maps m.lead Attribute.lead Attribute.lead := by
  unfold Attribute.lead
  refine (agree_repeating (S := fun s t => t = (s.1.map m.mark, s.2)) ?_ rfl).bind ?_
  · rintro ⟨found, docs⟩ _ rfl
    refine (fixes_isNext .docComment).bind ?_
    rintro isDoc _ rfl
    refine Agree.ite (fun _ => ?_) fun _ => ?_
    · refine agree_advance.bind ?_
      rintro t _ rfl
      exact agree_pure (.some rfl)
    · refine (fixes_isNext .attrOpen).bind ?_
      rintro isAttribute _ rfl
      refine Agree.ite (fun _ => ?_) fun _ => agree_pure .none
      refine agree_readAttribute.bind ?_
      rintro a _ rfl
      exact agree_pure (.some rfl)
  · rintro ⟨found, docs⟩ _ rfl
    refine agree_pure ?_
    show Lead.mk _ _ _ = Lead.mk _ _ _
    rw [← List.map_reverse, List.filter_map, List.filter_map]
    rfl

theorem agree_find? (kind : AttributeKind) (as : List Attribute) :
    m.Maps (Option.map m.mark) (Attribute.find? kind as) (Attribute.find? kind (as.map m.mark)) := by
  unfold Attribute.find?
  have hfilter : (as.map m.mark).filter (·.kind = kind) = (as.filter (·.kind = kind)).map m.mark := by
    rw [List.filter_map]
    rfl
  rw [hfilter]
  generalize as.filter (·.kind = kind) = found
  match found with
  | [] => exact agree_pure rfl
  | [a] => exact agree_pure rfl
  | _ :: b :: _ => exact agree_failAt _ b.token

theorem addTo_mark (mods : Modifiers) (a : Attribute) :
    Attribute.addTo (mods.mapPlaces m.place) (m.mark a) =
      (Attribute.addTo mods a).mapPlaces m.place := by
  obtain ⟨kind, token, names, expr, isMutable⟩ := a
  cases kind with
  | track => cases expr <;> rfl
  | chain => cases expr <;> simp [Attribute.addTo, mark, Modifiers.mapPlaces]
  | _ => rfl

theorem agree_modifiers (as : List Attribute) (optional : Bool) :
    m.Maps (Modifiers.mapPlaces m.place) (Attribute.modifiers as optional)
      (Attribute.modifiers (as.map m.mark) optional) := by
  unfold Attribute.modifiers
  refine (agree_foldlM (S := fun s t => t = (s.1.mapPlaces m.place, s.2)) ?_ as rfl).bind ?_
  · rintro ⟨mods, seen⟩ _ a rfl
    have hadd : m.Maps (fun s => (s.1.mapPlaces m.place, s.2))
        (pure (Attribute.addTo mods a, a.kind :: seen))
        (pure (Attribute.addTo (mods.mapPlaces m.place) (m.mark a), a.kind :: seen)) :=
      agree_pure (by rw [addTo_mark])
    exact Agree.ite (fun _ => agree_failAt_bind _ a.token) fun _ => hadd
  · rintro ⟨mods, seen⟩ _ rfl
    exact agree_pure rfl

theorem fixes_dottedPath : m.Fixes NodeReaders.dottedPath := by
  unfold NodeReaders.dottedPath
  refine fixes_name.bind ?_
  rintro first _ rfl
  refine (agree_repeating (S := Eq) ?_ rfl).bind ?_
  · rintro found _ rfl
    refine (fixes_isNext .dot).bind ?_
    rintro dot _ rfl
    refine (agree_ahead 1).bind ?_
    rintro t _ rfl
    refine Agree.ite (fun _ => ?_) fun _ => agree_pure .none
    refine agree_advance.bind fun _ _ _ => ?_
    refine agree_advance.bind ?_
    rintro t _ rfl
    exact agree_pure (.some rfl)
  · rintro found _ rfl
    exact agree_pure rfl

theorem agree_construction : m.Maps (Construction.mapPlaces m.place) NodeReaders.construction
    NodeReaders.construction := by
  unfold NodeReaders.construction
  refine agree_current.bind ?_
  rintro start _ rfl
  extract_lets rest rest'
  have hrest : m.Maps (Construction.mapPlaces m.place) (rest ()) (rest' ()) := by
    refine fixes_dottedPath.bind ?_
    rintro path _ rfl
    refine (fixes_isNext .lparen).bind ?_
    rintro opened _ rfl
    refine Agree.ite (fun _ => agree_pure rfl) fun _ => ?_
    refine agree_balanced.bind ?_
    rintro last _ ⟨rfl, hlast⟩
    refine (agree_repeating
      (S := fun s t => t = (m.token s.1, s.2) ∧ s.1.stop ≤ m.bound) ?_ ⟨rfl, hlast⟩).bind ?_
    · rintro ⟨last, chained⟩ _ ⟨rfl, hlast⟩
      refine (fixes_isNext .dot).bind ?_
      rintro dot _ rfl
      refine (agree_ahead 1).bind ?_
      rintro name _ rfl
      refine (agree_ahead 2).bind ?_
      rintro opening _ rfl
      refine Agree.ite (fun _ => ?_) fun _ => agree_pure .none
      refine agree_advance.bind fun _ _ _ => ?_
      refine agree_advance.bind fun _ _ _ => ?_
      refine agree_balanced.bind ?_
      rintro last _ ⟨rfl, hlast⟩
      exact agree_pure (.some ⟨rfl, hlast⟩)
    · rintro ⟨last, chained⟩ _ ⟨rfl, hlast⟩
      refine (agree_textBetween start hlast).bind ?_
      rintro text _ rfl
      refine (agree_expression text start none).bind ?_
      rintro e _ rfl
      exact agree_pure rfl
  exact Agree.ite (fun _ => agree_fail_bind _) fun _ => hrest

theorem agree_nodeName (isChoice : Bool) (named : Option Attribute)
    (written : Option WrittenName) :
    m.Agree Eq (NodeReaders.nodeName isChoice named written)
      (NodeReaders.nodeName isChoice (named.map m.mark) written) := by
  cases named with
  | none => cases written <;> exact agree_pure rfl
  | some a =>
    cases written with
    | some w => exact agree_failAt _ a.token
    | none => exact agree_pure rfl

theorem agree_rejectNodeAttributes (l : Lead) (property : String) :
    m.Agree Eq (NodeReaders.rejectNodeAttributes l property)
      (NodeReaders.rejectNodeAttributes (m.lead l) property) := by
  obtain ⟨node, properties, doc⟩ := l
  cases node with
  | nil => exact agree_pure rfl
  | cons a more => exact agree_failAt _ a.token

end Placement
end ViewTree
