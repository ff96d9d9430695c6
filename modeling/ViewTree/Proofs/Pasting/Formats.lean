import ViewTree.Proofs.Pasting.Unplaced

/-!
Texts with replacement fields at other places. Main statement: if fields are read alike wherever they
stand, then so are the literals that hold them (`gives_stringsForm?`).
-/
namespace ViewTree.Embedded

/-- What the first gives, the second gives up to what `f` forgets. -/
def Gives {α γ : Type} (f : α → γ) (a b : Option α) : Prop :=
  ∀ x, a = some x → ∃ y, b = some y ∧ f x = f y

section
variable {α β γ δ : Type} {f : α → γ} {f' : β → δ} {a b : Option α} {k k' : α → Option β}

theorem gives_some {x y : α} (h : f x = f y) : Gives f (some x) (some y) :=
  fun _ hx => Option.some.inj hx ▸ ⟨y, rfl, h⟩

theorem gives_refl (a : Option α) : Gives f a a := fun x hx => ⟨x, hx, rfl⟩

theorem gives_none : Gives f none b := fun _ hx => nomatch hx

theorem gives_none_bind {s : Option β} : Gives f' ((none : Option α) >>= k) s := gives_none

theorem Gives.bind (h : Gives f a b) (hk : ∀ x y, f x = f y → Gives f' (k x) (k' y)) :
    Gives f' (a >>= k) (b >>= k') := by
  intro z hz
  obtain ⟨x, hx, hkx⟩ := Option.bind_eq_some_iff.mp hz
  obtain ⟨y, hy, hxy⟩ := h x hx
  obtain ⟨w, hw, hzw⟩ := hk x y hxy z hkx
  exact ⟨w, Option.bind_eq_some_iff.mpr ⟨y, hy, hw⟩, hzw⟩

/-- The first step is the same. -/
theorem gives_bind (hk : ∀ x, Gives f' (k x) (k' x)) : Gives f' (a >>= k) (a >>= k') :=
  (gives_refl (f := id) a).bind fun x _ hxy => (show x = _ from hxy) ▸ hk x

theorem Gives.ite {p : Prop} [Decidable p] {c d : Option α} (ha : p → Gives f a b)
    (hc : ¬p → Gives f c d) : Gives f (if p then a else c) (if p then b else d) := by
  by_cases hp : p
  · rw [if_pos hp, if_pos hp]
    exact ha hp
  · rw [if_neg hp, if_neg hp]
    exact hc hp

theorem gives_mapM {xs ys : List α} (h : xs.map f = ys.map f)
    (hk : ∀ x y, f x = f y → Gives f' (k x) (k' y)) :
    Gives (List.map f') (xs.mapM k) (ys.mapM k') := by
  induction xs generalizing ys with
  | nil =>
    obtain rfl := List.map_eq_nil_iff.mp h.symm
    exact gives_some rfl
  | cons x xs ih =>
    obtain ⟨y, ys, rfl, hxy, hrest⟩ := List.map_eq_cons_iff.mp h.symm
    rw [List.mapM_cons, List.mapM_cons]
    refine (hk x y hxy.symm).bind fun v w hvw => (ih hrest.symm).bind fun vs ws hvws => ?_
    exact gives_some (by rw [List.map_cons, List.map_cons, hvw, hvws])

end

def FieldsAlike (inner inner' : FieldReader) : Prop :=
  ∀ offset offset' cs, Gives Term.unplaced (inner offset cs) (inner' offset' cs)

/-- Pieces without their places, and what is behind them. -/
def unplacedPieces (found : List Piece × List Char) : List Piece × List Char :=
  (found.1.map Piece.unplaced, found.2)

/-- Readers of pieces that read alike wherever the pieces stand. -/
def PiecesAlike (spec spec' : Nat → List Char → Option (List Piece × List Char)) : Prop :=
  ∀ offset offset' cs, Gives unplacedPieces (spec offset cs) (spec' offset' cs)

section
variable {inner inner' : FieldReader}
  {spec spec' : Nat → List Char → Option (List Piece × List Char)}

theorem gives_field? (hinner : FieldsAlike inner inner') (hspec : PiecesAlike spec spec')
    (offset offset' : Nat) (cs : List Char) :
    Gives unplacedPieces (field? inner spec offset cs) (field? inner' spec' offset' cs) := by
  unfold field?
  refine gives_bind fun n => ?_
  extract_lets body remaining read read'
  refine Gives.ite (fun _ => gives_none_bind) fun _ => ?_
  refine (hinner offset offset' body).bind fun value value' hvalue => ?_
  split
  next shown rest _ =>
  extract_lets label behind behind'
  have hbehind (marked : Option Char × List Char) :
      Gives unplacedPieces (behind marked) (behind' marked) := by
    obtain ⟨conversion, rest⟩ := marked
    unfold behind behind'
    dsimp -zeta only
    extract_lets closed closed'
    have hclosed (format format' : Option (List Piece))
        (hformat : format.map (List.map Piece.unplaced) = format'.map (List.map Piece.unplaced))
        (rest : List Char) : Gives unplacedPieces (closed (format, rest)) (closed' (format', rest)) := by
      unfold closed closed'
      dsimp only
      split
      · refine gives_some ?_
        refine Prod.ext ?_ rfl
        show List.map _ (label ++ [_]) = List.map _ (label ++ [_])
        rw [List.map_append, List.map_append, List.map_singleton, List.map_singleton]
        have hsome : format.isNone = format'.isNone := by
          rw [← Option.isNone_map, hformat, Option.isNone_map]
        rw [hsome, Piece.unplaced_field, Piece.unplaced_field, hvalue, hformat]
      · exact gives_none
    split
    · next more =>
      refine Gives.ite (fun _ => gives_none_bind) fun _ => ?_
      show Gives unplacedPieces (spec _ more >>= _) (spec' _ more >>= _)
      refine (hspec _ _ more).bind fun found found' hpieces => ?_
      obtain ⟨pieces, rest⟩ := found
      obtain ⟨pieces', rest'⟩ := found'
      obtain ⟨hpieces, rfl⟩ := Prod.mk.inj hpieces
      exact hclosed (some pieces) (some pieces') (congrArg some hpieces) rest
    · exact hclosed none none rfl rest
  split
  · next c more _ => exact Gives.ite (fun _ => hbehind (some c, more)) fun _ => gives_none_bind
  · exact gives_none_bind
  · exact hbehind (none, _)

theorem gives_piecesLoop (hinner : FieldsAlike inner inner') (hspec : PiecesAlike spec spec')
    (raw top deep : Bool) (count : Nat) :
    PiecesAlike (piecesLoop inner spec raw top deep count)
      (piecesLoop inner' spec' raw top deep count) := by
  induction count with
  | zero => exact fun _ _ _ => gives_none
  | succ count ih =>
    intro offset offset' cs
    rw [piecesLoop, piecesLoop]
    refine gives_bind fun (literal, rest) => gives_bind fun before => ?_
    split
    · exact gives_refl _
    · next more =>
      refine Gives.ite (fun _ => gives_none_bind) fun _ => ?_
      refine (gives_field? hinner hspec _ _ more).bind fun (pieces, rest) (pieces', rest') hpieces => ?_
      obtain ⟨hpieces, rfl⟩ := Prod.mk.inj hpieces
      refine (ih _ _ rest).bind fun (later, rest) (later', rest') hlater => gives_some ?_
      obtain ⟨hlater, rfl⟩ := Prod.mk.inj hlater
      refine Prod.ext ?_ rfl
      show List.map _ _ = List.map _ _
      simp only [List.map_append, hpieces, hlater]
    · exact gives_refl _

theorem gives_specPieces? (hinner : FieldsAlike inner inner') (raw : Bool) (levels : Nat) :
    PiecesAlike (specPieces? inner raw levels) (specPieces? inner' raw levels) := by
  induction levels with
  | zero =>
    exact fun offset offset' cs =>
      gives_piecesLoop hinner (fun _ _ _ => gives_none) _ _ _ _ offset offset' cs
  | succ levels ih =>
    exact fun offset offset' cs => gives_piecesLoop hinner ih _ _ _ _ offset offset' cs

/-- The literal, wherever it stands. -/
def StringLiteral.unplaced (s : StringLiteral) : StringLiteral := { s with offset := 0 }

theorem gives_literalPieces? (hinner : FieldsAlike inner inner') {s s' : StringLiteral}
    (h : s.unplaced = s'.unplaced) :
    Gives (List.map Piece.unplaced) (literalPieces? inner s) (literalPieces? inner' s') := by
  obtain ⟨marks, body, offset⟩ := s
  obtain ⟨marks', body', offset'⟩ := s'
  obtain ⟨rfl, rfl⟩ : marks = marks' ∧ body = body' := by simpa [StringLiteral.unplaced] using h
  refine Gives.ite (fun _ => ?_) fun _ => gives_refl _
  refine (gives_piecesLoop hinner (gives_specPieces? hinner _ 1) _ _ _ _ offset offset' body).bind
    fun (pieces, rest) (pieces', rest') hpieces => gives_some ?_
  exact (Prod.mk.inj hpieces).1

theorem joinTexts_unplaced (pieces : List Piece) :
    joinTexts (pieces.map Piece.unplaced) = (joinTexts pieces).map Piece.unplaced := by
  induction pieces with
  | nil => rfl
  | cons piece pieces ih =>
    cases piece with
    | text codes =>
      rw [List.map_cons, Piece.unplaced_text, joinTexts, joinTexts, ih]
      match joinTexts pieces with
      | [] => by_cases hcodes : codes.isEmpty = true <;> simp [hcodes]
      | .text others :: later => rfl
      | .field value conversion format :: later =>
        by_cases hcodes : codes.isEmpty = true <;> simp [hcodes]
    | field value conversion format =>
      rw [List.map_cons, Piece.unplaced_field]
      show _ :: joinTexts _ = List.map _ (_ :: joinTexts _)
      rw [ih, List.map_cons, Piece.unplaced_field]

theorem literalBytes?_congr {s s' : StringLiteral} (h : s.unplaced = s'.unplaced) :
    literalBytes? s = literalBytes? s' := by
  show literalBytes? s.unplaced = literalBytes? s'.unplaced
  rw [h]

theorem flatMap_congr_of_map {α β : Type} {f : α → α} {g : α → List β} {xs ys : List α}
    (hg : ∀ x, g (f x) = g x) (h : xs.map f = ys.map f) : xs.flatMap g = ys.flatMap g := by
  have hsame (xs : List α) : xs.flatMap g = (xs.map f).flatMap g := by
    simp only [List.flatMap_map, hg]
  rw [hsame xs, h, ← hsame ys]

/-- The value of neighbouring literals is the same wherever they stand. -/
theorem gives_stringsForm? (hinner : FieldsAlike inner inner') {literals literals' : List StringLiteral}
    (h : literals.map StringLiteral.unplaced = literals'.map StringLiteral.unplaced) :
    Gives Form.unplaced (stringsForm? inner literals) (stringsForm? inner' literals') := by
  have hmarks : literals.map StringLiteral.marks = literals'.map StringLiteral.marks := by
    simpa [StringLiteral.unplaced, Function.comp_def] using congrArg (List.map StringLiteral.marks) h
  have hany (p : StringMarks → Bool) :
      (literals.any fun s => p s.marks) = literals'.any fun s => p s.marks := by
    simpa [List.any_map, Function.comp_def] using congrArg (List.any · p) hmarks
  have hall : (literals.all fun s => s.marks.bytes) = literals'.all fun s => s.marks.bytes := by
    simpa [List.all_map, Function.comp_def] using congrArg (List.all · StringMarks.bytes) hmarks
  have hhead : (literals.head?.any fun s => s.marks.unicode) =
      literals'.head?.any fun s => s.marks.unicode := by
    simpa [Option.any_map] using congrArg (fun ms => ms.head?.any StringMarks.unicode) hmarks
  unfold stringsForm?
  rw [hall, hany StringMarks.bytes, hany StringMarks.format, hhead]
  refine Gives.ite (fun _ => ?_) fun _ => Gives.ite (fun _ => gives_none) fun _ => ?_
  · have hbytes : Gives (List.map id) (literals.mapM literalBytes?) (literals'.mapM literalBytes?) :=
      gives_mapM h fun s s' hs => literalBytes?_congr hs ▸ gives_refl _
    refine hbytes.bind fun values values' hvalues => ?_
    rw [List.map_id, List.map_id] at hvalues
    exact hvalues ▸ gives_refl _
  · refine (gives_mapM h fun s s' => gives_literalPieces? hinner).bind fun ps ps' hpieces => ?_
    have hjoined : (joinTexts ps.flatten).map Piece.unplaced =
        (joinTexts ps'.flatten).map Piece.unplaced := by
      rw [← joinTexts_unplaced, ← joinTexts_unplaced, List.map_flatten, hpieces, List.map_flatten]
    dsimp only
    refine Gives.ite (fun _ => gives_some ?_) fun _ => gives_some ?_
    · rw [Form.unplaced, Form.unplaced, Piece.allUnplaced_eq, Piece.allUnplaced_eq, hjoined]
    · refine congrArg (fun codes => Form.literal (.text codes _)) ?_
      refine flatMap_congr_of_map (fun piece => ?_) hjoined
      cases piece with
      | text codes => rfl
      | field value conversion format => rw [Piece.unplaced_field]

end
end ViewTree.Embedded
