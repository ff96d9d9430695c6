import ViewTree.Proofs.Pasting.Formats

/-!
Texts with replacement fields among shorter ones. A field is a part of the text that holds it, so
whoever reads the fields of a text only has to read what is shorter than the text. Main statement: a
text has the same pieces with any reader that reads its parts alike (`gives_stringsForm?_of_short`).
-/
namespace ViewTree.Embedded

/-- The second reader reads all contents of less than `bound` characters that the first one reads. -/
def FieldsWithin (bound : Nat) (inner inner' : FieldReader) : Prop :=
  ∀ offset cs, cs.length < bound → ∀ x, inner offset cs = some x → inner' offset cs = some x

/-- What the first gives, the second gives, with at most `count` characters left. -/
def GivesWithin {α : Type} (count : Nat) (a b : Option (α × List Char)) : Prop :=
  ∀ x, a = some x → x.2.length ≤ count ∧ b = some x

section
variable {α β γ : Type} {count count' : Nat} {a b c d : Option (α × List Char)}
  {o : Option γ}

theorem givesWithin_some {x : α × List Char} (h : x.2.length ≤ count) :
    GivesWithin count (some x) (some x) := fun _ hx => Option.some.inj hx ▸ ⟨h, rfl⟩

theorem givesWithin_none : GivesWithin count none b := fun _ hx => nomatch hx

theorem givesWithin_none_bind {k : γ → Option (α × List Char)} :
    GivesWithin count ((none : Option γ) >>= k) b := givesWithin_none

theorem GivesWithin.bind (h : GivesWithin count a b) {k k' : α × List Char → Option (β × List Char)}
    (hk : ∀ x, x.2.length ≤ count → GivesWithin count' (k x) (k' x)) :
    GivesWithin count' (a >>= k) (b >>= k') := by
  intro y hy
  obtain ⟨x, hx, hkx⟩ := Option.bind_eq_some_iff.mp hy
  obtain ⟨hle, hb⟩ := h x hx
  obtain ⟨hlater, hk'⟩ := hk x hle y hkx
  exact ⟨hlater, Option.bind_eq_some_iff.mpr ⟨x, hb, hk'⟩⟩

/-- The first step is the same. -/
theorem givesWithin_bind {k k' : γ → Option (α × List Char)}
    (hk : ∀ x, o = some x → GivesWithin count (k x) (k' x)) :
    GivesWithin count (o >>= k) (o >>= k') := by
  intro y hy
  obtain ⟨x, hx, hkx⟩ := Option.bind_eq_some_iff.mp hy
  obtain ⟨hlater, hk'⟩ := hk x hx y hkx
  exact ⟨hlater, Option.bind_eq_some_iff.mpr ⟨x, hx, hk'⟩⟩

theorem GivesWithin.ite {p : Prop} [Decidable p] (ha : p → GivesWithin count a b)
    (hc : ¬p → GivesWithin count c d) :
    GivesWithin count (if p then a else c) (if p then b else d) := by
  by_cases hp : p
  · rw [if_pos hp, if_pos hp]
    exact ha hp
  · rw [if_neg hp, if_neg hp]
    exact hc hp

end

/-- Readers of pieces that read alike what has less than `bound` characters. -/
def PiecesWithin (bound : Nat) (spec spec' : Nat → List Char → Option (List Piece × List Char)) :
    Prop :=
  ∀ offset cs, cs.length < bound → GivesWithin cs.length (spec offset cs) (spec' offset cs)

section
variable {bound : Nat} {inner inner' : FieldReader}
  {spec spec' : Nat → List Char → Option (List Piece × List Char)}

theorem givesWithin_field? (hinner : FieldsWithin bound inner inner')
    (hspec : PiecesWithin bound spec spec') (offset : Nat) {cs : List Char} (hcs : cs.length < bound) :
    GivesWithin cs.length (field? inner spec offset cs) (field? inner' spec' offset cs) := by
  unfold field?
  refine givesWithin_bind fun n _ => ?_
  extract_lets body remaining read read'
  refine GivesWithin.ite (fun _ => givesWithin_none_bind) fun _ => ?_
  have hbody : body.length < bound := Nat.lt_of_le_of_lt (List.length_take_le' n cs) hcs
  have hremaining : remaining.length ≤ cs.length := (List.drop_suffix n cs).length_le
  -- the contents are short enough to be read alike; only a format is read by other readers behind them
  have hvalue {k k' : Term → Option (List Piece × List Char)}
      (hk : ∀ value, GivesWithin cs.length (k value) (k' value)) :
      GivesWithin cs.length (inner offset body >>= k) (inner' offset body >>= k') := by
    intro x hx
    obtain ⟨value, hfound, hkx⟩ := Option.bind_eq_some_iff.mp hx
    obtain ⟨hlater, hk'⟩ := hk value x hkx
    exact ⟨hlater, Option.bind_eq_some_iff.mpr ⟨value, hinner offset body hbody value hfound, hk'⟩⟩
  refine hvalue fun value => ?_
  split
  next shown rest hfound =>
  have hrest : rest.length ≤ cs.length := by
    refine Nat.le_trans ?_ hremaining
    clear_value remaining
    split at hfound
    · next more =>
      obtain ⟨-, rfl⟩ := Prod.mk.inj hfound
      exact Nat.le_succ_of_le (List.drop_suffix _ more).length_le
    · obtain ⟨-, rfl⟩ := Prod.mk.inj hfound
      exact Nat.le_refl _
  extract_lets label behind behind'
  have hbehind (marked : Option Char × List Char) (hmarked : marked.2.length ≤ cs.length) :
      GivesWithin cs.length (behind marked) (behind' marked) := by
    obtain ⟨conversion, rest⟩ := marked
    unfold behind behind'
    dsimp -zeta only
    extract_lets closed
    have hclosed (found : Option (List Piece) × List Char) (hfound : found.2.length ≤ cs.length) :
        GivesWithin cs.length (closed found) (closed found) := by
      obtain ⟨format, rest⟩ := found
      unfold closed
      dsimp only
      split
      · exact givesWithin_some (Nat.le_of_succ_le hfound)
      · exact givesWithin_none
    split
    · next more =>
      refine GivesWithin.ite (fun _ => givesWithin_none_bind) fun _ => ?_
      have hmore : more.length ≤ cs.length := Nat.le_of_succ_le hmarked
      refine (hspec _ more (Nat.lt_of_le_of_lt hmore hcs)).bind fun found hfound => ?_
      exact hclosed (some found.1, found.2) (Nat.le_trans hfound hmore)
    · exact hclosed (none, rest) hmarked
  split
  · next c more =>
      have hmore : more.length ≤ cs.length := Nat.le_of_succ_le (Nat.le_of_succ_le hrest)
      exact GivesWithin.ite (fun _ => hbehind (some c, more) hmore) fun _ => givesWithin_none_bind
  · exact givesWithin_none_bind
  · exact hbehind (none, rest) hrest

theorem length_of_literalRun? {raw top : Bool} {cs : List Char} {found : List Char × List Char}
    (h : literalRun? raw top cs = some found) : found.2.length ≤ cs.length := by
  have hmap {n m : Nat} {f : List Char × List Char → List Char} {o : Option (List Char × List Char)}
      (ih : ∀ x, o = some x → x.2.length ≤ n) (hle : n ≤ m) {found : List Char × List Char}
      (h : o.map (fun x => (f x, x.2)) = some found) : found.2.length ≤ m := by
    obtain ⟨x, hx, rfl⟩ := Option.map_eq_some_iff.mp h
    exact Nat.le_trans (ih x hx) hle
  fun_induction literalRun? raw top cs generalizing found with
  | case1 | case6 | case8 | case9 => exact Option.some.inj h ▸ Nat.le_refl _
  | case12 => exact Option.some.inj h ▸ Nat.zero_le _
  | case5 | case7 => nomatch h
  | case2 _ _ ih | case10 _ _ _ _ _ _ _ ih | case13 _ _ _ _ _ ih =>
    exact hmap (fun _ => ih) (Nat.le_succ _) h
  | case3 cs _ name taken =>
    rename_i ih
    have hdrop := (List.drop_suffix taken cs).length_le
    refine hmap (fun _ => ih) ?_ h
    simp only [List.length_cons]
    omega
  | case4 _ _ _ _ _ ih | case11 _ _ _ _ _ _ _ ih =>
    exact hmap (fun _ => ih) (Nat.le_succ_of_le (Nat.le_succ _)) h

theorem givesWithin_piecesLoop (hinner : FieldsWithin bound inner inner')
    (hspec : PiecesWithin bound spec spec') (raw top deep : Bool) (count : Nat) :
    PiecesWithin bound (piecesLoop inner spec raw top deep count)
      (piecesLoop inner' spec' raw top deep count) := by
  induction count with
  | zero => exact fun _ _ _ => givesWithin_none
  | succ count ih =>
    intro offset cs hcs
    rw [piecesLoop, piecesLoop]
    refine givesWithin_bind fun found hrun => ?_
    obtain ⟨literal, rest⟩ := found
    refine givesWithin_bind fun before _ => ?_
    have hrest : rest.length ≤ cs.length := length_of_literalRun? hrun
    dsimp only
    split
    · exact GivesWithin.ite (fun _ => givesWithin_some (Nat.zero_le _)) fun _ => givesWithin_none
    · next more =>
      have hmore : more.length ≤ cs.length := Nat.le_of_succ_le hrest
      refine GivesWithin.ite (fun _ => givesWithin_none_bind) fun _ => ?_
      refine (givesWithin_field? hinner hspec _ (Nat.lt_of_le_of_lt hmore hcs)).bind
        fun found hfield => ?_
      obtain ⟨pieces, rest⟩ := found
      have hrest : rest.length ≤ cs.length := Nat.le_trans hfield hmore
      refine (ih _ rest (Nat.lt_of_le_of_lt hrest hcs)).bind fun found hlater => ?_
      exact givesWithin_some (Nat.le_trans hlater hrest)
    · exact GivesWithin.ite (fun _ => givesWithin_none) fun _ => givesWithin_some hrest

theorem givesWithin_specPieces? (hinner : FieldsWithin bound inner inner') (raw : Bool)
    (levels : Nat) : PiecesWithin bound (specPieces? inner raw levels) (specPieces? inner' raw levels) := by
  induction levels with
  | zero =>
    exact fun offset cs hcs =>
      givesWithin_piecesLoop hinner (fun _ _ _ => givesWithin_none) _ _ _ _ offset cs hcs
  | succ levels ih =>
    exact fun offset cs hcs => givesWithin_piecesLoop hinner ih _ _ _ _ offset cs hcs

theorem gives_literalPieces?_of_short (hinner : FieldsWithin bound inner inner') {s : StringLiteral}
    (hs : s.body.length < bound) : Gives id (literalPieces? inner s) (literalPieces? inner' s) := by
  refine Gives.ite (fun _ => ?_) fun _ => gives_refl _
  have hloop : Gives id
      (piecesLoop inner (specPieces? inner s.marks.raw 1) s.marks.raw true false (s.body.length + 1)
        s.offset s.body)
      (piecesLoop inner' (specPieces? inner' s.marks.raw 1) s.marks.raw true false
        (s.body.length + 1) s.offset s.body) := by
    intro found hfound
    obtain ⟨-, hsame⟩ := givesWithin_piecesLoop hinner (givesWithin_specPieces? hinner s.marks.raw 1)
      s.marks.raw true false (s.body.length + 1) s.offset s.body hs found hfound
    exact ⟨found, hsame, rfl⟩
  refine hloop.bind fun found found' hfound => ?_
  obtain rfl : found = found' := hfound
  exact gives_refl _

/-- Literals that are as short as the contents that are read alike have the same value. -/
theorem gives_stringsForm?_of_short (hinner : FieldsWithin bound inner inner')
    {literals : List StringLiteral} (hliterals : ∀ s ∈ literals, s.body.length < bound) :
    Gives id (stringsForm? inner literals) (stringsForm? inner' literals) := by
  have hpieces : Gives id (literals.mapM (literalPieces? inner))
      (literals.mapM (literalPieces? inner')) := by
    induction literals with
    | nil => exact gives_some rfl
    | cons s literals ih =>
      obtain ⟨hs, hliterals⟩ := List.forall_mem_cons.mp hliterals
      rw [List.mapM_cons, List.mapM_cons]
      refine (gives_literalPieces?_of_short hinner hs).bind fun pieces pieces' hfirst => ?_
      obtain rfl : pieces = pieces' := hfirst
      refine (ih hliterals).bind fun later later' hlater => ?_
      obtain rfl : later = later' := hlater
      exact gives_refl _
  unfold stringsForm?
  refine Gives.ite (fun _ => gives_refl _) fun _ => Gives.ite (fun _ => gives_none) fun _ => ?_
  refine hpieces.bind fun pieces pieces' hsame => ?_
  obtain rfl : pieces = pieces' := hsame
  exact gives_refl _

end
end ViewTree.Embedded
