import ViewTree.Proofs.Pasting.Suffixes
import ViewTree.Proofs.Printing.Consuming

/-!
Readers of the places that terms are printed in. A term is read at a place from lexemes that leave the
readers of looser places nothing to do. Main statement: what is read at one place is read at a looser one
(`ReadsAt.mono`).
-/
namespace ViewTree.Embedded
open Reader

namespace Grammar

def levelOp? : Level → LexemeKind → Option BinaryOp
  | 14 => termOp?
  | 13 => sumOp?
  | 12 => shiftOp?
  | 11 => only "&" .bitAnd
  | 10 => only "^" .bitXor
  | 9 => only "|" .bitOr
  | _ => fun _ => none

/-- Operands with the binary operators of the `count` tightest levels. -/
def operands (g : Grammar) : (count : Nat) → Reader Term
  | 0 => g.factor
  | count + 1 => binaryLoop (g.operands count) (levelOp? (14 - count))

/-- A round of a loop over operands. -/
def binaryStep (operand : Reader Term) (op? : LexemeKind → Option BinaryOp) (start : Nat) (left : Term) :
    Reader (Option Term) := do
  match (← peek).bind op? with
  | some op =>
    let _ ← next
    let right ← operand
    pure (some (← close start (.binary op left right)))
  | none => pure none

def loopFrom (first : Reader Term) (step : Nat → Term → Reader (Option Term)) : Reader Term := do
  let start ← here
  let first ← first
  repeating (step start) first

theorem rank_of_levelOp? {l : Level} {k : LexemeKind} {op : BinaryOp} (h : levelOp? l k = some op) :
    rank k = l := by
  have honly {text : String} {found : BinaryOp} (h : only text found k = some op) : k = .symbol text := by
    unfold only at h
    split at h
    · assumption
    · cases h
  unfold levelOp? at h
  split at h
  case h_1 =>
    unfold termOp? at h
    split at h <;> first | rfl | cases h
  case h_2 =>
    unfold sumOp? at h
    split at h <;> first | rfl | cases h
  case h_3 =>
    unfold shiftOp? at h
    split at h <;> first | rfl | cases h
  case h_4 | h_5 | h_6 => exact honly h ▸ rfl
  case h_7 => cases h

theorem levelOp?_sign : ∀ op : BinaryOp, op ≠ .power → levelOp? op.level (.symbol op.sign) = some op := by
  intro op hop
  cases op <;> first | rfl | exact absurd rfl hop

/-- What `not` binds tighter than. -/
def conjunction (g : Grammar) : Reader Term := boolLoop g.inversionOf "and" .and

/-- A primary with an `await` in front or none. -/
def awaited (primary : Reader Term) : Reader Term := do
  let start ← here
  if ← accept (.keyword "await") then
    let value ← primary
    close start (.await value)
  else primary

end Grammar

open Grammar

section
variable (inner : FieldReader) (depth : Nat)

/-- What reads a term at a place, from so many lexemes as the depth allows. -/
def readerAt : Level → Reader Term
  | 18 => (grammarAt inner (depth + 1)).2
  | 17 => awaited (grammarAt inner (depth + 1)).2
  | 16 => (grammarAt inner depth).1.power (grammarAt inner (depth + 1)).2
  | 15 => (grammarAt inner (depth + 1)).1.factor
  | 14 => (grammarAt inner (depth + 1)).1.operands 1
  | 13 => (grammarAt inner (depth + 1)).1.operands 2
  | 12 => (grammarAt inner (depth + 1)).1.operands 3
  | 11 => (grammarAt inner (depth + 1)).1.operands 4
  | 10 => (grammarAt inner (depth + 1)).1.operands 5
  | 9 => (grammarAt inner (depth + 1)).1.bitOr
  | 8 => (grammarAt inner (depth + 1)).1.comparison
  | 7 => (grammarAt inner (depth + 1)).1.inversionOf
  | 6 => (grammarAt inner (depth + 1)).1.conjunction
  | 5 => (grammarAt inner (depth + 1)).1.disjunction
  | 4 => (grammarAt inner (depth + 1)).1.expressionOf
  | _ => failure

def loopAt : Level → Option (Reader Term × (Nat → Term → Reader (Option Term)))
  | 18 => some ((grammarAt inner depth).1.atom inner (grammarAt inner depth).2,
      (grammarAt inner depth).1.suffix (grammarAt inner depth).2)
  | 14 => some (loop 0 14)
  | 13 => some (loop 1 13)
  | 12 => some (loop 2 12)
  | 11 => some (loop 3 11)
  | 10 => some (loop 4 10)
  | 9 => some (loop 5 9)
  | _ => none
where
  loop (count : Nat) (l : Level) : Reader Term × (Nat → Term → Reader (Option Term)) :=
    ((grammarAt inner (depth + 1)).1.operands count,
      binaryStep ((grammarAt inner (depth + 1)).1.operands count) (levelOp? l))

end

theorem readerAt_of_loopAt {inner : FieldReader} {depth : Nat} {l : Level} {first : Reader Term}
    {step : Nat → Term → Reader (Option Term)} (h : loopAt inner depth l = some (first, step)) :
    readerAt inner depth l = loopFrom first step := by
  unfold loopAt at h
  split at h
  case h_8 => cases h
  all_goals
    obtain ⟨rfl, rfl⟩ := Prod.mk.inj (Option.some.inj h)
    rfl

/-- The lexemes are a first term, and rounds of the loop behind it that lead to the term. -/
def Loops (m : Level) (first : Reader Term) (step : Nat → Term → Reader (Option Term))
    (kinds : List LexemeKind) (y : Term) : Prop :=
  ∃ ks ls x, kinds = ks ++ ls ∧ Consumes Term.unplaced (Under m) first ks x ∧
    (ls ≠ [] → Begins Any ls (Under m)) ∧
    ∀ start B more z, Begins B more (Under m) → Rounds Term.unplaced B (step start) more y z →
      Rounds Term.unplaced B (step start) (ls ++ more) x z

def ReadIn (inner : FieldReader) (depth : Nat) (l : Level) (kinds : List LexemeKind) (y : Term) : Prop :=
  match loopAt inner depth l with
  | some (first, step) => Loops (l + 1) first step kinds y
  | none => Consumes Term.unplaced (Under l) (readerAt inner depth l) kinds y

/-- The loosest place that a term which starts with the lexeme is made for. -/
def opens : LexemeKind → Level
  | .name _ | .number _ | .string _ => .atom
  | .symbol s =>
    if ["(", "[", "\x7b", "..."].contains s then .atom
    else if ["+", "-", "~"].contains s then .factor else 0
  | .keyword word =>
    if ["None", "True", "False"].contains word then .atom
    else if word = "await" then .await else if word = "not" then .not
    else if word = "lambda" then .test else 0
  | .lineEnd => 0

theorem opens_unplaced (k : LexemeKind) : opens k.unplaced = opens k := by cases k <;> rfl

/-- Wherever they stand, the lexemes are read as the term at the place. -/
structure ReadsAt (l : Level) (kinds : List LexemeKind) (y : Term) : Prop where
  opens : ∃ k ks, kinds = k :: ks ∧ l ≤ opens k
  /-- A name in front is bound to nothing. -/
  unbound : ∀ id k ks, kinds = .name id :: k :: ks → Under 20 k
  unstarred : y.isStarred = false
  reads : ∀ inner depth, kinds.length ≤ depth + 1 → ReadIn inner depth l kinds y

section
variable {inner : FieldReader} {depth : Nat} {l m : Level} {kinds : List LexemeKind} {y : Term}

theorem step_stops {first : Reader Term} {step : Nat → Term → Reader (Option Term)}
    (h : loopAt inner depth l = some (first, step)) (start : Nat) (s : Term) :
    Consumes (Option.map Term.unplaced) (Under l) (step start s) [] none := by
  have hbinary {operand : Reader Term} : Consumes (Option.map Term.unplaced) (Under l)
      (binaryStep operand (levelOp? l) start s) [] none := by
    refine consumes_peek (fun _ hk => hk) fun k hk => ?_
    have hnone : levelOp? l k = none := by
      cases hop : levelOp? l k with
      | none => rfl
      | some op => exact absurd (rank_of_levelOp? hop) (Nat.ne_of_lt hk)
    rw [Option.bind_some, hnone]
    exact consumes_pure rfl
  unfold loopAt at h
  split at h
  case h_1 =>
    obtain ⟨rfl, rfl⟩ := Prod.mk.inj (Option.some.inj h)
    refine consumes_peek (fun _ hk => hk) fun k hk => ?_
    have hother {s : String} (hs : 18 ≤ rank (.symbol s)) : k ≠ .symbol s := ne_of_rank_lt hk hs
    split
    · next h => exact absurd (Option.some.inj h) (hother (by decide))
    · next h => exact absurd (Option.some.inj h) (hother (by decide))
    · next h => exact absurd (Option.some.inj h) (hother (by decide))
    · exact consumes_pure rfl
  case h_8 => cases h
  all_goals
    obtain ⟨rfl, rfl⟩ := Prod.mk.inj (Option.some.inj h)
    exact hbinary

/-- What is read at a place is read by its reader in front of whatever does not belong to it. -/
theorem ReadIn.consumes (h : ReadIn inner depth l kinds y) :
    Consumes Term.unplaced (Under l) (readerAt inner depth l) kinds y := by
  unfold ReadIn at h
  cases hloop : loopAt inner depth l with
  | none => rwa [hloop] at h
  | some found =>
    obtain ⟨first, step⟩ := found
    rw [hloop] at h
    obtain ⟨ks, ls, x, rfl, hfirst, hstart, hrounds⟩ := h
    rw [readerAt_of_loopAt hloop]
    refine consumes_here fun start => hfirst.bind ?_ fun s hs => ?_
    · cases ls with
      | nil => exact under_of_le (Nat.le_succ l)
      | cons k ls => exact hstart (List.cons_ne_nil k ls)
    · have hdone : Rounds Term.unplaced (Under l) (step start) [] y y :=
        .done fun s _ => step_stops hloop start s
      have hall := hrounds start (Under l) [] y (under_of_le (Nat.le_succ l)) hdone
      rw [List.append_nil] at hall
      exact hall.consumes_repeating hs

theorem ReadsAt.consumes {i : FieldReader} {d : Nat} (h : ReadsAt l kinds y) (hdepth : kinds.length ≤ d + 1) :
    Consumes Term.unplaced (Under l) (readerAt i d l) kinds y := (h.reads i d hdepth).consumes

theorem ReadsAt.ne_nil (h : ReadsAt l kinds y) : kinds ≠ [] := by
  obtain ⟨k, ks, rfl, -⟩ := h.opens
  exact List.cons_ne_nil k ks

/-- What is known of a term's first lexeme from its place. -/
theorem ReadsAt.begins (h : ReadsAt l kinds y) {B P : LexemeKind → Prop}
    (hP : ∀ k, l ≤ Embedded.opens k → P k) : Begins B kinds P := by
  obtain ⟨k, ks, rfl, hk⟩ := h.opens
  intro k' hk'
  refine hP k' ?_
  rw [← opens_unplaced, hk']
  exact hk

theorem ReadsAt.begins_ne (h : ReadsAt l kinds y) {B : LexemeKind → Prop} {k : LexemeKind}
    (hk : Embedded.opens k < l) : Begins B kinds (· ≠ k) := by
  refine h.begins fun k' hk' => ?_
  rintro rfl
  exact Nat.not_le.mpr hk hk'

/-- A term with more lexemes behind those of its first part. -/
theorem ReadsAt.followed (h : ReadsAt m kinds y) (hlm : l ≤ m) {k : LexemeKind} {ks : List LexemeKind}
    (hk : Under 20 k) {z : Term} (hstar : z.isStarred = false)
    (hreads : ∀ inner depth, kinds.length ≤ depth → kinds.length + ks.length ≤ depth →
      ReadIn inner depth l (kinds ++ k :: ks) z) : ReadsAt l (kinds ++ k :: ks) z := by
  obtain ⟨first, rest, rfl, hfirst⟩ := h.opens
  refine ⟨⟨first, rest ++ k :: ks, rfl, Nat.le_trans hlm hfirst⟩, ?_, hstar, fun inner depth hdepth => ?_⟩
  · rintro id second more hkinds
    obtain ⟨rfl, hmore⟩ := List.cons.inj hkinds
    cases rest with
    | nil =>
      obtain ⟨rfl, -⟩ := List.cons.inj hmore
      exact hk
    | cons l rest =>
      obtain ⟨rfl, -⟩ := List.cons.inj hmore
      exact h.unbound id l rest rfl
  · simp only [List.length_append, List.length_cons] at hdepth hreads
    exact hreads inner depth (by omega) (by omega)

/-- Another round of a loop. -/
theorem Loops.more {first : Reader Term} {step : Nat → Term → Reader (Option Term)}
    (h : Loops m first step kinds y) {k : LexemeKind} {ks : List LexemeKind} {z : Term}
    (hk : rank k < m)
    (hround : ∀ start s, s.unplaced = y →
      Consumes (Option.map Term.unplaced) (Under m) (step start s) (k :: ks) (some z)) :
    Loops m first step (kinds ++ k :: ks) z := by
  obtain ⟨as, bs, x, rfl, hfirst, hstart, hrounds⟩ := h
  refine ⟨as, bs ++ k :: ks, x, List.append_assoc .., hfirst, fun _ => ?_, fun start B more w hmore h => ?_⟩
  · cases bs with
    | nil => exact begins_under hk
    | cons b bs => exact hstart (List.cons_ne_nil b bs)
  · rw [List.append_assoc]
    exact hrounds start B (k :: ks ++ more) w (begins_under hk)
      (.more (List.cons_ne_nil k ks) (hround start) hmore h)

/-- A loop that makes no rounds. -/
theorem loops_of_first {first : Reader Term} {step : Nat → Term → Reader (Option Term)}
    (h : Consumes Term.unplaced (Under m) first kinds y) : Loops m first step kinds y :=
  ⟨kinds, [], y, (List.append_nil kinds).symm, h, fun hnil => absurd rfl hnil,
    fun _ _ _ _ _ hrounds => hrounds⟩

theorem readIn_of_loop {first : Reader Term} {step : Nat → Term → Reader (Option Term)}
    (hloop : loopAt inner depth l = some (first, step)) :
    ReadIn inner depth l kinds y ↔ Loops (l + 1) first step kinds y := by
  unfold ReadIn
  rw [hloop]

theorem readIn_of_none (hloop : loopAt inner depth l = none) :
    ReadIn inner depth l kinds y ↔ Consumes Term.unplaced (Under l) (readerAt inner depth l) kinds y := by
  unfold ReadIn
  rw [hloop]

theorem consumes_boolLoop_one {operand : Reader Term} {word : String} {op : BoolOp} {n : Level}
    (h : Consumes Term.unplaced (Under n) operand kinds y) (hm : m ≤ n) (hword : m ≤ rank (.keyword word)) :
    Consumes Term.unplaced (Under m) (boolLoop operand word op) kinds y := by
  refine consumes_here fun start => (h.mono fun _ hk => Nat.lt_of_lt_of_le hk hm).bind_nil fun x hx => ?_
  refine (consumes_many_none (f := Term.unplaced) ?_).bind_nil
    fun more hmore => ?_
  · exact consumes_accept_other (fun k hk => ne_of_rank_lt hk hword) (consumes_pure rfl)
  · obtain rfl := List.map_eq_nil_iff.mp hmore
    exact consumes_pure hx

/-- Nothing that compares stands behind. -/
theorem consumes_compareOp_none : Consumes id (Under 8) compareOp [] none := by
  refine consumes_peek (fun _ hk => hk) fun k hk => ?_
  have hsymbol {s : String} (hs : 8 ≤ rank (.symbol s)) : k ≠ .symbol s := ne_of_rank_lt hk hs
  have hkeyword {word : String} (hs : 8 ≤ rank (.keyword word)) : k ≠ .keyword word := ne_of_rank_lt hk hs
  dsimp only
  split
  case h_10 => exact consumes_pure rfl
  case h_7 | h_8 | h_9 => next h => exact absurd (Option.some.inj h) (hkeyword (by decide))
  all_goals next h => exact absurd (Option.some.inj h) (hsymbol (by decide))

theorem power_eq (g : Grammar) (primary : Reader Term) :
    g.power primary = (do
      let start ← here
      let base ← awaited primary
      if ← accept (.symbol "**") then
        let exponent ← g.factor
        close start (.binary .power base exponent)
      else pure base) := by
  funext i
  unfold power awaited
  rw [bind_eq (here_eq i), bind_eq (here_eq i), bind_assoc, bind_eq (here_eq i), bind_assoc]
  refine congrFun (congrArg (accept _ >>= ·) (funext fun found => ?_)) i
  split
  · rw [bind_assoc]
  · rfl

theorem consumes_power {g : Grammar} {primary : Reader Term}
    (h : Consumes Term.unplaced (Under 17) (awaited primary) kinds y) :
    Consumes Term.unplaced (Under 16) (g.power primary) kinds y := by
  rw [power_eq]
  refine consumes_here fun start => ?_
  refine (h.mono fun k (hk : Under 16 k) => Nat.lt_succ_of_lt hk).bind_nil fun x hx => ?_
  exact consumes_accept_other (fun k hk => ne_of_rank_lt hk (by decide)) (consumes_pure hx)

/-- What is read at a place is read at the next looser one. -/
theorem ReadsAt.lower (h : ReadsAt (l + 1) kinds y) (hl : 4 ≤ l) (hatom : l < 18) : ReadsAt l kinds y := by
  have hopens : ∃ k ks, kinds = k :: ks ∧ l ≤ Embedded.opens k := by
    obtain ⟨k, ks, hks, hk⟩ := h.opens
    exact ⟨k, ks, hks, Nat.le_of_succ_le hk⟩
  refine ⟨hopens, h.unbound, h.unstarred, fun inner depth hdepth => ?_⟩
  have hread := h.consumes (i := inner) hdepth
  have hbelow := hread.mono fun k (hk : Under l k) => Nat.lt_succ_of_lt hk
  have hloop {first : Reader Term} {step : Nat → Term → Reader (Option Term)}
      (hloop : loopAt inner depth l = some (first, step)) (hfirst : first = readerAt inner depth (l + 1)) :
      ReadIn inner depth l kinds y := by
    rw [readIn_of_loop hloop]
    subst hfirst
    exact loops_of_first hread
  interval_cases l
  -- an expression that is no lambda and has no `if` behind it
  · rw [readIn_of_none rfl]
    refine consumes_peek (h.begins_ne (k := .keyword "lambda") (by decide)) fun k hk => ?_
    rw [if_neg fun hsame => hk (Option.some.inj hsame)]
    refine consumes_here fun start => hbelow.bind_nil fun x hx => ?_
    exact consumes_accept_other (fun k hk => ne_of_rank_lt hk (by decide)) (consumes_pure hx)
  -- one operand of `or` and of `and`
  · exact (readIn_of_none rfl).mpr (consumes_boolLoop_one hread (by decide) (by decide))
  · exact (readIn_of_none rfl).mpr (consumes_boolLoop_one hread (by decide) (by decide))
  · rw [readIn_of_none rfl]
    refine consumes_here fun start => ?_
    exact consumes_accept_other (h.begins_ne (k := .keyword "not") (by decide)) hbelow
  -- nothing that it is compared with
  · rw [readIn_of_none rfl]
    refine consumes_here fun start => hbelow.bind_nil fun x hx => ?_
    refine (consumes_many_none (f := id) ?_).bind_nil
      fun more hmore => ?_
    · exact consumes_compareOp_none.bind_nil fun op? hop => by
        obtain rfl : op? = none := hop
        exact consumes_pure rfl
    · obtain rfl := List.map_eq_nil_iff.mp hmore
      exact consumes_pure hx
  -- the binary operators, each with a loop of its own
  · exact hloop rfl rfl
  · exact hloop rfl rfl
  · exact hloop rfl rfl
  · exact hloop rfl rfl
  · exact hloop rfl rfl
  · exact hloop rfl rfl
  · rw [readIn_of_none rfl]
    refine consumes_here fun start => ?_
    refine consumes_peek (h.begins fun k hk => hk) fun k hk => ?_
    have hother {s : String} (hs : Embedded.opens (.symbol s) < 16) : k ≠ .symbol s := by
      rintro rfl
      exact Nat.not_le.mpr hs hk
    dsimp only
    split
    case h_4 => exact hbelow
    all_goals next h => exact absurd (Option.some.inj h) (hother (by decide))
  · rw [readIn_of_none rfl]
    exact consumes_power hread
  · rw [readIn_of_none rfl]
    refine consumes_here fun start => ?_
    exact consumes_accept_other (h.begins_ne (k := .keyword "await") (by decide)) hbelow

/-- What is read at a place is read at looser ones. -/
theorem ReadsAt.mono (h : ReadsAt m kinds y) (hl : 4 ≤ l) (hlm : l ≤ m) (hatom : m ≤ 18) :
    ReadsAt l kinds y := by
  induction m, hlm using Nat.le_induction with
  | base => exact h
  | succ m hlm ih => exact ih (h.lower (Nat.le_trans hl hlm) hatom) (Nat.le_of_succ_le hatom)

end
end ViewTree.Embedded
