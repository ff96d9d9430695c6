import ViewTree.Proofs.Printing.Groups

/-!
Attributes and subscripts on lexemes whose kinds are known. Main statement: a value with an index or several
behind it is read at the tightest place (`ReadsAt.subscript`).
-/
namespace ViewTree.Embedded
open Reader Grammar

section
variable {kinds ks : List LexemeKind} {k : LexemeKind} {y z : Term}

/-- One suffix behind a value. -/
theorem ReadsAt.suffixed (h : ReadsAt 18 kinds y) (hk : rank k < 19) (hstar : z.isStarred = false)
    (hround : ∀ inner depth start s, ks.length < depth → s.unplaced = y →
      Consumes (Option.map Term.unplaced) (Under 19)
        ((grammarAt inner depth).1.suffix (grammarAt inner depth).2 start s) (k :: ks) (some z)) :
    ReadsAt 18 (kinds ++ k :: ks) z := by
  refine h.followed (Nat.le_refl 18) (Nat.lt_succ_of_lt hk) hstar fun inner depth hkinds hks => ?_
  have hsome := List.length_pos_iff.mpr h.ne_nil
  have hread := h.reads inner depth (by omega)
  rw [readIn_of_loop rfl] at hread ⊢
  exact hread.more hk fun start s hs => hround inner depth start s (by omega) hs

theorem ReadsAt.attribute (h : ReadsAt 18 kinds y) (attr : String) :
    ReadsAt 18 (kinds ++ [.symbol ".", .name attr]) (.mk 0 0 (.attribute y attr)) := by
  refine h.suffixed (by decide) rfl fun inner depth start s _ hs => ?_
  refine consumes_peek_plain rfl ?_
  exact consumes_next fun _ _ => consumes_name ((consumes_close (by rw [Form.unplaced, hs]) start).bind_nil
    fun x hx => consumes_pure (congrArg some hx))

end

/-- The lexemes are read as a bound of a slice. -/
inductive BoundAt : List LexemeKind → Option Term → Prop where
  | absent : BoundAt [] none
  | present {ks y} (h : ReadsAt 4 ks y) : BoundAt ks (some y)

/-- The lexemes are read as the step of a slice. -/
inductive StepAt : List LexemeKind → Option Term → Prop where
  | absent : StepAt [] none
  | present {ks y} (h : ReadsAt 4 ks y) : StepAt (.symbol ":" :: ks) (some y)

/-- The lexemes are read as one index. -/
inductive IndexAt : List LexemeKind → Term → Prop where
  | item {ks y} (h : ItemAt ks y) : IndexAt ks y
  | slice {ks ls ms lower upper step} (hlower : BoundAt ks lower) (hupper : BoundAt ls upper)
      (hstep : StepAt ms step) :
    IndexAt (ks ++ .symbol ":" :: (ls ++ ms)) (.mk 0 0 (.slice lower upper step))

/-- The lexemes are read as the indices of a subscript. -/
inductive IndicesAt : List LexemeKind → Term → Prop where
  | one {ks y} (h : IndexAt ks y) (hstar : y.isStarred = false) : IndicesAt ks y
  | tuple {ks kss y ys} (hfirst : IndexAt ks y) (h : List.Forall₂ IndexAt kss ys) :
    IndicesAt (tupleKinds (ks :: kss)) (.mk 0 0 (.tuple (y :: ys)))

/-- A bound of a slice, if one comes next. -/
def Grammar.bound (g : Grammar) : Reader (Option Term) := do
  match ← peek with
  | some (.symbol ":") | some (.symbol ",") | some (.symbol "]") => pure none
  | _ => pure (some (← g.expression))

/-- A slice, or an expression alone. -/
def Grammar.sliced (g : Grammar) (start : Nat) : Reader Term := do
  let lower ← g.bound
  if ← accept (.symbol ":") then
    let upper ← g.bound
    let step ← if ← accept (.symbol ":") then g.bound else pure none
    close start (.slice lower upper step)
  else
    match lower with
    | some value => pure value
    | none => failure

theorem Grammar.index_eq (g : Grammar) : g.index = (do
    let start ← here
    if ← accept (.symbol "*") then
      let value ← g.expression
      close start (.starred value)
    else if ← namesNext then g.named
    else g.sliced start) := rfl

def endsBound (k : LexemeKind) : Prop := k = .symbol ":" ∨ k = .symbol "," ∨ k = .symbol "]"

def endsIndex (k : LexemeKind) : Prop := k = .symbol "," ∨ k = .symbol "]"

section
variable {inner : FieldReader} {depth : Nat} {kinds : List LexemeKind} {y : Term} {bound : Option Term}

theorem under_of_endsBound {k : LexemeKind} (h : endsBound k) : Under 4 k := by
  rcases h with rfl | rfl | rfl <;> decide

theorem BoundAt.consumes (h : BoundAt kinds bound) (hdepth : kinds.length < depth) :
    Consumes (Option.map Term.unplaced) endsBound (grammarAt inner depth).1.bound kinds bound := by
  cases h with
  | absent =>
    refine consumes_peek (fun _ hk => hk) fun k hk => ?_
    rcases hk with rfl | rfl | rfl <;> exact consumes_pure rfl
  | present h =>
    have hother {s : String} (hs : ¬4 ≤ opens (.symbol s)) :
        ∀ k, 4 ≤ opens k → some k ≠ some (.symbol s) := by
      rintro _ hk hsame
      exact hs (Option.some.inj hsame ▸ hk)
    refine consumes_peek (h.begins (P := (4 ≤ opens ·)) fun _ hk => hk) fun k hk => ?_
    split
    · next h => exact absurd h (hother (by decide) k hk)
    · next h => exact absurd h (hother (by decide) k hk)
    · next h => exact absurd h (hother (by decide) k hk)
    · exact ((h.expression hdepth).mono fun _ => under_of_endsBound).bind_nil fun x hx =>
        consumes_pure (congrArg some hx)

theorem BoundAt.begins (h : BoundAt kinds bound) {B P : LexemeKind → Prop} (hP : ∀ k, 4 ≤ opens k → P k)
    {ls : List LexemeKind} (hls : Begins B ls P) : Begins B (kinds ++ ls) P := by
  cases h with
  | absent => exact hls
  | present h => exact (h.begins hP).append h.ne_nil

theorem ne_of_opens {k l : LexemeKind} {n : Level} (hk : n ≤ opens k) (hl : opens l < n) : k ≠ l := by
  rintro rfl
  exact Nat.not_le.mpr hl hk

/-- The step of a slice, if there is one. -/
theorem StepAt.consumes {β δ : Type} {f : β → δ} {z : δ} {k : Option Term → Reader β}
    (h : StepAt kinds bound) (hdepth : kinds.length ≤ depth)
    (hk : ∀ x, x.map Term.unplaced = bound → Consumes f endsIndex (k x) [] z) :
    Consumes f endsIndex (do
      if ← accept (.symbol ":") then
        let step ← (grammarAt inner depth).1.bound
        k step
      else
        let step ← pure none
        k step) kinds z := by
  cases h with
  | absent =>
    refine consumes_accept_other (fun k hk => ?_) (hk none rfl)
    rcases hk with rfl | rfl <;> decide
  | present h =>
    exact consumes_accept rfl ((((BoundAt.present h).consumes hdepth).mono fun _ => .inr).bind_nil hk)

theorem IndexAt.begins (h : IndexAt kinds y) {B P : LexemeKind → Prop} (hstar : P (.symbol "*"))
    (hcolon : P (.symbol ":")) (hP : ∀ k, 4 ≤ opens k → P k) : Begins B kinds P := by
  cases h with
  | item h => exact h.begins hstar hP
  | slice hlower => exact hlower.begins hP (begins_plain rfl hcolon)

theorem ReadsAt.consumes_sliced {i : FieldReader} {d : Nat} (h : ReadsAt 4 kinds y)
    (hdepth : kinds.length < d) (start : Nat) :
    Consumes Term.unplaced endsIndex ((grammarAt i d).1.sliced start) kinds y := by
  refine (((BoundAt.present h).consumes hdepth).mono fun _ => .inr).bind_nil fun lower? hlower => ?_
  obtain ⟨lower, rfl, hlower⟩ := Option.map_eq_some_iff.mp hlower
  refine consumes_unless (fun k hk => ?_) (consumes_pure (Option.some.inj hlower))
  rcases hk with rfl | rfl <;> decide

theorem consumes_sliced {i : FieldReader} {d : Nat} {ks ls ms : List LexemeKind}
    {lower upper step : Option Term}
    (hlower : BoundAt ks lower) (hupper : BoundAt ls upper) (hstep : StepAt ms step)
    (hdepth : (ks ++ .symbol ":" :: (ls ++ ms)).length < d) (start : Nat) :
    Consumes Term.unplaced endsIndex ((grammarAt i d).1.sliced start)
      (ks ++ .symbol ":" :: (ls ++ ms)) (.mk 0 0 (.slice lower upper step)) := by
  simp only [List.length_append, List.length_cons] at hdepth
  refine (hlower.consumes (by omega)).bind (begins_plain rfl (.inl rfl)) fun x hx => ?_
  refine consumes_when rfl ?_
  refine (hupper.consumes (by omega)).bind ?_ fun u hu => ?_
  · cases hstep with
    | absent => exact fun _ => .inr
    | present h => exact begins_plain rfl (.inl rfl)
  · exact hstep.consumes (by omega) fun w hw => consumes_close (by simp [Form.unplaced, hx, hu, hw]) start

theorem IndexAt.consumes {i : FieldReader} {d : Nat} (h : IndexAt kinds y) (hdepth : kinds.length < d) :
    Consumes Term.unplaced endsIndex (grammarAt i d).1.index kinds y := by
  have hunder (k : LexemeKind) (hk : endsIndex k) : Under 4 k := under_of_endsBound (.inr hk)
  rw [Grammar.index_eq]
  refine consumes_here fun start => ?_
  cases h with
  | item h =>
    cases h with
    | term h =>
      refine consumes_unless (h.begins_ne (by decide)) ?_
      exact h.consumes_namesNext_last (fun k hk => Nat.lt_trans (hunder k hk) (by decide))
        (h.consumes_sliced hdepth start)
    | starred h =>
      have hvalue := (h.mono (l := 4) (by decide) (by decide) (by decide)).expression (i := i)
        (Nat.lt_of_succ_lt hdepth)
      exact consumes_when rfl ((hvalue.mono hunder).bind_nil fun x hx =>
        consumes_close (by rw [Form.unplaced, hx]) start)
  | slice hlower hupper hstep =>
    refine consumes_unless (hlower.begins (fun k hk => ne_of_opens hk (by decide))
      (begins_plain rfl nofun)) ?_
    have hread := consumes_sliced (i := i) hlower hupper hstep hdepth start
    cases hlower with
    | absent => exact Embedded.consumes_namesNext (fun _ h => LexemeKind.noConfusion h) hread
    | present h => exact h.consumes_namesNext (begins_under (by decide)) hread

theorem IndicesAt.consumes (h : IndicesAt kinds y) (hdepth : kinds.length < depth) :
    Consumes Term.unplaced (· = .symbol "]") (grammarAt inner depth).1.indices kinds y := by
  refine consumes_here fun start => ?_
  cases h with
  | one h hstar =>
    refine (consumes_items_one ?_ ((h.consumes hdepth).mono ?_)).bind_nil fun read hfound => ?_
    · rintro _ rfl
      decide
    · rintro _ rfl
      exact .inr rfl
    obtain ⟨found, commas⟩ := read
    obtain ⟨hitems, rfl⟩ := Prod.mk.inj hfound
    obtain ⟨one, rfl, hone⟩ := List.map_eq_singleton_iff.mp hitems
    exact consumes_ite_neg (by simp [← one.isStarred_unplaced, hone, hstar]) (consumes_pure hone)
  | @tuple ks kss y ys hfirst h =>
    rw [tupleKinds, List.length_append] at hdepth
    have hlength := length_led_le kss
    have hitems := forall₂_of_led (.symbol ",") (d := depth) h (by omega) fun ks y hlength hitem =>
      And.intro (hitem.consumes (i := inner) hlength)
        (hitem.begins (B := endsIndex) (P := (endsItems · = false)) rfl rfl fun _ => endsItems_of_opens)
    refine (consumes_items_tuple ?_ ?_ ?_ (.inl rfl) (hfirst.consumes (by omega)) hitems).bind_nil
      fun read hfound => ?_
    · rintro _ rfl
      exact .inr rfl
    · rintro _ rfl
      decide
    · rintro _ rfl
      decide
    obtain ⟨found, commas⟩ := read
    obtain ⟨hitems, rfl⟩ := Prod.mk.inj hfound
    have hclose : Consumes Term.unplaced (· = .symbol "]") (close start (.tuple found)) []
        (.mk 0 0 (.tuple (y :: ys))) :=
      consumes_close (by rw [Form.unplaced, Term.allUnplaced_eq]; exact congrArg Form.tuple hitems) start
    cases found with
    | nil => exact hclose
    | cons one more => cases more <;> exact hclose

theorem ReadsAt.subscript {ks : List LexemeKind} {index : Term} (h : ReadsAt 18 kinds y)
    (hindex : IndicesAt ks index) :
    ReadsAt 18 (kinds ++ .symbol "[" :: (ks ++ [.symbol "]"])) (.mk 0 0 (.subscript y index)) := by
  refine h.suffixed (by decide) rfl fun inner depth start s hdepth hs => ?_
  rw [List.length_append] at hdepth
  refine consumes_peek_plain rfl ?_
  refine consumes_next fun _ _ => (hindex.consumes (Nat.lt_of_succ_lt hdepth)).bind (begins_plain rfl rfl)
    fun found hfound => consumes_symbol ?_
  exact (consumes_close (by rw [Form.unplaced, hs, hfound]) start).bind_nil fun x hx =>
    consumes_pure (congrArg some hx)

end
end ViewTree.Embedded
