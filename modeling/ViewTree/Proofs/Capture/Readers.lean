import ViewTree.Proofs.Capture.Nesting

/-!
Readers with what they take. Main statement: a reader that passes from mode to mode, and is followed
by another one as long as it takes few lexemes, can be combined with others of the kind
(`FollowsOn.bind`, `Follows.repeating`).
-/
namespace ViewTree.Embedded
open Reader

/-- From inputs with `P`, what `r` takes is a passage, and `r'` reads the same if not more than
`count` lexemes were spent and are owed in all. -/
def FollowsOn {α : Type} (P : Input → Prop) (count : Nat) (m : Mode) (e : α → Mode)
    (r r' : Reader α) : Prop :=
  ∀ i x i', P i → r i = some (x, i') →
    ∃ used, i.rest = used ++ i'.rest ∧ Passage m (e x) used ∧
      (m.zone.spent + used.length + (e x).zone.owed ≤ count → r' i = some (x, i'))

/-- The same from all inputs. -/
abbrev Follows {α : Type} (count : Nat) (m : Mode) (e : α → Mode) (r r' : Reader α) : Prop :=
  FollowsOn (fun _ => True) count m e r r'

variable {α β : Type} {P : Input → Prop} {count : Nat} {m m' : Mode} {e : α → Mode}
  {e' : β → Mode} {r r' : Reader α} {k k' : α → Reader β}

def Next (kind? : Option LexemeKind) (i : Input) : Prop := i.rest.head?.map (·.kind) = kind?

theorem followsOn_of_input (h : ∀ i, P i → FollowsOn (· = i) count m e r r') :
    FollowsOn P count m e r r' := fun i x i' hi hr => h i hi i x i' rfl hr

theorem FollowsOn.on (h : Follows count m e r r') : FollowsOn P count m e r r' :=
  fun i x i' _ hr => h i x i' trivial hr

theorem follows_pure (x : α) : FollowsOn P count m (fun _ => m) (pure x) (pure x) := by
  intro i y i' _ hr
  obtain ⟨rfl, rfl⟩ := Prod.mk.inj (Option.some.inj hr)
  exact ⟨[], rfl, Passage.refl m, fun _ => rfl⟩

theorem follows_failure : FollowsOn P count m e failure r' := fun _ _ _ _ hr => nomatch hr

theorem follows_failure_bind {k : α → Reader β} {s : Reader β} :
    FollowsOn P count m e' (failure >>= k) s := fun _ _ _ _ hr => nomatch hr

theorem FollowsOn.bind_of (h : FollowsOn P count m e r r')
    (hk : ∀ i x j, P i → r i = some (x, j) → Follows count (e x) e' (k x) (k' x)) :
    FollowsOn P count m e' (r >>= k) (r' >>= k') := by
  intro i y i' hi hr
  obtain ⟨⟨x, j⟩, hrx, hkx⟩ := Option.bind_eq_some_iff.mp hr
  obtain ⟨a, ha, hpa, hca⟩ := h i x j hi hrx
  obtain ⟨b, hb, hpb, hcb⟩ := hk i x j hi hrx j y i' trivial hkx
  refine ⟨a ++ b, by rw [ha, hb, List.append_assoc], hpa.trans hpb, fun hcount => ?_⟩
  have hspent := hpa.spent_le
  have howed := hpb.owed_le
  rw [List.length_append] at hcount
  have hr' : r' i = some (x, j) := hca (by omega)
  have hk' : k' x j = some (y, i') := hcb (by omega)
  exact Option.bind_eq_some_iff.mpr ⟨(x, j), hr', hk'⟩

theorem FollowsOn.bind (h : FollowsOn P count m e r r')
    (hk : ∀ x, Follows count (e x) e' (k x) (k' x)) : FollowsOn P count m e' (r >>= k) (r' >>= k') :=
  h.bind_of fun _ x _ _ _ => hk x

theorem FollowsOn.mono {e₁ : α → Mode} (h : FollowsOn P count m e r r')
    (he : ∀ x, e₁ x = e x ∨ e₁ x = ⟨(e x).zone, false⟩) : FollowsOn P count m e₁ r r' := by
  intro i x i' hi hr
  obtain ⟨used, hused, hp, hc⟩ := h i x i' hi hr
  rcases he x with hx | hx
  · exact ⟨used, hused, hx ▸ hp, fun hcount => hc (by rwa [hx] at hcount)⟩
  · exact ⟨used, hused, hx ▸ hp.unclear, fun hcount => hc (by rwa [hx] at hcount)⟩

/-- Nothing is taken, and what is known of the last lexeme forgotten. -/
theorem follows_idle {z : Zone} {c : Bool} (x : α) :
    FollowsOn P count ⟨z, c⟩ (fun _ => ⟨z, false⟩) (pure x) (pure x) :=
  (follows_pure x).mono fun _ => .inr rfl

theorem FollowsOn.ite {p : Prop} [Decidable p] {s s' : Reader α}
    (hr : p → FollowsOn P count m e r r') (hs : ¬p → FollowsOn P count m e s s') :
    FollowsOn P count m e (if p then r else s) (if p then r' else s') := by
  by_cases hp : p
  · rw [if_pos hp, if_pos hp]
    exact hr hp
  · rw [if_neg hp, if_neg hp]
    exact hs hp

/-- What a reader does after any lexeme, it does after one that is known to let a lambda follow. -/
theorem FollowsOn.cleared {z : Zone} {c : Bool} (h : FollowsOn P count ⟨z, false⟩ e r r') :
    FollowsOn P count ⟨z, c⟩ e r r' := by
  intro i x i' hi hr
  obtain ⟨used, hused, hp, hc⟩ := h i x i' hi hr
  exact ⟨used, hused, hp.cleared, hc⟩

/-- A whole reader inside another one, which spends and owes lexemes besides. -/
theorem FollowsOn.lift {small : Nat} {c c' : Bool}
    (h : Follows small ⟨.start, c⟩ (fun _ => ⟨.begun, c'⟩) r r') (z : Zone)
    (hcount : count ≤ small + z.spent + z.owed) :
    Follows count ⟨z, c⟩ (fun _ => ⟨z.behind, c'⟩) r r' := by
  intro i x i' _ hr
  obtain ⟨used, hused, hp, hc⟩ := h i x i' trivial hr
  refine ⟨used, hused, hp.lift z, fun hle => hc ?_⟩
  have hsame : z.behind.owed = z.owed := by cases z <;> rfl
  have hle : z.spent + used.length + z.behind.owed ≤ count := hle
  show 0 + used.length + 0 ≤ small
  omega

/-- Whatever follows, no lexemes at all are never enough for a reader that takes one. -/
theorem FollowsOn.zero {r'' : Reader α} {c c' : Bool}
    (h : Follows count ⟨.start, c⟩ (fun _ => ⟨.begun, c'⟩) r r') :
    Follows 0 ⟨.start, c⟩ (fun _ => ⟨.begun, c'⟩) r r'' := by
  intro i x i' _ hr
  obtain ⟨used, hused, hp, -⟩ := h i x i' trivial hr
  refine ⟨used, hused, hp, fun hle => ?_⟩
  have hone : 1 ≤ 0 + used.length := hp.spent_le
  have hnone : 0 + used.length + 0 ≤ 0 := hle
  omega

theorem follows_get {k k' : Input → Reader β} {e : β → Mode}
    (h : ∀ i, P i → FollowsOn (· = i) count m e (k i) (k' i)) :
    FollowsOn P count m e (get >>= k) (get >>= k') :=
  fun i y i' hi hr => h i hi i y i' rfl hr

theorem follows_peek {k k' : Option LexemeKind → Reader β} {e : β → Mode}
    (h : ∀ kind?, FollowsOn (Next kind?) count m e (k kind?) (k' kind?)) :
    FollowsOn P count m e (peek >>= k) (peek >>= k') :=
  fun i y i' _ hr => h _ i y i' rfl hr

/-- A reader that only looks. -/
theorem follows_look (h : ∀ i, ∃ x, r i = some (x, i)) : FollowsOn P count m (fun _ => m) r r := by
  intro i x i' _ hr
  obtain ⟨y, hy⟩ := h i
  obtain ⟨-, rfl⟩ := Prod.mk.inj (Option.some.inj (hy.symm.trans hr))
  exact ⟨[], rfl, Passage.refl m, fun _ => hr⟩

theorem follows_here {k k' : Nat → Reader β} {e : β → Mode}
    (h : ∀ start, FollowsOn P count m e (k start) (k' start)) :
    FollowsOn P count m e (here >>= k) (here >>= k') :=
  fun i y i' hi hr => h _ i y i' hi hr

theorem follows_close (start : Nat) (form : Form) :
    Follows count m (fun _ => m) (close start form) (close start form) := by
  intro i x i' _ hr
  obtain ⟨-, rfl⟩ := Prod.mk.inj (Option.some.inj hr)
  exact ⟨[], rfl, Passage.refl m, fun _ => hr⟩

theorem follows_end {z : Zone} {c : Bool} (start : Nat) (form : Form) :
    FollowsOn P count ⟨z, c⟩ (fun _ => ⟨z, false⟩) (close start form) (close start form) :=
  (follows_close start form).on.mono fun _ => .inr rfl

/-- A reader of one lexeme. -/
theorem follows_take (h : ∀ i x i', P i → r i = some (x, i') →
    ∃ t, i.rest = t :: i'.rest ∧ m.after? t.kind = some (e x)) : FollowsOn P count m e r r := by
  intro i x i' hi hr
  obtain ⟨t, ht, hafter⟩ := h i x i' hi hr
  exact ⟨[t], ht, Passage.single hafter, fun _ => hr⟩

theorem exists_of_next {i i' : Input} {kind : LexemeKind} (h : next i = some (kind, i')) :
    ∃ t, i.rest = t :: i'.rest ∧ t.kind = kind := by
  obtain ⟨rest, last⟩ := i
  cases rest with
  | nil => nomatch h
  | cons t rest =>
    obtain ⟨hkind, rfl⟩ := Prod.mk.inj (Option.some.inj h)
    exact ⟨t, rfl, hkind⟩

theorem follows_next {kind : LexemeKind} {k k' : LexemeKind → Reader β} {e : β → Mode}
    (hafter : m.after? kind = some m') (h : Follows count m' e (k kind) (k' kind)) :
    FollowsOn (Next (some kind)) count m e (next >>= k) (next >>= k') := by
  have hkind : ∀ i x i', Next (some kind) i → next i = some (x, i') →
      x = kind ∧ ∃ t, i.rest = t :: i'.rest ∧ m.after? t.kind = some m' := by
    intro i x i' hi hr
    obtain ⟨t, ht, rfl⟩ := exists_of_next hr
    obtain rfl : t.kind = kind := by simpa [Next, ht] using hi
    exact ⟨rfl, t, ht, hafter⟩
  have hnext : FollowsOn (Next (some kind)) count m (fun _ => m') next next :=
    follows_take fun i x i' hi hr => (hkind i x i' hi hr).2
  exact hnext.bind_of fun i x i' hi hr => (hkind i x i' hi hr).1 ▸ h

/-- The next lexeme, where some are refused. -/
theorem follows_next_of {kind? : Option LexemeKind} {k k' : LexemeKind → Reader β} {e : β → Mode}
    (h : ∀ kind, (∃ m', m.after? kind = some m' ∧ Follows count m' e (k kind) (k' kind)) ∨
      k kind = failure) : FollowsOn (Next kind?) count m e (next >>= k) (next >>= k') := by
  refine followsOn_of_input fun i hi => ?_
  intro i' y i'' hi' hr
  subst hi'
  obtain ⟨⟨kind, j⟩, hnext, hk⟩ := Option.bind_eq_some_iff.mp hr
  obtain ⟨t, ht, rfl⟩ := exists_of_next hnext
  rcases h t.kind with ⟨m', hafter, hfollows⟩ | hfailure
  · have hknown : Next (some t.kind) i' := by simp [Next, ht]
    exact follows_next hafter hfollows i' y i'' hknown hr
  · have hnone : (failure : Reader β) j = some (y, i'') := hfailure ▸ hk
    nomatch hnone

theorem follows_peekSecond {k k' : Option LexemeKind → Reader β} {e : β → Mode}
    (h : ∀ kind?, FollowsOn (fun i => P i ∧ i.rest[1]?.map (·.kind) = kind?) count m e (k kind?)
      (k' kind?)) :
    FollowsOn P count m e (peekSecond >>= k) (peekSecond >>= k') :=
  fun i y i' hi hr => h _ i y i' ⟨hi, rfl⟩ hr

/-- Two lexemes that are known both. -/
theorem follows_next_next {first second : LexemeKind} {m₁ m₂ : Mode}
    (hfirst : m.after? first = some m₁) (hsecond : m₁.after? second = some m₂)
    (h : Follows count m₂ e r r') :
    FollowsOn (fun i => Next (some first) i ∧ i.rest[1]?.map (·.kind) = some second) count m e
      (next >>= fun _ => next >>= fun _ => r) (next >>= fun _ => next >>= fun _ => r') := by
  have htwo : FollowsOn (fun i => Next (some first) i ∧ i.rest[1]?.map (·.kind) = some second)
      count m (fun _ => m₂) (next >>= fun _ => next) (next >>= fun _ => next) := by
    rintro ⟨rest, last⟩ x i' ⟨hi, hi'⟩ hr
    match rest with
    | [] => nomatch hi
    | [t] => nomatch hi'
    | t :: u :: rest =>
      obtain rfl : t.kind = first := Option.some.inj hi
      obtain rfl : u.kind = second := Option.some.inj hi'
      obtain ⟨-, rfl⟩ := Prod.mk.inj (Option.some.inj hr)
      exact ⟨[t, u], rfl, (Passage.single hfirst).trans (Passage.single hsecond), fun _ => hr⟩
  rw [← bind_assoc, ← bind_assoc]
  exact htwo.bind fun _ => h

theorem follows_expect {kind : LexemeKind} (hafter : m.after? kind = some m') :
    Follows count m (fun _ => m') (expect kind) (expect kind) := by
  refine follows_take fun i x i' _ hr => ?_
  obtain ⟨⟨found, j⟩, hnext, hrest⟩ := Option.bind_eq_some_iff.mp hr
  obtain ⟨t, ht, rfl⟩ := exists_of_next hnext
  replace hrest : (if t.kind = kind then pure () else failure : Reader Unit) j = some (x, i') := hrest
  by_cases hkind : t.kind = kind
  · rw [if_pos hkind] at hrest
    obtain ⟨-, rfl⟩ := Prod.mk.inj (Option.some.inj hrest)
    exact ⟨t, ht, hkind ▸ hafter⟩
  · rw [if_neg hkind] at hrest
    nomatch hrest

theorem follows_symbol {text : String} (hafter : m.after? (.symbol text) = some m') :
    Follows count m (fun _ => m') (symbol text) (symbol text) := follows_expect hafter

theorem follows_keyword {word : String} (hafter : m.after? (.keyword word) = some m') :
    Follows count m (fun _ => m') (keyword word) (keyword word) := follows_expect hafter

theorem follows_name : Follows count m (fun _ => ⟨m.zone.behind, true⟩) name name := by
  refine follows_take fun i x i' _ hr => ?_
  obtain ⟨⟨found, j⟩, hnext, hrest⟩ := Option.bind_eq_some_iff.mp hr
  obtain ⟨t, ht, rfl⟩ := exists_of_next hnext
  cases hkind : t.kind with
  | name id =>
    rw [hkind] at hrest
    obtain ⟨-, rfl⟩ := Prod.mk.inj (Option.some.inj hrest)
    exact ⟨t, ht, by rw [hkind]; rfl⟩
  | _ =>
    rw [hkind] at hrest
    nomatch hrest

theorem accept_of_next {kind : LexemeKind} {i : Input} (h : Next (some kind) i) :
    ∃ t j, i.rest = t :: j.rest ∧ t.kind = kind ∧ accept kind i = some (true, j) := by
  obtain ⟨rest, last⟩ := i
  cases rest with
  | nil => nomatch h
  | cons t rest =>
    obtain rfl : t.kind = kind := Option.some.inj h
    refine ⟨t, ⟨rest, t.stop⟩, rfl, rfl, ?_⟩
    show (if some t.kind = some t.kind then _ else _ : Reader Bool) ⟨t :: rest, last⟩ = _
    rw [if_pos rfl]
    rfl

theorem accept_of_not {kind : LexemeKind} {i : Input} (h : ¬Next (some kind) i) :
    accept kind i = some (false, i) := by
  have hhead : ¬i.rest.head?.map (·.kind) = some kind := h
  show (if i.rest.head?.map (·.kind) = some kind then _ else _ : Reader Bool) i = _
  rw [if_neg hhead]
  rfl

/-- A lexeme that may come next. -/
theorem follows_accept {kind : LexemeKind} {k k' : Bool → Reader β} {e : β → Mode}
    (hafter : m.after? kind = some m') (htaken : Follows count m' e (k true) (k' true))
    (hleft : FollowsOn P count m e (k false) (k' false)) :
    FollowsOn P count m e (accept kind >>= k) (accept kind >>= k') := by
  refine followsOn_of_input fun i hi => ?_
  by_cases h : Next (some kind) i
  · obtain ⟨t, j, ht, hkind, haccept⟩ := accept_of_next h
    have hvalue : ∀ i' x i'', i' = i → accept kind i' = some (x, i'') → x = true ∧ i'' = j := by
      rintro i' x i'' rfl hr
      obtain ⟨rfl, rfl⟩ := Prod.mk.inj (Option.some.inj (haccept.symm.trans hr))
      exact ⟨rfl, rfl⟩
    have htake : FollowsOn (· = i) count m (fun _ => m') (accept kind) (accept kind) := by
      refine follows_take fun i' x i'' hi' hr => ⟨t, ?_, hkind ▸ hafter⟩
      rw [hi', (hvalue i' x i'' hi' hr).2, ht]
    exact htake.bind_of fun i' x i'' hi' hr => (hvalue i' x i'' hi' hr).1 ▸ htaken
  · have hbind (k : Bool → Reader β) : (accept kind >>= k) i = k false i := by
      show (accept kind i).bind _ = _
      rw [accept_of_not h]
      rfl
    rintro i' y i'' rfl hr
    rw [hbind] at hr
    obtain ⟨used, hused, hp, hc⟩ := hleft i' y i'' hi hr
    exact ⟨used, hused, hp, fun hle => (hbind k').trans (hc hle)⟩

theorem follows_rounds {σ : Type} {z : Zone} {step step' : σ → Reader (Option σ)}
    (h : ∀ s, Follows count ⟨z, false⟩ (fun _ => ⟨z, false⟩) (step s) (step' s)) (rest : Nat) (s : σ) :
    Follows count ⟨z, false⟩ (fun _ => ⟨z, false⟩) (rounds failure step rest s)
      (rounds failure step' rest s) := by
  induction rest generalizing s with
  | zero => exact follows_failure
  | succ rest ih =>
    refine (h s).bind fun next => ?_
    cases next with
    | none => exact follows_pure s
    | some t => exact ih t

theorem follows_repeating {σ : Type} {z : Zone} {step step' : σ → Reader (Option σ)}
    (h : ∀ s, Follows count ⟨z, false⟩ (fun _ => ⟨z, false⟩) (step s) (step' s)) (s : σ) :
    Follows count ⟨z, false⟩ (fun _ => ⟨z, false⟩) (repeating step s) (repeating step' s) :=
  follows_get fun i _ => (follows_rounds h (i.rest.length + 1) s).on

theorem follows_many {z : Zone} {item item' : Reader (Option α)}
    (h : Follows count ⟨z, false⟩ (fun _ => ⟨z, false⟩) item item') :
    Follows count ⟨z, false⟩ (fun _ => ⟨z, false⟩) (many item) (many item') := by
  refine (follows_repeating (fun found => ?_) []).bind fun found => follows_pure _
  exact h.bind fun next => follows_pure _

/-- Items between brackets. -/
theorem follows_itemsAfter {item item' : Reader α}
    (h : Follows count ⟨.inside, true⟩ (fun _ => ⟨.inside, false⟩) item item') (first : α)
    (ends : LexemeKind → Bool) :
    Follows count ⟨.inside, false⟩ (fun _ => ⟨.inside, false⟩) (itemsAfter first item ends)
      (itemsAfter first item' ends) := by
  refine (follows_repeating (fun found => ?_) ([first], false)).bind fun found => follows_pure _
  refine follows_accept rfl ?_ ?_
  · refine FollowsOn.ite nofun fun _ => follows_peek fun kind? => ?_
    exact FollowsOn.ite (fun _ => follows_idle _) fun _ => (h.bind fun one => follows_pure _).on
  · exact FollowsOn.ite (fun _ => follows_pure none) nofun

theorem follows_items {item item' : Reader α}
    (h : Follows count ⟨.inside, true⟩ (fun _ => ⟨.inside, false⟩) item item')
    (ends : LexemeKind → Bool) :
    Follows count ⟨.inside, true⟩ (fun _ => ⟨.inside, false⟩) (items item ends) (items item' ends) :=
  h.bind fun first => follows_itemsAfter h first ends

end ViewTree.Embedded
