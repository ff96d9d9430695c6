import ViewTree.Proofs.Capture.Group
import ViewTree.Proofs.Pasting.Formats
import ViewTree.Proofs.Scanning.Lexemes

/-!
Readers on the same lexemes elsewhere. Where an expression ends, a reader only has to see that it
ends, not what ends it. Main statement: a reader that mirrors another one, giving the same up to
places from the same lexemes with other things behind them, can be combined with others of the kind
(`Mirrors.bind`, `mirrors_repeating`).
-/
namespace ViewTree.Embedded
open Reader

def endsExpression : LexemeKind → Bool
  | .lineEnd => true
  | .symbol s => s = ")" || s = "," || s = ":"
  | _ => false

/-- Lexemes of the same kinds, wherever they stand. -/
abbrev Alike (ts us : List Lexeme) : Prop :=
  ts.map (·.kind.unplaced) = us.map (·.kind.unplaced)

def closesGroup : LexemeKind → Bool
  | .symbol s => isCloser s
  | _ => false

/-- Lexemes that are alike up to one that stands behind an expression, or that closes a group. Only if
they are `bare` may the former be the very first. -/
inductive Meets : Bool → List Lexeme → List Lexeme → Prop where
  | nil (bare : Bool) : Meets bare [] []
  | ends {t u ts us} (ht : endsExpression t.kind) (hu : endsExpression u.kind) :
      Meets true (t :: ts) (u :: us)
  | closes {bare t u ts us} (hkind : t.kind.unplaced = u.kind.unplaced) (ht : closesGroup t.kind) :
      Meets bare (t :: ts) (u :: us)
  | cons {bare t u ts us} (hkind : t.kind.unplaced = u.kind.unplaced) (h : Meets true ts us) :
      Meets bare (t :: ts) (u :: us)

namespace Meets
variable {bare : Bool} {ts us a b : List Lexeme}

theorem weaken (h : Meets bare ts us) : Meets true ts us := by
  cases h with
  | nil => exact .nil true
  | ends ht hu => exact .ends ht hu
  | closes hkind ht => exact .closes hkind ht
  | cons hkind h => exact .cons hkind h

theorem append (h : Meets bare ts us) (hab : Alike a b) : Meets bare (a ++ ts) (b ++ us) := by
  induction a generalizing b bare with
  | nil =>
    obtain rfl := List.map_eq_nil_iff.mp hab.symm
    exact h
  | cons t a ih =>
    obtain ⟨u, b, rfl, hkind, hrest⟩ := List.map_eq_cons_iff.mp hab.symm
    exact .cons hkind.symm (ih h.weaken hrest.symm)

theorem append_of_ne_nil (h : Meets true ts us) (hab : Alike a b) (ha : a ≠ []) :
    Meets bare (a ++ ts) (b ++ us) := by
  obtain ⟨t, a, rfl⟩ := List.exists_cons_of_ne_nil ha
  obtain ⟨u, b, rfl, hkind, hrest⟩ := List.map_eq_cons_iff.mp hab.symm
  exact .cons hkind.symm (h.append hrest.symm)

theorem of_alike (h : Alike ts us) : Meets bare ts us := by
  induction ts generalizing us bare with
  | nil =>
    obtain rfl := List.map_eq_nil_iff.mp h.symm
    exact .nil bare
  | cons t ts ih =>
    obtain ⟨u, us, rfl, hkind, hrest⟩ := List.map_eq_cons_iff.mp h.symm
    exact .cons hkind.symm (ih hrest.symm)

end Meets

/-- The next lexemes are alike, or both stand behind expressions. -/
inductive Heads : Bool → Option LexemeKind → Option LexemeKind → Prop where
  | same {bare a b} (h : a.map LexemeKind.unplaced = b.map LexemeKind.unplaced) : Heads bare a b
  | ends {k l} (hk : endsExpression k) (hl : endsExpression l) : Heads true (some k) (some l)

theorem Meets.heads {bare : Bool} {ts us : List Lexeme} (h : Meets bare ts us) :
    Heads bare (ts.head?.map (·.kind)) (us.head?.map (·.kind)) := by
  cases h with
  | nil => exact .same rfl
  | ends ht hu => exact .ends ht hu
  | closes hkind | cons hkind => exact .same (congrArg some hkind)

/-- Kinds of lexemes that know nothing of their place. -/
def isPlain : LexemeKind → Bool
  | .string _ => false
  | _ => true

theorem eq_of_unplaced {k l : LexemeKind} (hk : isPlain k) (h : k.unplaced = l.unplaced) :
    k = l := by
  cases k with
  | string s => nomatch hk
  | _ => cases l <;> first | exact h | exact absurd h nofun

/-- Lexemes that are looked for are seen in both places. -/
theorem Heads.eq_iff {bare : Bool} {a b : Option LexemeKind} (h : Heads bare a b) {k : LexemeKind}
    (hk : isPlain k) (hends : bare → ¬endsExpression k) : a = some k ↔ b = some k := by
  cases h with
  | same h =>
    constructor
    · rintro rfl
      obtain ⟨l, rfl, hl⟩ := Option.map_eq_some_iff.mp h.symm
      exact congrArg some (eq_of_unplaced hk hl.symm).symm
    · rintro rfl
      obtain ⟨l, rfl, hl⟩ := Option.map_eq_some_iff.mp h
      exact congrArg some (eq_of_unplaced hk hl.symm).symm
  | ends hfirst hsecond =>
    constructor
    · rintro h
      exact absurd (Option.some.inj h ▸ hfirst) (hends rfl)
    · rintro h
      exact absurd (Option.some.inj h ▸ hsecond) (hends rfl)

theorem cases_of_endsExpression {k : LexemeKind} (h : endsExpression k) :
    k = .lineEnd ∨ k = .symbol ")" ∨ k = .symbol "," ∨ k = .symbol ":" := by
  cases k <;> simp_all [endsExpression, or_assoc]

/-- The next lexemes are the same, two strings, or two that stand behind expressions. -/
theorem Heads.cases {bare : Bool} {a b : Option LexemeKind} (h : Heads bare a b) :
    a = b ∨ (∃ s s', s.unplaced = s'.unplaced ∧ a = some (.string s) ∧ b = some (.string s')) ∨
      bare = true ∧ ∃ k l, endsExpression k ∧ endsExpression l ∧ a = some k ∧ b = some l := by
  cases h with
  | ends hk hl => exact .inr (.inr ⟨rfl, _, _, hk, hl, rfl, rfl⟩)
  | same h =>
    cases a with
    | none => exact .inl (Option.map_eq_none_iff.mp h.symm).symm
    | some k =>
      obtain ⟨l, rfl, hl⟩ := Option.map_eq_some_iff.mp h.symm
      cases k with
      | string s =>
        cases l with
        | string s' => exact .inr (.inl ⟨s, s', (LexemeKind.string.inj hl).symm, rfl, rfl⟩)
        | _ => exact absurd hl nofun
      | _ => exact .inl (congrArg some (eq_of_unplaced rfl hl.symm))

/-- `r'` gives what `r` gives, up to what `f` forgets, from lexemes that are alike with others behind
them. Only with an `idle` result may `r` take none. -/
def Mirrors {α γ : Type} (bare : Bool) (idle : α → Prop) (f : α → γ) (r r' : Reader α) : Prop :=
  ∀ i x i', r i = some (x, i') →
    ∃ used, i.rest = used ++ i'.rest ∧ (used = [] → idle x) ∧
      ∀ j used' tail, j.rest = used' ++ tail → Alike used used' → Meets bare i'.rest tail →
        ∃ y last, r' j = some (y, ⟨tail, last⟩) ∧ f x = f y

variable {α β γ δ : Type} {bare : Bool} {idle : α → Prop} {idle' : β → Prop}
  {f : α → γ} {f' : β → δ} {r r' : Reader α} {k k' : α → Reader β}

theorem Mirrors.mono {idle₁ : α → Prop} (h : Mirrors bare idle f r r')
    (hidle : ∀ x, idle x → idle₁ x) : Mirrors bare idle₁ f r r' := by
  intro i x i' hr
  obtain ⟨used, hused, htaken, hmirror⟩ := h i x i' hr
  exact ⟨used, hused, fun hnone => hidle x (htaken hnone), hmirror⟩

/-- What a reader does with anything behind it, it does between brackets. -/
theorem Mirrors.within (h : Mirrors true idle f r r') : Mirrors bare idle f r r' := by
  intro i x i' hr
  obtain ⟨used, hused, htaken, hmirror⟩ := h i x i' hr
  exact ⟨used, hused, htaken, fun j used' tail hj halike hmeets =>
    hmirror j used' tail hj halike hmeets.weaken⟩

theorem mirrors_pure {x y : α} (h : f x = f y) (hx : idle x) :
    Mirrors bare idle f (pure x) (pure y) := by
  intro i z i' hr
  obtain ⟨rfl, rfl⟩ := Prod.mk.inj (Option.some.inj hr)
  refine ⟨[], rfl, fun _ => hx, fun j used' tail hj halike _ => ⟨y, j.last, ?_, h⟩⟩
  obtain rfl := List.map_eq_nil_iff.mp halike.symm
  obtain rfl : j.rest = tail := hj
  rfl

theorem mirrors_failure : Mirrors bare idle f failure r' := fun _ _ _ hr => nomatch hr

theorem mirrors_failure_bind {s : Reader β} :
    Mirrors bare idle' f' ((failure : Reader α) >>= k) s := fun _ _ _ hr => nomatch hr

/-- A reader and another one behind it. Between brackets the second has to take a lexeme, which then
stands behind those that the first takes. -/
theorem Mirrors.bind_of {bare₁ : Bool} {idle₁ : α → β → Prop} (h : Mirrors bare₁ idle f r r')
    (hk : ∀ x y, f x = f y → Mirrors bare (idle₁ x) f' (k x) (k' y))
    (hbare : bare₁ = bare ∨ bare₁ = true ∨ ∀ x z, ¬idle₁ x z)
    (hidle : ∀ x z, idle x → idle₁ x z → idle' z) :
    Mirrors bare idle' f' (r >>= k) (r' >>= k') := by
  intro i z i' hr
  obtain ⟨⟨x, j⟩, hrx, hkx⟩ := Option.bind_eq_some_iff.mp hr
  obtain ⟨a, ha, htaken, hmirror⟩ := h i x j hrx
  obtain ⟨b, hb, htaken', -⟩ := hk x x rfl j z i' hkx
  refine ⟨a ++ b, by rw [ha, hb, List.append_assoc], fun hnone => ?_, ?_⟩
  · obtain ⟨rfl, rfl⟩ := List.append_eq_nil_iff.mp hnone
    exact hidle x z (htaken rfl) (htaken' rfl)
  intro i₁ used' tail hi₁ halike hmeets
  obtain ⟨a', b', rfl, halike₁, halike₂⟩ :=
    List.map_eq_append_iff.mp (halike.symm.trans List.map_append)
  have hmiddle : Meets bare₁ j.rest (b' ++ tail) := by
    rw [hb]
    rcases hbare with rfl | rfl | hnever
    · exact hmeets.append halike₂.symm
    · exact (hmeets.append halike₂.symm).weaken
    · exact hmeets.weaken.append_of_ne_nil halike₂.symm fun hnone => hnever x z (htaken' hnone)
  obtain ⟨y, last, hy, hxy⟩ := hmirror i₁ a' (b' ++ tail) (by rw [hi₁, List.append_assoc])
    halike₁.symm hmiddle
  obtain ⟨b₁, hb₁, -, hmirror'⟩ := hk x y hxy j z i' hkx
  obtain rfl : b₁ = b := List.append_cancel_right (hb₁.symm.trans hb)
  obtain ⟨w, last', hw, hzw⟩ := hmirror' ⟨b' ++ tail, last⟩ b' tail rfl halike₂.symm hmeets
  exact ⟨w, last', Option.bind_eq_some_iff.mpr ⟨_, hy, hw⟩, hzw⟩

theorem Mirrors.bind (h : Mirrors bare idle f r r')
    (hk : ∀ x y, f x = f y → Mirrors bare idle' f' (k x) (k' y)) :
    Mirrors bare idle' f' (r >>= k) (r' >>= k') :=
  h.bind_of hk (.inl rfl) fun _ _ _ hz => hz

/-- What the first reader gives has no places. -/
theorem Mirrors.bind_id (h : Mirrors bare idle id r r')
    (hk : ∀ x, Mirrors bare (fun z => idle x → idle' z) f' (k x) (k' x)) :
    Mirrors bare idle' f' (r >>= k) (r' >>= k') := by
  have hsame (x y : α) (hxy : id x = id y) :
      Mirrors bare (fun z => idle x → idle' z) f' (k x) (k' y) := by
    obtain rfl : x = y := hxy
    exact hk x
  exact h.bind_of hsame (.inl rfl) fun _ _ hx hz => hz hx

/-- The first reader takes a lexeme. -/
theorem Mirrors.taking (h : Mirrors bare (fun _ => False) f r r')
    (hk : ∀ x y, f x = f y → Mirrors bare (fun _ => True) f' (k x) (k' y)) :
    Mirrors bare idle' f' (r >>= k) (r' >>= k') :=
  h.bind_of hk (.inl rfl) fun _ _ hx _ => hx.elim

/-- The first reader stays between brackets, and the second takes a lexeme. -/
theorem Mirrors.inside (h : Mirrors false idle f r r')
    (hk : ∀ x y, f x = f y → Mirrors bare (fun _ => False) f' (k x) (k' y)) :
    Mirrors bare idle' f' (r >>= k) (r' >>= k') :=
  h.bind_of hk (.inr (.inr fun _ _ hz => hz)) fun _ _ _ hz => hz.elim

/-- The same choice is made in both places. -/
theorem Mirrors.ite_of {p q : Prop} [Decidable p] [Decidable q] {s s' : Reader α} (hpq : p ↔ q)
    (hr : p → Mirrors bare idle f r r') (hs : ¬p → Mirrors bare idle f s s') :
    Mirrors bare idle f (if p then r else s) (if q then r' else s') := by
  by_cases hp : p
  · rw [if_pos hp, if_pos (hpq.mp hp)]
    exact hr hp
  · rw [if_neg hp, if_neg fun hq => hp (hpq.mpr hq)]
    exact hs hp

theorem Mirrors.ite {p : Prop} [Decidable p] {s s' : Reader α}
    (hr : p → Mirrors bare idle f r r') (hs : ¬p → Mirrors bare idle f s s') :
    Mirrors bare idle f (if p then r else s) (if p then r' else s') := .ite_of Iff.rfl hr hs

theorem mirrors_here {k k' : Nat → Reader β}
    (h : ∀ start start', Mirrors bare idle' f' (k start) (k' start')) :
    Mirrors bare idle' f' (here >>= k) (here >>= k') := by
  intro i x i' hr
  obtain ⟨used, hused, htaken, -⟩ := h _ 0 i x i' hr
  refine ⟨used, hused, htaken, fun j used' tail hj halike hmeets => ?_⟩
  obtain ⟨used₁, hused₁, -, hmirror⟩ := h _ (j.rest.head?.elim 0 (·.start)) i x i' hr
  obtain rfl : used₁ = used := List.append_cancel_right (hused₁.symm.trans hused)
  exact hmirror j used' tail hj halike hmeets

theorem mirrors_close {form form' : Form} (h : form.unplaced = form'.unplaced) (start start' : Nat) :
    Mirrors bare (fun _ => True) Term.unplaced (close start form) (close start' form') := by
  intro i x i' hr
  obtain ⟨rfl, rfl⟩ := Prod.mk.inj (Option.some.inj hr)
  refine ⟨[], rfl, fun _ => trivial, fun j used' tail hj halike _ => ?_⟩
  obtain rfl := List.map_eq_nil_iff.mp halike.symm
  obtain rfl : j.rest = tail := hj
  exact ⟨.mk start' j.last form', j.last, rfl, congrArg (Term.mk 0 0) h⟩

theorem mirrors_peek {k k' : Option LexemeKind → Reader β}
    (h : ∀ a b, Heads bare a b → Mirrors bare idle' f' (k a) (k' b)) :
    Mirrors bare idle' f' (peek >>= k) (peek >>= k') := by
  intro i x i' hr
  obtain ⟨used, hused, htaken, -⟩ := h _ _ (.same rfl) i x i' hr
  refine ⟨used, hused, htaken, fun j used' tail hj halike hmeets => ?_⟩
  have hheads : Heads bare (i.rest.head?.map (·.kind)) (j.rest.head?.map (·.kind)) := by
    rw [hused, hj]
    exact (hmeets.append halike).heads
  obtain ⟨used₁, hused₁, -, hmirror⟩ := h _ _ hheads i x i' hr
  obtain rfl : used₁ = used := List.append_cancel_right (hused₁.symm.trans hused)
  exact hmirror j used' tail hj halike hmeets

/-- What takes a lexeme does not see what stands behind it. -/
theorem mirrors_peek_taking {k k' : Option LexemeKind → Reader β}
    (h : ∀ a b, a.map LexemeKind.unplaced = b.map LexemeKind.unplaced →
      Mirrors bare (fun _ => False) f' (k a) (k' b)) :
    Mirrors bare idle' f' (peek >>= k) (peek >>= k') := by
  intro i x i' hr
  obtain ⟨used, hused, htaken, -⟩ := h _ _ rfl i x i' hr
  refine ⟨used, hused, fun hnone => (htaken hnone).elim, fun j used' tail hj halike hmeets => ?_⟩
  have hheads : (i.rest.head?.map (·.kind)).map LexemeKind.unplaced =
      (j.rest.head?.map (·.kind)).map LexemeKind.unplaced := by
    obtain ⟨t, used, rfl⟩ := List.exists_cons_of_ne_nil htaken
    obtain ⟨u, used', rfl, hkind, -⟩ := List.map_eq_cons_iff.mp halike.symm
    rw [hused, hj]
    exact congrArg some hkind.symm
  obtain ⟨used₁, hused₁, -, hmirror⟩ := h _ _ hheads i x i' hr
  obtain rfl : used₁ = used := List.append_cancel_right (hused₁.symm.trans hused)
  exact hmirror j used' tail hj halike hmeets

theorem mirrors_next : Mirrors bare (fun _ => False) LexemeKind.unplaced next next := by
  intro i x i' hr
  obtain ⟨t, ht, rfl⟩ := exists_of_next hr
  refine ⟨[t], ht, nofun, fun j used' tail hj halike _ => ?_⟩
  obtain ⟨u, used', rfl, hkind, hnone⟩ := List.map_eq_cons_iff.mp halike.symm
  obtain rfl := List.map_eq_nil_iff.mp hnone
  obtain ⟨rest, last⟩ := j
  obtain rfl : rest = u :: tail := hj
  exact ⟨u.kind, u.stop, rfl, hkind.symm⟩

theorem mirrors_expect {kind : LexemeKind} (hkind : isPlain kind) :
    Mirrors bare (fun _ => False) id (expect kind) (expect kind) := by
  refine mirrors_next.taking fun k l hkl => ?_
  have hiff : k = kind ↔ l = kind := by
    constructor
    · rintro rfl
      exact (eq_of_unplaced hkind hkl).symm
    · rintro rfl
      exact (eq_of_unplaced hkind hkl.symm).symm
  by_cases hk : k = kind
  · rw [if_pos hk, if_pos (hiff.mp hk)]
    exact mirrors_pure rfl trivial
  · rw [if_neg hk]
    exact mirrors_failure

theorem mirrors_symbol (text : String) :
    Mirrors bare (fun _ => False) id (symbol text) (symbol text) := mirrors_expect rfl

theorem mirrors_keyword (word : String) :
    Mirrors bare (fun _ => False) id (keyword word) (keyword word) := mirrors_expect rfl

theorem mirrors_name : Mirrors bare (fun _ => False) id name name := by
  refine mirrors_next.taking fun k l hkl => ?_
  cases k with
  | name id =>
    obtain rfl := eq_of_unplaced (k := .name id) rfl hkl
    exact mirrors_pure rfl trivial
  | _ => exact mirrors_failure

theorem accept_bind (kind : LexemeKind) (k : Bool → Reader β) :
    accept kind >>= k =
      peek >>= fun a => if a = some kind then next >>= fun _ => k true else k false := by
  unfold accept
  rw [bind_assoc]
  refine congrArg (peek >>= ·) (funext fun a => ?_)
  split
  · rw [bind_assoc]
    rfl
  · rfl

/-- A lexeme that may come next, and that stands behind no expression. -/
theorem mirrors_accept {kind : LexemeKind} {k k' : Bool → Reader β} (hkind : isPlain kind)
    (hends : bare → ¬endsExpression kind)
    (htaken : Mirrors bare (fun _ => True) f' (k true) (k' true))
    (hleft : Mirrors bare idle' f' (k false) (k' false)) :
    Mirrors bare idle' f' (accept kind >>= k) (accept kind >>= k') := by
  rw [accept_bind, accept_bind]
  refine mirrors_peek fun a b hab => ?_
  exact .ite_of (hab.eq_iff hkind hends) (fun _ => mirrors_next.taking fun _ _ _ => htaken)
    fun _ => hleft

/-- A lexeme that may come next, where one is taken anyway. -/
theorem mirrors_accept_taking {kind : LexemeKind} {k k' : Bool → Reader β} (hkind : isPlain kind)
    (htaken : Mirrors bare (fun _ => True) f' (k true) (k' true))
    (hleft : Mirrors bare (fun _ => False) f' (k false) (k' false)) :
    Mirrors bare idle' f' (accept kind >>= k) (accept kind >>= k') := by
  rw [accept_bind, accept_bind]
  refine mirrors_peek_taking fun a b hab => ?_
  have hheads : Heads false a b := .same hab
  exact .ite_of (hheads.eq_iff hkind nofun) (fun _ => mirrors_next.taking fun _ _ _ => htaken) fun _ => hleft

/-- `r'` gives what `r` gives, up to what `f` forgets, whatever stands behind: the last lexeme that `r`
takes closes a group. -/
def Seals {α γ : Type} (f : α → γ) (r r' : Reader α) : Prop :=
  ∀ i x i', r i = some (x, i') →
    ∃ used, i.rest = used ++ i'.rest ∧ used.getLast?.any (closesGroup ·.kind) ∧
      ∀ j used' tail, j.rest = used' ++ tail → Alike used used' →
        ∃ y last, r' j = some (y, ⟨tail, last⟩) ∧ f x = f y

theorem Meets.of_closes {ts us a b : List Lexeme} (hab : Alike a b)
    (ha : a.getLast?.any (closesGroup ·.kind)) : Meets bare (a ++ ts) (b ++ us) := by
  induction a generalizing b bare with
  | nil => nomatch ha
  | cons t a ih =>
    obtain ⟨u, b, rfl, hkind, hrest⟩ := List.map_eq_cons_iff.mp hab.symm
    cases a with
    | nil => exact .closes hkind.symm ha
    | cons t' a => exact .cons hkind.symm (ih hrest.symm ha)

theorem closes_append {a b : List Lexeme} (hb : b.getLast?.any (closesGroup ·.kind)) :
    (a ++ b).getLast?.any (closesGroup ·.kind) := by
  obtain ⟨t, ht, hcloses⟩ := (Option.any_eq_true _ _).mp hb
  rw [List.getLast?_append, ht]
  exact hcloses

theorem Seals.mirrors (h : Seals f r r') : Mirrors bare idle f r r' := by
  intro i x i' hr
  obtain ⟨used, hused, hcloses, hseals⟩ := h i x i' hr
  refine ⟨used, hused, ?_, fun j used' tail hj halike _ => hseals j used' tail hj halike⟩
  rintro rfl
  nomatch hcloses

/-- A reader that stays inside of the group that another one closes. -/
theorem Mirrors.seals (h : Mirrors false idle f r r')
    (hk : ∀ x y, f x = f y → Seals f' (k x) (k' y)) : Seals f' (r >>= k) (r' >>= k') := by
  intro i z i' hr
  obtain ⟨⟨x, j⟩, hrx, hkx⟩ := Option.bind_eq_some_iff.mp hr
  obtain ⟨a, ha, -, hmirror⟩ := h i x j hrx
  obtain ⟨b, hb, hcloses, -⟩ := hk x x rfl j z i' hkx
  refine ⟨a ++ b, by rw [ha, hb, List.append_assoc], closes_append hcloses, ?_⟩
  intro i₁ used' tail hi₁ halike
  obtain ⟨a', b', rfl, halike₁, halike₂⟩ :=
    List.map_eq_append_iff.mp (halike.symm.trans List.map_append)
  have hmiddle : Meets false j.rest (b' ++ tail) := hb ▸ .of_closes halike₂.symm hcloses
  obtain ⟨y, last, hy, hxy⟩ := hmirror i₁ a' (b' ++ tail) (by rw [hi₁, List.append_assoc])
    halike₁.symm hmiddle
  obtain ⟨b₁, hb₁, -, hseals⟩ := hk x y hxy j z i' hkx
  obtain rfl : b₁ = b := List.append_cancel_right (hb₁.symm.trans hb)
  obtain ⟨w, last', hw, hzw⟩ := hseals ⟨b' ++ tail, last⟩ b' tail rfl halike₂.symm
  exact ⟨w, last', Option.bind_eq_some_iff.mpr ⟨_, hy, hw⟩, hzw⟩

theorem exists_of_symbol {text : String} {i j : Input} (h : symbol text i = some ((), j)) :
    ∃ t, i.rest = t :: j.rest ∧ t.kind = .symbol text := by
  obtain ⟨⟨kind, m⟩, hnext, hexpected⟩ := Option.bind_eq_some_iff.mp h
  obtain ⟨t, ht, rfl⟩ := exists_of_next hnext
  by_cases hkind : t.kind = .symbol text
  · obtain ⟨-, rfl⟩ := Prod.mk.inj (Option.some.inj ((congrFun (if_pos hkind) m).symm.trans hexpected))
    exact ⟨t, ht, hkind⟩
  · nomatch (congrFun (if_neg hkind) m).symm.trans hexpected

/-- What closes a group, and what is made of it. -/
theorem seals_closing {text : String} (htext : isCloser text) {s s' : Reader β}
    (hs : ∀ i j : Input, ∃ x y last last', s i = some (x, ⟨i.rest, last⟩) ∧
      s' j = some (y, ⟨j.rest, last'⟩) ∧ f' x = f' y) :
    Seals f' (symbol text >>= fun _ => s) (symbol text >>= fun _ => s') := by
  intro i z i' hr
  obtain ⟨⟨⟨⟩, ⟨rest, m⟩⟩, hsymbol, hz⟩ := Option.bind_eq_some_iff.mp hr
  obtain ⟨t, ht, hkind⟩ := exists_of_symbol hsymbol
  obtain ⟨x, -, last, -, hx, -⟩ := hs ⟨rest, m⟩ i
  obtain ⟨rfl, rfl⟩ := Prod.mk.inj (Option.some.inj (hx.symm.trans hz))
  refine ⟨[t], ht, by simpa [hkind, closesGroup] using htext, fun j used' tail hj halike => ?_⟩
  obtain ⟨u, used', rfl, hu, hnone⟩ := List.map_eq_cons_iff.mp halike.symm
  obtain rfl := List.map_eq_nil_iff.mp hnone
  obtain ⟨rest', last'⟩ := j
  obtain rfl : rest' = u :: tail := hj
  have hsame : u.kind = .symbol text := (eq_of_unplaced (by rw [hkind]; rfl) hu.symm).symm.trans hkind
  obtain ⟨x', y, last₁, last₂, hx', hy, hxy⟩ := hs ⟨rest, m⟩ ⟨tail, u.stop⟩
  obtain ⟨rfl, -⟩ := Prod.mk.inj (Option.some.inj (hx'.symm.trans hx))
  exact ⟨y, last₂, Option.bind_eq_some_iff.mpr ⟨_, symbol_eq hsame tail last', hy⟩, hxy⟩

/-- What takes a lexeme may look at the next one. -/
theorem seals_peek {k k' : Option LexemeKind → Reader β}
    (h : ∀ a b, a.map LexemeKind.unplaced = b.map LexemeKind.unplaced → Seals f' (k a) (k' b)) :
    Seals f' (peek >>= k) (peek >>= k') := by
  intro i x i' hr
  obtain ⟨used, hused, hcloses, -⟩ := h _ _ rfl i x i' hr
  refine ⟨used, hused, hcloses, fun j used' tail hj halike => ?_⟩
  have hheads : (i.rest.head?.map (·.kind)).map LexemeKind.unplaced =
      (j.rest.head?.map (·.kind)).map LexemeKind.unplaced := by
    obtain ⟨t, used, rfl⟩ := List.exists_cons_of_ne_nil (l := used) (by rintro rfl; nomatch hcloses)
    obtain ⟨u, used', rfl, hkind, -⟩ := List.map_eq_cons_iff.mp halike.symm
    rw [hused, hj]
    exact congrArg some hkind.symm
  obtain ⟨used₁, hused₁, -, hseals⟩ := h _ _ hheads i x i' hr
  obtain rfl : used₁ = used := List.append_cancel_right (hused₁.symm.trans hused)
  exact hseals j used' tail hj halike

/-- What gives nothing behind its first part gives nothing. -/
theorem seals_bind_failure {s : Reader β} : Seals f' (r >>= fun _ => failure) s := by
  intro i x i' hr
  obtain ⟨y, -, hy⟩ := Option.bind_eq_some_iff.mp hr
  nomatch hy

/-- What may close the group at once. -/
theorem seals_accept {text : String} (htext : isCloser text) {k k' : Bool → Reader β}
    (hs : ∀ i j : Input, ∃ x y last last', k true i = some (x, ⟨i.rest, last⟩) ∧
      k' true j = some (y, ⟨j.rest, last'⟩) ∧ f' x = f' y)
    (h : Seals f' (k false) (k' false)) :
    Seals f' (accept (.symbol text) >>= k) (accept (.symbol text) >>= k') := by
  have hclosed : Seals f' (symbol text >>= fun _ => k true) (symbol text >>= fun _ => k' true) :=
    seals_closing htext hs
  have haccepted {k : Bool → Reader β} {t : Lexeme} (ht : t.kind = .symbol text) (rest : List Lexeme)
      (last : Nat) : (accept (.symbol text) >>= k) ⟨t :: rest, last⟩ =
        (symbol text >>= fun _ => k true) ⟨t :: rest, last⟩ := by
    rw [bind_eq (accept_eq ht rest last), bind_eq (symbol_eq ht rest last)]
  intro i z i' hr
  by_cases hi : Next (some (.symbol text)) i
  · obtain ⟨rest, last⟩ := i
    obtain ⟨t, j, ht, hkind, -⟩ := accept_of_next hi
    obtain rfl : rest = t :: j.rest := ht
    obtain ⟨used, hused, hcloses, hseals⟩ := hclosed _ z i' ((haccepted hkind _ _).symm.trans hr)
    refine ⟨used, hused, hcloses, fun m used' tail hm halike => ?_⟩
    obtain ⟨t', used, rfl⟩ := List.exists_cons_of_ne_nil (l := used) (by rintro rfl; nomatch hcloses)
    obtain ⟨rfl, -⟩ := List.cons.inj hused
    obtain ⟨u, used', rfl, hu, hrest⟩ := List.map_eq_cons_iff.mp halike.symm
    obtain ⟨rest', last'⟩ := m
    obtain rfl : rest' = u :: (used' ++ tail) := hm
    have hsame : u.kind = .symbol text := (eq_of_unplaced (by rw [hkind]; rfl) hu.symm).symm.trans hkind
    rw [haccepted hsame]
    exact hseals _ (u :: used') tail rfl halike
  · rw [bind_eq (accept_of_not hi)] at hr
    obtain ⟨used, hused, hcloses, hseals⟩ := h i z i' hr
    refine ⟨used, hused, hcloses, fun m used' tail hm halike => ?_⟩
    have hother : ¬Next (some (.symbol text)) m := by
      intro hnext
      have hheads : Heads false (i.rest.head?.map (·.kind)) (m.rest.head?.map (·.kind)) := by
        rw [hused, hm]
        exact (Meets.of_closes halike hcloses).heads
      exact hi ((hheads.eq_iff rfl nofun).mpr hnext)
    rw [bind_eq (accept_of_not hother)]
    exact hseals m used' tail hm halike

theorem Seals.ite_of {p q : Prop} [Decidable p] [Decidable q] {s s' : Reader α} (hpq : p ↔ q)
    (hr : p → Seals f r r') (hs : ¬p → Seals f s s') :
    Seals f (if p then r else s) (if q then r' else s') := by
  by_cases hp : p
  · rw [if_pos hp, if_pos (hpq.mp hp)]
    exact hr hp
  · rw [if_neg hp, if_neg fun hq => hp (hpq.mpr hq)]
    exact hs hp

section
variable {σ τ : Type} {g : σ → τ} {step step' : σ → Reader (Option σ)}

/-- A loop has as many rounds in one place as in the other, since no round that goes on takes
nothing. -/
theorem mirrors_rounds
    (h : ∀ s s', g s = g s' → Mirrors bare (· = none) (Option.map g) (step s) (step' s'))
    (count : Nat) {s s' : σ} (hs : g s = g s') {i i' : Input} {x : σ}
    (hr : rounds failure step count s i = some (x, i')) :
    ∃ used, i.rest = used ++ i'.rest ∧
      ∀ count' j used' tail, used.length < count' → j.rest = used' ++ tail → Alike used used' →
        Meets bare i'.rest tail →
        ∃ y last, rounds failure step' count' s' j = some (y, ⟨tail, last⟩) ∧ g x = g y := by
  induction count generalizing s s' i with
  | zero => nomatch hr
  | succ count ih =>
    obtain ⟨⟨next?, m⟩, hstep, hrest⟩ := Option.bind_eq_some_iff.mp hr
    obtain ⟨a, ha, htaken, hmirror⟩ := h s s' hs i next? m hstep
    cases next? with
    | none =>
      obtain ⟨rfl, rfl⟩ := Prod.mk.inj (Option.some.inj hrest)
      refine ⟨a, ha, fun count' j used' tail hcount hj halike hmeets => ?_⟩
      obtain ⟨count', rfl⟩ := Nat.exists_eq_add_one_of_ne_zero (Nat.ne_zero_of_lt hcount)
      obtain ⟨next?, last, hstep', hnext⟩ := hmirror j used' tail hj halike hmeets
      obtain rfl := Option.map_eq_none_iff.mp hnext.symm
      exact ⟨s', last, Option.bind_eq_some_iff.mpr ⟨_, hstep', rfl⟩, hs⟩
    | some t =>
      obtain ⟨b, hb, -⟩ := ih (s := t) rfl hrest
      refine ⟨a ++ b, by rw [ha, hb, List.append_assoc], ?_⟩
      intro count' j used' tail hcount hj halike hmeets
      obtain ⟨count', rfl⟩ := Nat.exists_eq_add_one_of_ne_zero (Nat.ne_zero_of_lt hcount)
      obtain ⟨a', b', rfl, ha', hb'⟩ := List.map_eq_append_iff.mp (halike.symm.trans List.map_append)
      obtain ⟨next?, last, hstep', hnext⟩ := hmirror j a' (b' ++ tail) (by rw [hj, List.append_assoc])
        ha'.symm (hb ▸ hmeets.append hb'.symm)
      obtain ⟨t', rfl, ht⟩ := Option.map_eq_some_iff.mp hnext.symm
      obtain ⟨b₁, hb₁, hlater⟩ := ih ht.symm hrest
      obtain rfl : b₁ = b := List.append_cancel_right (hb₁.symm.trans hb)
      have hpos : 0 < a.length := List.length_pos_iff.mpr fun hnone => nomatch htaken hnone
      rw [List.length_append] at hcount
      obtain ⟨y, last', hrounds, hxy⟩ := hlater count' ⟨b' ++ tail, last⟩ b' tail (by omega) rfl
        hb'.symm hmeets
      exact ⟨y, last', Option.bind_eq_some_iff.mpr ⟨_, hstep', hrounds⟩, hxy⟩

theorem mirrors_repeating
    (h : ∀ s s', g s = g s' → Mirrors bare (· = none) (Option.map g) (step s) (step' s'))
    {s s' : σ} (hs : g s = g s') :
    Mirrors bare (fun _ => True) g (repeating step s) (repeating step' s') := by
  intro i x i' hr
  obtain ⟨used, hused, hmirror⟩ := mirrors_rounds h (i.rest.length + 1) hs hr
  refine ⟨used, hused, fun _ => trivial, fun j used' tail hj halike hmeets => ?_⟩
  have hlength : used.length = used'.length := by simpa using congrArg List.length halike
  refine hmirror (j.rest.length + 1) j used' tail ?_ hj halike hmeets
  rw [hj, List.length_append]
  omega

end

theorem mirrors_many {item item' : Reader (Option α)}
    (h : Mirrors bare (· = none) (Option.map f) item item') :
    Mirrors bare (fun _ => True) (List.map f) (many item) (many item') := by
  have hstep (found found' : List α) (hfound : found.map f = found'.map f) :
      Mirrors bare (· = none) (Option.map (List.map f)) (do pure ((← item).map (· :: found)))
        (do pure ((← item').map (· :: found'))) := by
    have hnext (x y : Option α) (hxy : x.map f = y.map f) :
        Mirrors bare (fun z => x = none → z = none) (Option.map (List.map f))
          (pure (x.map (· :: found))) (pure (y.map (· :: found'))) := by
      refine mirrors_pure ?_ fun hx => hx ▸ rfl
      cases x with
      | none =>
        obtain rfl := Option.map_eq_none_iff.mp hxy.symm
        rfl
      | some x =>
        obtain ⟨y, rfl, hy⟩ := Option.map_eq_some_iff.mp hxy.symm
        simp [hy, hfound]
    exact h.bind_of hnext (.inl rfl) fun x z hx hz => hz hx
  refine (mirrors_repeating hstep rfl).bind fun found found' hfound => mirrors_pure ?_ trivial
  rw [List.map_reverse, List.map_reverse, hfound]

theorem Heads.all_eq {a b : Option LexemeKind} (h : Heads false a b) {ends : LexemeKind → Bool}
    (hends : ∀ k l, k.unplaced = l.unplaced → ends k = ends l) : a.all ends = b.all ends := by
  cases h with
  | same h =>
    cases a with
    | none =>
      obtain rfl := Option.map_eq_none_iff.mp h.symm
      rfl
    | some k =>
      obtain ⟨l, rfl, hl⟩ := Option.map_eq_some_iff.mp h.symm
      exact hends k l hl.symm

/-- Items without their places, and whether there was a comma. -/
def unplacedItems (f : α → γ) (found : List α × Bool) : List γ × Bool := (found.1.map f, found.2)

theorem endsItems_congr {k l : LexemeKind} (h : k.unplaced = l.unplaced) :
    endsItems k = endsItems l := by
  cases k with
  | string s => cases l <;> first | rfl | exact absurd h nofun
  | _ => rw [eq_of_unplaced (by rfl) h]

theorem mirrors_itemsAfter {item item' : Reader α} (h : Mirrors false (fun _ => True) f item item')
    {ends : LexemeKind → Bool} (hends : ∀ k l, k.unplaced = l.unplaced → ends k = ends l) {first first' : α}
    (hfirst : f first = f first') :
    Mirrors false (fun _ => True) (unplacedItems f) (itemsAfter first item ends)
      (itemsAfter first' item' ends) := by
  have hstep (found found' : List α × Bool) (hfound : unplacedItems f found = unplacedItems f found') :
      Mirrors false (· = none) (Option.map (unplacedItems f))
        (do
          if !(← accept (.symbol ",")) then pure none
          else if (← peek).all ends then pure (some (found.1, true))
          else pure (some ((← item) :: found.1, true)))
        (do
          if !(← accept (.symbol ",")) then pure none
          else if (← peek).all ends then pure (some (found'.1, true))
          else pure (some ((← item') :: found'.1, true))) := by
    obtain ⟨hlist, -⟩ := Prod.mk.inj hfound
    refine mirrors_accept rfl nofun ?_ (mirrors_pure rfl rfl)
    refine mirrors_peek fun a b hab => ?_
    rw [hab.all_eq hends]
    refine Mirrors.ite (fun _ => mirrors_pure ?_ trivial) fun _ => ?_
    · simp [unplacedItems, hlist]
    · refine h.bind fun x y hxy => mirrors_pure ?_ trivial
      simp [unplacedItems, hlist, hxy]
  refine (mirrors_repeating hstep ?_).bind fun found found' hfound => mirrors_pure ?_ trivial
  · simp [unplacedItems, hfirst]
  · obtain ⟨hlist, hcommas⟩ := Prod.mk.inj hfound
    simp [unplacedItems, hlist, hcommas]

theorem mirrors_items {item item' : Reader α} (h : Mirrors false (fun _ => True) f item item')
    {ends : LexemeKind → Bool} (hends : ∀ k l, k.unplaced = l.unplaced → ends k = ends l) :
    Mirrors false (fun _ => True) (unplacedItems f) (items item ends) (items item' ends) :=
  h.bind fun _ _ hfirst => mirrors_itemsAfter h hends hfirst

/-- The next two lexemes are alike, but that the first or the second may stand behind an
expression, and that the second may be anything if the first closes a group. -/
inductive Pairs : Bool → Option LexemeKind → Option LexemeKind → Option LexemeKind →
    Option LexemeKind → Prop where
  | ends {k l a b} (hk : endsExpression k) (hl : endsExpression l) :
      Pairs true (some k) a (some l) b
  | closes {bare k l a b} (hkind : k.unplaced = l.unplaced) (hk : closesGroup k) :
      Pairs bare (some k) a (some l) b
  | same {bare a a₂ b b₂} (h : a.map LexemeKind.unplaced = b.map LexemeKind.unplaced)
      (h₂ : Heads true a₂ b₂) : Pairs bare a a₂ b b₂

theorem Meets.pairs {bare : Bool} {ts us : List Lexeme} (h : Meets bare ts us) :
    Pairs bare (ts.head?.map (·.kind)) (ts[1]?.map (·.kind)) (us.head?.map (·.kind))
      (us[1]?.map (·.kind)) := by
  cases h with
  | nil => exact .same rfl (.same rfl)
  | ends ht hu => exact .ends ht hu
  | closes hkind ht => exact .closes hkind ht
  | @cons _ t u ts us hkind h =>
    refine .same (congrArg some hkind) ?_
    rw [List.getElem?_cons_succ, List.getElem?_cons_succ, ← List.head?_eq_getElem?,
      ← List.head?_eq_getElem?]
    exact h.heads

theorem mirrors_pair {k k' : Option LexemeKind → Option LexemeKind → Reader β}
    (h : ∀ a a₂ b b₂, Pairs bare a a₂ b b₂ → Mirrors bare idle' f' (k a a₂) (k' b b₂)) :
    Mirrors bare idle' f' (do k (← peek) (← peekSecond)) (do k' (← peek) (← peekSecond)) := by
  intro i x i' hr
  obtain ⟨used, hused, htaken, -⟩ := h _ _ _ _ (.same rfl (.same rfl)) i x i' hr
  refine ⟨used, hused, htaken, fun j used' tail hj halike hmeets => ?_⟩
  have hpairs := (hmeets.append halike).pairs
  rw [← hused, ← hj] at hpairs
  obtain ⟨used₁, hused₁, -, hmirror⟩ := h _ _ _ _ hpairs i x i' hr
  obtain rfl : used₁ = used := List.append_cancel_right (hused₁.symm.trans hused)
  exact hmirror j used' tail hj halike hmeets

end ViewTree.Embedded
