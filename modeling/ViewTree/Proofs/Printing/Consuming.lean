import Mathlib
import ViewTree.Embedded.Printer
import ViewTree.Proofs.Pasting.Paths

/-!
Readers on lexemes whose kinds are known. A reader consumes such kinds if it reads the lexemes, wherever
they are, in front of any lexeme that may stand behind them. Main statements: readers one after the
other consume what both consume (`Consumes.bind`), and loops consume what their rounds consume
(`Rounds.consumes_repeating`, `consumes_many`, `consumes_items`).
-/
namespace ViewTree.Embedded
open Reader

variable {α β γ δ σ ε : Type}

def symbolRanks : List (String × Level) :=
  [(",", 1), (":", 3), ("==", 8), ("!=", 8), ("<", 8), ("<=", 8), (">", 8), (">=", 8), ("|", 9),
   ("^", 10), ("&", 11), ("<<", 12), (">>", 12), ("+", 13), ("-", 13), ("*", 14), ("/", 14), ("//", 14),
   ("%", 14), ("@", 14), ("**", 16), (".", 18), ("(", 18), ("[", 18), ("=", 20), (":=", 20)]

def keywordRanks : List (String × Level) :=
  [("for", 2), ("async", 2), ("if", 4), ("or", 5), ("and", 6), ("in", 8), ("not", 8), ("is", 8), ("as", 8)]

/-- How tightly a lexeme is bound to what stands in front of it: the tightest level at which a reader
goes on with it. -/
def rank : LexemeKind → Level
  | .symbol s => (symbolRanks.lookup s).getD 0
  | .keyword word => (keywordRanks.lookup word).getD 0
  | .string _ => 19
  | _ => 0

/-- Kinds that a reader of level `n` does not go on with. -/
abbrev Under (n : Level) (k : LexemeKind) : Prop := rank k < n

abbrev Any (_ : LexemeKind) : Prop := True

theorem rank_unplaced (k : LexemeKind) : rank k.unplaced = rank k := by cases k <;> rfl

theorem ne_of_rank_lt {k l : LexemeKind} {n : Level} (hk : rank k < n) (hl : n ≤ rank l) : k ≠ l := by
  rintro rfl
  exact Nat.not_lt.mpr hl hk

abbrev kindsOf (ts : List Lexeme) : List LexemeKind := ts.map (·.kind.unplaced)

/-- From lexemes of the kinds, in front of one that may stand behind, the reader gives the value, up to
what `f` forgets, and takes no more of them. -/
def Consumes (f : α → γ) (B : LexemeKind → Prop) (r : Reader α) (kinds : List LexemeKind) (y : γ) : Prop :=
  ∀ ts t tail last, kindsOf ts = kinds → B t.kind → ∃ x last',
    r ⟨ts ++ t :: tail, last⟩ = some (x, ⟨t :: tail, last'⟩) ∧ f x = y

/-- The next kind has the property, also if it is one behind. -/
def Begins (B : LexemeKind → Prop) (kinds : List LexemeKind) (P : LexemeKind → Prop) : Prop :=
  match kinds with
  | [] => ∀ k, B k → P k
  | l :: _ => ∀ k, k.unplaced = l → P k

section
variable {B P Q : LexemeKind → Prop} {n m : Level} {ks ls : List LexemeKind} {l : LexemeKind}

theorem Begins.imp (h : Begins B ks P) (hPQ : ∀ k, P k → Q k) : Begins B ks Q := by
  cases ks with
  | nil => exact fun k hk => hPQ k (h k hk)
  | cons l ks => exact fun k hk => hPQ k (h k hk)

theorem begins_any : Begins B ks Any := by
  cases ks <;> exact fun _ _ => trivial

theorem begins_plain (hl : isPlain l) (h : P l) : Begins B (l :: ks) P := by
  intro k hk
  have hsame : l.unplaced = l := by cases l <;> first | rfl | cases hl
  exact eq_of_unplaced hl (hsame.trans hk.symm) ▸ h

theorem begins_under (h : rank l < m) : Begins B (l :: ks) (Under m) := by
  intro k hk
  rw [Under, ← rank_unplaced, hk]
  exact h

theorem under_of_le (h : n ≤ m) : ∀ k, Under n k → Under m k := fun _ hk => Nat.lt_of_lt_of_le hk h

theorem Begins.exists_next (h : Begins B ks P) {ts : List Lexeme} {t : Lexeme}
    (hts : kindsOf ts = ks) (ht : B t.kind) (tail : List Lexeme) :
    ∃ u us, ts ++ t :: tail = u :: us ∧ P u.kind := by
  cases ts with
  | nil =>
    obtain rfl : [] = ks := hts
    exact ⟨t, tail, rfl, h t.kind ht⟩
  | cons u us =>
    obtain rfl : u.kind.unplaced :: kindsOf us = ks := hts
    exact ⟨u, us ++ t :: tail, rfl, h u.kind rfl⟩

theorem Begins.elsewhere {B C : LexemeKind → Prop} {ks : List LexemeKind} {P : LexemeKind → Prop}
    (h : Begins B ks P) (hks : ks ≠ []) : Begins C ks P := by
  cases ks with
  | nil => exact absurd rfl hks
  | cons k ks => exact h

theorem Begins.append (h : Begins B ks P) (hks : ks ≠ []) : Begins B (ks ++ ls) P := by
  cases ks with
  | nil => exact absurd rfl hks
  | cons k ks => exact h

end

section
variable {f : α → γ} {f' : β → δ} {B C P : LexemeKind → Prop} {r : Reader α} {k : α → Reader β}
  {ks ls : List LexemeKind} {y : γ} {z : δ} {l : LexemeKind}

theorem Consumes.mono (h : Consumes f B r ks y) (hC : ∀ k, C k → B k) : Consumes f C r ks y :=
  fun ts t tail last hts ht => h ts t tail last hts (hC _ ht)

theorem Consumes.bind (h : Consumes f B r ks y) (hnext : Begins C ls B)
    (hk : ∀ x, f x = y → Consumes f' C (k x) ls z) : Consumes f' C (r >>= k) (ks ++ ls) z := by
  intro ts t tail last hts ht
  obtain ⟨as, bs, rfl, has, hbs⟩ := List.map_eq_append_iff.mp hts
  obtain ⟨u, us, hu, hbehind⟩ := hnext.exists_next hbs ht tail
  obtain ⟨x, last', hx, hy⟩ := h as u us last has hbehind
  obtain ⟨w, last'', hw, hz⟩ := hk x hy bs t tail last' hbs ht
  refine ⟨w, last'', ?_, hz⟩
  rw [List.append_assoc, hu, bind_eq hx, ← hu]
  exact hw

/-- The second reader takes nothing. -/
theorem Consumes.bind_nil (h : Consumes f B r ks y) (hk : ∀ x, f x = y → Consumes f' B (k x) [] z) :
    Consumes f' B (r >>= k) ks z := by
  rw [← List.append_nil ks]
  exact h.bind (fun _ hk => hk) hk

/-- The first reader takes nothing. -/
theorem Consumes.nil_bind (h : Consumes f B r [] y) (hnext : Begins C ls B)
    (hk : ∀ x, f x = y → Consumes f' C (k x) ls z) : Consumes f' C (r >>= k) ls z :=
  h.bind hnext hk

theorem consumes_pure {x : α} (h : f x = y) : Consumes f B (pure x) [] y := by
  intro ts t tail last hts ht
  obtain rfl := List.map_eq_nil_iff.mp hts
  exact ⟨x, last, rfl, h⟩

theorem consumes_close {form f : Form} (h : form.unplaced = f) (start : Nat) :
    Consumes Term.unplaced B (close start form) [] (.mk 0 0 f) := by
  intro ts t tail last hts ht
  obtain rfl := List.map_eq_nil_iff.mp hts
  exact ⟨_, last, rfl, congrArg (Term.mk 0 0) h⟩

theorem consumes_here {k : Nat → Reader β} (h : ∀ start, Consumes f' B (k start) ks z) :
    Consumes f' B (here >>= k) ks z := by
  intro ts t tail last hts ht
  rw [bind_eq (here_eq _)]
  exact h _ ts t tail last hts ht

theorem consumes_peek {k : Option LexemeKind → Reader β} (hnext : Begins B ks P)
    (h : ∀ kind, P kind → Consumes f' B (k (some kind)) ks z) :
    Consumes f' B (peek >>= k) ks z := by
  intro ts t tail last hts ht
  obtain ⟨u, us, hu, hkind⟩ := hnext.exists_next hts ht tail
  obtain ⟨x, last', hx, hz⟩ := h u.kind hkind ts t tail last hts ht
  have hpeek : peek ⟨ts ++ t :: tail, last⟩ = some (some u.kind, ⟨ts ++ t :: tail, last⟩) := by
    rw [hu]
    rfl
  exact ⟨x, last', (bind_eq hpeek).trans hx, hz⟩

theorem consumes_peek_plain {k : Option LexemeKind → Reader β} (hl : isPlain l)
    (h : Consumes f' B (k (some l)) (l :: ks) z) : Consumes f' B (peek >>= k) (l :: ks) z := by
  refine consumes_peek (begins_plain (P := (· = l)) hl rfl) ?_
  rintro _ rfl
  exact h

/-- Looks at the next two kinds, of which only that behind a name is known. -/
theorem consumes_peekTwo {r : Option LexemeKind → Option LexemeKind → Reader β}
    (hname : ∀ id, l = .name id → Begins B ks P)
    (h : ∀ first second, (∀ id, first = .name id → ∃ next, second = some next ∧ P next) →
      Consumes f' B (r (some first) second) (l :: ks) z) :
    Consumes f' B (do r (← peek) (← peekSecond)) (l :: ks) z := by
  intro ts t tail last hts ht
  obtain ⟨u, us, rfl, hu, hus⟩ := List.map_eq_cons_iff.mp hts
  have hsecond (id : String) (hid : u.kind = .name id) :
      ∃ next, (us ++ t :: tail)[0]?.map (·.kind) = some next ∧ P next := by
    rw [hid] at hu
    obtain ⟨v, vs, hv, hP⟩ := (hname id hu.symm).exists_next hus ht tail
    exact ⟨v.kind, by rw [hv]; rfl, hP⟩
  obtain ⟨x, last', hx, hz⟩ := h u.kind _ hsecond (u :: us) t tail last hts ht
  refine ⟨x, last', ?_, hz⟩
  rw [bind_eq (peek_of_next rfl), bind_eq (peekSecond_eq _)]
  exact hx

theorem consumes_peekTwo_plain {r : Option LexemeKind → Option LexemeKind → Reader β} {m : LexemeKind}
    (hl : isPlain l) (hm : isPlain m) (h : Consumes f' B (r (some l) (some m)) (l :: m :: ks) z) :
    Consumes f' B (do r (← peek) (← peekSecond)) (l :: m :: ks) z := by
  intro ts t tail last hts ht
  have hsame {k : LexemeKind} (hk : isPlain k) : k.unplaced = k := by cases k <;> first | rfl | cases hk
  obtain ⟨x, last', hx, hz⟩ := h ts t tail last hts ht
  obtain ⟨u, us, rfl, hu, hus⟩ := List.map_eq_cons_iff.mp hts
  obtain ⟨v, vs, rfl, hv, -⟩ := List.map_eq_cons_iff.mp hus
  obtain rfl := eq_of_unplaced hl ((hsame hl).trans hu.symm)
  obtain rfl := eq_of_unplaced hm ((hsame hm).trans hv.symm)
  refine ⟨x, last', ?_, hz⟩
  rw [bind_eq (peek_of_next rfl), bind_eq (peekSecond_eq _)]
  exact hx

theorem consumes_next {k : LexemeKind → Reader β}
    (h : ∀ kind, kind.unplaced = l → Consumes f' B (k kind) ks z) :
    Consumes f' B (next >>= k) (l :: ks) z := by
  intro ts t tail last hts ht
  obtain ⟨u, us, rfl, hu, hus⟩ := List.map_eq_cons_iff.mp hts
  exact h u.kind hu us t tail u.stop hus ht

/-- A lexeme that knows nothing of its place is taken. -/
theorem consumes_take (hl : isPlain l) {k : LexemeKind → Reader β} (h : Consumes f' B (k l) ks z) :
    Consumes f' B (next >>= k) (l :: ks) z := by
  have hsame : l.unplaced = l := by cases l <;> first | rfl | cases hl
  exact consumes_next fun kind hkind => eq_of_unplaced hl (hsame.trans hkind.symm) ▸ h

theorem consumes_expect (hl : isPlain l) {k : Unit → Reader β} (h : Consumes f' B (k ()) ks z) :
    Consumes f' B (expect l >>= k) (l :: ks) z := by
  unfold expect
  rw [bind_assoc]
  refine consumes_take hl ?_
  rw [if_pos rfl]
  exact h

theorem consumes_symbol {text : String} {k : Unit → Reader β} (h : Consumes f' B (k ()) ks z) :
    Consumes f' B (symbol text >>= k) (.symbol text :: ks) z := consumes_expect rfl h

theorem consumes_keyword {word : String} {k : Unit → Reader β} (h : Consumes f' B (k ()) ks z) :
    Consumes f' B (keyword word >>= k) (.keyword word :: ks) z := consumes_expect rfl h

theorem consumes_accept (hl : isPlain l) {k : Bool → Reader β} (h : Consumes f' B (k true) ks z) :
    Consumes f' B (accept l >>= k) (l :: ks) z := by
  rw [accept_bind]
  refine consumes_peek (begins_plain (P := (· = l)) hl rfl) fun kind hkind => ?_
  rw [if_pos (congrArg some hkind)]
  exact consumes_next fun _ _ => h

theorem consumes_accept_other {k : Bool → Reader β} (hnext : Begins B ks (· ≠ l))
    (h : Consumes f' B (k false) ks z) : Consumes f' B (accept l >>= k) ks z := by
  rw [accept_bind]
  refine consumes_peek hnext fun kind hkind => ?_
  rw [if_neg fun hsame => hkind (Option.some.inj hsame)]
  exact h

theorem consumes_name {id : String} {k : String → Reader β} (h : Consumes f' B (k id) ks z) :
    Consumes f' B (name >>= k) (.name id :: ks) z := by
  unfold name
  rw [bind_assoc]
  exact consumes_take rfl h

theorem consumes_ite_pos {p : Prop} [Decidable p] {r s : Reader α} (hp : p) (h : Consumes f B r ks y) :
    Consumes f B (if p then r else s) ks y := by rwa [if_pos hp]

theorem consumes_ite_neg {p : Prop} [Decidable p] {r s : Reader α} (hp : ¬p) (h : Consumes f B s ks y) :
    Consumes f B (if p then r else s) ks y := by rwa [if_neg hp]

theorem consumes_when {r s : Reader β} (hl : isPlain l) (h : Consumes f' B r ks z) :
    Consumes f' B (do if ← accept l then r else s) (l :: ks) z :=
  consumes_accept hl (consumes_ite_pos rfl h)

theorem consumes_unless {r s : Reader β} (hnext : Begins B ks (· ≠ l)) (h : Consumes f' B s ks z) :
    Consumes f' B (do if ← accept l then r else s) ks z :=
  consumes_accept_other hnext (consumes_ite_neg Bool.false_ne_true h)

end

/-- Rounds of a step: what they take, and the values before and behind them. The last round takes
nothing and ends the loop. -/
inductive Rounds (f : σ → γ) (B : LexemeKind → Prop) (step : σ → Reader (Option σ)) :
    List LexemeKind → γ → γ → Prop where
  | done {y} (h : ∀ s, f s = y → Consumes (Option.map f) B (step s) [] none) :
      Rounds f B step [] y y
  | more {ks ls y z w C} (hsome : ks ≠ [])
      (h : ∀ s, f s = y → Consumes (Option.map f) C (step s) ks (some z))
      (hnext : Begins B ls C) (hrest : Rounds f B step ls z w) :
      Rounds f B step (ks ++ ls) y w

section
variable {f : σ → γ} {B C : LexemeKind → Prop} {step : σ → Reader (Option σ)} {ks : List LexemeKind}
  {y z : γ}

theorem Rounds.consumes_rounds (h : Rounds f B step ks y z) {s : σ} (hs : f s = y) {count : Nat}
    (hcount : ks.length < count) : Consumes f B (rounds failure step count s) ks z := by
  induction h generalizing s count with
  | done h =>
    obtain ⟨count, rfl⟩ := Nat.exists_eq_add_one_of_ne_zero (Nat.ne_zero_of_lt hcount)
    refine (h s hs).bind_nil fun next? hnext => ?_
    obtain rfl := Option.map_eq_none_iff.mp hnext
    exact consumes_pure hs
  | @more ks ls y z w C hsome h hnext _ ih =>
    obtain ⟨count, rfl⟩ := Nat.exists_eq_add_one_of_ne_zero (Nat.ne_zero_of_lt hcount)
    have hpos := List.length_pos_iff.mpr hsome
    rw [List.length_append] at hcount
    refine (h s hs).bind hnext fun next? hz => ?_
    obtain ⟨s', rfl, hs'⟩ := Option.map_eq_some_iff.mp hz
    exact ih hs' (by omega)

theorem Rounds.consumes_repeating (h : Rounds f B step ks y z) {s : σ} (hs : f s = y) :
    Consumes f B (repeating step s) ks z := by
  intro ts t tail last hts ht
  have hcount : ks.length < (ts ++ t :: tail).length + 1 := by
    rw [← hts, List.length_map, List.length_append]
    omega
  exact h.consumes_rounds hs hcount ts t tail last hts ht

/-- One round, in front of what ends the loop. -/
theorem Rounds.last (hsome : ks ≠ [])
    (h : ∀ s, f s = y → Consumes (Option.map f) B (step s) ks (some z))
    (hdone : ∀ s, f s = z → Consumes (Option.map f) B (step s) [] none) : Rounds f B step ks y z := by
  rw [← List.append_nil ks]
  exact .more hsome h (fun _ hk => hk) (.done hdone)

/-- One round for each element of a list, in front of other rounds. The rounds keep an invariant. -/
theorem rounds_foldl_append {g : γ → ε → γ} (I : γ → Prop) (hI : ∀ y e, I y → I (g y e))
    {kss : List (List LexemeKind)} {es : List ε}
    (h : List.Forall₂ (fun ks e => ks ≠ [] ∧ Begins B ks C ∧
      ∀ s, I (f s) → Consumes (Option.map f) C (step s) ks (some (g (f s) e))) kss es)
    (hnext : Begins B ks C) {y : γ} (hy : I y) (hrest : Rounds f B step ks (es.foldl g y) z) :
    Rounds f B step (kss.flatten ++ ks) y z := by
  induction h generalizing y with
  | nil => exact hrest
  | @cons ls e kss es he hes ih =>
    obtain ⟨hsome, hstart, hround⟩ := he
    rw [List.flatten_cons, List.append_assoc]
    refine .more hsome (fun s hs => hs ▸ hround s (hs ▸ hy)) ?_ (ih (hI y e hy) hrest)
    cases hes with
    | nil => exact hnext
    | cons hnext =>
      rw [List.flatten_cons, List.append_assoc]
      exact hnext.2.1.append hnext.1

/-- One round for each element of a list. -/
theorem rounds_foldl {g : γ → ε → γ} (hBC : ∀ k, B k → C k)
    (hdone : ∀ s, Consumes (Option.map f) B (step s) [] none) {kss : List (List LexemeKind)} {es : List ε}
    (h : List.Forall₂ (fun ks e => ks ≠ [] ∧ Begins B ks C ∧
      ∀ s, Consumes (Option.map f) C (step s) ks (some (g (f s) e))) kss es) (y : γ) :
    Rounds f B step kss.flatten y (es.foldl g y) := by
  rw [← List.append_nil kss.flatten]
  exact rounds_foldl_append (fun _ => True) (fun _ _ _ => trivial)
    (h.imp fun ks e ⟨hsome, hstart, hround⟩ => ⟨hsome, hstart, fun s _ => hround s⟩)
    (show Begins B [] C from hBC) trivial (.done fun s _ => hdone s)

end

section
variable {f : α → γ} {B C : LexemeKind → Prop} {ys : List γ} {kss : List (List LexemeKind)}

theorem consumes_manyStep_none {item : Reader (Option α)} (h : Consumes (Option.map f) B item [] none)
    (found : List α) :
    Consumes (Option.map (List.map f)) B (do pure ((← item).map (· :: found))) [] none :=
  h.bind_nil fun x hx => by
    obtain rfl := Option.map_eq_none_iff.mp hx
    exact consumes_pure rfl

theorem consumes_manyStep {item : Reader (Option α)} {ks : List LexemeKind} {y : γ}
    (h : Consumes (Option.map f) B item ks (some y)) (found : List α) :
    Consumes (Option.map (List.map f)) B (do pure ((← item).map (· :: found))) ks
      (some (y :: found.map f)) :=
  h.bind_nil fun x hx => by
    obtain ⟨x, rfl, rfl⟩ := Option.map_eq_some_iff.mp hx
    exact consumes_pure rfl

/-- A loop that finds nothing. -/
theorem consumes_many_none {item : Reader (Option α)} (hdone : Consumes (Option.map f) B item [] none) :
    Consumes (List.map f) B (many item) [] [] := by
  have hrounds : Rounds (List.map f) B (fun found => do pure ((← item).map (· :: found))) [] [] [] :=
    .done fun found _ => consumes_manyStep_none hdone found
  refine (hrounds.consumes_repeating rfl).bind_nil fun found hfound => consumes_pure ?_
  rw [List.map_reverse, hfound]
  rfl

theorem consumes_many {l : List γ} {item : Reader (Option α)} (hBC : ∀ k, B k → C k)
    (hdone : Consumes (Option.map f) B item [] none)
    (h : List.Forall₂ (fun ks y => ks ≠ [] ∧ Begins B ks C ∧
      Consumes (Option.map f) C item ks (some y)) kss l) :
    Consumes (List.map f) B (many item) kss.flatten l := by
  have hrounds := rounds_foldl (g := fun found y => y :: found) hBC (consumes_manyStep_none hdone)
    (h.imp fun ks y ⟨hsome, hstart, hitem⟩ => ⟨hsome, hstart, consumes_manyStep hitem⟩) []
  refine (hrounds.consumes_repeating rfl).bind_nil fun found hfound => consumes_pure ?_
  rw [List.map_reverse, hfound]
  simp

/-- One item, in front of what ends the loop. -/
theorem consumes_many_one {item : Reader (Option α)} {ks : List LexemeKind} {y : γ}
    (hdone : Consumes (Option.map f) B item [] none) (hsome : ks ≠ [])
    (h : Consumes (Option.map f) B item ks (some y)) :
    Consumes (List.map f) B (many item) ks [y] := by
  have hrounds : Rounds (List.map f) B (fun found => do pure ((← item).map (· :: found))) ks [] [y] :=
    .last hsome (fun found hfound => hfound ▸ consumes_manyStep h found)
      fun found _ => consumes_manyStep_none hdone found
  refine (hrounds.consumes_repeating rfl).bind_nil fun found hfound => consumes_pure ?_
  rw [List.map_reverse, hfound]
  rfl

variable {item : Reader α} {ends : LexemeKind → Bool} {ks : List LexemeKind} {y : γ}

def led (k : LexemeKind) (kss : List (List LexemeKind)) : List LexemeKind := (kss.map (k :: ·)).flatten

def commas : List (List LexemeKind) → List LexemeKind
  | [] => []
  | ks :: kss => ks ++ led (.symbol ",") kss

theorem commas_singleton (ks : List LexemeKind) : commas [ks] = ks := List.append_nil ks

/-- What stands in a tuple behind its first item: a comma at least. -/
def tupleRest : List (List LexemeKind) → List LexemeKind
  | [] => [.symbol ","]
  | kss => led (.symbol ",") kss

def tupleKinds : List (List LexemeKind) → List LexemeKind
  | [] => []
  | ks :: kss => ks ++ tupleRest kss

theorem led_cons (k : LexemeKind) (ks : List LexemeKind) (kss : List (List LexemeKind)) :
    led k (ks :: kss) = k :: (ks ++ led k kss) := rfl

theorem led_append (k : LexemeKind) (kss lss : List (List LexemeKind)) :
    led k (kss ++ lss) = led k kss ++ led k lss := by
  rw [led, List.map_append, List.flatten_append]
  rfl

theorem length_lt_led {k : LexemeKind} {ks : List LexemeKind} {kss : List (List LexemeKind)} (h : ks ∈ kss) :
    ks.length < (led k kss).length := by
  have hsub : (k :: ks).Sublist (led k kss) := List.sublist_flatten_of_mem (List.mem_map_of_mem h)
  exact hsub.length_le

/-- What holds of fewer lexemes holds of those behind others. -/
theorem forall₂_of_led {R S : List LexemeKind → ε → Prop} (k : LexemeKind) {kss : List (List LexemeKind)}
    {es : List ε} {d : Nat} (h : List.Forall₂ R kss es) (hdepth : (led k kss).length ≤ d)
    (himp : ∀ ks e, ks.length < d → R ks e → S ks e) : List.Forall₂ S kss es :=
  ((List.forall₂_and_left _ _).mpr ⟨fun _ hks => Nat.lt_of_lt_of_le (length_lt_led hks) hdepth, h⟩).imp
    fun ks e ⟨hlength, hfirst⟩ => himp ks e hlength hfirst

theorem begins_led {k : LexemeKind} (hk : isPlain k) {kss : List (List LexemeKind)} (hC : C k)
    (h : Begins B l C) : Begins B (led k kss ++ l) C := by
  cases kss with
  | nil => exact h
  | cons => exact begins_plain hk hC

theorem length_led_le (kss : List (List LexemeKind)) :
    (led (.symbol ",") kss).length ≤ (tupleRest kss).length := by
  cases kss with
  | nil => exact Nat.zero_le _
  | cons => exact Nat.le_refl _

theorem consumes_itemStep_none (hB : ∀ k, B k → k ≠ .symbol ",") (s : List α × Bool) :
    Consumes (Option.map (unplacedItems f)) B (itemStep item ends s) [] none :=
  consumes_accept_other hB (consumes_pure rfl)

theorem consumes_itemStep (hitem : Consumes f C item ks y) (hends : Begins C ks (ends · = false))
    (s : List α × Bool) :
    Consumes (Option.map (unplacedItems f)) C (itemStep item ends s) (.symbol "," :: ks)
      (some (y :: (unplacedItems f s).1, true)) := by
  refine consumes_accept rfl (consumes_peek hends fun kind hkind => ?_)
  rw [Option.all_some, hkind, if_neg Bool.false_ne_true]
  exact hitem.bind_nil fun x hx => consumes_pure (by simp [unplacedItems, hx])

theorem consumes_itemsAfter {first : α} (hBC : ∀ k, B k → C k) (hB : ∀ k, B k → k ≠ .symbol ",")
    (hC : C (.symbol ","))
    (h : List.Forall₂ (fun ks y => Consumes f C item ks y ∧ Begins C ks (ends · = false)) kss ys) :
    Consumes (unplacedItems f) B (itemsAfter first item ends) (led (.symbol ",") kss)
      (f first :: ys, !ys.isEmpty) := by
  have hfold : ∀ (found : List γ) (flag : Bool), ys.foldl (fun s y => (y :: s.1, true)) (found, flag) =
      (ys.reverse ++ found, flag || !ys.isEmpty) := by
    clear h
    induction ys with
    | nil => simp
    | cons y ys ih => simp [ih]
  have hitems : List.Forall₂ (fun ks y => ks ≠ [] ∧ Begins B ks C ∧
      ∀ s, Consumes (Option.map (unplacedItems f)) C (itemStep item ends s) ks
        (some (y :: (unplacedItems f s).1, true))) (kss.map (.symbol "," :: ·)) ys := by
    rw [List.forall₂_map_left_iff]
    exact h.imp fun ks y hitem =>
      ⟨List.cons_ne_nil _ _, begins_plain rfl hC, consumes_itemStep hitem.1 hitem.2⟩
  have hrounds := rounds_foldl (f := unplacedItems f) (g := fun s y => (y :: s.1, true)) hBC
    (consumes_itemStep_none hB) hitems ([f first], false)
  rw [itemsAfter_eq]
  refine (hrounds.consumes_repeating rfl).bind_nil fun found hfound => consumes_pure ?_
  rw [hfold] at hfound
  obtain ⟨hitems, hflag⟩ := Prod.mk.inj hfound
  rw [unplacedItems, List.map_reverse, hitems, hflag]
  simp

theorem consumes_items (hBC : ∀ k, B k → C k) (hB : ∀ k, B k → k ≠ .symbol ",") (hC : C (.symbol ","))
    (hfirst : Consumes f C item ks y)
    (h : List.Forall₂ (fun ks y => Consumes f C item ks y ∧ Begins C ks (ends · = false)) kss ys) :
    Consumes (unplacedItems f) B (items item ends) (commas (ks :: kss)) (y :: ys, !ys.isEmpty) := by
  refine hfirst.bind ?_ fun x hx => hx ▸ consumes_itemsAfter hBC hB hC h
  cases h with
  | nil => exact hBC
  | cons => exact begins_plain rfl hC

/-- A single item. -/
theorem consumes_items_one (hB : ∀ k, B k → k ≠ .symbol ",") (hitem : Consumes f B item ks y) :
    Consumes (unplacedItems f) B (items item ends) ks ([y], false) :=
  hitem.bind_nil fun _ hx => hx ▸
    consumes_itemsAfter (C := fun k => B k ∨ k = .symbol ",") (fun _ => .inl) hB (.inr rfl) .nil

/-- A comma behind a single item. -/
theorem consumes_itemsAfter_comma {first : α} (hB : ∀ k, B k → k ≠ .symbol ",")
    (hends : ∀ k, B k → ends k) :
    Consumes (unplacedItems f) B (itemsAfter first item ends) [.symbol ","] ([f first], true) := by
  have hround (s : List α × Bool) : Consumes (Option.map (unplacedItems f)) B (itemStep item ends s)
      [.symbol ","] (some ((unplacedItems f s).1, true)) :=
    consumes_accept rfl (consumes_peek hends fun kind hkind => by
      rw [Option.all_some, hkind, if_pos rfl]
      exact consumes_pure rfl)
  have hrounds : Rounds (unplacedItems f) B (itemStep item ends) [.symbol ","] ([f first], false)
      ([f first], true) :=
    .last (List.cons_ne_nil _ _) (fun s hs => by
      have h := hround s
      rwa [hs] at h) fun s _ => consumes_itemStep_none hB s
  rw [itemsAfter_eq]
  refine (hrounds.consumes_repeating rfl).bind_nil fun found hfound => consumes_pure ?_
  obtain ⟨hitems, hflag⟩ := Prod.mk.inj hfound
  rw [unplacedItems, List.map_reverse, hitems, hflag]
  rfl

theorem consumes_tupleRest {first : α} (hBC : ∀ k, B k → C k) (hB : ∀ k, B k → k ≠ .symbol ",")
    (hends : ∀ k, B k → ends k) (hC : C (.symbol ","))
    (h : List.Forall₂ (fun ks y => Consumes f C item ks y ∧ Begins C ks (ends · = false)) kss ys) :
    Consumes (unplacedItems f) B (itemsAfter first item ends) (tupleRest kss) (f first :: ys, true) := by
  cases h with
  | nil => exact consumes_itemsAfter_comma hB hends
  | cons hitem hitems => exact consumes_itemsAfter hBC hB hC (.cons hitem hitems)

theorem begins_tupleRest {l : List LexemeKind} (hC : C (.symbol ",")) : Begins B (tupleRest kss ++ l) C := by
  cases kss <;> exact begins_plain rfl hC

theorem consumes_items_tuple (hBC : ∀ k, B k → C k) (hB : ∀ k, B k → k ≠ .symbol ",")
    (hends : ∀ k, B k → ends k) (hC : C (.symbol ",")) (hfirst : Consumes f C item ks y)
    (h : List.Forall₂ (fun ks y => Consumes f C item ks y ∧ Begins C ks (ends · = false)) kss ys) :
    Consumes (unplacedItems f) B (items item ends) (tupleKinds (ks :: kss)) (y :: ys, true) :=
  hfirst.bind (by simpa using begins_tupleRest (l := []) hC) fun _ hx =>
    hx ▸ consumes_tupleRest hBC hB hends hC h

end

end ViewTree.Embedded
