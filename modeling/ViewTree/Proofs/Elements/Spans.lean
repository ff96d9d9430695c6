import ViewTree.Proofs.Elements.Tracking
import ViewTree.Proofs.Pasting.Paths

/-!
Lexemes that close what they open. What is read between two commas, or between two parentheses, leaves
open nothing and closes nothing that is open around it. Main statement: whatever a grammar reads as an
item does so, at every depth (`spansGrammar_grammarAt`).
-/
namespace ViewTree.Embedded
open Reader

/-- Lexemes of one line that are only scanned where they leave open what is open around them, and
nothing more. -/
structure Balanced (ts : List Lexeme) : Prop where
  inLine : ∀ t ∈ ts, t.kind ≠ .lineEnd
  nests : ∀ pending still, nestAll? pending ts = some still →
    still = pending ∧ nestAll? [] ts = some []

theorem balanced_nil : Balanced [] where
  inLine := nofun
  nests := fun _ _ h => ⟨(Option.some.inj h).symm, rfl⟩

theorem Balanced.append {a b : List Lexeme} (ha : Balanced a) (hb : Balanced b) : Balanced (a ++ b) where
  inLine := List.forall_mem_append.mpr ⟨ha.inLine, hb.inLine⟩
  nests := by
    intro pending still h
    rw [nestAll?_append] at h
    obtain ⟨middle, hmiddle, hrest⟩ := Option.bind_eq_some_iff.mp h
    obtain ⟨rfl, halone⟩ := ha.nests pending middle hmiddle
    obtain ⟨rfl, halone'⟩ := hb.nests middle still hrest
    exact ⟨rfl, by rw [nestAll?_append, halone]; exact halone'⟩

/-- Lexemes inside of a line that open and close nothing. -/
def isFlat : LexemeKind → Bool
  | .lineEnd => false
  | .symbol s => (closerOf? s).isNone && !isCloser s
  | _ => true

theorem nest?_flat {k : LexemeKind} (h : isFlat k) (pending : List String) :
    nest? pending k = some pending := by
  cases k with
  | symbol s =>
    obtain ⟨hopens, hcloses⟩ := Bool.and_eq_true_iff.mp h
    unfold nest?
    dsimp only
    rw [Option.isNone_iff_eq_none.mp hopens, if_neg (by simpa using hcloses)]
  | _ => rfl

theorem balanced_flat {t : Lexeme} (h : isFlat t.kind) : Balanced [t] where
  inLine := by
    refine List.forall_mem_singleton.mpr fun hline => ?_
    rw [hline] at h
    nomatch h
  nests := by
    have hone (pending : List String) : nestAll? pending [t] = some pending :=
      nestAll?_cons (nest?_flat h pending) []
    intro pending still hstill
    exact ⟨(Option.some.inj ((hone pending).symm.trans hstill)).symm, hone []⟩

/-- Levels count brackets like marks do. -/
theorem depth?_of_step? {v w : Nesting} {k : LexemeKind} (h : v.step? k = some w) :
    Mark.depth? v.depth (Mark.ofLexeme? k).toList = some w.depth := by
  cases k with
  | symbol s =>
    unfold Nesting.step? at h
    unfold Mark.ofLexeme?
    dsimp only at h ⊢
    by_cases hopens : (closerOf? s).isSome
    · rw [if_pos hopens] at h ⊢
      obtain rfl := Option.some.inj h
      rfl
    rw [if_neg hopens] at h ⊢
    by_cases hcloses : isCloser s
    · rw [if_pos hcloses] at h ⊢
      by_cases hdepth : v.depth = 0
      · rw [if_pos hdepth] at h
        nomatch h
      · rw [if_neg hdepth] at h
        obtain rfl := Option.some.inj h
        simp [Mark.depth?, Mark.deepen?, hdepth]
    rw [if_neg hcloses] at h ⊢
    have hsame : w.depth = v.depth := by grind
    rw [hsame]
    split
    · rfl
    · split <;> rfl
  | keyword word =>
    unfold Nesting.step? at h
    unfold Mark.ofLexeme?
    dsimp only at h ⊢
    have hsame : w.depth = v.depth := by grind
    rw [hsame]
    split <;> rfl
  | _ =>
    obtain rfl := Option.some.inj h
    rfl

theorem depth?_of_walk? {v w : Nesting} {ts : List Lexeme} (h : v.walk? ts = some w) :
    Mark.depth? v.depth (Mark.ofLexemes ts) = some w.depth := by
  induction ts generalizing v with
  | nil =>
    obtain rfl := Option.some.inj h
    rfl
  | cons t ts ih =>
    obtain ⟨u, hstep, hwalk⟩ := Nesting.exists_step?_of_walk? h
    rw [Mark.ofLexemes_cons, Mark.depth?_append, depth?_of_step? hstep]
    exact ih hwalk

/-- What a reader of wholes takes is balanced. -/
theorem balanced_of_passage {used : List Lexeme} {clear clear' : Bool}
    (h : Passage ⟨.start, clear⟩ ⟨.begun, clear'⟩ used) : Balanced used where
  inLine := h.inLine
  nests := by
    intro pending still hstill
    obtain ⟨w, hwalk, hcounts, -⟩ := h.walks 0 0 ⟨0, 0, false⟩ ⟨rfl, fun _ => rfl⟩
    have hdepth : w.depth = 0 := (Prod.mk.inj hcounts).1
    have halone : nestAll? ([] ++ pending) used = some still := hstill
    obtain ⟨own, rfl, hown, hlength⟩ := nestAll?_of_append halone (depth?_of_walk? hwalk)
    obtain rfl := List.length_eq_zero_iff.mp (hlength.trans hdepth)
    exact ⟨rfl, hown⟩

/-- From one input to a later one, over balanced lexemes. -/
structure Crosses (used : List Lexeme) (i j : Input) : Prop where
  text : i.rest = used ++ j.rest
  last : j.last = used.getLast?.elim i.last (·.stop)
  balanced : Balanced used

theorem crosses_refl (i : Input) : Crosses [] i i := ⟨rfl, rfl, balanced_nil⟩

theorem Crosses.trans {a b : List Lexeme} {i j k : Input} (h : Crosses a i j) (h' : Crosses b j k) :
    Crosses (a ++ b) i k where
  text := by rw [h.text, h'.text, List.append_assoc]
  last := by
    rw [h'.last, h.last, List.getLast?_append]
    cases b.getLast? <;> rfl
  balanced := h.balanced.append h'.balanced

theorem crosses_flat {t : Lexeme} (h : isFlat t.kind) (rest : List Lexeme) (last : Nat) :
    Crosses [t] ⟨t :: rest, last⟩ ⟨rest, t.stop⟩ := ⟨rfl, rfl, balanced_flat h⟩

/-- `r` takes balanced lexemes, and `count` of them at least. -/
def Spans {α : Type} (count : Nat) (r : Reader α) : Prop :=
  ∀ i x j, r i = some (x, j) → ∃ used, Crosses used i j ∧ count ≤ used.length

section
variable {α β σ : Type} {count bound : Nat} {r s : Reader α} {k : α → Reader β}

theorem spans_pure (x : α) : Spans 0 (pure x) := by
  intro i y j hr
  obtain ⟨-, rfl⟩ := Prod.mk.inj (Option.some.inj hr)
  exact ⟨[], crosses_refl i, Nat.le_refl 0⟩

theorem Spans.mono (h : Spans count r) : Spans 0 r := fun i x j hr =>
  (h i x j hr).imp fun _ hused => ⟨hused.1, Nat.zero_le _⟩

/-- Nothing more has to be taken behind `r`. -/
theorem Spans.bind (h : Spans count r) (hk : ∀ x, Spans 0 (k x)) : Spans count (r >>= k) := by
  intro i y j hr
  obtain ⟨⟨x, m⟩, hx, hkx⟩ := Option.bind_eq_some_iff.mp hr
  obtain ⟨a, ha, hcount⟩ := h i x m hx
  obtain ⟨b, hb, -⟩ := hk x m y j hkx
  refine ⟨a ++ b, ha.trans hb, ?_⟩
  rw [List.length_append]
  omega

/-- `r` only looks. -/
theorem Spans.look (h : ∀ i x j, r i = some (x, j) → j = i) (hk : ∀ x, Spans count (k x)) :
    Spans count (r >>= k) := by
  intro i y j hr
  obtain ⟨⟨x, m⟩, hx, hkx⟩ := Option.bind_eq_some_iff.mp hr
  obtain rfl := h i x m hx
  exact hk x m y j hkx

theorem Spans.ite {p : Prop} [Decidable p] (hr : p → Spans count r) (hs : ¬p → Spans count s) :
    Spans count (if p then r else s) := by
  by_cases hp : p
  · rw [if_pos hp]
    exact hr hp
  · rw [if_neg hp]
    exact hs hp

theorem Spans.here {k : Nat → Reader β} (hk : ∀ start, Spans count (k start)) :
    Spans count (Reader.here >>= k) := fun i y j hr => hk _ i y j hr

theorem Spans.peek {k : Option LexemeKind → Reader β} (hk : ∀ kind?, Spans count (k kind?)) :
    Spans count (Reader.peek >>= k) := fun i y j hr => hk _ i y j hr

theorem spans_close (start : Nat) (form : Form) : Spans 0 (close start form) := by
  intro i x j hr
  obtain ⟨-, rfl⟩ := Prod.mk.inj (Option.some.inj hr)
  exact ⟨[], crosses_refl i, Nat.le_refl 0⟩

theorem spans_expect {kind : LexemeKind} (hkind : isFlat kind) : Spans 1 (expect kind) := by
  rintro ⟨_ | ⟨t, rest⟩, last⟩ x j hr
  · nomatch hr
  · replace hr : (if t.kind = kind then pure () else failure : Reader Unit) ⟨rest, t.stop⟩ =
      some (x, j) := hr
    split at hr
    · next ht =>
      obtain ⟨-, rfl⟩ := Prod.mk.inj (Option.some.inj hr)
      exact ⟨[t], crosses_flat (ht ▸ hkind) rest last, Nat.le_refl 1⟩
    · nomatch hr

theorem spans_name : Spans 1 name := by
  rintro ⟨_ | ⟨⟨kind, start, stop⟩, rest⟩, last⟩ x j hr
  · nomatch hr
  · cases kind with
    | name id =>
      obtain ⟨-, rfl⟩ := Prod.mk.inj (Option.some.inj hr)
      exact ⟨_, crosses_flat rfl rest last, Nat.le_refl 1⟩
    | _ => nomatch hr

/-- A lexeme that may come next; if it comes, that is enough. -/
theorem Spans.accept {kind : LexemeKind} {k : Bool → Reader β} (hkind : isFlat kind)
    (hcount : count ≤ 1) (htaken : Spans 0 (k true)) (hleft : Spans count (k false)) :
    Spans count (Reader.accept kind >>= k) := by
  intro i y j hr
  by_cases hnext : Next (some kind) i
  · obtain ⟨rest, last⟩ := i
    obtain ⟨t, rest, rfl⟩ : ∃ t ts, rest = t :: ts := by
      cases rest with
      | nil => nomatch hnext
      | cons t ts => exact ⟨t, ts, rfl⟩
    obtain rfl : t.kind = kind := Option.some.inj hnext
    rw [bind_eq (accept_eq rfl rest last)] at hr
    obtain ⟨used, hused, -⟩ := htaken _ y j hr
    refine ⟨[t] ++ used, (crosses_flat hkind rest last).trans hused, ?_⟩
    rw [List.length_append, List.length_singleton]
    omega
  · rw [bind_eq (accept_of_not hnext)] at hr
    exact hleft i y j hr

theorem spans_rounds {step : σ → Reader (Option σ)} (h : ∀ s, Spans 0 (step s)) (rest : Nat) (s : σ) :
    Spans 0 (rounds failure step rest s) := by
  induction rest generalizing s with
  | zero => exact fun _ _ _ hr => nomatch hr
  | succ rest ih =>
    refine (h s).bind fun next? => ?_
    cases next? with
    | none => exact spans_pure s
    | some t => exact ih t

theorem spans_repeating {step : σ → Reader (Option σ)} (h : ∀ s, Spans 0 (step s)) (s : σ) :
    Spans 0 (repeating step s) := fun i y j hr => spans_rounds h (i.rest.length + 1) s i y j hr

theorem spans_items {item : Reader α} (h : Spans 1 item) (ends : LexemeKind → Bool) :
    Spans 1 (items item ends) := by
  refine h.bind fun first => (spans_repeating (fun found => ?_) _).bind fun _ => spans_pure _
  refine .accept rfl (Nat.zero_le 1) ?_ (.ite (fun _ => spans_pure _) nofun)
  refine .ite nofun fun _ => .peek fun _ => .ite (fun _ => spans_pure _) fun _ => ?_
  exact h.mono.bind fun _ => spans_pure _

/-- A reader of wholes takes something balanced. -/
theorem Tracks.spans {r' r'' : Reader α} {clear clear' : Bool} (h : Tracks bound r r')
    (hfollows : Follows count ⟨.start, clear⟩ (fun _ => ⟨.begun, clear'⟩) r r'') : Spans 1 r := by
  intro i x j hr
  obtain ⟨⟨used, hused, hlast⟩, -⟩ := h i x j hr
  obtain ⟨used', hused', hpassage, -⟩ := hfollows i x j trivial hr
  obtain rfl : used = used' := List.append_cancel_right (hused.symm.trans hused')
  have hone : 1 ≤ 0 + used.length := hpassage.spent_le
  exact ⟨used, ⟨hused, hlast, balanced_of_passage hpassage⟩, by omega⟩

end

/-- What the readers of expressions and of operands take is balanced. -/
structure SpansGrammar (g : Grammar) : Prop where
  expression : Spans 1 g.expression
  bitOr : Spans 1 g.bitOr

section
variable {g : Grammar} {item : Reader Term}

theorem spans_named (h : SpansGrammar g) : Spans 1 g.named := by
  refine .look (fun _ _ _ => namesNext_idle) fun binds => .ite (fun _ => ?_) fun _ => h.expression
  refine .here fun start => spans_name.bind fun target => (spans_expect rfl).mono.bind fun _ => ?_
  exact h.expression.mono.bind fun _ => spans_close _ _

theorem spans_item (h : SpansGrammar g) : Spans 1 g.item :=
  .here fun _ => .accept rfl (Nat.le_refl 1) (h.bitOr.mono.bind fun _ => spans_close _ _) (spans_named h)

theorem spans_plainItem (h : SpansGrammar g) : Spans 1 g.plainItem :=
  .here fun _ => .accept rfl (Nat.le_refl 1) (h.bitOr.mono.bind fun _ => spans_close _ _) h.expression

theorem spans_itemsTerm (h : Spans 1 item) : Spans 1 (Grammar.itemsTerm item) := by
  refine .here fun start => (spans_items h _).bind fun (found, commas) => ?_
  dsimp only
  split
  · exact spans_pure _
  · exact spans_close _ _

theorem spans_yieldTerm (h : SpansGrammar g) : Spans 1 g.yieldTerm := by
  refine .here fun start => (spans_expect rfl).bind fun _ => .accept rfl (Nat.zero_le 1) ?_ ?_
  · exact h.expression.mono.bind fun _ => spans_close _ _
  · refine .peek fun kind? => .ite (fun _ => spans_close _ _) fun _ => ?_
    exact (spans_itemsTerm (spans_plainItem h)).mono.bind fun _ => spans_close _ _

theorem spansGrammar_grammarAt (inner : FieldReader) (depth : Nat) :
    SpansGrammar (grammarAt inner depth).1 := by
  have hfields : FieldsWithin 0 inner inner := fun _ _ _ _ hx => hx
  obtain ⟨htracks, -⟩ := tracks_grammarAt hfields depth
  obtain ⟨hfollows, -⟩ := follows_grammarAt inner depth depth
  exact ⟨htracks.expression.spans hfollows.expression,
    (tracks_bitOr htracks.factor).spans (follows_bitOr hfollows.factor)⟩

end
end ViewTree.Embedded
