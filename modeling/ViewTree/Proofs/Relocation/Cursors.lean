import ViewTree.Proofs.Relocation.Trees
import ViewTree.Tree.Embed

/-!
Readers at two places. A text stands in another one, further in; tokens of the first have their
counterparts in the second. Main statements: readers that agree at both places can be combined
(`Agree.bind`, `agree_repeating`, `agree_block`), and the readers of tokens and of embedded texts
agree.
-/
namespace ViewTree
open TreeReader

def ParseError.mapPlaces (f : Place → Place) : ParseError → ParseError
  | .found problem place width => .found problem (f place) width
  | .noExpression text start hint => .noExpression text (f start) hint
  | .noPattern text start => .noPattern text (f start)

def Failure.mapPlaces (f : Place → Place) : Failure → Failure
  | .problem e => .problem (e.mapPlaces f)
  | .unusable => .unusable

/-- A text in another one: what stands there up to `bound` stands so many characters and lines
further in, under the same settings. -/
structure Placement where
  source : Context
  target : Context
  offset : Nat
  lines : Nat
  bound : Nat
  settings_eq : target.settings = source.settings
  slice_eq : ∀ start stop, stop ≤ bound →
    Text.slice target.text (start + offset) (stop + offset) = Text.slice source.text start stop
  lines_eq : ∀ start, start ≤ bound →
    (target.text.take (start + offset)).count '\n' = (source.text.take start).count '\n' + lines

namespace Placement

def place (m : Placement) (p : Place) : Place := { p with line := p.line + m.lines }

def token (m : Placement) (t : Token) : Token :=
  { t with line := t.line + m.lines, offset := t.offset + m.offset, stop := t.stop + m.offset }

def tokens (m : Placement) (ts : Tokens) : Tokens := ⟨ts.items.map m.token, m.token ts.eof⟩

def cursor (m : Placement) (c : Cursor) : Cursor :=
  ⟨c.previous.map m.token, c.rest.map m.token, m.token c.eof⟩

/-- The tokens to come end where the text still stands in the other one. -/
def Covers (m : Placement) (c : Cursor) : Prop := ∀ t ∈ c.rest, t.stop ≤ m.bound

/-- The same failure, or related results with the same tokens left. -/
inductive Results {α β : Type} (m : Placement) (R : α → β → Prop) :
    Except Failure (α × Cursor) → Except Failure (β × Cursor) → Prop
  | ok {a : α} {b : β} {c : Cursor} (h : R a b) (hc : m.Covers c) :
    Results m R (.ok (a, c)) (.ok (b, m.cursor c))
  | error (e : Failure) : Results m R (.error e) (.error (e.mapPlaces m.place))

/-- Two readers do the same at both places. -/
def Agree {α β : Type} (m : Placement) (R : α → β → Prop) (r : TreeReader α)
    (r' : TreeReader β) : Prop :=
  ∀ c, m.Covers c → m.Results R (r m.source c) (r' m.target (m.cursor c))

/-- Two readers do the same and what they read corresponds by a function. -/
abbrev Maps {α β : Type} (m : Placement) (f : α → β) (r : TreeReader α) (r' : TreeReader β) : Prop :=
  m.Agree (fun a b => b = f a) r r'

abbrev Fixes {α : Type} (m : Placement) (r : TreeReader α) : Prop := m.Agree Eq r r

variable {m : Placement} {α β γ δ : Type} {R : α → β → Prop} {Q : γ → δ → Prop}

theorem agree_pure {a : α} {b : β} (h : R a b) : m.Agree R (pure a) (pure b) :=
  fun _ hc => .ok h hc

theorem Agree.bind {r : TreeReader α} {r' : TreeReader β} {k : α → TreeReader γ}
    {k' : β → TreeReader δ} (h : m.Agree R r r') (hk : ∀ a b, R a b → m.Agree Q (k a) (k' b)) :
    m.Agree Q (r >>= k) (r' >>= k') := by
  intro c hc
  have hr := h c hc
  show m.Results Q (r m.source c >>= fun x => k x.1 m.source x.2)
    (r' m.target (m.cursor c) >>= fun x => k' x.1 m.target x.2)
  generalize r m.source c = x, r' m.target (m.cursor c) = y at hr
  cases hr with
  | ok hab hd => exact hk _ _ hab _ hd
  | error e => exact .error e

theorem Agree.mono {R' : α → β → Prop} {r : TreeReader α} {r' : TreeReader β}
    (h : m.Agree R r r') (hR : ∀ a b, R a b → R' a b) : m.Agree R' r r' := by
  intro c hc
  have hr := h c hc
  generalize r m.source c = x, r' m.target (m.cursor c) = y at hr ⊢
  cases hr with
  | ok hab hd => exact .ok (hR _ _ hab) hd
  | error e => exact .error e

theorem Agree.ite {p : Prop} [Decidable p] {r s : TreeReader α} {r' s' : TreeReader β}
    (hr : p → m.Agree R r r') (hs : ¬p → m.Agree R s s') :
    m.Agree R (if p then r else s) (if p then r' else s') := by
  by_cases hp : p
  · simpa only [if_pos hp] using hr hp
  · simpa only [if_neg hp] using hs hp

theorem agree_rounds {σ τ : Type} {S : σ → τ → Prop} {spent : TreeReader σ} {spent' : TreeReader τ}
    {step : σ → TreeReader (Option σ)} {step' : τ → TreeReader (Option τ)}
    (hspent : m.Agree S spent spent')
    (hstep : ∀ s t, S s t → m.Agree (Option.Rel S) (step s) (step' t)) (count : Nat) {s : σ} {t : τ}
    (h : S s t) : m.Agree S (rounds spent step count s) (rounds spent' step' count t) := by
  induction count generalizing s t with
  | zero => exact hspent
  | succ count ih =>
    refine (hstep s t h).bind ?_
    rintro _ _ (⟨hst⟩ | _)
    · exact ih hst
    · exact agree_pure h

theorem agree_foldlM {σ τ : Type} {S : σ → τ → Prop} {g : α → β} {step : σ → α → TreeReader σ}
    {step' : τ → β → TreeReader τ} (hstep : ∀ s t x, S s t → m.Agree S (step s x) (step' t (g x)))
    (xs : List α) {s : σ} {t : τ} (h : S s t) :
    m.Agree S (xs.foldlM step s) ((xs.map g).foldlM step' t) := by
  induction xs generalizing s t with
  | nil => exact agree_pure h
  | cons x xs ih =>
    rw [List.map_cons, List.foldlM_cons, List.foldlM_cons]
    exact (hstep s t x h).bind fun _ _ h => ih h

theorem token_cursor (c : Cursor) : (m.cursor c).token = m.token c.token := by
  obtain ⟨previous, rest, eof⟩ := c
  cases rest <;> rfl

theorem ahead_cursor (c : Cursor) (n : Nat) : (m.cursor c).ahead n = m.token (c.ahead n) := by
  simp only [Cursor.ahead, cursor, List.getD_eq_getElem?_getD, List.getElem?_map]
  cases c.rest[n]? <;> rfl

theorem advance_cursor (c : Cursor) : (m.cursor c).advance = m.cursor c.advance := by
  obtain ⟨previous, rest, eof⟩ := c
  cases rest <;> rfl

theorem Covers.advance {c : Cursor} (h : m.Covers c) : m.Covers c.advance := by
  intro t ht
  rw [Cursor.rest_advance] at ht
  exact h t (List.mem_of_mem_tail ht)

theorem agree_failAt (problem : Problem) (t : Token) :
    m.Agree R (failAt problem t) (failAt problem (m.token t)) :=
  fun _ _ => .error (.problem (.atToken problem t))

theorem agree_get : m.Agree (fun a b => b = m.cursor a ∧ m.Covers a) get get :=
  fun _ hc => .ok ⟨rfl, hc⟩ hc

theorem agree_set {c : Cursor} (h : m.Covers c) :
    m.Agree (fun _ _ => True) (set c) (set (m.cursor c)) := fun _ _ => .ok trivial h

theorem agree_read : m.Agree (fun a b => a = m.source ∧ b = m.target) read read :=
  fun _ hc => .ok ⟨rfl, rfl⟩ hc

theorem agree_current : m.Maps m.token current current :=
  fun c hc => .ok (token_cursor c) hc

theorem agree_fail (problem : Problem) : m.Agree R (fail problem) (fail problem) := by
  refine agree_current.bind ?_
  rintro t _ rfl
  exact agree_failAt problem t

/-- Behind a failure nothing is read. -/
theorem agree_failAt_bind (problem : Problem) (t : Token) {k : γ → TreeReader α}
    {k' : δ → TreeReader β} :
    m.Agree R (failAt problem t >>= k) (failAt problem (m.token t) >>= k') :=
  (agree_failAt (R := fun _ _ => False) problem t).bind fun _ _ h => h.elim

theorem agree_fail_bind (problem : Problem) {k : γ → TreeReader α} {k' : δ → TreeReader β} :
    m.Agree R (fail problem >>= k) (fail problem >>= k') :=
  (agree_fail (R := fun _ _ => False) problem).bind fun _ _ h => h.elim

theorem agree_ahead (n : Nat) : m.Maps m.token (ahead n) (ahead n) := by
  intro c hc
  show m.Results _ (.ok (c.ahead n, c)) (.ok ((m.cursor c).ahead n, m.cursor c))
  rw [ahead_cursor]
  exact .ok rfl hc

theorem fixes_isNext (kind : TokenKind) : m.Fixes (isNext kind) := by
  refine agree_current.bind ?_
  rintro t _ rfl
  exact agree_pure rfl

theorem agree_advance : m.Maps m.token advance advance := by
  refine agree_current.bind ?_
  rintro t _ rfl
  intro c hc
  show m.Results _ (.ok (t, c.advance)) (.ok (m.token t, (m.cursor c).advance))
  rw [advance_cursor]
  exact .ok rfl hc.advance

theorem fixes_accept (kind : TokenKind) : m.Fixes (accept kind) := by
  refine (fixes_isNext kind).bind ?_
  rintro next _ rfl
  refine Agree.ite (fun _ => ?_) (fun _ => agree_pure rfl)
  exact agree_advance.bind fun _ _ _ => agree_pure rfl

theorem agree_expect (kind : TokenKind) : m.Maps m.token (expect kind) (expect kind) := by
  refine agree_current.bind ?_
  rintro t _ rfl
  exact Agree.ite (fun _ => agree_advance) (fun _ => agree_failAt _ t)

theorem fixes_name : m.Fixes name := by
  refine agree_current.bind ?_
  rintro t _ rfl
  refine Agree.ite (fun _ => ?_) (fun _ => agree_failAt _ t)
  refine agree_advance.bind ?_
  rintro t _ rfl
  exact agree_pure rfl

theorem agree_repeating {σ τ : Type} {S : σ → τ → Prop} {step : σ → TreeReader (Option σ)}
    {step' : τ → TreeReader (Option τ)}
    (hstep : ∀ s t, S s t → m.Agree (Option.Rel S) (step s) (step' t)) {s : σ} {t : τ} (h : S s t) :
    m.Agree S (repeating step s) (repeating step' t) := by
  intro c hc
  have hrounds := agree_rounds (agree_fail (m := m) .nested) hstep (c.rest.length + 1) h c hc
  have hlength : (m.cursor c).rest.length = c.rest.length := List.length_map m.token
  show m.Results S (rounds (fail .nested) step (c.rest.length + 1) s m.source c)
    (rounds (fail .nested) step' ((m.cursor c).rest.length + 1) t m.target (m.cursor c))
  rw [hlength]
  exact hrounds

/-- Blocks of items that correspond. -/
theorem agree_block {f : α → β} {item : TreeReader α} {item' : TreeReader β}
    (h : m.Maps f item item') (opening : Token) :
    m.Maps (List.map f) (TreeReader.block opening item)
      (TreeReader.block (m.token opening) item') := by
  unfold TreeReader.block
  refine (agree_repeating (S := fun s t => t = (s.1.map f, s.2)) ?_ rfl).bind ?_
  · rintro ⟨found, last⟩ _ rfl
    refine (fixes_isNext .rbrace).bind ?_
    rintro closing _ rfl
    refine Agree.ite (fun _ => agree_pure .none) fun _ => ?_
    refine (fixes_isNext .eof).bind ?_
    rintro ending _ rfl
    refine Agree.ite (fun _ => agree_failAt _ opening) fun _ => ?_
    refine h.bind ?_
    rintro a _ rfl
    refine (fixes_accept .comma).bind ?_
    rintro comma _ rfl
    refine Agree.ite (fun _ => agree_pure (.some rfl)) fun _ => ?_
    refine (fixes_isNext .rbrace).bind ?_
    rintro closing _ rfl
    refine Agree.ite (fun _ => agree_pure (.some rfl)) fun _ => ?_
    refine agree_get.bind ?_
    rintro c _ ⟨rfl, -⟩
    have hprevious : (m.cursor c).previous.any (·.kind = .rbrace) =
        c.previous.any (·.kind = .rbrace) := by
      rw [cursor, Option.any_map]
      rfl
    rw [hprevious]
    refine Agree.ite (fun _ => agree_pure (.some rfl)) fun _ => ?_
    refine agree_current.bind ?_
    rintro t _ rfl
    exact agree_fail _
  · rintro ⟨found, last⟩ _ rfl
    refine (agree_expect .rbrace).bind fun _ _ _ => agree_pure ?_
    rw [List.map_reverse]

theorem closing?_map (depth : Nat) (ts : List Token) : closing? depth (ts.map m.token) =
    (closing? depth ts).map fun (t, rest) => (m.token t, rest.map m.token) := by
  induction ts generalizing depth with
  | nil => rfl
  | cons t ts ih =>
    have hopening : (m.token t).kind.isOpening = t.kind.isOpening := rfl
    have hclosing : (m.token t).kind.isClosing = t.kind.isClosing := rfl
    rw [List.map_cons, closing?, closing?, hopening, hclosing, ih, ih, ih]
    split
    · rfl
    · split
      · split <;> rfl
      · rfl

theorem cons_subset_of_closing? {depth : Nat} {ts rest : List Token} {t : Token}
    (h : closing? depth ts = some (t, rest)) : t :: rest ⊆ ts := by
  induction ts generalizing depth with
  | nil => simp [closing?] at h
  | cons s ts ih =>
    have hmore {depth : Nat} (h : closing? depth ts = some (t, rest)) : t :: rest ⊆ s :: ts :=
      List.Subset.trans (ih h) (List.subset_cons_self s ts)
    rw [closing?] at h
    split at h
    · exact hmore h
    · split at h
      · split at h
        · obtain ⟨rfl, rfl⟩ := Prod.mk.inj (Option.some.inj h)
          exact List.Subset.refl _
        · exact hmore h
      · exact hmore h

theorem agree_balanced :
    m.Agree (fun a b => b = m.token a ∧ a.stop ≤ m.bound) balanced balanced := by
  refine agree_get.bind ?_
  rintro c _ ⟨rfl, hc⟩
  have hclosing : closing? 0 (m.cursor c).rest =
      (closing? 0 c.rest).map fun (t, rest) => (m.token t, rest.map m.token) := closing?_map 0 c.rest
  rw [hclosing]
  cases hfound : closing? 0 c.rest with
  | none =>
    rw [token_cursor]
    exact agree_failAt _ c.token
  | some found =>
    obtain ⟨t, rest⟩ := found
    have hsubset := cons_subset_of_closing? hfound
    have hrest : m.Covers { c with previous := some t, rest } := fun s hs =>
      hc s (hsubset (List.mem_cons_of_mem t hs))
    refine (agree_set hrest).bind fun _ _ _ => agree_pure ⟨rfl, ?_⟩
    exact hc t (hsubset List.mem_cons_self)

theorem agree_rereading {c : Cursor} (hc : m.Covers c) {r : TreeReader α} {r' : TreeReader β}
    (h : m.Agree R r r') : m.Agree R (rereading c r) (rereading (m.cursor c) r') := by
  refine agree_get.bind ?_
  rintro resume _ ⟨rfl, hresume⟩
  refine (agree_set hc).bind fun _ _ _ => ?_
  refine h.bind fun a b hab => ?_
  exact (agree_set hresume).bind fun _ _ _ => agree_pure hab

theorem agree_textBetween (first : Token) {last : Token} (h : last.stop ≤ m.bound) :
    m.Agree Eq (textBetween first last) (textBetween (m.token first) (m.token last)) := by
  refine agree_read.bind ?_
  rintro _ _ ⟨rfl, rfl⟩
  exact agree_pure (congrArg String.ofList (m.slice_eq first.offset last.stop h).symm)

theorem agree_expression (text : String) (start : Token) (hint : Option String) :
    m.Maps (Expr.mapPlaces m.place) (expression text start hint)
      (expression text (m.token start) hint) := by
  unfold expression
  refine Agree.ite (fun _ _ _ => .error .unusable) fun _ => ?_
  cases Embedded.readTerm? text with
  | none => exact fun _ _ => .error (.problem _)
  | some term => exact agree_pure rfl

theorem expressionEnd_map (stops : TokenKind → Bool) (depth lambdas : Nat) (last : Option Token)
    (ts : List Token) : expressionEnd stops depth lambdas (last.map m.token) (ts.map m.token) =
      ((expressionEnd stops depth lambdas last ts).1.map m.token,
        (expressionEnd stops depth lambdas last ts).2.map m.token) := by
  induction ts generalizing depth lambdas last with
  | nil => rfl
  | cons t ts ih =>
    have hkind : (m.token t).kind = t.kind := rfl
    have htext : (m.token t).text = t.text := rfl
    rw [List.map_cons, expressionEnd, expressionEnd, hkind, htext]
    dsimp only
    split
    · rfl
    · exact ih _ _ (some t)

theorem subset_of_expressionEnd {stops : TokenKind → Bool} {depth lambdas : Nat}
    {last : Option Token} {ts rest : List Token} {t : Token}
    (h : expressionEnd stops depth lambdas last ts = (some t, rest)) :
    (t ∈ last ∨ t ∈ ts) ∧ rest ⊆ ts := by
  induction ts generalizing depth lambdas last with
  | nil =>
    obtain ⟨rfl, rfl⟩ := Prod.mk.inj h
    exact ⟨.inl rfl, List.Subset.refl _⟩
  | cons s ts ih =>
    rw [expressionEnd] at h
    dsimp only at h
    split at h
    · obtain ⟨rfl, rfl⟩ := Prod.mk.inj h
      exact ⟨.inl rfl, List.Subset.refl _⟩
    · obtain ⟨ht, hrest⟩ := ih h
      refine ⟨.inr ?_, List.Subset.trans hrest (List.subset_cons_self s ts)⟩
      rcases ht with ht | ht
      · exact List.mem_cons.mpr (.inl (Option.some.inj ht).symm)
      · exact List.mem_cons_of_mem s ht

theorem agree_captureExpression (stops : List TokenKind) (what : String) (hint : Option String) :
    m.Maps (Expr.mapPlaces m.place) (captureExpression stops what hint)
      (captureExpression stops what hint) := by
  refine agree_get.bind ?_
  rintro c _ ⟨rfl, hc⟩
  have hend : expressionEnd stops.contains 0 0 none (m.cursor c).rest = _ :=
    expressionEnd_map stops.contains 0 0 none c.rest
  dsimp only
  rw [hend, token_cursor]
  generalize hfound : expressionEnd stops.contains 0 0 none c.rest = found
  obtain ⟨_ | last, rest⟩ := found
  · exact agree_failAt _ c.token
  · obtain ⟨hlast, hsubset⟩ := subset_of_expressionEnd hfound
    have hlast : last ∈ c.rest := by simpa using hlast
    have hrest : m.Covers { c with previous := some last, rest } := fun s hs => hc s (hsubset hs)
    refine (agree_set hrest).bind fun _ _ _ => ?_
    refine (agree_textBetween c.token (hc last hlast)).bind ?_
    rintro text _ rfl
    exact agree_expression text c.token hint

theorem patternEnd_map (depth : Nat) (last : Option Token) (ts : List Token) :
    patternEnd depth (last.map m.token) (ts.map m.token) =
      ((patternEnd depth last ts).1.map m.token, (patternEnd depth last ts).2.map m.token) := by
  induction ts generalizing depth last with
  | nil => rfl
  | cons t ts ih =>
    have hkind : (m.token t).kind = t.kind := rfl
    rw [List.map_cons, patternEnd, patternEnd, hkind]
    split
    · rfl
    · exact ih _ (some t)

theorem subset_of_patternEnd {depth : Nat} {last : Option Token} {ts rest : List Token} {t : Token}
    (h : patternEnd depth last ts = (some t, rest)) : (t ∈ last ∨ t ∈ ts) ∧ rest ⊆ ts := by
  induction ts generalizing depth last with
  | nil =>
    obtain ⟨rfl, rfl⟩ := Prod.mk.inj h
    exact ⟨.inl rfl, List.Subset.refl _⟩
  | cons s ts ih =>
    rw [patternEnd] at h
    split at h
    · obtain ⟨rfl, rfl⟩ := Prod.mk.inj h
      exact ⟨.inl rfl, List.Subset.refl _⟩
    · obtain ⟨ht, hrest⟩ := ih h
      refine ⟨.inr ?_, List.Subset.trans hrest (List.subset_cons_self s ts)⟩
      rcases ht with ht | ht
      · exact List.mem_cons.mpr (.inl (Option.some.inj ht).symm)
      · exact List.mem_cons_of_mem s ht

theorem agree_pattern (text : String) (start : Token) :
    m.Maps (ArmPattern.mapPlaces m.place) (pattern text start) (pattern text (m.token start)) := by
  unfold pattern
  refine Agree.ite (fun _ _ _ => .error .unusable) fun _ => ?_
  cases Embedded.readArm? (flatten text) with
  | none => exact fun _ _ => .error (.problem _)
  | some arm =>
    refine Agree.ite (fun _ => ?_) fun _ => agree_pure rfl
    cases arm.render? with
    | some written => exact agree_pure rfl
    | none => exact fun _ _ => .error .unusable

theorem agree_capturePattern :
    m.Maps (ArmPattern.mapPlaces m.place) capturePattern capturePattern := by
  refine agree_get.bind ?_
  rintro c _ ⟨rfl, hc⟩
  have hend : patternEnd 0 none (m.cursor c).rest = _ := patternEnd_map 0 none c.rest
  dsimp only
  rw [hend, token_cursor]
  generalize hfound : patternEnd 0 none c.rest = found
  obtain ⟨_ | last, rest⟩ := found
  · exact agree_failAt _ c.token
  · obtain ⟨hlast, hsubset⟩ := subset_of_patternEnd hfound
    have hlast : last ∈ c.rest := by simpa using hlast
    have hrest : m.Covers { c with previous := some last, rest } := fun s hs => hc s (hsubset hs)
    refine (agree_set hrest).bind fun _ _ _ => ?_
    refine (agree_textBetween c.token (hc last hlast)).bind ?_
    rintro text _ rfl
    exact agree_pattern text c.token

theorem agree_stringValue (t : Token) : m.Agree Eq (stringValue t) (stringValue (m.token t)) := by
  have htext : (m.token t).text = t.text := rfl
  unfold stringValue
  rw [htext]
  split
  · exact agree_pure rfl
  · exact agree_pure rfl
  · exact agree_failAt _ t

end Placement
end ViewTree
