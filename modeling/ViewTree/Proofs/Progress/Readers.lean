import ViewTree.Proofs.Chunks.Readers

/-!
Readers that move on. Two readers are compared at a cursor on the tokens of a component: they do the
same there, they stay on the tokens, and neither ends because a bound is reached. Main statement: such
readers can be combined (`Steady.bind`, `Goes.bind`), and a loop whose rounds each take a token ends
before its rounds are used up (`goes_repeating`).
-/
namespace ViewTree
open Embedded TreeReader

/-- Of the embedded texts of a component, none has a meaning that ends reading for good: no expression
holds the character that ends texts, as it stands or as the text of a string literal, and all patterns
over several lines have a printed form. -/
structure Context.Legible (context : Context) (items : List Token) : Prop where
  whole : context.text.any endsTexts = false
  arguments : ∀ ts, ts <:+ items → ∀ t ∈ argument? ts, ∀ text ∈ literalText? t.text.toList,
    text.toList.any endsTexts = false
  patterns : ∀ ts, ts <:+ items → ∀ text ∈ context.patternText? ts, Text.isMultiline text →
    ∀ arm ∈ readArm? (flatten text), arm.render?.isSome

theorem Context.Legible.whole_slice {context : Context} {items : List Token}
    (h : context.Legible items) (start stop : Nat) :
    (String.ofList (Text.slice context.text start stop)).toList.any endsTexts = false :=
  whole_slice_of_whole h.whole start stop

/-- The end of reading has its reason in the source: no bound is reached, and it ends for good only if
some text is not legible. -/
def Failure.Founded (legible : Prop) : Failure → Prop
  | .problem e => e.problem ≠ .nested
  | .unusable => ¬legible

namespace Cursor

/-- The cursor is on the tokens or at their end, and fewer than `n` of them are left. -/
structure Within (tokens : Tokens) (n : Nat) (c : Cursor) : Prop where
  ends : c.eof.kind = .eof
  eof : c.eof = tokens.eof
  suffix : c.rest <:+ tokens.items
  length_lt : c.rest.length < n

namespace Within
variable {tokens : Tokens} {n m : Nat} {c : Cursor}

theorem mono (h : c.Within tokens n) (hle : n ≤ m) : c.Within tokens m :=
  { h with length_lt := Nat.lt_of_lt_of_le h.length_lt hle }

/-- A cursor with fewer tokens left. -/
theorem of_suffix (h : c.Within tokens n) {rest : List Token} (hrest : rest <:+ c.rest)
    (hlt : rest.length < m) (previous : Option Token) : Within tokens m ⟨previous, rest, c.eof⟩ :=
  ⟨h.ends, h.eof, hrest.trans h.suffix, hlt⟩

/-- A token that is not the mark of the end is taken. -/
theorem advance (h : c.Within tokens (n + 1)) (hkind : c.token.kind ≠ .eof) :
    c.advance.Within tokens n := by
  have hrest := rest_eq_cons h.ends hkind
  have hlt := h.length_lt
  rw [hrest, List.length_cons] at hlt
  exact ⟨c.eof_advance ▸ h.ends, c.eof_advance ▸ h.eof,
    (hrest ▸ List.suffix_cons c.token c.advance.rest).trans h.suffix, Nat.lt_of_succ_lt_succ hlt⟩

theorem advance_same (h : c.Within tokens n) : c.advance.Within tokens n := by
  have hlt := h.length_lt
  refine ⟨c.eof_advance ▸ h.ends, c.eof_advance ▸ h.eof, ?_, ?_⟩
  · rw [rest_advance]
    exact (List.tail_suffix _).trans h.suffix
  · rw [rest_advance, List.length_tail]
    omega

end Within
end Cursor

namespace TreeReader

/-- Two readers do the same at the cursor. What they give there has the property, and where they end
they have a reason. -/
structure Steady {α : Type} (context : Context) (tokens : Tokens) (c : Cursor)
    (Q : α → Cursor → Prop) (r r' : TreeReader α) : Prop where
  same : r context c = r' context c
  gives : ∀ a c', r context c = .ok (a, c') → Q a c'
  fails : ∀ failure, r context c = .error failure →
    failure.Founded (context.Legible tokens.items)

variable {context : Context} {tokens : Tokens} {α β σ : Type}

section
variable {c : Cursor} {Q : α → Cursor → Prop} {R : β → Cursor → Prop}

theorem steady_ok {r r' : TreeReader α} {a : α} {c' : Cursor} (hr : r context c = .ok (a, c'))
    (hr' : r' context c = .ok (a, c')) (h : Q a c') : Steady context tokens c Q r r' := by
  refine ⟨hr.trans hr'.symm, fun b d heq => ?_, fun failure herror => ?_⟩
  · obtain ⟨rfl, rfl⟩ := Prod.mk.inj (Except.ok.inj (hr.symm.trans heq))
    exact h
  · rw [hr] at herror
    nomatch herror

theorem steady_error {r r' : TreeReader α} {failure : Failure} (hr : r context c = .error failure)
    (hr' : r' context c = .error failure) (h : failure.Founded (context.Legible tokens.items)) :
    Steady context tokens c Q r r' := by
  refine ⟨hr.trans hr'.symm, fun a c' heq => ?_, fun other herror => ?_⟩
  · rw [hr] at heq
    nomatch heq
  · exact Except.error.inj (hr.symm.trans herror) ▸ h

/-- Readers that do what others do, each at its cursor. -/
theorem Steady.of_eq {r r' s s' : TreeReader α} {c' : Cursor} (h : Steady context tokens c' Q s s')
    (heq : r context c = s context c') (heq' : r' context c = s' context c') :
    Steady context tokens c Q r r' :=
  ⟨heq.trans (h.same.trans heq'.symm), heq ▸ h.gives, heq ▸ h.fails⟩

theorem steady_pure {a : α} (h : Q a c) : Steady context tokens c Q (pure a) (pure a) :=
  steady_ok rfl rfl h

theorem Steady.bind {r r' : TreeReader α} {k k' : α → TreeReader β} (h : Steady context tokens c Q r r')
    (hk : ∀ a c', Q a c' → Steady context tokens c' R (k a) (k' a)) :
    Steady context tokens c R (r >>= k) (r' >>= k') := by
  have hbind : (r >>= k) context c = (r context c >>= fun x => k x.1 context x.2) := rfl
  have hbind' : (r' >>= k') context c = (r' context c >>= fun x => k' x.1 context x.2) := rfl
  rw [← h.same] at hbind'
  cases hr : r context c with
  | error failure =>
    rw [hr] at hbind hbind'
    exact steady_error hbind hbind' (h.fails failure hr)
  | ok found =>
    obtain ⟨a, c'⟩ := found
    rw [hr] at hbind hbind'
    exact (hk a c' (h.gives a c' hr)).of_eq hbind hbind'

theorem Steady.mono {Q' : α → Cursor → Prop} {r r' : TreeReader α} (h : Steady context tokens c Q r r')
    (hmono : ∀ a c', Q a c' → Q' a c') : Steady context tokens c Q' r r' :=
  ⟨h.same, fun a c' heq => hmono a c' (h.gives a c' heq), h.fails⟩

theorem Steady.ite {q : Prop} [Decidable q] {r r' s s' : TreeReader α}
    (hr : q → Steady context tokens c Q r r') (hs : ¬q → Steady context tokens c Q s s') :
    Steady context tokens c Q (if q then r else s) (if q then r' else s') := by
  by_cases hq : q
  · simpa only [if_pos hq] using hr hq
  · simpa only [if_neg hq] using hs hq

theorem steady_problem {error : ParseError} (h : error.problem ≠ .nested) :
    Steady context tokens c Q (throw (.problem error)) (throw (.problem error)) :=
  steady_error rfl rfl h

theorem steady_unusable (h : ¬context.Legible tokens.items) :
    Steady context tokens c Q (throw .unusable) (throw .unusable) :=
  steady_error rfl rfl h

theorem steady_failAt {problem : Problem} (t : Token) (h : problem ≠ .nested) :
    Steady context tokens c Q (failAt problem t) (failAt problem t) :=
  steady_problem h

theorem steady_fail {problem : Problem} (h : problem ≠ .nested) :
    Steady context tokens c Q (fail problem) (fail problem) :=
  have hfail : Steady context tokens c Q (failAt problem c.token) (failAt problem c.token) :=
    steady_failAt c.token h
  hfail.of_eq rfl rfl

theorem steady_failAt_bind {problem : Problem} (t : Token) {k k' : α → TreeReader β}
    (h : problem ≠ .nested) :
    Steady context tokens c R (failAt problem t >>= k) (failAt problem t >>= k') :=
  (steady_failAt (Q := fun _ _ => False) t h).bind fun _ _ h => h.elim

theorem steady_fail_bind {problem : Problem} {k k' : α → TreeReader β} (h : problem ≠ .nested) :
    Steady context tokens c R (fail problem >>= k) (fail problem >>= k') :=
  (steady_fail (Q := fun _ _ => False) h).bind fun _ _ h => h.elim

theorem steady_get {k k' : Cursor → TreeReader β} (h : Steady context tokens c R (k c) (k' c)) :
    Steady context tokens c R (get >>= k) (get >>= k') := h.of_eq rfl rfl

theorem steady_set {c' : Cursor} {k k' : PUnit → TreeReader β}
    (h : Steady context tokens c' R (k ⟨⟩) (k' ⟨⟩)) :
    Steady context tokens c R (set c' >>= k) (set c' >>= k') := h.of_eq rfl rfl

theorem steady_read {k k' : Context → TreeReader β}
    (h : Steady context tokens c R (k context) (k' context)) :
    Steady context tokens c R (read >>= k) (read >>= k') := h.of_eq rfl rfl

theorem steady_current {k k' : Token → TreeReader β}
    (h : Steady context tokens c R (k c.token) (k' c.token)) :
    Steady context tokens c R (current >>= k) (current >>= k') := h.of_eq rfl rfl

theorem steady_ahead {n : Nat} {k k' : Token → TreeReader β}
    (h : Steady context tokens c R (k (c.ahead n)) (k' (c.ahead n))) :
    Steady context tokens c R (ahead n >>= k) (ahead n >>= k') := h.of_eq rfl rfl

theorem steady_isNext {kind : TokenKind} {k k' : Bool → TreeReader β}
    (h : Steady context tokens c R (k (c.token.kind = kind)) (k' (c.token.kind = kind))) :
    Steady context tokens c R (isNext kind >>= k) (isNext kind >>= k') := h.of_eq rfl rfl

theorem steady_advance {k k' : Token → TreeReader β}
    (h : Steady context tokens c.advance R (k c.token) (k' c.token)) :
    Steady context tokens c R (advance >>= k) (advance >>= k') := h.of_eq rfl rfl

theorem steady_accept {kind : TokenKind} {k k' : Bool → TreeReader β}
    (htaken : c.token.kind = kind → Steady context tokens c.advance R (k true) (k' true))
    (hleft : c.token.kind ≠ kind → Steady context tokens c R (k false) (k' false)) :
    Steady context tokens c R (accept kind >>= k) (accept kind >>= k') := by
  have hstep : accept kind context c = (if decide (c.token.kind = kind) then (do
      let _ ← advance
      pure true) else pure false : TreeReader Bool) context c := rfl
  by_cases hkind : c.token.kind = kind
  · rw [decide_eq_true hkind] at hstep
    exact (steady_ok (Q := fun b d => b = true ∧ d = c.advance) hstep hstep ⟨rfl, rfl⟩).bind (by
      rintro _ _ ⟨rfl, rfl⟩
      exact htaken hkind)
  · rw [decide_eq_false hkind] at hstep
    exact (steady_ok (Q := fun b d => b = false ∧ d = c) hstep hstep ⟨rfl, rfl⟩).bind (by
      rintro _ _ ⟨rfl, rfl⟩
      exact hleft hkind)

theorem steady_expect {kind : TokenKind} {T : Token → Cursor → Prop}
    (h : c.token.kind = kind → T c.token c.advance) :
    Steady context tokens c T (expect kind) (expect kind) :=
  steady_current (Steady.ite (fun hkind => steady_ok rfl rfl (h hkind)) fun _ =>
    steady_failAt c.token nofun)

theorem steady_name {S : String → Cursor → Prop}
    (h : c.token.kind.isName → S c.token.text c.advance) :
    Steady context tokens c S name name :=
  steady_current (Steady.ite (fun hkind => steady_ok rfl rfl (h hkind)) fun _ =>
    steady_failAt c.token nofun)

end

/-- From a cursor with `P` two readers go to one with `Q` if they go anywhere, both to the same. -/
def Goes {α : Type} (context : Context) (tokens : Tokens) (P Q : Cursor → Prop)
    (r r' : TreeReader α) : Prop := ∀ c, P c → Steady context tokens c (fun _ => Q) r r'

abbrev Stays {α : Type} (context : Context) (tokens : Tokens) (n : Nat) (r r' : TreeReader α) : Prop :=
  Goes context tokens (Cursor.Within tokens n) (Cursor.Within tokens n) r r'

abbrev Consumes {α : Type} (context : Context) (tokens : Tokens) (n : Nat) (r r' : TreeReader α) :
    Prop := Goes context tokens (Cursor.Within tokens (n + 1)) (Cursor.Within tokens n) r r'

/-- The rounds of two loops: each takes a token at least, or is the last one. -/
def Advances {σ : Type} (context : Context) (tokens : Tokens) (n : Nat)
    (step step' : σ → TreeReader (Option σ)) : Prop :=
  ∀ s c, c.Within tokens (n + 1) → Steady context tokens c
    (fun s' => Cursor.Within tokens (if s'.isSome then n else n + 1)) (step s) (step' s)

variable {P Q R : Cursor → Prop} {n : Nat}

theorem goes_pure (a : α) : Goes context tokens P P (pure a) (pure a) := fun _ hc => steady_pure hc

theorem Goes.bind {r r' : TreeReader α} {k k' : α → TreeReader β} (h : Goes context tokens P Q r r')
    (hk : ∀ a, Goes context tokens Q R (k a) (k' a)) :
    Goes context tokens P R (r >>= k) (r' >>= k') :=
  fun c hc => (h c hc).bind fun a c' hc' => hk a c' hc'

theorem Goes.ite {q : Prop} [Decidable q] {r r' s s' : TreeReader α}
    (hr : q → Goes context tokens P Q r r') (hs : ¬q → Goes context tokens P Q s s') :
    Goes context tokens P Q (if q then r else s) (if q then r' else s') :=
  fun c hc => Steady.ite (fun hq => hr hq c hc) fun hq => hs hq c hc

theorem goes_failAt {problem : Problem} (t : Token) (h : problem ≠ .nested) :
    Goes context tokens P Q (failAt (α := α) problem t) (failAt problem t) :=
  fun _ _ => steady_failAt t h

theorem goes_failAt_bind {problem : Problem} (t : Token) {k k' : α → TreeReader β}
    (h : problem ≠ .nested) :
    Goes context tokens P Q (failAt problem t >>= k) (failAt problem t >>= k') :=
  fun _ _ => steady_failAt_bind t h

theorem goes_fail {problem : Problem} (h : problem ≠ .nested) :
    Goes context tokens P Q (fail (α := α) problem) (fail problem) := fun _ _ => steady_fail h

theorem goes_fail_bind {problem : Problem} {k k' : α → TreeReader β} (h : problem ≠ .nested) :
    Goes context tokens P Q (fail problem >>= k) (fail problem >>= k') :=
  fun _ _ => steady_fail_bind h

theorem goes_read : Goes context tokens P P (read : TreeReader Context) read :=
  fun _ hc => steady_ok rfl rfl hc

theorem goes_current : Goes context tokens P P current current := fun _ hc => steady_ok rfl rfl hc

theorem goes_isNext (kind : TokenKind) : Goes context tokens P P (isNext kind) (isNext kind) :=
  fun _ hc => steady_ok rfl rfl hc

theorem stays_accept (kind : TokenKind) : Stays context tokens n (accept kind) (accept kind) := by
  intro c hc
  rw [← bind_pure (accept kind)]
  exact steady_accept (fun _ => steady_pure hc.advance_same) fun _ => steady_pure hc

/-- A token that is asked for is taken. -/
theorem consumes_expect {kind : TokenKind} (hkind : kind ≠ .eof) :
    Consumes context tokens n (expect kind) (expect kind) := fun _ hc =>
  steady_expect fun htoken => hc.advance (htoken ▸ hkind)

theorem ne_eof_of_isName {kind : TokenKind} (h : kind.isName) : kind ≠ .eof := by
  rintro rfl
  nomatch h

theorem consumes_name : Consumes context tokens n name name := fun _ hc =>
  steady_name fun hname => hc.advance (ne_eof_of_isName hname)

theorem goes_foldlM {τ : Type} {step : σ → τ → TreeReader σ}
    (h : ∀ s x, Goes context tokens P P (step s x) (step s x)) (xs : List τ) (s : σ) :
    Goes context tokens P P (xs.foldlM step s) (xs.foldlM step s) := by
  induction xs generalizing s with
  | nil => exact goes_pure s
  | cons x xs ih =>
    rw [List.foldlM_cons]
    exact (h s x).bind ih

theorem stays_of_consumes {r r' : TreeReader α}
    (h : ∀ m < n, Consumes context tokens m r r') : Stays context tokens n r r' :=
  fun c hc => (h c.rest.length hc.length_lt c { hc with length_lt := Nat.lt_succ_self _ }).mono
    fun _ _ hc' => hc'.mono (Nat.le_of_lt hc.length_lt)

theorem stays_expect {kind : TokenKind} (hkind : kind ≠ .eof) :
    Stays context tokens n (expect kind) (expect kind) :=
  stays_of_consumes fun _ _ => consumes_expect hkind

theorem stays_name : Stays context tokens n name name := stays_of_consumes fun _ _ => consumes_name

/-- A loop ends before its rounds are used up. -/
theorem goes_repeating {step step' : σ → TreeReader (Option σ)}
    (h : ∀ m < n, Advances context tokens m step step') (s : σ) :
    Stays context tokens n (repeating step s) (repeating step' s) := by
  have hrounds (count : Nat) : ∀ s c, c.Within tokens n → c.rest.length < count →
      Steady context tokens c (fun _ => Cursor.Within tokens n)
        (rounds (fail .nested) step count s) (rounds (fail .nested) step' count s) := by
    induction count with
    | zero => exact fun _ _ _ hlt => absurd hlt (Nat.not_lt_zero _)
    | succ count ih =>
      intro s c hc hlt
      have hround := h c.rest.length hc.length_lt s c { hc with length_lt := Nat.lt_succ_self _ }
      refine hround.bind fun s' c' hc' => ?_
      cases s' with
      | none => exact steady_pure (hc'.mono hc.length_lt)
      | some s' =>
        exact ih s' c' (hc'.mono (Nat.le_of_lt hc.length_lt))
          (Nat.lt_of_lt_of_le hc'.length_lt (Nat.le_of_lt_succ hlt))
  exact fun c hc => (hrounds (c.rest.length + 1) s c hc (Nat.lt_succ_self _)).of_eq rfl rfl

def blockRound {α : Type} (opening : Token) (item : TreeReader α) (found : List α × Bool) :
    TreeReader (Option (List α × Bool)) := do
  if found.2 || (← isNext .rbrace) then pure none
  else if ← isNext .eof then failAt (.unclosed "\x7b") opening
  else
    let found := (← item) :: found.1
    if ← accept .comma then pure (some (found, false))
    else if ← isNext .rbrace then pure (some (found, true))
    else if (← get).previous.any (·.kind = .rbrace) then pure (some (found, false))
    else fail (.expected "',' or '\x7d'" (← current).describe)

theorem block_eq (opening : Token) (item : TreeReader α) : block opening item = (do
    let found ← repeating (blockRound opening item) ([], false)
    let _ ← expect .rbrace
    pure found.1.reverse) := rfl

theorem advances_blockRound {item item' : TreeReader α} (h : Consumes context tokens n item item')
    (opening : Token) :
    Advances context tokens n (blockRound opening item) (blockRound opening item') := by
  intro found c hc
  refine steady_isNext (Steady.ite (fun _ => steady_pure hc) fun _ => ?_)
  refine steady_isNext (Steady.ite (fun _ => steady_failAt opening nofun) fun _ => ?_)
  refine (h c hc).bind fun a c hc => ?_
  refine steady_accept (fun _ => steady_pure hc.advance_same) fun _ => ?_
  refine steady_isNext (Steady.ite (fun _ => steady_pure hc) fun _ => ?_)
  refine steady_get (Steady.ite (fun _ => steady_pure hc) fun _ => ?_)
  exact steady_current (steady_fail nofun)

theorem stays_block {item item' : TreeReader α} (h : ∀ m < n, Consumes context tokens m item item')
    (opening : Token) : Stays context tokens n (block opening item) (block opening item') := by
  rw [block_eq, block_eq]
  refine (goes_repeating (fun m hm => advances_blockRound (h m hm) opening) _).bind fun found => ?_
  exact (stays_expect (by decide)).bind fun _ => goes_pure _

theorem closing?_shortens {depth : Nat} {t : Token} {ts rest : List Token}
    (h : closing? depth ts = some (t, rest)) : rest <:+ ts ∧ rest.length < ts.length := by
  obtain ⟨us, rfl, -⟩ := exists_of_closing? h
  refine ⟨(List.suffix_cons t rest).trans (List.suffix_append us _), ?_⟩
  rw [List.length_append, List.length_cons]
  omega

theorem consumes_balanced : Consumes context tokens n balanced balanced := by
  intro c hc
  refine steady_get ?_
  cases hfound : closing? 0 c.rest with
  | none => exact steady_failAt _ nofun
  | some found =>
    obtain ⟨t, rest⟩ := found
    obtain ⟨hsuffix, hlt⟩ := closing?_shortens hfound
    exact steady_set (steady_pure (hc.of_suffix hsuffix
      (Nat.lt_of_lt_of_le hlt (Nat.le_of_lt_succ hc.length_lt)) _))

/-- Wherever a reader goes from another cursor, this one is set back. -/
theorem goes_rereading {c₀ : Cursor} {r r' : TreeReader α} (h : Stays context tokens n r r')
    (hc₀ : c₀.Within tokens n) : Goes context tokens P P (rereading c₀ r) (rereading c₀ r') :=
  fun _ hc => steady_get (steady_set ((h c₀ hc₀).bind fun _ _ _ => steady_set (steady_pure hc)))

theorem goes_expression {text : String}
    (h : context.Legible tokens.items → text.toList.any endsTexts = false) (start : Token)
    (hint : Option String) :
    Goes context tokens P P (expression text start hint) (expression text start hint) := by
  unfold expression
  refine Goes.ite (fun hends _ _ => steady_unusable fun hlegible => ?_) fun _ => ?_
  · exact Bool.false_ne_true ((h hlegible).symm.trans hends)
  split
  · exact goes_pure _
  · exact fun _ _ => steady_problem nofun

theorem consumes_captureExpression (stops : List TokenKind) (what : String) (hint : Option String) :
    Consumes context tokens n (captureExpression stops what hint)
      (captureExpression stops what hint) := by
  intro c hc
  refine steady_get ?_
  dsimp only
  generalize hfound : expressionEnd stops.contains 0 0 none c.rest = found
  obtain ⟨last?, rest⟩ := found
  obtain ⟨us, -, hus, hlast, -⟩ := exists_of_expressionEnd hfound
  cases last? with
  | none => exact steady_failAt _ nofun
  | some last =>
    have hlt : rest.length < c.rest.length := by
      cases us with
      | nil => nomatch hlast
      | cons t us =>
        rw [hus, List.cons_append, List.length_cons, List.length_append]
        omega
    have hbehind := hc.of_suffix (hus ▸ List.suffix_append us rest)
      (Nat.lt_of_lt_of_le hlt (Nat.le_of_lt_succ hc.length_lt)) (some last)
    refine steady_set (steady_read ?_)
    exact goes_expression (fun hlegible => hlegible.whole_slice _ _) c.token hint _ hbehind

theorem patternEnd_shortens {depth : Nat} {last last' : Option Token} {ts rest : List Token}
    (h : patternEnd depth last ts = (last', rest)) :
    rest <:+ ts ∧ (last' = last ∨ rest.length < ts.length) := by
  induction ts generalizing depth last with
  | nil =>
    obtain ⟨rfl, rfl⟩ := Prod.mk.inj h
    exact ⟨List.suffix_refl _, .inl rfl⟩
  | cons t ts ih =>
    rw [patternEnd] at h
    split at h
    · obtain ⟨rfl, rfl⟩ := Prod.mk.inj h
      exact ⟨List.suffix_refl _, .inl rfl⟩
    · obtain ⟨hsuffix, -⟩ := ih h
      exact ⟨hsuffix.trans (List.suffix_cons t ts), .inr (Nat.lt_succ_of_le hsuffix.length_le)⟩

theorem goes_pattern {text : String}
    (hwhole : context.Legible tokens.items → text.toList.any endsTexts = false)
    (hprinted : context.Legible tokens.items → Text.isMultiline text →
      ∀ arm ∈ readArm? (flatten text), arm.render?.isSome) (start : Token) :
    Goes context tokens P P (pattern text start) (pattern text start) := by
  unfold pattern
  refine Goes.ite (fun hends _ _ => steady_unusable fun hlegible => ?_) fun _ => ?_
  · exact Bool.false_ne_true ((hwhole hlegible).symm.trans hends)
  cases hread : readArm? (flatten text) with
  | none => exact fun _ _ => steady_problem nofun
  | some arm =>
    refine Goes.ite (fun hlines => ?_) fun _ => goes_pure _
    cases hwritten : arm.render? with
    | some written => exact goes_pure _
    | none =>
      refine fun _ _ => steady_unusable fun hlegible => ?_
      have hsome := hprinted hlegible hlines arm hread
      rw [hwritten] at hsome
      nomatch hsome

theorem consumes_capturePattern : Consumes context tokens n capturePattern capturePattern := by
  intro c hc
  refine steady_get ?_
  dsimp only
  generalize hfound : patternEnd 0 none c.rest = found
  obtain ⟨_ | last, rest⟩ := found
  · exact steady_failAt _ nofun
  · obtain ⟨hsuffix, hlt⟩ := patternEnd_shortens hfound
    have hbehind := hc.of_suffix hsuffix
      (Nat.lt_of_lt_of_le (hlt.resolve_left nofun) (Nat.le_of_lt_succ hc.length_lt)) (some last)
    have htoken : c.rest.head? = some c.token := by
      cases hhead : c.rest with
      | nil => rw [hhead] at hfound; nomatch hfound
      | cons t more => rw [Cursor.token, hhead]; rfl
    have htext : context.patternText? c.rest =
        some (String.ofList (Text.slice context.text c.token.offset last.stop)) := by
      rw [Context.patternText?, htoken, hfound]
    refine steady_set (steady_read ?_)
    exact goes_pattern (fun hlegible => hlegible.whole_slice _ _)
      (fun hlegible => hlegible.patterns c.rest hc.suffix _ htext) c.token _ hbehind

/-- What a string literal stands for where a text is asked for. -/
theorem steady_stringValue {c : Cursor} (t : Token) {R : β → Cursor → Prop}
    {k k' : Option String → TreeReader β}
    (h : ∀ value, (∀ text ∈ value, literalText? t.text.toList = some text) →
      Steady context tokens c R (k value) (k' value)) :
    Steady context tokens c R (stringValue t >>= k) (stringValue t >>= k') := by
  have hvalue : Steady context tokens c (fun value c' => c' = c ∧
      ∀ text ∈ value, literalText? t.text.toList = some text) (stringValue t) (stringValue t) := by
    unfold stringValue
    split
    · next codes marked hread =>
      refine steady_pure ⟨rfl, ?_⟩
      rintro _ ⟨⟩
      rw [literalText?, hread]
    · exact steady_pure ⟨rfl, fun _ hnone => absurd hnone (Option.not_mem_none _)⟩
    · exact steady_failAt t fun h => Problem.noConfusion h
  refine hvalue.bind fun value c' hfound => ?_
  rw [hfound.1]
  exact h value hfound.2

end TreeReader
end ViewTree
