import ViewTree.Proofs.Reading.Usable

/-!
What readers give. A reader yields a property if whatever it reads has it, and ends for good only if
the source is not usable; the tokens that it leaves are as sound as those it found. Main statements:
readers that yield something can be combined (`Yields.bind`, `yields_repeating`, `yields_block`),
names are words of the source (`yields_name`), and the text of an embedded expression reads as its
term and closes no bracket that it has not opened (`yields_captureExpression`).
-/
namespace ViewTree
open Embedded

/-- The name is a word that stands in the source. -/
structure Context.Writes (context : Context) (name : String) : Prop where
  word : IsWord name
  copied : name.toList <:+: context.text

/-- The path is made of words of the source with dots between them. -/
def Context.WritesPath (context : Context) (path : String) : Prop :=
  ∃ segments, segments ≠ [] ∧ (∀ s ∈ segments, context.Writes s) ∧
    path = ".".intercalate segments

/-- A token whose text stands in the source. -/
structure Token.Sound (context : Context) (t : Token) : Prop where
  spelled : t.Spelled
  copied : t.text.toList <:+: context.text

theorem Token.Sound.writes {context : Context} {t : Token} (h : t.Sound context)
    (hname : t.kind.isName) : context.Writes t.text := ⟨h.spelled hname, h.copied⟩

/-- The tokens to come are what is left of those of a component, with the mark of its end behind. -/
structure Cursor.Sound (context : Context) (c : Cursor) : Prop where
  held : c.rest ∈ context.remainders
  ended : c.eof.kind = .eof ∧ c.eof.text = ""

namespace Cursor
variable {context : Context} {c c' : Cursor}

/-- Unless it is the mark of the end, the current token is the next one of those to come. -/
theorem rest_eq_cons (heof : c.eof.kind = .eof) (hkind : c.token.kind ≠ .eof) :
    c.rest = c.token :: c.advance.rest := by
  obtain ⟨previous, rest, eof⟩ := c
  cases rest with
  | nil => exact absurd heof hkind
  | cons t rest => rfl

theorem sound_token (hc : c.Sound context) : c.token.Sound context := by
  obtain ⟨previous, rest, eof⟩ := c
  cases rest with
  | nil =>
    obtain ⟨hkind, htext⟩ := hc.ended
    refine ⟨fun hname => ?_, ?_⟩
    · -- the end is no name
      rw [show (token ⟨previous, [], eof⟩).kind = .eof from hkind] at hname
      nomatch hname
    · rw [show (token ⟨previous, [], eof⟩).text = "" from htext]
      exact List.nil_infix
  | cons t rest =>
    obtain ⟨start, stop, tokens, hlex, hitems⟩ := Context.holds_of_mem_remainders hc.held
    have ht : t ∈ tokens.items := hitems.subset List.mem_cons_self
    have hslice : Text.slice context.text start stop <:+: context.text :=
      ((List.take_prefix _ _).isInfix).trans (List.drop_suffix _ _).isInfix
    exact ⟨Lexer.spelled_of_run hlex t ht, (Lexer.infix_of_mem_run hlex t ht).trans hslice⟩

theorem sound_of_suffix (hc : c.Sound context) (heof : c'.eof = c.eof) (hrest : c'.rest <:+ c.rest) :
    c'.Sound context :=
  ⟨Context.mem_remainders_of_suffix hc.held hrest, heof ▸ hc.ended⟩

theorem sound_advance (hc : c.Sound context) : c.advance.Sound context := by
  refine sound_of_suffix hc ?_ ?_
  · unfold advance
    split <;> rfl
  · rw [rest_advance]
    exact List.tail_suffix _

end Cursor

/-- The text, put in parentheses, reads as the term; it holds no character that ends texts. -/
structure Expr.Reads (e : Expr) : Prop where
  term : readTerm? e.text = some e.term
  whole : ∀ c ∈ e.text.toList, TreeReader.endsTexts c = false

def IsQuoted (source : List Char) (text : String) : Prop :=
  ∃ written start stop codes marked, written <:+: source ∧
    readText? (fun g _ => g.expression) written =
      some (.mk start stop (.literal (.text codes marked))) ∧ text = textOf codes

/-- The text reads as the term, and was found by its brackets. -/
structure Expr.Captured (e : Expr) : Prop where
  reads : e.Reads
  nested : IsNested e.text

/-- The text reads as the term, and was found by its brackets or stands in a string literal. -/
structure Expr.Sound (context : Context) (e : Expr) : Prop where
  reads : e.Reads
  origin : IsNested e.text ∨ IsQuoted context.text e.text

theorem Expr.Captured.sound {e : Expr} (h : e.Captured) (context : Context) : e.Sound context :=
  ⟨h.reads, .inl h.nested⟩

/-- The pattern is that of a text, and written as there or anew. -/
def ArmPattern.Reads (p : ArmPattern) : Prop := ∃ source,
  readArm? (TreeReader.flatten source) = some p.arm ∧
    (p.text = source ∨ p.arm.render? = some p.text)

namespace TreeReader

/-- What the reader gives at the cursor and the cursor that it leaves have the property; it ends for
good only if `p` does not hold. -/
structure Carries {α : Type} (p : Prop) (context : Context) (c : Cursor) (Q : α → Cursor → Prop)
    (r : TreeReader α) : Prop where
  gives : ∀ a c', r context c = .ok (a, c') → Q a c'
  ends : p → r context c ≠ .error .unusable

/-- The same, where the reader ends for good only if the source is not usable. -/
abbrev CarriesAt {α : Type} (context : Context) (c : Cursor) (Q : α → Cursor → Prop)
    (r : TreeReader α) : Prop := Carries context.Usable context c Q r

def YieldsAt {α : Type} (context : Context) (c : Cursor) (Q : α → Prop) (r : TreeReader α) : Prop :=
  CarriesAt context c (fun a c' => Q a ∧ c'.Sound context) r

def Yields {α : Type} (context : Context) (Q : α → Prop) (r : TreeReader α) : Prop :=
  ∀ c, c.Sound context → YieldsAt context c Q r

variable {context : Context} {α β σ : Type}

section
variable {p : Prop} {c : Cursor} {Q : α → Cursor → Prop} {R : β → Cursor → Prop}
  {T : Token → Cursor → Prop} {S : String → Cursor → Prop}

theorem carries_ok {r : TreeReader α} {a : α} {c' : Cursor} (hr : r context c = .ok (a, c'))
    (h : Q a c') : Carries p context c Q r := by
  refine ⟨fun b d heq => ?_, fun _ herror => ?_⟩
  · obtain ⟨rfl, rfl⟩ := Prod.mk.inj (Except.ok.inj (hr.symm.trans heq))
    exact h
  · rw [hr] at herror
    nomatch herror

/-- Readers that do the same, each at its cursor. -/
theorem Carries.of_eq {r s : TreeReader α} {c' : Cursor} (h : Carries p context c' Q s)
    (heq : r context c = s context c') : Carries p context c Q r :=
  ⟨heq ▸ h.gives, heq ▸ h.ends⟩

theorem carries_pure {a : α} (h : Q a c) : Carries p context c Q (pure a) := carries_ok rfl h

theorem carries_error {r : TreeReader α} {failure : Failure} (hr : r context c = .error failure)
    (h : failure = .unusable → ¬p) : Carries p context c Q r := by
  refine ⟨fun a c' heq => ?_, fun husable herror => ?_⟩
  · rw [hr] at heq
    cases heq
  · exact h (Except.error.inj (hr.symm.trans herror)) husable

theorem Carries.bind {r : TreeReader α} {k : α → TreeReader β} (h : Carries p context c Q r)
    (hk : ∀ a c', Q a c' → Carries p context c' R (k a)) : Carries p context c R (r >>= k) := by
  have hbind : (r >>= k) context c = (r context c >>= fun x => k x.1 context x.2) := rfl
  cases hr : r context c with
  | error failure =>
    rw [hr] at hbind
    exact carries_error hbind fun hfailure husable => h.ends husable (hfailure ▸ hr)
  | ok found =>
    obtain ⟨a, c'⟩ := found
    rw [hr] at hbind
    exact (hk a c' (h.gives a c' hr)).of_eq hbind

theorem Carries.mono {Q' : α → Cursor → Prop} {r : TreeReader α} (h : Carries p context c Q r)
    (hmono : ∀ a c', Q a c' → Q' a c') : Carries p context c Q' r :=
  ⟨fun a c' heq => hmono a c' (h.gives a c' heq), h.ends⟩

theorem Carries.ite {q : Prop} [Decidable q] {r s : TreeReader α}
    (hr : q → Carries p context c Q r) (hs : ¬q → Carries p context c Q s) :
    Carries p context c Q (if q then r else s) := by
  by_cases hq : q
  · simpa only [if_pos hq] using hr hq
  · simpa only [if_neg hq] using hs hq

theorem carries_problem (error : ParseError) : Carries p context c Q (throw (.problem error)) :=
  carries_error rfl nofun

theorem carries_unusable (h : ¬p) : Carries p context c Q (throw .unusable) :=
  carries_error rfl fun _ => h

theorem carries_failAt (problem : Problem) (t : Token) :
    Carries p context c Q (failAt problem t) := carries_problem _

theorem carries_fail (problem : Problem) : Carries p context c Q (fail problem) :=
  (carries_problem (c := c) (.atToken problem c.token)).of_eq rfl

theorem carries_get {k : Cursor → TreeReader β} (h : Carries p context c R (k c)) :
    Carries p context c R (get >>= k) := h.of_eq rfl

theorem carries_set {c' : Cursor} {k : PUnit → TreeReader β} (h : Carries p context c' R (k ⟨⟩)) :
    Carries p context c R (set c' >>= k) := h.of_eq rfl

theorem carries_current {k : Token → TreeReader β} (h : Carries p context c R (k c.token)) :
    Carries p context c R (current >>= k) := h.of_eq rfl

theorem carries_ahead {n : Nat} {k : Token → TreeReader β}
    (h : Carries p context c R (k (c.ahead n))) : Carries p context c R (ahead n >>= k) := h.of_eq rfl

theorem carries_isNext {kind : TokenKind} {k : Bool → TreeReader β}
    (h : Carries p context c R (k (c.token.kind = kind))) :
    Carries p context c R (isNext kind >>= k) := h.of_eq rfl

theorem carries_advance {k : Token → TreeReader β}
    (h : Carries p context c.advance R (k c.token)) : Carries p context c R (advance >>= k) := h.of_eq rfl

/-- A reader that goes on from the cursor to another one. -/
theorem carries_step {r : TreeReader α} {k : α → TreeReader β} {a : α} {c' : Cursor}
    (hr : r context c = .ok (a, c')) (h : Carries p context c' R (k a)) :
    Carries p context c R (r >>= k) :=
  (carries_ok (Q := fun b d => b = a ∧ d = c') hr ⟨rfl, rfl⟩).bind (by
    rintro _ _ ⟨rfl, rfl⟩
    exact h)

theorem carries_accept {kind : TokenKind} {k : Bool → TreeReader β}
    (htaken : c.token.kind = kind → Carries p context c.advance R (k true))
    (hleft : c.token.kind ≠ kind → Carries p context c R (k false)) :
    Carries p context c R (accept kind >>= k) := by
  have hstep : accept kind context c = (if decide (c.token.kind = kind) then (do
      let _ ← advance
      pure true) else pure false : TreeReader Bool) context c := rfl
  by_cases hkind : c.token.kind = kind
  · rw [decide_eq_true hkind] at hstep
    exact carries_step hstep (htaken hkind)
  · rw [decide_eq_false hkind] at hstep
    exact carries_step hstep (hleft hkind)

/-- A token that is asked for, where the cursor goes on behind it. -/
theorem carries_expect {kind : TokenKind}
    (h : c.token.kind = kind → T c.token c.advance) : Carries p context c T (expect kind) :=
  carries_current (Carries.ite (fun hkind => carries_ok rfl (h hkind)) fun _ =>
    carries_failAt _ c.token)

theorem carries_name (h : c.token.kind.isName → S c.token.text c.advance) :
    Carries p context c S name :=
  carries_current (Carries.ite (fun hkind => carries_ok rfl (h hkind)) fun _ =>
    carries_failAt _ c.token)

/-- A loop whose rounds keep `I`, up to the last one, which ends with `J`. -/
theorem carries_repeating_until {I J : σ → Cursor → Prop} {step : σ → TreeReader (Option σ)}
    (hstep : ∀ s c, I s c →
      Carries p context c (fun s' c' => s'.elim (J s c') (I · c')) (step s)) {s : σ} (h : I s c) :
    Carries p context c J (repeating step s) := by
  have hrounds (count : Nat) : ∀ s c, I s c →
      Carries p context c J (rounds (fail .nested) step count s) := by
    induction count with
    | zero => exact fun _ c _ => carries_fail .nested
    | succ count ih =>
      intro s c h
      refine (hstep s c h).bind fun s' c' h' => ?_
      cases s' with
      | none => exact carries_pure h'
      | some s' => exact ih s' c' h'
  exact (hrounds (c.rest.length + 1) s c h).of_eq rfl

theorem carries_repeating {I : σ → Cursor → Prop} {step : σ → TreeReader (Option σ)}
    (hstep : ∀ s c, I s c → Carries p context c (fun s' c' => I (s'.getD s) c') (step s)) {s : σ}
    (h : I s c) : Carries p context c I (repeating step s) := by
  refine carries_repeating_until (I := I) (fun s c h => (hstep s c h).mono fun s' c' h' => ?_) h
  cases s' with
  | none => exact h'
  | some s' => exact h'

end

variable {P : α → Prop} {Q : β → Prop}

theorem yields_pure {a : α} (h : P a) : Yields context P (pure a) :=
  fun _ hc => carries_pure ⟨h, hc⟩

theorem Yields.bind {r : TreeReader α} {k : α → TreeReader β} (h : Yields context P r)
    (hk : ∀ a, P a → Yields context Q (k a)) : Yields context Q (r >>= k) :=
  fun c hc => (h c hc).bind fun a c' ⟨ha, hc'⟩ => hk a ha c' hc'

theorem YieldsAt.ite {p : Prop} [Decidable p] {r s : TreeReader α} {c : Cursor}
    (hr : p → YieldsAt context c P r) (hs : ¬p → YieldsAt context c P s) :
    YieldsAt context c P (if p then r else s) := Carries.ite hr hs

theorem Yields.ite {p : Prop} [Decidable p] {r s : TreeReader α} (hr : p → Yields context P r)
    (hs : ¬p → Yields context P s) : Yields context P (if p then r else s) :=
  fun c hc => Carries.ite (fun hp => hr hp c hc) fun hp => hs hp c hc

theorem yields_problem (error : ParseError) : Yields context P (throw (.problem error)) :=
  fun _ _ => carries_problem error

theorem yields_unusable (h : ¬context.Usable) : Yields context P (throw .unusable) :=
  fun _ _ => carries_unusable h

theorem yields_failAt (problem : Problem) (t : Token) : Yields context P (failAt problem t) :=
  yields_problem _

theorem yields_failAt_bind (problem : Problem) (t : Token) {k : α → TreeReader β} :
    Yields context Q (failAt problem t >>= k) :=
  (yields_failAt (P := fun _ => False) problem t).bind fun _ h => h.elim

/-- A step that ends its rounds. -/
theorem yields_done : Yields context (fun s' => ∀ s'' ∈ s', P s'') (pure none) :=
  yields_pure (by simp)

/-- A step that goes on. -/
theorem yields_more {s : α} (h : P s) :
    Yields context (fun s' => ∀ s'' ∈ s', P s'') (pure (some s)) :=
  yields_pure (by simpa using h)

theorem yields_rounds {spent : TreeReader α} {step : α → TreeReader (Option α)}
    (hspent : Yields context P spent)
    (hstep : ∀ s, P s → Yields context (fun s' => ∀ s'' ∈ s', P s'') (step s)) (count : Nat) {s : α}
    (h : P s) : Yields context P (rounds spent step count s) := by
  induction count generalizing s with
  | zero => exact hspent
  | succ count ih =>
    refine (hstep s h).bind fun s' hs' => ?_
    cases s' with
    | none => exact yields_pure h
    | some s' => exact ih (hs' s' rfl)

theorem yields_foldlM {τ : Type} {step : α → τ → TreeReader α} {xs : List τ}
    (hstep : ∀ s x, x ∈ xs → P s → Yields context P (step s x)) {s : α} (h : P s) :
    Yields context P (xs.foldlM step s) := by
  induction xs generalizing s with
  | nil => exact yields_pure h
  | cons x xs ih =>
    rw [List.foldlM_cons]
    refine (hstep s x List.mem_cons_self h).bind fun s' hs' => ?_
    exact ih (fun s x hx => hstep s x (List.mem_cons_of_mem _ hx)) hs'

theorem yields_get : Yields context (Cursor.Sound context) get :=
  fun _ hc => carries_ok rfl ⟨hc, hc⟩

theorem yields_set {c : Cursor} (h : c.Sound context) : Yields context (fun _ => True) (set c) :=
  fun _ _ => carries_ok rfl ⟨trivial, h⟩

theorem yields_read : Yields context (· = context) read :=
  fun _ hc => carries_ok rfl ⟨rfl, hc⟩

theorem yields_current : Yields context (Token.Sound context) current :=
  yields_get.bind fun _ hc => yields_pure (Cursor.sound_token hc)

theorem yields_fail (problem : Problem) : Yields context P (fail problem) :=
  yields_current.bind fun t _ => yields_failAt problem t

theorem yields_fail_bind (problem : Problem) {k : α → TreeReader β} :
    Yields context Q (fail problem >>= k) :=
  (yields_fail (P := fun _ => False) problem).bind fun _ h => h.elim

theorem yields_ahead (n : Nat) : Yields context (fun _ => True) (ahead n) :=
  yields_get.bind fun _ _ => yields_pure trivial

theorem yields_isNext (kind : TokenKind) : Yields context (fun _ => True) (isNext kind) :=
  yields_current.bind fun _ _ => yields_pure trivial

theorem yields_advance : Yields context (Token.Sound context) advance :=
  yields_current.bind fun _ ht _ hc => carries_ok rfl ⟨ht, Cursor.sound_advance hc⟩

theorem yields_accept (kind : TokenKind) : Yields context (fun _ => True) (accept kind) :=
  (yields_isNext kind).bind fun _ _ =>
    Yields.ite (fun _ => yields_advance.bind fun _ _ => yields_pure trivial)
      fun _ => yields_pure trivial

theorem yields_expect (kind : TokenKind) : Yields context (Token.Sound context) (expect kind) :=
  yields_current.bind fun t _ =>
    Yields.ite (fun _ => yields_advance) fun _ => yields_failAt _ t

/-- What goes on from the current token may use that the cursor is there. -/
theorem yieldsAt_current {k : Token → TreeReader β} {c : Cursor}
    (h : YieldsAt context c Q (k c.token)) : YieldsAt context c Q (current >>= k) := carries_current h

theorem yieldsAt_advance {k : Token → TreeReader β} {c : Cursor} (hc : c.Sound context)
    (h : Yields context Q (k c.token)) : YieldsAt context c Q (advance >>= k) :=
  carries_advance (h c.advance (Cursor.sound_advance hc))

theorem yieldsAt_ahead {n : Nat} {k : Token → TreeReader β} {c : Cursor}
    (h : YieldsAt context c Q (k (c.ahead n))) : YieldsAt context c Q (ahead n >>= k) := carries_ahead h

/-- Names are words of the source. -/
theorem yields_name : Yields context context.Writes name := by
  refine fun c hc => yieldsAt_current (YieldsAt.ite (fun hkind => ?_) fun _ => ?_)
  · exact yieldsAt_advance hc (yields_pure ((Cursor.sound_token hc).writes hkind))
  · exact yields_failAt _ c.token c hc

theorem yields_repeating {step : α → TreeReader (Option α)}
    (hstep : ∀ s, P s → Yields context (fun s' => ∀ s'' ∈ s', P s'') (step s)) {s : α} (h : P s) :
    Yields context P (repeating step s) :=
  yields_get.bind fun _ _ => yields_rounds (yields_fail .nested) hstep _ h

theorem yields_block {item : TreeReader α} (h : Yields context P item) (opening : Token) :
    Yields context (fun found => ∀ a ∈ found, P a) (TreeReader.block opening item) := by
  unfold TreeReader.block
  refine (yields_repeating (P := fun s => ∀ a ∈ s.1, P a) ?_ (by simp)).bind ?_
  · rintro ⟨found, last⟩ hfound
    refine (yields_isNext .rbrace).bind fun _ _ => ?_
    refine Yields.ite (fun _ => yields_done) fun _ => ?_
    refine (yields_isNext .eof).bind fun _ _ => ?_
    refine Yields.ite (fun _ => yields_failAt _ opening) fun _ => ?_
    refine h.bind fun a ha => ?_
    have hmore : ∀ b ∈ a :: found, P b := List.forall_mem_cons.mpr ⟨ha, hfound⟩
    refine (yields_accept .comma).bind fun _ _ => ?_
    refine Yields.ite (fun _ => yields_more hmore) fun _ => ?_
    refine (yields_isNext .rbrace).bind fun _ _ => ?_
    refine Yields.ite (fun _ => yields_more hmore) fun _ => ?_
    refine yields_get.bind fun c _ => ?_
    refine Yields.ite (fun _ => yields_more hmore) fun _ => ?_
    exact yields_current.bind fun _ _ => yields_fail _
  · intro found hfound
    refine (yields_expect .rbrace).bind fun _ _ => yields_pure fun a ha => ?_
    exact hfound a (List.mem_reverse.mp ha)

theorem yields_balanced : Yields context (fun _ => True) balanced := by
  refine yields_get.bind fun c hc => ?_
  cases hfound : closing? 0 c.rest with
  | none => exact yields_failAt _ c.token
  | some found =>
    obtain ⟨t, rest⟩ := found
    obtain ⟨us, hus, -⟩ := exists_of_closing? hfound
    have hrest : Cursor.Sound context { c with previous := some t, rest } :=
      Cursor.sound_of_suffix hc rfl (hus ▸ (List.suffix_cons t rest).trans (List.suffix_append us _))
    exact (yields_set hrest).bind fun _ _ => yields_pure trivial

theorem yields_rereading {c : Cursor} (hc : c.Sound context) {r : TreeReader α} (h : Yields context P r) :
    Yields context P (rereading c r) := by
  refine yields_get.bind fun resume hresume => ?_
  refine (yields_set hc).bind fun _ _ => ?_
  refine h.bind fun a ha => ?_
  exact (yields_set hresume).bind fun _ _ => yields_pure ha

theorem yields_textBetween {first last : Token} : Yields context
    (· = String.ofList (Text.slice context.text first.offset last.stop)) (textBetween first last) :=
  yields_read.bind fun _ hread => yields_pure (hread ▸ rfl)

theorem yields_expression {text : String}
    (hwhole : context.Usable → text.toList.any endsTexts = false) (start : Token)
    (hint : Option String) :
    Yields context (fun e => e.Reads ∧ e.text = text) (expression text start hint) := by
  unfold expression
  refine Yields.ite (fun hends => yields_unusable fun husable => ?_) fun hends => ?_
  · exact Bool.false_ne_true ((hwhole husable).symm.trans hends)
  cases hread : readTerm? text with
  | none => exact yields_problem _
  | some term => exact yields_pure ⟨⟨hread, by simpa using hends⟩, rfl⟩

/-- An expression whose text is cut out of the source. -/
theorem yields_nested {first last : Nat}
    (h : IsNested (String.ofList (Text.slice context.text first last))) (start : Token)
    (hint : Option String) : Yields context Expr.Captured
      (expression (String.ofList (Text.slice context.text first last)) start hint) := by
  refine fun c hc => (yields_expression (fun husable => husable.whole_slice first last) start hint c
    hc).mono ?_
  rintro e c' ⟨⟨hreads, htext⟩, hc'⟩
  exact ⟨⟨hreads, htext ▸ h⟩, hc'⟩

theorem yields_captureExpression (stops : List TokenKind) (what : String) (hint : Option String) :
    Yields context Expr.Captured (captureExpression stops what hint) := by
  refine yields_get.bind fun c hc => ?_
  dsimp only
  generalize hfound : expressionEnd stops.contains 0 0 none c.rest = found
  obtain ⟨last?, rest⟩ := found
  obtain ⟨us, depth, hus, hlast, hdepth, -⟩ := exists_of_expressionEnd hfound
  rw [Option.or_none] at hlast
  cases last? with
  | none => exact yields_failAt _ c.token
  | some last =>
    have hrest : Cursor.Sound context { c with previous := some last, rest } :=
      Cursor.sound_of_suffix hc rfl (hus ▸ List.suffix_append us rest)
    have hfirst : us.head? = some c.token := by
      cases us with
      | nil => nomatch hlast
      | cons t us => rw [Cursor.token, hus]; rfl
    have hheld := Context.holds_of_mem_remainders hc.held
    have hnested := isNested_of_holds (hus ▸ hheld) hfirst hlast.symm hdepth
    refine (yields_set hrest).bind fun _ _ => yields_textBetween.bind fun text htext => ?_
    rw [htext]
    exact yields_nested hnested c.token hint

theorem yields_pattern {text : String}
    (hwhole : context.Usable → text.toList.any endsTexts = false)
    (hprinted : context.Usable → Text.isMultiline text →
      ∀ arm ∈ readArm? (flatten text), arm.render?.isSome) (start : Token) :
    Yields context ArmPattern.Reads (pattern text start) := by
  unfold pattern
  refine Yields.ite (fun hends => yields_unusable fun husable => ?_) fun _ => ?_
  · exact Bool.false_ne_true ((hwhole husable).symm.trans hends)
  cases hread : readArm? (flatten text) with
  | none => exact yields_problem _
  | some arm =>
    refine Yields.ite (fun hlines => ?_) fun _ => yields_pure ⟨text, hread, .inl rfl⟩
    cases hwritten : arm.render? with
    | some written => exact yields_pure ⟨text, hread, .inr hwritten⟩
    | none =>
      refine yields_unusable fun husable => ?_
      have hsome := hprinted husable hlines arm hread
      rw [hwritten] at hsome
      nomatch hsome

theorem yields_capturePattern : Yields context ArmPattern.Reads capturePattern := by
  refine yields_get.bind fun c hc => ?_
  dsimp only
  generalize hfound : patternEnd 0 none c.rest = found
  obtain ⟨_ | last, rest⟩ := found
  · exact yields_failAt _ c.token
  · obtain ⟨us, -, hus, -⟩ := exists_of_patternEnd hfound
    have hrest : Cursor.Sound context { c with previous := some last, rest } :=
      Cursor.sound_of_suffix hc rfl (hus ▸ List.suffix_append us rest)
    have htoken : c.rest.head? = some c.token := by
      cases hhead : c.rest with
      | nil => rw [hhead] at hfound; nomatch hfound
      | cons t more => rw [Cursor.token, hhead]; rfl
    have htext : context.patternText? c.rest =
        some (String.ofList (Text.slice context.text c.token.offset last.stop)) := by
      rw [Context.patternText?, htoken, hfound]
    refine (yields_set hrest).bind fun _ _ => yields_textBetween.bind fun text heq => ?_
    rw [heq]
    exact yields_pattern (fun husable => husable.whole_slice _ _)
      (fun husable => husable.patterns c.rest hc.held _ htext) c.token

theorem isQuoted_of_literalText? {source written : List Char} {text : String}
    (hwritten : written <:+: source) (h : literalText? written = some text) :
    IsQuoted source text := by
  unfold literalText? at h
  split at h
  · next start stop codes marked hread =>
    obtain rfl := Option.some.inj h
    exact ⟨written, start, stop, codes, marked, hwritten, hread, rfl⟩
  · nomatch h

theorem yields_stringValue (t : Token) : Yields context
    (fun value => ∀ text ∈ value, literalText? t.text.toList = some text) (stringValue t) := by
  unfold stringValue
  split
  · next codes marked hread =>
    refine yields_more ?_
    rw [literalText?, hread]
  · exact yields_done
  · exact yields_failAt _ t

end TreeReader
end ViewTree
