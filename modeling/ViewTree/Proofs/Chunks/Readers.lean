import ViewTree.Proofs.Reading.Calls

/-!
Readers and the cutting of chunks. Where a reader of a component stands, no chunk has been cut off as
long as the brackets that it counts are those that cutting counts (`Uncut`). That fails behind an
attribute, whose bracket opens a group for the reader alone; there a word that starts a component has
to stand in more brackets than have been closed (`Chunk.Nested`).
Main statement: readers that go from one level of brackets to another can be combined
(`Moves.bind`, `moves_repeating`, `moves_block`).
-/
namespace ViewTree
open Mark TreeReader

/-- Of all tokens of a component `rest` is left. No chunk has been cut off from the others, and
`level` brackets are open, unless an attribute is among them. -/
structure Uncut (all : List Token) (level : Nat) (rest : List Token) : Prop where
  nested : Chunk.Nested all
  taken : ∃ us depth, all = us ++ rest ∧ us.foldl Chunk.Cut.push {} = ⟨[], us.reverse, depth⟩ ∧
    (depth = level ∨ ∃ t ∈ us, t.kind = .attrOpen)

namespace Uncut
variable {all rest : List Token} {level level' : Nat} {t : Token}

/-- A token inside of brackets, or one that starts no component, cuts nothing off. Behind an
attribute any level is as good as another. -/
theorem step (h : Uncut all level (t :: rest))
    (hinside : 0 < level ∨ t.kind.startsComponent = false)
    (hlevel : depthBehind level t.kind = level' ∨ t.kind = .attrOpen) : Uncut all level' rest := by
  obtain ⟨hnested, us, depth, rfl, hpush, hdepth⟩ := h
  have hcounts : depth = Chunk.depthAfter 0 us := by
    rw [← Chunk.depth_foldl {} us, hpush]
  have hstays : ¬(depth = 0 && t.kind.startsComponent && !us.reverse.isEmpty) = true := by
    have hopen : t.kind.startsComponent → 0 < depth := by
      intro hstarts
      rcases hdepth with rfl | hattribute
      · exact hinside.resolve_right (by simp [hstarts])
      · have hbelow := hnested us t rest rfl hattribute hstarts
        have hfewer := Chunk.openings_le_depthAfter 0 us
        omega
    by_cases hstarts : t.kind.startsComponent
    · simp [Nat.ne_of_gt (hopen hstarts)]
    · simp [hstarts]
  refine ⟨hnested, us ++ [t], depthBehind depth t.kind, by rw [List.append_assoc]; rfl, ?_, ?_⟩
  · rw [List.foldl_append, hpush, List.reverse_append]
    show Chunk.Cut.push _ t = _
    unfold Chunk.Cut.push
    dsimp only
    rw [if_neg hstays]
    rfl
  · rcases hlevel with rfl | hkind
    · rcases hdepth with rfl | ⟨u, hu, hkind⟩
      · exact .inl rfl
      · exact .inr ⟨u, List.mem_append_left _ hu, hkind⟩
    · exact .inr ⟨t, List.mem_append_right _ List.mem_cons_self, hkind⟩

theorem depthBehind_add {depth : Nat} {kind : TokenKind} (outer : Nat)
    (h : kind.isOpening = false → kind.isClosing → depth ≠ 0) :
    depthBehind (outer + depth) kind = outer + depthBehind depth kind := by
  unfold depthBehind
  by_cases hopening : kind.isOpening
  · rw [if_pos hopening, if_pos hopening, Nat.add_assoc]
  · rw [if_neg hopening, if_neg hopening]
    by_cases hclosing : kind.isClosing
    · have hsome := h (by simpa using hopening) hclosing
      rw [if_pos hclosing, if_pos hclosing]
      omega
    · rw [if_neg hclosing, if_neg hclosing]

/-- Inside of brackets, tokens that close none which they have not opened. -/
theorem through {us : List Token} {depth depth' : Nat}
    (h : Uncut all (level + 1 + depth) (us ++ rest))
    (hdepth : depth? depth (ofTokens us) = some depth') : Uncut all (level + 1 + depth') rest := by
  induction us generalizing depth with
  | nil =>
    obtain rfl := Option.some.inj hdepth
    exact h
  | cons t us ih =>
    obtain ⟨hclosed, hdepth⟩ := depth?_cons.mp hdepth
    exact ih (h.step (.inl (by omega)) (.inl (depthBehind_add (level + 1) hclosed))) hdepth

end Uncut

namespace Cursor

/-- A cursor on the tokens of a component. -/
structure Stands (all : List Token) (level : Nat) (c : Cursor) : Prop where
  eof : c.eof.kind = .eof
  uncut : Uncut all level c.rest

/-- The same, or all tokens have been taken and anything may be open. -/
structure Runs (all : List Token) (level : Nat) (c : Cursor) : Prop where
  eof : c.eof.kind = .eof
  uncut : c.rest = [] ∨ Uncut all level c.rest

variable {all : List Token} {level level' : Nat} {c : Cursor}

theorem Stands.runs (h : c.Stands all level) : c.Runs all level := ⟨h.eof, .inr h.uncut⟩

theorem eof_advance (c : Cursor) : c.advance.eof = c.eof := by
  unfold advance
  split <;> rfl

/-- A token is taken, unless there is none. -/
theorem Runs.advance (h : c.Runs all level)
    (hinside : 0 < level ∨ c.token.kind.startsComponent = false)
    (hlevel : depthBehind level c.token.kind = level' ∨ c.token.kind = .attrOpen) :
    c.advance.Runs all level' := by
  refine ⟨c.eof_advance.symm ▸ h.eof, ?_⟩
  rw [rest_advance]
  obtain ⟨previous, rest, eof⟩ := c
  cases rest with
  | nil => exact .inl rfl
  | cons t rest => exact .inr ((h.uncut.resolve_left (List.cons_ne_nil t rest)).step hinside hlevel)

/-- A token that is no mark of the end is there. -/
theorem Runs.stands_advance (h : c.Runs all level) (hkind : c.token.kind ≠ .eof)
    (hinside : 0 < level ∨ c.token.kind.startsComponent = false)
    (hlevel : depthBehind level c.token.kind = level' ∨ c.token.kind = .attrOpen) :
    c.advance.Stands all level' := by
  have hrest := rest_eq_cons h.eof hkind
  refine ⟨c.eof_advance.symm ▸ h.eof, ?_⟩
  have hsome : c.rest ≠ [] := by rw [hrest]; exact List.cons_ne_nil _ _
  exact (hrest ▸ h.uncut.resolve_left hsome).step hinside hlevel

/-- Tokens that close no bracket which they have not opened. -/
theorem Runs.through (h : c.Runs all (level + 1)) {us rest : List Token} {depth : Nat}
    (hrest : c.rest = us ++ rest) (hdepth : depth? 0 (ofTokens us) = some depth)
    (hends : rest = [] ∨ depth = 0) (previous : Option Token) :
    Runs all (level + 1) ⟨previous, rest, c.eof⟩ := by
  refine ⟨h.eof, ?_⟩
  rcases hends with rfl | rfl
  · exact .inl rfl
  · rcases h.uncut with hnil | huncut
    · rw [hnil] at hrest
      exact .inl (List.append_eq_nil_iff.mp hrest.symm).2
    · exact .inr ((hrest ▸ huncut : Uncut all (level + 1 + 0) (us ++ rest)).through hdepth)

end Cursor

namespace TreeReader

/-- From a cursor with `P` the reader goes to one with `Q`, if it goes anywhere. -/
def Moves {α : Type} (context : Context) (P Q : Cursor → Prop) (r : TreeReader α) : Prop :=
  ∀ c, P c → Carries False context c (fun _ => Q) r

/-- Inside of brackets the reader leaves as many of them open as it finds. -/
abbrev Keeps {α : Type} (context : Context) (all : List Token) (level : Nat) (r : TreeReader α) :
    Prop := Moves context (Cursor.Runs all (level + 1)) (Cursor.Runs all (level + 1)) r

variable {context : Context} {all : List Token} {level level' : Nat} {α β σ : Type}
  {P Q R : Cursor → Prop} {r s : TreeReader α}

theorem moves_pure (a : α) : Moves context P P (pure a) := fun _ hc => carries_pure hc

theorem Moves.bind {k : α → TreeReader β} (h : Moves context P Q r)
    (hk : ∀ a, Moves context Q R (k a)) : Moves context P R (r >>= k) :=
  fun c hc => (h c hc).bind fun a c' hc' => hk a c' hc'

theorem Moves.weaken {P' : Cursor → Prop} (h : Moves context P Q r) (hP : ∀ c, P' c → P c) :
    Moves context P' Q r := fun c hc => h c (hP c hc)

theorem Moves.ite {p : Prop} [Decidable p] (hr : p → Moves context P Q r)
    (hs : ¬p → Moves context P Q s) : Moves context P Q (if p then r else s) :=
  fun c hc => Carries.ite (fun hp => hr hp c hc) fun hp => hs hp c hc

theorem moves_throw (failure : Failure) : Moves context P Q (throw failure : TreeReader α) :=
  fun _ _ => carries_error rfl fun _ => not_false

theorem moves_failAt (problem : Problem) (t : Token) :
    Moves context P Q (failAt problem t : TreeReader α) := moves_throw _

theorem moves_failAt_bind (problem : Problem) (t : Token) {k : α → TreeReader β} :
    Moves context P Q (failAt problem t >>= k) :=
  (moves_failAt (Q := fun _ => False) problem t).bind fun _ _ h => h.elim

theorem moves_get : Moves context P P get := fun _ hc => carries_ok rfl hc

theorem moves_read : Moves context P P (read : TreeReader Context) := fun _ hc => carries_ok rfl hc

theorem moves_current : Moves context P P current := moves_get.bind fun _ => moves_pure _

theorem moves_fail (problem : Problem) : Moves context P Q (fail problem : TreeReader α) :=
  moves_current.bind fun t => moves_failAt problem t

theorem moves_fail_bind (problem : Problem) {k : α → TreeReader β} :
    Moves context P Q (fail problem >>= k) :=
  (moves_fail (Q := fun _ => False) problem).bind fun _ _ h => h.elim

theorem moves_isNext (kind : TokenKind) : Moves context P P (isNext kind) :=
  moves_current.bind fun _ => moves_pure _

theorem moves_foldlM {τ : Type} {step : σ → τ → TreeReader σ}
    (h : ∀ s x, Moves context P P (step s x)) (xs : List τ) (s : σ) :
    Moves context P P (xs.foldlM step s) := by
  induction xs generalizing s with
  | nil => exact moves_pure s
  | cons x xs ih =>
    rw [List.foldlM_cons]
    exact (h s x).bind ih

theorem moves_repeating {step : σ → TreeReader (Option σ)} (h : ∀ s, Moves context P P (step s))
    (s : σ) : Moves context P P (repeating step s) :=
  fun _ hc => carries_repeating (I := fun _ => P) (fun s c hc => h s c hc) hc

def IsPlain (kind : TokenKind) : Prop := kind.isOpening = false ∧ kind.isClosing = false

theorem depthBehind_plain {kind : TokenKind} (h : IsPlain kind) (level : Nat) :
    depthBehind level kind = level := by
  rw [depthBehind, h.1, h.2]
  rfl

/-- A token that is asked for is there. -/
theorem moves_expect {kind : TokenKind} (hkind : kind ≠ .eof)
    (hinside : 0 < level ∨ kind.startsComponent = false)
    (hlevel : depthBehind level kind = level' ∨ kind = .attrOpen) :
    Moves context (Cursor.Runs all level) (Cursor.Stands all level') (expect kind) := by
  intro c hc
  refine carries_expect fun htoken => hc.stands_advance ?_ ?_ ?_
  · rwa [htoken]
  · rwa [htoken]
  · rwa [htoken]

/-- The same, where only the level is of interest. -/
theorem moves_take {kind : TokenKind} (hkind : kind ≠ .eof)
    (hinside : 0 < level ∨ kind.startsComponent = false)
    (hlevel : depthBehind level kind = level' ∨ kind = .attrOpen) :
    Moves context (Cursor.Runs all level) (Cursor.Runs all level') (expect kind) :=
  fun c hc => (moves_expect hkind hinside hlevel c hc).mono fun _ _ h => h.runs

theorem keeps_name : Keeps context all level name := fun _ hc =>
  carries_name fun hname => hc.advance (.inl (Nat.succ_pos level))
    (.inl (depthBehind_plain (NodeReaders.isName_plain hname) _))

/-- A token that may come next. -/
theorem moves_accept {kind : TokenKind} {k : Bool → TreeReader β}
    (hinside : 0 < level ∨ kind.startsComponent = false) (hlevel : depthBehind level kind = level')
    (htaken : Moves context (Cursor.Runs all level') Q (k true))
    (hleft : Moves context (Cursor.Runs all level) Q (k false)) :
    Moves context (Cursor.Runs all level) Q (accept kind >>= k) := by
  refine fun c hc => carries_accept (fun htoken => htaken _ (hc.advance ?_ (.inl ?_))) fun _ => hleft c hc
  · rwa [htoken]
  · rwa [htoken]

theorem moves_accept_plain {kind : TokenKind} (hinside : 0 < level ∨ kind.startsComponent = false)
    (hplain : IsPlain kind) : Moves context (Cursor.Runs all level) (Cursor.Runs all level)
      (accept kind) := by
  rw [← bind_pure (accept kind)]
  exact moves_accept hinside (depthBehind_plain hplain level) (moves_pure true) (moves_pure false)

theorem keeps_accept {kind : TokenKind} (hplain : IsPlain kind) :
    Keeps context all level (accept kind) := moves_accept_plain (.inl (Nat.succ_pos level)) hplain

theorem moves_block {item : TreeReader α} (h : Keeps context all level item) (opening : Token) :
    Moves context (Cursor.Runs all (level + 1)) (Cursor.Stands all level) (block opening item) := by
  unfold block
  refine (moves_repeating (fun found => ?_) _).bind fun found => ?_
  · refine (moves_isNext .rbrace).bind fun _ => Moves.ite (fun _ => moves_pure none) fun _ => ?_
    refine (moves_isNext .eof).bind fun _ => Moves.ite (fun _ => moves_failAt _ opening) fun _ => ?_
    refine h.bind fun a => (keeps_accept ⟨rfl, rfl⟩).bind fun _ =>
      Moves.ite (fun _ => moves_pure _) fun _ => ?_
    refine (moves_isNext .rbrace).bind fun _ => Moves.ite (fun _ => moves_pure _) fun _ => ?_
    refine moves_get.bind fun c => Moves.ite (fun _ => moves_pure _) fun _ => ?_
    exact moves_current.bind fun t => moves_fail _
  · exact (moves_expect (by decide) (.inl (Nat.succ_pos level)) (.inl rfl)).bind fun _ => moves_pure _

/-- A group that starts with an opening bracket. -/
theorem carries_group {c : Cursor} (hc : c.Runs all (level + 1)) (hopening : c.token.kind.isOpening) :
    Carries False context c (fun _ => Cursor.Runs all (level + 1)) balanced := by
  refine carries_get ?_
  cases hfound : closing? 0 c.rest with
  | none => exact carries_failAt _ _
  | some found =>
    obtain ⟨closing, behind⟩ := found
    refine carries_set (carries_pure ?_)
    cases hrest : c.rest with
    | nil =>
      rw [hrest] at hfound
      nomatch hfound
    | cons t rest =>
      have htoken : c.token = t := by rw [Cursor.token, hrest]; rfl
      rw [hrest] at hfound
      obtain ⟨us, hus, -, hdepth⟩ := exists_of_closing?_zero hfound (htoken ▸ hopening)
      exact hc.through (hrest.trans hus) hdepth (.inr rfl) _

/-- Wherever another reader goes, the cursor is set back. -/
theorem moves_rereading (c₀ : Cursor) (r : TreeReader α) : Moves context P P (rereading c₀ r) := by
  intro c hc
  have hany : Carries False context c₀ (fun _ _ => True) r := ⟨fun _ _ _ => trivial, nofun⟩
  exact carries_get (carries_set (hany.bind fun a _ _ => carries_set (carries_pure hc)))

theorem moves_textBetween (first last : Token) : Moves context P P (textBetween first last) :=
  moves_read.bind fun _ => moves_pure _

theorem moves_expression (text : String) (start : Token) (hint : Option String) :
    Moves context P P (expression text start hint) := by
  refine Moves.ite (fun _ => moves_throw _) fun _ => ?_
  split
  · exact moves_pure _
  · exact moves_throw _

theorem keeps_captureExpression (stops : List TokenKind) (what : String) (hint : Option String) :
    Keeps context all level (captureExpression stops what hint) := by
  intro c hc
  refine carries_get ?_
  dsimp only
  generalize hfound : expressionEnd stops.contains 0 0 none c.rest = found
  obtain ⟨last?, rest⟩ := found
  obtain ⟨us, depth, hus, -, hdepth, hends⟩ := exists_of_expressionEnd hfound
  cases last? with
  | none => exact carries_failAt _ _
  | some last =>
    refine carries_set ?_
    exact (moves_textBetween _ _).bind (fun _ => moves_expression _ _ _) _
      (hc.through hus hdepth hends _)

theorem moves_pattern (text : String) (start : Token) : Moves context P P (pattern text start) := by
  refine Moves.ite (fun _ => moves_throw _) fun _ => ?_
  split
  · exact moves_throw _
  · refine Moves.ite (fun _ => ?_) fun _ => moves_pure _
    split
    · exact moves_pure _
    · exact moves_throw _

theorem keeps_capturePattern : Keeps context all level capturePattern := by
  intro c hc
  refine carries_get ?_
  dsimp only
  generalize hfound : patternEnd 0 none c.rest = found
  obtain ⟨last?, rest⟩ := found
  obtain ⟨us, depth, hus, hdepth, hends⟩ := exists_of_patternEnd hfound
  cases last? with
  | none => exact carries_failAt _ _
  | some last =>
    refine carries_set ?_
    exact (moves_textBetween _ _).bind (fun _ => moves_pattern _ _) _ (hc.through hus hdepth hends _)

theorem moves_stringValue (t : Token) : Moves context P P (stringValue t) := by
  unfold stringValue
  split
  · exact moves_pure _
  · exact moves_pure _
  · exact moves_failAt _ t

end TreeReader
end ViewTree
