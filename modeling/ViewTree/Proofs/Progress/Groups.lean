import ViewTree.Proofs.Progress.Productions

/-!
Bracketed groups that are read twice: first passed over, where brackets alone are counted, then read
as arguments or captures. Main statement: a second reading without an error stops at the bracket that
closes the group, so it takes neither less nor more than what is in it (`rereads_bracketArguments`,
`rereads_captures`).
-/
namespace ViewTree
open Mark TreeReader NodeReaders

variable {context : Context} {closing : Token} {behind : List Token} {α : Type}

/-- Tokens that keep their brackets in pairs do not close a group around them. -/
theorem TreeReader.closing?_append {depth depth' : Nat} {us : List Token}
    (h : depth? depth (ofTokens us) = some depth') (rest : List Token) :
    closing? (depth + 1) (us ++ rest) = closing? (depth' + 1) rest := by
  induction us generalizing depth with
  | nil =>
    obtain rfl : depth = depth' := Option.some.inj h
    rfl
  | cons t us ih =>
    obtain ⟨hinside, hdepth⟩ := depth?_cons.mp h
    rw [depthBehind] at hdepth
    rw [List.cons_append, closing?]
    by_cases hopening : t.kind.isOpening
    · rw [if_pos hopening] at hdepth ⊢
      exact ih hdepth
    rw [if_neg hopening] at hdepth ⊢
    by_cases hclosing : t.kind.isClosing
    · have hsome := hinside (by simpa using hopening) hclosing
      rw [if_pos hclosing] at hdepth ⊢
      rw [if_neg (by omega), ← ih hdepth, Nat.sub_add_cancel (by omega), Nat.add_sub_cancel]
    · rw [if_neg hclosing] at hdepth ⊢
      exact ih hdepth

namespace Cursor

/-- The cursor is in the group that `closing` ends, outside of the groups in it; `behind` is left of
the tokens behind the group. -/
def Inside (closing : Token) (behind : List Token) (c : Cursor) : Prop :=
  closing? 1 c.rest = some (closing, behind)

/-- Reading stopped at the closing bracket of a group behind which `after` is, in front of the bracket
or behind it. -/
def StopsAt (c : Cursor) (closing : Token) (after : Cursor) : Prop :=
  c.rest = closing :: after.rest ∨ c.previous = some closing ∧ c.rest = after.rest

namespace Inside
variable {c : Cursor}

theorem rest_eq_cons (h : c.Inside closing behind) : c.rest = c.token :: c.advance.rest := by
  obtain ⟨previous, rest, eof⟩ := c
  cases rest with
  | nil => nomatch h
  | cons t rest => rfl

/-- A token that opens and closes nothing. -/
theorem advance (h : c.Inside closing behind) (hplain : IsPlain c.token.kind) :
    c.advance.Inside closing behind := by
  have hdepth : depth? 0 (ofTokens [c.token]) = some 0 :=
    depth?_cons.mpr ⟨fun _ hclosing => by simp [hplain.2] at hclosing, by
      rw [depthBehind_plain hplain]
      rfl⟩
  unfold Inside at h
  rwa [show c.rest = [c.token] ++ c.advance.rest from rest_eq_cons h, closing?_append hdepth] at h

/-- Tokens that keep their brackets in pairs, unless all tokens are taken. -/
theorem through (h : c.Inside closing behind) {us rest : List Token} {depth : Nat}
    (hrest : c.rest = us ++ rest) (hdepth : depth? 0 (ofTokens us) = some depth)
    (hends : rest = [] ∨ depth = 0) (previous : Option Token) :
    Inside closing behind ⟨previous, rest, c.eof⟩ := by
  unfold Inside at h
  rw [hrest, closing?_append hdepth] at h
  rcases hends with rfl | rfl
  · nomatch h
  · exact h

/-- The closing bracket that comes next is the one of the group. -/
theorem rest_eq (h : c.Inside closing behind) (hclosing : c.token.kind.isClosing) :
    c.rest = closing :: behind := by
  have hrest := rest_eq_cons h
  have hopening : ¬c.token.kind.isOpening := by
    revert hclosing
    cases c.token.kind <;> decide
  unfold Inside at h
  rw [hrest, closing?, if_neg hopening, if_pos hclosing, if_pos (Nat.le_refl 1)] at h
  obtain ⟨rfl, rfl⟩ := Prod.mk.inj (Option.some.inj h)
  exact hrest

end Inside

/-- The closing bracket that comes next is the one of the group, and square if it is so. -/
theorem Inside.stopsAt {c after : Cursor} (h : c.Inside closing after.rest)
    (hnext : c.token.kind = .rbracket) : closing.kind = .rbracket ∧ c.StopsAt closing after := by
  have hrest := h.rest_eq (hnext ▸ rfl)
  have htoken : c.token = closing := by rw [Cursor.token, hrest]; rfl
  exact ⟨htoken ▸ hnext, .inl hrest⟩

/-- Behind its opening bracket the cursor is in the group. -/
theorem inside_of_balanced {c after : Cursor} (hopening : c.token.kind = .lbracket)
    (h : balanced context c = .ok (closing, after)) : c.advance.Inside closing after.rest := by
  have hread : Carries False context c
      (fun t c' => closing? 0 c.rest = some (t, c'.rest)) balanced := by
    refine carries_get ?_
    cases hfound : closing? 0 c.rest with
    | none => exact carries_failAt _ _
    | some found => exact carries_set (carries_pure rfl)
  have hclosing := hread.gives closing after h
  obtain ⟨previous, rest, eof⟩ := c
  cases rest with
  | nil => nomatch hclosing
  | cons t rest =>
    rw [closing?, if_pos (show t.kind.isOpening by rw [show t.kind = .lbracket from hopening]; rfl)]
      at hclosing
    exact hclosing

end Cursor

namespace NodeReaders

theorem moves_name_inside :
    Moves context (Cursor.Inside closing behind) (Cursor.Inside closing behind) name :=
  fun _ hc => carries_name fun hname => hc.advance (isName_plain hname)

theorem moves_accept_inside {kind : TokenKind} (hplain : IsPlain kind) :
    Moves context (Cursor.Inside closing behind) (Cursor.Inside closing behind) (accept kind) := by
  intro c hc
  rw [← bind_pure (accept kind)]
  refine carries_accept (fun hkind => ?_) fun _ => carries_pure hc
  exact carries_pure (hc.advance (hkind ▸ hplain))

theorem moves_captureExpression_inside (stops : List TokenKind) (what : String)
    (hint : Option String) : Moves context (Cursor.Inside closing behind)
      (Cursor.Inside closing behind) (captureExpression stops what hint) := by
  intro c hc
  refine carries_get ?_
  dsimp only
  generalize hfound : expressionEnd stops.contains 0 0 none c.rest = found
  obtain ⟨last?, rest⟩ := found
  obtain ⟨us, depth, hus, -, hdepth, hends⟩ := exists_of_expressionEnd hfound
  cases last? with
  | none => exact carries_failAt _ _
  | some last =>
    refine carries_set ?_
    exact (moves_textBetween _ _).bind (fun _ => moves_expression _ _ _) _
      (hc.through hus hdepth hends _)

/-- The arguments between brackets, behind the opening one. -/
def groupedArguments : TreeReader (Option Expr) := do
  if ← isNext .rbracket then pure none
  else
    let arguments ← captureExpression [] "arguments"
    let _ ← expect .rbracket
    pure (some arguments)

/-- The captures between brackets, behind the opening one. -/
def groupedCaptures : TreeReader (List Capture) := do
  let found ← repeating captureRound []
  pure found.reverse

theorem carries_groupedArguments {c after : Cursor} (h : c.Inside closing after.rest) :
    Carries False context c (fun _ c' => closing.kind = .rbracket ∧ c'.StopsAt closing after)
      groupedArguments := by
  refine carries_isNext (Carries.ite (fun hnext => ?_) fun _ => ?_)
  · exact carries_pure (h.stopsAt (of_decide_eq_true hnext))
  · refine (moves_captureExpression_inside [] _ none c h).bind fun arguments c h => ?_
    refine (carries_expect (T := fun _ c' => closing.kind = .rbracket ∧ c'.StopsAt closing after)
      fun hnext => ?_).bind fun _ _ hstops => carries_pure hstops
    have hrest := h.rest_eq (hnext ▸ rfl)
    obtain ⟨previous, rest, eof⟩ := c
    obtain rfl : rest = closing :: after.rest := hrest
    exact ⟨hnext, .inr ⟨rfl, rfl⟩⟩

/-- A round of captures is the last one only at a closing bracket. -/
theorem carries_captureRound {c : Cursor} (h : c.Inside closing behind) (found : List Capture) :
    Carries False context c (fun found' c' => c'.Inside closing behind ∧
      (found' = none → c'.token.kind = .rbracket)) (captureRound found) := by
  refine carries_isNext (Carries.ite (fun hnext => ?_) fun _ => ?_)
  · exact carries_pure ⟨h, fun _ => of_decide_eq_true hnext⟩
  · refine (moves_name_inside c h).bind fun id c h => ?_
    refine (moves_accept_inside ⟨rfl, rfl⟩ c h).bind fun _ c h => ?_
    extract_lets finish
    have hfinish (value : Option Expr) (c : Cursor) (h : c.Inside closing behind) :
        Carries False context c (fun found' c' => c'.Inside closing behind ∧
          (found' = none → c'.token.kind = .rbracket)) (finish value) := by
      refine (moves_accept_inside ⟨rfl, rfl⟩ c h).bind fun _ c h => carries_isNext ?_
      refine Carries.ite (fun _ => ?_) fun _ => carries_pure ⟨h, nofun⟩
      exact carries_current ((carries_fail (Q := fun _ _ => False) _).bind fun _ _ h => h.elim)
    refine Carries.ite (fun _ => ?_) fun _ => hfinish none c h
    exact (moves_captureExpression_inside _ _ none c h).bind fun value => hfinish (some value)

theorem carries_groupedCaptures {c after : Cursor} (h : c.Inside closing after.rest) :
    Carries False context c (fun _ c' => closing.kind = .rbracket ∧ c'.StopsAt closing after)
      groupedCaptures := by
  refine (carries_repeating_until (I := fun _ => Cursor.Inside closing after.rest) (J := fun _ c' =>
    closing.kind = .rbracket ∧ c'.StopsAt closing after) (fun found c h => ?_) h).bind
      fun _ _ hstops => carries_pure hstops
  refine (carries_captureRound h found).mono fun found' c' ⟨hinside, hnext⟩ => ?_
  cases found' with
  | none => exact hinside.stopsAt (hnext rfl)
  | some found' => exact hinside

/-- The reader reads the group that starts at the cursor again: it does there what `inner` does behind
the opening bracket, which stops at the bracket that closes the group, a square one; then it goes on
from where it was. -/
def RereadsGroup (context : Context) (c : Cursor) (inner r : TreeReader α) : Prop :=
  ∀ closing after resume found resume', balanced context c = .ok (closing, after) →
    r context resume = .ok (found, resume') →
      resume' = resume ∧ closing.kind = .rbracket ∧
        ∃ stop, inner context c.advance = .ok (found, stop) ∧ stop.StopsAt closing after

theorem rereading_eq_ok {r : TreeReader α} {c resume resume' : Cursor} {found : α}
    (h : rereading c r context resume = .ok (found, resume')) :
    resume' = resume ∧ ∃ stop, r context c = .ok (found, stop) := by
  have hstep : rereading c r context resume = (r context c >>= fun x => .ok (x.1, resume)) := rfl
  rw [hstep] at h
  cases hr : r context c with
  | error failure =>
    rw [hr] at h
    nomatch h
  | ok x =>
    rw [hr] at h
    obtain ⟨rfl, rfl⟩ := Prod.mk.inj (Except.ok.inj h)
    exact ⟨rfl, x.2, rfl⟩

theorem rereads_of_carries {c : Cursor} {inner : TreeReader α} (hopening : c.token.kind = .lbracket)
    (h : ∀ closing after, c.advance.Inside closing after.rest → Carries False context c.advance
      (fun _ c' => closing.kind = .rbracket ∧ c'.StopsAt closing after) inner) :
    RereadsGroup context c inner (rereading c.advance inner) := by
  intro closing after resume found resume' hgroup hread
  obtain ⟨rfl, stop, hinner⟩ := rereading_eq_ok hread
  have hstops := (h closing after (Cursor.inside_of_balanced hopening hgroup)).gives found stop hinner
  exact ⟨rfl, hstops.1, stop, hinner, hstops.2⟩

theorem rereads_bracketArguments {c : Cursor} (hopening : c.token.kind = .lbracket) :
    RereadsGroup context c groupedArguments (bracketArguments (some c)) :=
  rereads_of_carries hopening fun _ _ => carries_groupedArguments

theorem rereads_captures {c : Cursor} (hopening : c.token.kind = .lbracket) :
    RereadsGroup context c groupedCaptures (captures (some c)) :=
  rereads_of_carries hopening fun _ _ => carries_groupedCaptures

end NodeReaders
end ViewTree
