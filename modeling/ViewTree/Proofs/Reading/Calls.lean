import ViewTree.Proofs.Reading.Results
import ViewTree.Tree.Reader

/-!
Constructor calls. Their end is found group by group and not by counting brackets, so what has been
taken is followed from the start of a call on (`Reached`). Main statement: a constructor call that is
read has a text whose tokens close no bracket that they have not opened (`yields_construction`).
-/
namespace ViewTree
open Embedded Mark TreeReader

variable {context : Context} {α β σ : Type} {c c₀ : Cursor}

/-- From the start of a call tokens have been taken, `last?` as the last one, that close all brackets
which they have opened, and no other. -/
structure Reached (context : Context) (c₀ : Cursor) (last? : Option Token) (c : Cursor) : Prop where
  sound : c.Sound context
  taken : ∃ us, c₀.rest = us ++ c.rest ∧ depth? 0 (ofTokens us) = some 0 ∧ us.getLast? = last?

namespace Reached
variable {last? : Option Token}

theorem refl (hc : c.Sound context) : Reached context c none c :=
  ⟨hc, [], rfl, rfl, rfl⟩

theorem trans {us : List Token} {c' : Cursor} {last : Token} (h : Reached context c₀ last? c)
    (hc' : c'.Sound context) (hus : c.rest = us ++ c'.rest) (hlast : us.getLast? = some last)
    (hdepth : depth? 0 (ofTokens us) = some 0) : Reached context c₀ (some last) c' := by
  obtain ⟨taken, htaken, hclosed, -⟩ := h.taken
  refine ⟨hc', taken ++ us, ?_, ?_, ?_⟩
  · rw [htaken, hus, List.append_assoc]
  · rw [ofTokens_append, depth?_append, hclosed]
    exact hdepth
  · rw [List.getLast?_append, hlast, Option.some_or]

/-- A token that is no bracket. -/
theorem advance (h : Reached context c₀ last? c) (hplain : c.token.kind.isOpening = false ∧
    c.token.kind.isClosing = false) : ∃ last?, Reached context c₀ last? c.advance := by
  have hsound := Cursor.sound_advance h.sound
  cases hrest : c.rest with
  | nil =>
    have hsame : c.advance = c := by
      rw [Cursor.advance, hrest]
    exact ⟨last?, by rwa [hsame]⟩
  | cons t rest =>
    have htoken : c.token = t := by rw [Cursor.token, hrest]; rfl
    rw [htoken] at hplain
    have hone : c.rest = [t] ++ c.advance.rest := by
      rw [Cursor.rest_advance, hrest]
      rfl
    refine ⟨some t, h.trans hsound hone rfl ?_⟩
    rw [ofTokens_cons, depth?_append, depth?_token, hplain.1, hplain.2]
    rfl

end Reached

theorem Cursor.ahead_advance (c : Cursor) (n : Nat) : c.advance.ahead n = c.ahead (n + 1) := by
  obtain ⟨previous, rest, eof⟩ := c
  cases rest <;> rfl

theorem Cursor.token_advance (c : Cursor) : c.advance.token = c.ahead 1 := by
  rw [← ahead_advance]
  obtain ⟨previous, rest, eof⟩ := c.advance
  cases rest <;> rfl

namespace NodeReaders

theorem isName_plain {kind : TokenKind} (h : kind.isName) :
    kind.isOpening = false ∧ kind.isClosing = false := by
  revert h
  cases kind <;> decide

/-- Some words of a path have been taken, the last one first. -/
def Under (context : Context) (c₀ : Cursor) (found : List String) (c : Cursor) : Prop :=
  found ≠ [] ∧ (∀ s ∈ found, context.Writes s) ∧ ∃ last?, Reached context c₀ last? c

theorem carries_dottedPath {last? : Option Token} (h : Reached context c₀ last? c) :
    CarriesAt context c (fun path c' => context.WritesPath path ∧ ∃ last?, Reached context c₀ last? c')
      dottedPath := by
  have hname : CarriesAt context c (fun word => Under context c₀ [word]) name := by
    refine carries_name fun hkind =>
      ⟨List.cons_ne_nil _ _, List.forall_mem_singleton.mpr ?_, ?_⟩
    · exact (Cursor.sound_token h.sound).writes hkind
    · exact h.advance (isName_plain hkind)
  refine hname.bind fun first c' hfirst => ?_
  refine (carries_repeating (I := Under context c₀) ?_ hfirst).bind
    fun found c' ⟨hsome, hfound, h⟩ => carries_pure ⟨⟨found.reverse,
      List.reverse_ne_nil_iff.mpr hsome, fun s hs => hfound s (List.mem_reverse.mp hs), rfl⟩, h⟩
  rintro found c ⟨hsome, hfound, last?, h⟩
  refine carries_isNext (carries_ahead (Carries.ite (fun hnext => ?_) fun _ => ?_))
  · obtain ⟨hdot, hkind⟩ := Bool.and_eq_true_iff.mp hnext
    have hdot : c.token.kind = .dot := of_decide_eq_true hdot
    obtain ⟨_, hbehind⟩ := h.advance (hdot ▸ ⟨rfl, rfl⟩)
    have hkind : c.advance.token.kind.isName := c.token_advance ▸ hkind
    have hword := (Cursor.sound_token hbehind.sound).writes hkind
    refine carries_advance (carries_advance (carries_pure ?_))
    exact ⟨List.cons_ne_nil _ _, List.forall_mem_cons.mpr ⟨hword, hfound⟩,
      hbehind.advance (isName_plain hkind)⟩
  · exact carries_pure ⟨hsome, hfound, last?, h⟩

theorem yields_dottedPath : Yields context context.WritesPath dottedPath :=
  fun _ hc => (carries_dottedPath (Reached.refl hc)).mono fun _ _ ⟨hpath, _, h⟩ => ⟨hpath, h.sound⟩

theorem carries_balanced {last? : Option Token} (h : Reached context c₀ last? c)
    (hopening : c.token.kind = .lparen) :
    CarriesAt context c (fun last c' => Reached context c₀ (some last) c') balanced := by
  obtain ⟨previous, rest, eof⟩ := c
  refine carries_get ?_
  cases hfound : closing? 0 rest with
  | none => exact carries_failAt _ _
  | some found =>
    obtain ⟨closing, behind⟩ := found
    refine carries_set (carries_pure ?_)
    cases rest with
    | nil => nomatch hfound
    | cons t rest =>
      have hopening : t.kind = .lparen := hopening
      obtain ⟨us, hus, hlast, hdepth⟩ := exists_of_closing?_zero hfound (by rw [hopening]; rfl)
      exact h.trans (Cursor.sound_of_suffix h.sound rfl (hus ▸ List.suffix_append us behind)) hus
        hlast hdepth

/-- A construction that is written out binds nothing from outside. -/
theorem yields_construction : Yields context
    (fun built => built.isPrebound = false ∧ context.WritesPath built.path ∧
      ∀ e, built.call? = some e → e.Captured) construction := by
  intro c hc
  refine carries_current (Carries.ite (fun _ => yields_fail_bind _ c hc) fun hname => ?_)
  have hname : c.token.kind.isName := by simpa using hname
  refine (carries_dottedPath (Reached.refl hc)).bind fun path c' ⟨hpath, _, h⟩ => ?_
  refine carries_isNext (Carries.ite (fun _ => ?_) fun hopening => ?_)
  · exact carries_pure ⟨⟨rfl, hpath, nofun⟩, h.sound⟩
  have hopening : c'.token.kind = .lparen := by simpa using hopening
  refine (carries_balanced h hopening).bind fun last c' h => ?_
  refine (carries_repeating (I := fun s c' => Reached context c (some s.1) c') ?_ h).bind ?_
  · rintro ⟨last, chained⟩ c' h
    refine carries_isNext (carries_ahead (carries_ahead
      (Carries.ite (fun hnext => ?_) fun _ => carries_pure h)))
    obtain ⟨hnext, hopening⟩ := Bool.and_eq_true_iff.mp hnext
    obtain ⟨hdot, hkind⟩ := Bool.and_eq_true_iff.mp hnext
    have hdot : c'.token.kind = .dot := of_decide_eq_true hdot
    obtain ⟨_, h⟩ := h.advance (hdot ▸ ⟨rfl, rfl⟩)
    obtain ⟨_, h⟩ := h.advance (isName_plain (c'.token_advance ▸ hkind))
    refine carries_advance (carries_advance ((carries_balanced h ?_).bind
      fun last c' h => carries_pure h))
    rw [Cursor.token_advance, Cursor.ahead_advance]
    exact of_decide_eq_true hopening
  · rintro ⟨last, chained⟩ c' h
    obtain ⟨us, hus, hdepth, hlast⟩ := h.taken
    have hfirst : us.head? = some c.token := by
      cases us with
      | nil => nomatch hlast
      | cons t us => rw [Cursor.token, hus]; rfl
    have hheld := Context.holds_of_mem_remainders hc.held
    have hnested := isNested_of_holds (hus ▸ hheld) hfirst hlast hdepth
    refine (yields_textBetween.bind fun text htext => ?_) c' h.sound
    rw [htext]
    refine (yields_nested hnested c.token none).bind fun e he => yields_pure ⟨rfl, hpath, ?_⟩
    rintro _ ⟨⟩
    exact he

end NodeReaders
end ViewTree
