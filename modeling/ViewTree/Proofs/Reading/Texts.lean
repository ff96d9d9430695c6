import ViewTree.Proofs.Capture.Occurrence
import ViewTree.Proofs.Capture.Portions
import ViewTree.Proofs.Scanning.Groups

/-!
Texts that tokens cut out of a source. Where an embedded text ends is told by its brackets, so its
tokens close none that they have not opened (`exists_of_expressionEnd`, `exists_of_closing?`). Main
statements: the text from the first to the last of such tokens is cut into them again, and so its
brackets are nested (`isNested_of_holds`); the token of a name is a word (`Lexer.spelled_of_run`).
-/
namespace ViewTree
open Embedded Mark

/-- The tokens stand next to each other in a part of the source. -/
def Context.Holds (context : Context) (ts : List Token) : Prop :=
  ∃ start stop tokens, lex context.text start stop = .ok tokens ∧ ts <:+: tokens.items

/-- The text is cut into tokens that close no bracket which they have not opened. -/
def IsNested (text : String) : Prop :=
  ∃ p ts depth, Lexer.run p text.toList = .ok ts ∧ depth? 0 (ofTokens ts.items) = some depth

namespace Lexer

theorem attrOpen_of_step {c : Char} {rest : List Char} {kind : TokenKind} {n : Nat}
    (h : step c rest = .ok (some kind, n)) (hkind : kind = .attrOpen) :
    c = '#' ∧ rest.head? = some '[' := by
  generalize hsome : some kind = kind? at h
  cases step_cases h with
  | attrOpen hc hnext => exact ⟨hc, hnext⟩
  | word =>
    have hword (word : String) : TokenKind.ofWord word ≠ .attrOpen := by
      unfold TokenKind.ofWord
      split <;> decide
    exact absurd (Option.some.inj hsome ▸ hkind) (hword _)
  | pair _ hpair =>
    obtain rfl := Option.some.inj hsome
    subst hkind
    unfold TokenKind.ofPair? at hpair
    split at hpair <;> nomatch hpair
  | single _ hsingle =>
    obtain rfl := Option.some.inj hsome
    subst hkind
    unfold TokenKind.ofChar? at hsingle
    split at hsingle <;> nomatch hsingle
  | _ =>
    subst hkind
    nomatch hsome

/-- The lexer cuts an attribute off where its two characters stand. -/
theorem infix_of_attrOpen {p : Position} {cs : List Char} {ts : Tokens} (h : run p cs = .ok ts)
    (hkind : ∃ t ∈ ts.items, t.kind = .attrOpen) : ['#', '['] <:+: cs := by
  induction cs using Lexer.induction generalizing p ts with
  | nil =>
    rw [run_nil] at h
    obtain rfl := Except.ok.inj h
    simp at hkind
  | step c rest ih =>
    obtain ⟨kind?, n, more, hstep, hrun, rfl⟩ := exists_step_of_run h
    obtain ⟨t, ht, hkind⟩ := hkind
    rcases List.mem_append.mp ht with ht | ht
    · obtain ⟨kind, hsome, rfl⟩ := Option.map_eq_some_iff.mp (Option.mem_toList.mp ht)
      obtain ⟨rfl, hnext⟩ := attrOpen_of_step (hsome ▸ hstep) hkind
      obtain ⟨later, rfl⟩ := List.head?_eq_some_iff.mp hnext
      exact ⟨[], later, rfl⟩
    · have hbehind := ih n hrun ⟨t, ht, hkind⟩
      exact (hbehind.trans (List.drop_suffix n rest).isInfix).trans (List.suffix_cons c rest).isInfix

theorem infix_of_mem_run {p : Position} {cs : List Char} {ts : Tokens} (h : run p cs = .ok ts) :
    ∀ t ∈ ts.items, t.text.toList <:+: cs := by
  induction cs using Lexer.induction generalizing p ts with
  | nil =>
    rw [run_nil] at h
    obtain rfl := Except.ok.inj h
    simp
  | step c rest ih =>
    obtain ⟨kind?, n, more, hstep, hrun, rfl⟩ := exists_step_of_run h
    refine List.forall_mem_append.mpr ⟨fun t ht => ?_, fun t ht => ?_⟩
    · obtain ⟨kind, -, rfl⟩ := Option.map_eq_some_iff.mp (Option.mem_toList.mp ht)
      rw [stepToken, String.toList_ofList, ← List.take_succ_cons]
      exact (List.take_prefix _ _).isInfix
    · exact ((ih n hrun t ht).trans (List.drop_suffix n rest).isInfix).trans
        (List.suffix_cons c rest).isInfix

end Lexer

/-- A word that may be a name: word characters, the first of them a letter or an underscore. The
words that choices are written with are no names. -/
structure IsWord (text : String) : Prop where
  shape : ∃ c cs, text.toList = c :: cs ∧ (Text.isLetter c ∨ c = '_') ∧ ∀ d ∈ cs, Text.isWordChar d
  free : text ≠ "if" ∧ text ≠ "elif" ∧ text ≠ "else"

theorem IsWord.ne_empty {text : String} (h : IsWord text) : text ≠ "" := by
  rintro rfl
  obtain ⟨c, cs, htext, -⟩ := h.shape
  nomatch htext

def Token.Spelled (t : Token) : Prop := t.kind.isName = true → IsWord t.text

namespace Lexer

theorem isWord_of_step {c : Char} {rest : List Char} {kind : TokenKind} {n : Nat}
    (h : step c rest = .ok (some kind, n)) (hname : kind.isName) :
    IsWord (String.ofList (c :: rest.take n)) := by
  generalize hsome : some kind = kind? at h
  cases step_cases h with
  | word hc =>
    obtain rfl := Option.some.inj hsome
    have htake : rest.take (rest.takeWhile Text.isWordChar).length = rest.takeWhile Text.isWordChar :=
      List.prefix_iff_eq_take.mp (List.takeWhile_prefix _) |>.symm
    rw [htake]
    refine ⟨⟨c, _, String.toList_ofList, hc,
      List.all_eq_true.mp List.all_takeWhile⟩, ?_⟩
    refine ⟨fun h => ?_, fun h => ?_, fun h => ?_⟩
    all_goals
      rw [h] at hname
      exact absurd hname (by decide)
  | pair _ hpair =>
    obtain rfl := Option.some.inj hsome
    unfold TokenKind.ofPair? at hpair
    split at hpair <;> cases hpair <;> exact absurd hname (by decide)
  | single _ hsingle =>
    obtain rfl := Option.some.inj hsome
    unfold TokenKind.ofChar? at hsingle
    split at hsingle <;> cases hsingle <;> exact absurd hname (by decide)
  | _ => cases hsome <;> exact absurd hname (by decide)

theorem spelled_of_run {p : Position} {cs : List Char} {ts : Tokens} (h : run p cs = .ok ts) :
    ∀ t ∈ ts.items, t.Spelled := by
  induction cs using Lexer.induction generalizing p ts with
  | nil =>
    rw [run_nil] at h
    obtain rfl := Except.ok.inj h
    simp
  | step c rest ih =>
    obtain ⟨kind?, n, more, hstep, hrun, rfl⟩ := exists_step_of_run h
    refine List.forall_mem_append.mpr ⟨fun t ht hname => ?_, ih n hrun⟩
    obtain ⟨kind, hsome, rfl⟩ := Option.map_eq_some_iff.mp (Option.mem_toList.mp ht)
    exact isWord_of_step (hsome ▸ hstep) hname

end Lexer

namespace TreeReader

theorem ofTokens_cons (t : Token) (ts : List Token) :
    ofTokens (t :: ts) = (ofToken? t).toList ++ ofTokens ts := by
  unfold ofTokens
  rw [List.filterMap_cons]
  cases ofToken? t <;> rfl

/-- A token opens a bracket, closes one, or leaves all as they are. -/
theorem depth?_token (depth : Nat) (t : Token) :
    depth? depth (ofToken? t).toList =
      if t.kind.isOpening then some (depth + 1)
      else if t.kind.isClosing then if depth = 0 then none else some (depth - 1)
      else some depth := by
  unfold ofToken?
  by_cases hopening : t.kind.isOpening
  · rw [if_pos hopening, if_pos hopening]
    rfl
  rw [if_neg hopening, if_neg hopening]
  by_cases hclosing : t.kind.isClosing
  · rw [if_pos hclosing, if_pos hclosing]
    by_cases hdepth : depth = 0 <;> simp [depth?, deepen?, hdepth]
  rw [if_neg hclosing, if_neg hclosing]
  split
  · rfl
  · split
    · rfl
    · split <;> rfl

theorem depth?_cons {depth depth' : Nat} {t : Token} {us : List Token} :
    depth? depth (ofTokens (t :: us)) = some depth' ↔
      (t.kind.isOpening = false → t.kind.isClosing → depth ≠ 0) ∧
        depth? (depthBehind depth t.kind) (ofTokens us) = some depth' := by
  rw [ofTokens_cons, depth?_append, depth?_token, depthBehind]
  by_cases hopening : t.kind.isOpening
  · simp [hopening]
  · by_cases hclosing : t.kind.isClosing
    · by_cases hdepth : depth = 0
      · simp [hopening, hclosing, hdepth]
      · simp [hopening, hclosing, hdepth]
    · simp [hopening, hclosing]

/-- Before the end of the tokens an expression ends outside all brackets. -/
theorem exists_of_expressionEnd {stops : TokenKind → Bool} {depth lambdas : Nat}
    {last last' : Option Token} {ts rest : List Token}
    (h : expressionEnd stops depth lambdas last ts = (last', rest)) :
    ∃ us depth', ts = us ++ rest ∧ last' = us.getLast?.or last ∧
      depth? depth (ofTokens us) = some depth' ∧ (rest = [] ∨ depth' = 0) := by
  induction ts generalizing depth lambdas last with
  | nil =>
    obtain ⟨rfl, rfl⟩ := Prod.mk.inj h
    exact ⟨[], depth, rfl, rfl, rfl, .inl rfl⟩
  | cons t ts ih =>
    rw [expressionEnd] at h
    dsimp only at h
    split at h
    · next hends =>
      obtain ⟨rfl, rfl⟩ := Prod.mk.inj h
      have hdepth : depth = 0 := of_decide_eq_true (Bool.and_eq_true_iff.mp hends).1
      exact ⟨[], depth, rfl, rfl, rfl, .inr hdepth⟩
    · next hgoes =>
      obtain ⟨us, below, rfl, rfl, hdepth, hends⟩ := ih h
      refine ⟨t :: us, below, rfl, ?_, ?_, hends⟩
      · rw [List.getLast?_cons]
        cases us.getLast? <;> rfl
      · -- outside all brackets none is closed
        refine depth?_cons.mpr ⟨?_, hdepth⟩
        rintro - hclosing rfl
        simp [hclosing] at hgoes

theorem exists_of_closing? {depth : Nat} {t : Token} {ts rest : List Token}
    (h : closing? depth ts = some (t, rest)) :
    ∃ us, ts = us ++ t :: rest ∧
      (depth ≠ 0 → depth? depth (ofTokens (us ++ [t])) = some 0) := by
  induction ts generalizing depth with
  | nil => nomatch h
  | cons s ts ih =>
    rw [closing?] at h
    by_cases hopening : s.kind.isOpening
    · rw [if_pos hopening] at h
      obtain ⟨us, rfl, hdepth⟩ := ih h
      refine ⟨s :: us, rfl, fun _ => depth?_cons.mpr ⟨by simp [hopening], ?_⟩⟩
      rw [depthBehind, if_pos hopening]
      exact hdepth (Nat.succ_ne_zero depth)
    rw [if_neg hopening] at h
    by_cases hclosing : s.kind.isClosing
    · rw [if_pos hclosing] at h
      by_cases hlast : depth ≤ 1
      · rw [if_pos hlast] at h
        obtain ⟨rfl, rfl⟩ := Prod.mk.inj (Option.some.inj h)
        refine ⟨[], rfl, fun hdepth => depth?_cons.mpr ⟨fun _ _ => hdepth, ?_⟩⟩
        obtain rfl : depth = 1 := by omega
        rw [depthBehind, if_neg hopening, if_pos hclosing]
        rfl
      · rw [if_neg hlast] at h
        obtain ⟨us, rfl, hdepth⟩ := ih h
        refine ⟨s :: us, rfl, fun hsome => depth?_cons.mpr ⟨fun _ _ => hsome, ?_⟩⟩
        rw [depthBehind, if_neg hopening, if_pos hclosing]
        exact hdepth (by omega)
    · rw [if_neg hclosing] at h
      obtain ⟨us, rfl, hdepth⟩ := ih h
      refine ⟨s :: us, rfl, fun hsome => depth?_cons.mpr ⟨by simp [hclosing], ?_⟩⟩
      rw [depthBehind, if_neg hopening, if_neg hclosing]
      exact hdepth hsome

/-- A group has its brackets in pairs. -/
theorem exists_of_closing?_zero {first t : Token} {ts rest : List Token}
    (h : closing? 0 (first :: ts) = some (t, rest)) (hopening : first.kind.isOpening) :
    ∃ us, first :: ts = us ++ rest ∧ us.getLast? = some t ∧ depth? 0 (ofTokens us) = some 0 := by
  rw [closing?, if_pos hopening] at h
  obtain ⟨us, rfl, hdepth⟩ := exists_of_closing? h
  refine ⟨first :: us ++ [t], by simp, List.getLast?_concat, ?_⟩
  refine depth?_cons.mpr ⟨by simp [hopening], ?_⟩
  rw [depthBehind, if_pos hopening]
  exact hdepth Nat.one_ne_zero

/-- Before the end of the tokens a pattern ends outside all brackets. -/
theorem exists_of_patternEnd {depth : Nat} {last last' : Option Token} {ts rest : List Token}
    (h : patternEnd depth last ts = (last', rest)) : ∃ us depth', ts = us ++ rest ∧
      depth? depth (ofTokens us) = some depth' ∧ (rest = [] ∨ depth' = 0) := by
  induction ts generalizing depth last with
  | nil =>
    obtain ⟨-, rfl⟩ := Prod.mk.inj h
    exact ⟨[], depth, rfl, rfl, .inl rfl⟩
  | cons t ts ih =>
    rw [patternEnd] at h
    split at h
    · next hends =>
      obtain ⟨-, rfl⟩ := Prod.mk.inj h
      have hdepth : depth = 0 := of_decide_eq_true (Bool.and_eq_true_iff.mp hends).1
      exact ⟨[], depth, rfl, rfl, .inr hdepth⟩
    · next hgoes =>
      obtain ⟨us, below, rfl, hdepth, hends⟩ := ih h
      refine ⟨t :: us, below, rfl, depth?_cons.mpr ⟨?_, hdepth⟩, hends⟩
      rintro - hclosing rfl
      simp [hclosing] at hgoes

end TreeReader

theorem isNested_of_holds {context : Context} {us rest : List Token} {first last : Token}
    {depth : Nat} (h : context.Holds (us ++ rest)) (hfirst : us.head? = some first)
    (hlast : us.getLast? = some last) (hdepth : depth? 0 (ofTokens us) = some depth) :
    IsNested (String.ofList (Text.slice context.text first.offset last.stop)) := by
  obtain ⟨start, stop, tokens, hlex, before, behind, hitems⟩ := h
  obtain ⟨later, rfl⟩ := List.head?_eq_some_iff.mp hfirst
  have hitems : tokens.items = before ++ first :: (later ++ (rest ++ behind)) := by
    simp [← hitems]
  obtain ⟨k, hoffset, -, hrun⟩ := Lexer.exists_run_of_items hlex hitems
  have hk : k < (Text.slice context.text start stop).length := by
    refine Nat.lt_of_not_le fun hle => ?_
    rw [List.drop_eq_nil_of_le hle, Lexer.run_nil] at hrun
    nomatch hrun
  generalize hq : (Position.ofOffset context.text start).after
    ((Text.slice context.text start stop).take k) = q at hrun
  have hstart : q.offset = first.offset := by
    rw [← hq, Position.offset_after, List.length_take_of_le (Nat.le_of_lt hk), hoffset]
  rw [drop_slice, show start + k = first.offset from hoffset.symm] at hrun
  have hmem : last ∈ first :: (later ++ (rest ++ behind)) := by
    rw [← List.cons_append]
    exact List.mem_append_left _ (List.mem_of_getLast? hlast)
  have hend := Lexer.stop_le_of_run hrun last hmem
  have hbegin := Lexer.offset_le_of_run hrun last hmem
  have hpos := Lexer.offset_lt_of_run hrun last hmem
  obtain ⟨value, others, hsplit, hlength⟩ : ∃ value others,
      Text.slice context.text first.offset stop = value ++ others ∧
        first.offset + value.length = last.stop := by
    refine ⟨_, _, (List.take_append_drop (last.stop - first.offset) _).symm, ?_⟩
    rw [List.length_take_of_le (by omega)]
    omega
  rw [hsplit] at hrun
  have hstop : (first :: later).getLast?.map (·.stop) = some (q.offset + value.length) := by
    rw [hlast, hstart, hlength]
    rfl
  obtain ⟨eof, hown⟩ := Lexer.run_of_append hrun (List.cons_append ..).symm hstop
  refine ⟨q, ⟨first :: later, eof⟩, depth, ?_, hdepth⟩
  rw [← hlength, slice_of_prefix hsplit, String.toList_ofList]
  exact hown

end ViewTree
