import ViewTree.Proofs.Capture.Cutting
import ViewTree.Proofs.Capture.Occurrence
import ViewTree.Token.Window

/-!
Reading a text in place and lexing. Main statement: what a reader takes in a window is what lexing
takes of the characters left in it (`Window.read_eq`).
-/
namespace ViewTree
open Lexer Text

theorem Text.take_takeWhile (ok : Char → Bool) (cs : List Char) :
    cs.take (cs.takeWhile ok).length = cs.takeWhile ok :=
  (List.prefix_iff_eq_take.mp (List.takeWhile_prefix ok)).symm

namespace Window
variable {w : Window} {p : Position} {c : Char} {cs rest : List Char}

/-- The characters from the place up to the end of the window. -/
def left (w : Window) (p : Position) : List Char := slice w.text p.offset w.stop

theorem char?_eq (w : Window) (p : Position) (n : Nat) :
    w.char? (p.offset + n) = (w.left p)[n]? := by
  unfold char? left slice
  by_cases h : p.offset + n < w.stop
  · have hn : n < w.stop - p.offset := by omega
    rw [dif_pos h, List.getElem?_take, if_pos hn, List.getElem?_drop, List.get_eq_getElem,
      List.getElem?_eq_getElem]
  · have hn : ¬n < w.stop - p.offset := by omega
    rw [dif_neg h, List.getElem?_take, if_neg hn]

theorem ahead?_eq (w : Window) (p : Position) (n : Nat) : w.ahead? p n = (w.left p)[n]? :=
  char?_eq w p n

theorem current?_eq (w : Window) (p : Position) : w.current? p = (w.left p).head? := by
  rw [List.head?_eq_getElem?]
  exact char?_eq w p 0

theorem current?_end (h : w.left p = []) : w.current? p = none := by
  rw [current?_eq, h, List.head?_nil]

theorem current?_at (h : w.left p = c :: rest) : w.current? p = some c := by
  rw [current?_eq, h, List.head?_cons]

theorem next?_at (h : w.left p = c :: rest) : w.ahead? p 1 = rest.head? := by
  rw [ahead?_eq, h, List.head?_eq_getElem?, List.getElem?_cons_succ]

theorem left_after (cs : List Char) (h : w.left p = cs ++ rest) : w.left (p.after cs) = rest := by
  rw [left, Position.offset_after, ← drop_slice, ← left, h, List.drop_left]

theorem left_next (h : w.left p = c :: rest) : w.left (p.next c) = rest :=
  left_after [c] h

theorem advance_end (h : w.left p = []) : w.advance p = p := by
  rw [advance, current?_end h]

theorem advance_at (h : w.left p = c :: rest) : w.advance p = p.next c := by
  rw [advance, current?_at h]

theorem advanceBy_eq (cs : List Char) (h : w.left p = cs ++ rest) :
    w.advanceBy cs.length p = p.after cs := by
  induction cs generalizing p with
  | nil => rfl
  | cons c cs ih =>
    rw [List.length_cons, advanceBy, advance_at h]
    exact ih (left_next h)

theorem slice_after (h : w.left p = cs ++ rest) :
    slice w.text p.offset (p.after cs).offset = cs := by
  rw [Position.offset_after]
  exact slice_of_prefix h

/-- Nothing behind the end of the window is compared. -/
theorem standsAt_eq (delimiter : List Char) (h : w.left p = c :: rest) :
    w.standsAt delimiter p = delimiter.isPrefixOf (c :: rest) := by
  have hlt := lt_of_current? (current?_at h)
  have hfits : p.offset + delimiter.length ≤ w.stop ↔ delimiter.length ≤ w.stop - p.offset := by
    omega
  rw [← h, standsAt, left, slice, Bool.eq_iff_iff, Bool.and_eq_true_iff, List.isPrefixOf_iff_prefix,
    List.isPrefixOf_iff_prefix, List.prefix_take_iff, decide_eq_true_iff, and_comm, hfits]

theorem skipWhile_end (ok : Char → Bool) (h : w.left p = []) : w.skipWhile ok p = p := by
  rw [skipWhile]
  split
  · rfl
  · next d hd => exact absurd (hd.symm.trans (current?_end h)) (Option.some_ne_none d)

theorem skipWhile_at (ok : Char → Bool) (h : w.left p = c :: rest) :
    w.skipWhile ok p = if ok c then w.skipWhile ok (p.next c) else p := by
  rw [skipWhile]
  split
  · next hend => exact absurd ((current?_at h).symm.trans hend) (Option.some_ne_none c)
  · next d hd =>
    obtain rfl := Option.some.inj (hd.symm.trans (current?_at h))
    rw [advance_at h]

theorem closing?_end (long : Bool) (delimiter : List Char) (h : w.left p = []) :
    w.closing? long delimiter p = none := by
  rw [closing?]
  split
  · rfl
  · next d hd => exact absurd (hd.symm.trans (current?_end h)) (Option.some_ne_none d)

theorem closing?_at (long : Bool) (delimiter : List Char) (h : w.left p = c :: rest) :
    w.closing? long delimiter p =
      if c = '\n' && !long then none
      else if c = '\\' then w.closing? long delimiter (w.advance (p.next c))
      else if delimiter.isPrefixOf (c :: rest) then some (w.advanceBy delimiter.length p)
      else w.closing? long delimiter (p.next c) := by
  rw [closing?]
  split
  · next hend => exact absurd ((current?_at h).symm.trans hend) (Option.some_ne_none c)
  · next d hd =>
    obtain rfl := Option.some.inj (hd.symm.trans (current?_at h))
    rw [advance_at h, standsAt_eq delimiter h]

theorem number_end (h : w.left p = []) : w.number p = p := by
  rw [number]
  split
  · rfl
  · next d hd => exact absurd (hd.symm.trans (current?_end h)) (Option.some_ne_none d)

theorem number_at (h : w.left p = c :: rest) :
    w.number p =
      if isWordChar c || c = '.' then
        if isExponentMark c && rest.head?.any isSign then w.number (w.advance (p.next c))
        else w.number (p.next c)
      else p := by
  rw [number]
  split
  · next hend => exact absurd ((current?_at h).symm.trans hend) (Option.some_ne_none c)
  · next d hd =>
    obtain rfl := Option.some.inj (hd.symm.trans (current?_at h))
    rw [advance_at h, next?_at h]

theorem skipWhile_eq (ok : Char → Bool) (h : w.left p = cs) :
    w.skipWhile ok p = p.after (cs.takeWhile ok) := by
  induction cs generalizing p with
  | nil => exact skipWhile_end ok h
  | cons c cs ih =>
    rw [skipWhile_at ok h, List.takeWhile_cons]
    split
    · exact ih (left_next h)
    · rfl

theorem left_skipWhile (w : Window) (ok : Char → Bool) (p : Position) :
    w.left (w.skipWhile ok p) = (w.left p).drop ((w.left p).takeWhile ok).length := by
  rw [skipWhile_eq ok rfl]
  exact left_after _ (Mark.take_append_drop_takeWhile ok (w.left p)).symm

theorem number_eq (h : w.left p = cs) : w.number p = p.after (cs.take (numberLength cs)) := by
  induction cs using numberLength.induct generalizing p with
  | case1 => exact number_end h
  | case2 c hc =>
    rw [number_at h, numberLength, if_pos hc, if_pos hc, List.head?_nil, Option.any_none,
      Bool.and_false, if_neg Bool.false_ne_true]
    exact number_end (left_next h)
  | case3 c hc =>
    rw [number_at h, numberLength, if_neg hc, if_neg hc]
    rfl
  | case4 c d cs hc hsign ih =>
    rw [number_at h, numberLength, if_pos hc, if_pos hc, if_pos hsign, List.head?_cons,
      Option.any_some, if_pos hsign, advance_at (left_next h), ih (left_next (left_next h))]
    rfl
  | case5 c d cs hc hsign ih =>
    rw [number_at h, numberLength, if_pos hc, if_pos hc, if_neg hsign, List.head?_cons,
      Option.any_some, if_neg hsign, ih (left_next h)]
    rfl
  | case6 c d cs hc =>
    rw [number_at h, numberLength, if_neg hc, if_neg hc]
    rfl

theorem closing?_short {quote : Char} (h : w.left p = cs) :
    w.closing? false [quote] p = (closingQuote? quote cs).map fun n => p.after (cs.take n) := by
  induction cs using closingQuote?.induct quote generalizing p with
  | case1 => exact closing?_end false [quote] h
  | case2 =>
    -- A backslash at the very end: there is nothing to escape, and the second advance stays.
    rw [closing?_at false [quote] h, if_neg (by decide), if_pos rfl, advance_end (left_next h)]
    exact closing?_end false [quote] (left_next h)
  | case3 d cs ih =>
    rw [closing?_at false [quote] h, if_neg (by decide), if_pos rfl, advance_at (left_next h),
      ih (left_next (left_next h)), closingQuote?, Option.map_map]
    rfl
  | case4 cs hone hmore =>
    rw [closing?_at false [quote] h, closingQuote?.eq_4 _ _ _ hone hmore]
    rfl
  | case5 cs hone hmore hfeed =>
    have hquote : [quote].isPrefixOf (quote :: cs) = true := by simp
    rw [closing?_at false [quote] h, closingQuote?.eq_4 _ _ _ hone hmore,
      if_neg (by simpa using hfeed), if_neg (ne_backslash hone hmore), if_pos hquote, if_neg hfeed,
      if_pos rfl, advanceBy_eq [quote] h]
    rfl
  | case6 c cs hone hmore hfeed hother ih =>
    have hquote : ¬[quote].isPrefixOf (c :: cs) = true := by simpa using Ne.symm hother
    rw [closing?_at false [quote] h, closingQuote?.eq_4 _ _ _ hone hmore,
      if_neg (by simpa using hfeed), if_neg (ne_backslash hone hmore), if_neg hquote, if_neg hfeed,
      if_neg hother, ih (left_next h), Option.map_map]
    rfl

theorem closing?_long {quote : Char} (h : w.left p = cs) :
    w.closing? true [quote, quote, quote] p =
      (closingQuotes? quote cs).map fun n => p.after (cs.take n) := by
  induction cs using closingQuotes?.induct quote generalizing p with
  | case1 => exact closing?_end true _ h
  | case2 =>
    rw [closing?_at true _ h, if_neg (by decide), if_pos rfl, advance_end (left_next h)]
    exact closing?_end true _ (left_next h)
  | case3 d cs ih =>
    rw [closing?_at true _ h, if_neg (by decide), if_pos rfl, advance_at (left_next h),
      ih (left_next (left_next h)), closingQuotes?, Option.map_map]
    rfl
  | case4 c cs hone hmore hquotes =>
    obtain ⟨behind, hbehind⟩ := List.isPrefixOf_iff_prefix.mp hquotes
    rw [closing?_at true _ h, closingQuotes?.eq_4 _ _ _ hone hmore, if_neg (by simp),
      if_neg (ne_backslash hone hmore), if_pos hquotes, if_pos hquotes, Option.map_some,
      advanceBy_eq _ (h.trans hbehind.symm), ← hbehind]
    rfl
  | case5 c cs hone hmore hquotes ih =>
    rw [closing?_at true _ h, closingQuotes?.eq_4 _ _ _ hone hmore, if_neg (by simp),
      if_neg (ne_backslash hone hmore), if_neg hquotes, if_neg hquotes, ih (left_next h),
      Option.map_map]
    rfl

/-- Two looks ahead tell the kinds of strings apart; at the end of the window they find nothing. -/
theorem string?_eq {quote : Char} (h : w.left p = quote :: rest) :
    w.string? quote p = (stringLength? quote rest).map fun n => p.after (quote :: rest.take n) := by
  have hshort (hlong : (w.ahead? p 1 = some quote && w.ahead? p 2 = some quote) = false) :
      w.string? quote p =
        (closingQuote? quote rest).map fun n => p.after (quote :: rest.take n) := by
    unfold string?
    rw [hlong]
    exact (congrArg _ (advance_at h)).trans (closing?_short (left_next h))
  have htwo : w.ahead? p 2 = rest[1]? := by rw [ahead?_eq, h, List.getElem?_cons_succ]
  match rest with
  | [] => exact hshort (by rw [htwo]; exact Bool.and_false _)
  | [a] => exact hshort (by rw [htwo]; exact Bool.and_false _)
  | a :: b :: behind =>
    have hlooks : (w.ahead? p 1 = some quote && w.ahead? p 2 = some quote) =
        (a = quote && b = quote) := by
      rw [next?_at h, htwo]
      simp
    by_cases hlong : (a = quote && b = quote) = true
    · obtain ⟨rfl, rfl⟩ : a = quote ∧ b = quote := by simpa using hlong
      unfold string?
      rw [hlooks, hlong, stringLength?, if_pos hlong, Option.map_map]
      exact (congrArg _ (advanceBy_eq [b, b, b] h)).trans
        (closing?_long (left_after [b, b, b] h))
    · rw [stringLength?, if_neg hlong]
      exact hshort (hlooks.trans (Bool.not_eq_true _ ▸ hlong))

/-- A loop that takes its first character. -/
theorem skipWhile_from {ok : Char → Bool} (h : w.left p = c :: rest) (hc : ok c) :
    w.skipWhile ok p = p.after (c :: rest.takeWhile ok) := by
  rw [skipWhile_eq ok h, List.takeWhile_cons, if_pos hc]

theorem advanceBy_pair (h : w.left p = c :: rest) {d : Char} (hd : rest.head? = some d) :
    w.advanceBy 2 p = p.after (c :: rest.take 1) := by
  obtain ⟨behind, rfl⟩ := List.head?_eq_some_iff.mp hd
  exact advanceBy_eq [c, d] h

/-- What a step finds behind `c`, with the place behind that. -/
def placed (p : Position) (c : Char) (rest : List Char) (found : Option TokenKind × Nat) :
    Option TokenKind × Position :=
  (found.1, p.after (c :: rest.take found.2))

theorem hash_eq (h : w.left p = '#' :: rest) :
    Except.ok (w.hash p) = (step '#' rest).map (placed p '#' rest) := by
  have hcomment : w.skipWhile (· ≠ '\n') p = p.after ('#' :: rest.take (commentLength rest)) := by
    rw [skipWhile_from h (by decide), commentLength, take_takeWhile]
  have hskipped : ¬isSkipped '#' = true := by decide
  unfold hash step
  rw [if_neg hskipped, if_pos rfl, next?_at h, hcomment]
  by_cases hbracket : rest.head? = some '['
  · rw [if_pos hbracket, advanceBy_pair h hbracket, hbracket]
    rfl
  by_cases hcolon : rest.head? = some ':'
  · rw [if_neg hbracket, if_pos hcolon, hcolon]
    rfl
  rw [if_neg hbracket, if_neg hcolon]
  split
  · next hhead => exact absurd hhead hbracket
  · next hhead => exact absurd hhead hcolon
  · rfl

theorem word_eq (h : w.left p = c :: rest) (hskipped : ¬isSkipped c = true) (hhash : c ≠ '#')
    (hquote : ¬(c = '"' || c = '\'') = true)
    (hnumber : ¬(isDigit c || (c = '.' && rest.head?.any isDigit)) = true)
    (hletter : (isLetter c || c = '_') = true) :
    w.word p = (step c rest).map (placed p c rest) := by
  have hword : isWordChar c := by
    rcases Bool.or_eq_true_iff.mp hletter with hletter | hc
    · exact isWordChar_of_isLetter hletter
    · simp [isWordChar, of_decide_eq_true hc]
  have hsplit := Mark.take_append_drop_takeWhile isWordChar rest
  have htail := take_takeWhile isWordChar rest
  unfold word step
  rw [if_neg hskipped, if_neg hhash, if_neg hquote, if_neg hnumber, if_pos hletter,
    skipWhile_from h hword]
  dsimp only
  -- From here on only the two parts matter, not that `tail` is the longest one of word characters.
  generalize rest.takeWhile isWordChar = tail at hsplit htail ⊢
  generalize rest.drop tail.length = behind at hsplit ⊢
  have hleft : w.left p = (c :: tail) ++ behind := h.trans (congrArg (c :: ·) hsplit.symm)
  rw [slice_after hleft, current?_eq, left_after _ hleft]
  cases hmarked : behind.head?.filter fun quote =>
      (quote = '"' || quote = '\'') && isStringMark (c :: tail) with
  | none =>
    show Except.ok _ = Except.ok (placed p c rest _)
    rw [placed, htail]
  | some quote =>
    obtain ⟨later, rfl⟩ := List.head?_eq_some_iff.mp (Option.filter_eq_some_iff.mp hmarked).1
    dsimp only [List.tail_cons]
    rw [string?_eq (left_after _ hleft)]
    cases stringLength? quote later with
    | none => rfl
    | some n =>
      have htaken : rest.take (tail.length + 1 + n) = tail ++ quote :: later.take n := by
        rw [← hsplit, Nat.add_assoc, List.take_length_add_append, Nat.add_comm 1,
          List.take_succ_cons]
      show Except.ok (some TokenKind.string, (p.after (c :: tail)).after (quote :: later.take n)) =
        Except.ok (placed p c rest (some .string, tail.length + 1 + n))
      rw [placed, htaken, ← Position.after_append]
      rfl

/-- A reader takes in the window what lexing takes of the characters left in it. -/
theorem read_eq (h : w.left p = c :: rest) (hc : isSkipped c = false) :
    w.read p c = (step c rest).map (placed p c rest) := by
  have hskipped : ¬isSkipped c = true := by simp [hc]
  by_cases hhash : c = '#'
  · subst hhash
    rw [read, if_pos rfl, hash_eq h]
  rw [read, if_neg hhash, next?_at h]
  by_cases hquote : (c = '"' || c = '\'') = true
  · rw [step, if_neg hskipped, if_neg hhash, if_pos hquote, if_pos hquote, string?_eq h]
    cases stringLength? c rest <;> rfl
  rw [if_neg hquote]
  by_cases hnumber : (isDigit c || (c = '.' && rest.head?.any isDigit)) = true
  · have hfirst : isDigit c ∨ c = '.' := by
      rcases Bool.or_eq_true_iff.mp hnumber with hdigit | hdot
      · exact .inl hdigit
      · exact .inr (of_decide_eq_true (Bool.and_eq_true_iff.mp hdot).1)
    rw [step, if_neg hskipped, if_neg hhash, if_neg hquote, if_pos hnumber, if_pos hnumber,
      number_eq h, numberLength_cons hfirst, List.take_succ_cons]
    rfl
  rw [if_neg hnumber]
  by_cases hletter : (isLetter c || c = '_') = true
  · rw [if_pos hletter]
    exact word_eq h hskipped hhash hquote hnumber hletter
  rw [step, if_neg hskipped, if_neg hhash, if_neg hquote, if_neg hnumber, if_neg hletter,
    if_neg hletter]
  cases hpair : rest.head?.bind (TokenKind.ofPair? c) with
  | some kind =>
    obtain ⟨d, hd, -⟩ := Option.bind_eq_some_iff.mp hpair
    show Except.ok (some kind, w.advanceBy 2 p) = _
    rw [advanceBy_pair h hd]
    rfl
  | none =>
    dsimp only
    rw [advance_at h]
    cases TokenKind.ofChar? c <;> rfl

end Window
end ViewTree
