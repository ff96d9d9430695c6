import ViewTree.Proofs.Capture.Pieces
import ViewTree.Proofs.Concatenation
import ViewTree.Proofs.Coverage
import ViewTree.Proofs.InPlace.Readers

/-!
The tokens of a window. Main statements: reading a window in place is lexing the characters in it
(`Window.tokens_eq_run`), so its tokens are those of the text cut out, moved to where that stands
(`Window.tokenize_cut`).
-/
namespace ViewTree
open Lexer Text

/-- The token of a text that stands so many characters and lines further in. -/
def Token.shift (offset lines : Nat) (t : Token) : Token :=
  { t with line := t.line + lines, offset := t.offset + offset, stop := t.stop + offset }

def Tokens.shift (offset lines : Nat) (ts : Tokens) : Tokens :=
  ⟨ts.items.map (.shift offset lines), ts.eof.shift offset lines⟩

theorem lex_between (u t v : List Char) :
    lex (u ++ t ++ v) u.length (t.length + u.length) =
      ((lex t 0 t.length).map (.shift u.length (u.count '\n'))).mapError
        (.mapPlaces (.down (u.count '\n'))) := by
  have hshift : lex (u ++ t ++ v) (0 + u.length) (t.length + u.length) = _ :=
    (Placement.between {} u t v).lex_shift ⟨0, t.length, none⟩ (Nat.zero_le _) (Nat.le_refl _)
  rw [Nat.zero_add] at hshift
  exact hshift

theorem lex_cut {text : List Char} {start stop : Nat} (hstart : start ≤ stop)
    (hstop : stop ≤ text.length) :
    lex text start stop =
      ((lex (slice text start stop) 0 (slice text start stop).length).map
        (.shift start ((text.take start).count '\n'))).mapError
          (.mapPlaces (.down ((text.take start).count '\n'))) := by
  have hfront : (text.take start).length = start :=
    List.length_take_of_le (Nat.le_trans hstart hstop)
  have hlength : (slice text start stop).length + start = stop := by
    rw [length_slice start hstop, Nat.sub_add_cancel hstart]
  have htext : text.take start ++ slice text start stop ++ text.drop stop = text := by
    have hdrop := List.take_append_drop (stop - start) (text.drop start)
    rw [List.drop_drop, Nat.add_sub_cancel' hstart] at hdrop
    rw [List.append_assoc, slice, hdrop, List.take_append_drop]
  have hbetween := lex_between (text.take start) (slice text start stop) (text.drop stop)
  rw [htext, hfront, hlength] at hbetween
  exact hbetween

namespace Window
variable {w : Window} {p q : Position} {c : Char} {rest : List Char}

/-- What is skipped in front of a token is blank. -/
theorem exists_blanks (w : Window) (p : Position) :
    ∃ blanks, (∀ d ∈ blanks, isSkipped d) ∧ w.skipWhile isSkipped p = p.after blanks ∧
      w.left p = blanks ++ w.left (w.skipWhile isSkipped p) := by
  refine ⟨_, List.all_eq_true.mp List.all_takeWhile, skipWhile_eq isSkipped rfl, ?_⟩
  rw [left_skipWhile]
  exact (Mark.take_append_drop_takeWhile isSkipped (w.left p)).symm

/-- Behind the blanks a reader takes what lexing takes. -/
theorem exists_read (hc : w.current? (w.skipWhile isSkipped p) = some c) :
    ∃ rest, w.left (w.skipWhile isSkipped p) = c :: rest ∧
      w.read (w.skipWhile isSkipped p) c =
        (step c rest).map (placed (w.skipWhile isSkipped p) c rest) := by
  rw [current?_eq] at hc
  obtain ⟨rest, hrest⟩ := List.head?_eq_some_iff.mp hc
  rw [left_skipWhile] at hc
  exact ⟨rest, hrest, read_eq hrest (Mark.not_head_drop_takeWhile isSkipped (w.left p) c hc)⟩

theorem exists_error_of_read {problem : LexicalProblem}
    (hc : w.current? (w.skipWhile isSkipped p) = some c)
    (hread : w.read (w.skipWhile isSkipped p) c = .error problem) :
    ∃ rest, w.left (w.skipWhile isSkipped p) = c :: rest ∧ step c rest = .error problem := by
  obtain ⟨rest, hrest, hsame⟩ := exists_read hc
  rw [hread] at hsame
  cases hstep : step c rest with
  | error other =>
    rw [hstep] at hsame
    obtain rfl := Except.error.inj hsame
    exact ⟨rest, hrest, hstep⟩
  | ok found =>
    rw [hstep] at hsame
    nomatch hsame

theorem exists_step_of_read {kind? : Option TokenKind}
    (hc : w.current? (w.skipWhile isSkipped p) = some c)
    (hread : w.read (w.skipWhile isSkipped p) c = .ok (kind?, q)) :
    ∃ rest n, w.left (w.skipWhile isSkipped p) = c :: rest ∧ step c rest = .ok (kind?, n) ∧
      q = (w.skipWhile isSkipped p).after (c :: rest.take n) := by
  obtain ⟨rest, hrest, hsame⟩ := exists_read hc
  rw [hread] at hsame
  cases hstep : step c rest with
  | error problem =>
    rw [hstep] at hsame
    nomatch hsame
  | ok found =>
    rw [hstep] at hsame
    obtain ⟨rfl, hq⟩ := Prod.mk.inj (Except.ok.inj hsame)
    exact ⟨rest, found.2, hrest, hstep, hq⟩

theorem emit_eq {text : List Char} (h : w.left p = text ++ rest) (kind? : Option TokenKind)
    (ts : Tokens) : w.emit p (p.after text) kind? ts = prepend p text kind? ts := by
  cases kind? with
  | none => rfl
  | some kind =>
    rw [emit, slice_after h]
    rfl

/-- Reading in place is lexing what is left of the window. -/
theorem tokens_eq_run (w : Window) (p : Position) : w.tokens p = run p (w.left p) := by
  fun_induction Window.tokens w p with
  | case1 p start hend =>
    obtain ⟨blanks, hblanks, hstart, hleft⟩ := exists_blanks w p
    have hnil : w.left start = [] :=
      List.head?_eq_none_iff.mp ((current?_eq w start).symm.trans hend)
    rw [hleft, run_append_blanks hblanks, ← hstart, hnil, run_nil]
  | case2 p start c hc problem hread =>
    obtain ⟨blanks, hblanks, hstart, hleft⟩ := exists_blanks w p
    obtain ⟨rest, hrest, hstep⟩ := exists_error_of_read hc hread
    rw [hleft, run_append_blanks hblanks, ← hstart, hrest, run_error hstep]
  | case3 p start c hc kind? behind hread ih =>
    obtain ⟨blanks, hblanks, hstart, hleft⟩ := exists_blanks w p
    obtain ⟨rest, n, hrest, hstep, rfl⟩ := exists_step_of_read hc hread
    have hsplit : w.left start = (c :: rest.take n) ++ rest.drop n :=
      hrest.trans (take_append_drop_cons c rest n).symm
    rw [hleft, run_append_blanks hblanks, ← hstart, hrest, run_ok hstep, ih, left_after _ hsplit]
    exact congrArg (Except.map · _) (funext (emit_eq hsplit kind?))

theorem tokenize_eq_lex (w : Window) (file : String) (start : Nat) :
    w.tokenize file start =
      (lex w.text start w.stop).mapError (·.report file (String.ofList w.text)) :=
  congrArg (Except.mapError _) (tokens_eq_run w (.ofOffset w.text start))

theorem tokenize_whole (text : List Char) (file : String) :
    (whole text).tokenize file 0 =
      (lex text 0 text.length).mapError (·.report file (String.ofList text)) :=
  tokenize_eq_lex (whole text) file 0

theorem tokenize_eq (w : Window) (file : String) {start : Nat} (hstart : start ≤ w.stop) :
    (w.tokenize file start).mapError (Report.plain 0) =
      (((whole (slice w.text start w.stop)).tokenize file 0).map
        (.shift start ((w.text.take start).count '\n'))).mapError
          (Report.plain ((w.text.take start).count '\n')) := by
  rw [tokenize_eq_lex, tokenize_whole, lex_cut hstart w.stop_le]
  cases lex (slice w.text start w.stop) 0 (slice w.text start w.stop).length <;> rfl

/-- Reading a window in place, from a line start or any other offset on, gives the tokens of the
text cut out, moved to where that stands, or fails with its message, moved likewise. What stands at
the end of the window and behind has no part in either, and lexing finds the same. -/
theorem tokenize_cut (w : Window) (file : String) {start : Nat} (hstart : start ≤ w.stop) :
    (w.tokenize file start).mapError (Report.plain 0) =
        (((whole (slice w.text start w.stop)).tokenize file 0).map
          (.shift start ((w.text.take start).count '\n'))).mapError
            (Report.plain ((w.text.take start).count '\n')) ∧
      (∀ v : Window, v.stop = w.stop → v.text.take w.stop = w.text.take w.stop →
        (v.tokenize file start).mapError (Report.plain 0) =
          (w.tokenize file start).mapError (Report.plain 0)) ∧
      w.tokenize file start =
        (lex w.text start w.stop).mapError (·.report file (String.ofList w.text)) := by
  refine ⟨tokenize_eq w file hstart, fun v hstop htext => ?_, tokenize_eq_lex w file start⟩
  have hslice : slice v.text start w.stop = slice w.text start w.stop := by
    rw [slice, slice, ← List.drop_take, ← List.drop_take, htext]
  have hfront : v.text.take start = w.text.take start := by
    have htake := congrArg (List.take start) htext
    rwa [List.take_take, List.take_take, Nat.min_eq_left hstart] at htake
  rw [tokenize_eq v file (hstop ▸ hstart), tokenize_eq w file hstart, hstop, hslice, hfront]

theorem eq_ok_of_mapError {ε δ α : Type} {f : ε → δ} {x : Except ε α} {a : α}
    (h : x.mapError f = .ok a) : x = .ok a := by
  cases x with
  | error e => nomatch h
  | ok b => exact congrArg _ (Except.ok.inj h)

/-- A text whose string and number go on behind the ends of windows. -/
def gainText : List Char := "a = 1\n'b\\'c' 2e+3\n".toList

/-- Ends between the mark of an exponent and its sign. -/
def exponentWindow : Window := ⟨gainText, 15, by decide⟩

/-- Ends between a backslash and the quote that it escapes. -/
def escapeWindow : Window := ⟨gainText, 9, by decide⟩

theorem tokenize_cut_gainText : 6 ≤ exponentWindow.stop ∧ 6 ≤ escapeWindow.stop ∧
    (∃ own, (whole "'b\\'c' 2e".toList).tokenize "gain.view" 0 = .ok own ∧
      own.items.map (·.text) = ["'b\\'c'", "2e"] ∧
      exponentWindow.tokenize "gain.view" 6 = .ok (own.shift 6 1) ∧
      (whole (gainText.take 15)).tokenize "gain.view" 6 = .ok (own.shift 6 1)) ∧
    ∃ report, escapeWindow.tokenize "gain.view" 6 = .error report ∧
      report.message = "Unterminated string literal" ∧
      report.site.map (fun s => (s.line, s.column)) = some (2, 1) := by
  have hexponent : 6 ≤ exponentWindow.stop := by decide
  have hescape : 6 ≤ escapeWindow.stop := by decide
  have hslice : slice exponentWindow.text 6 exponentWindow.stop = "'b\\'c' 2e".toList := by decide
  have hlines : (exponentWindow.text.take 6).count '\n' = 1 := by decide
  obtain ⟨hcut, hbehind, -⟩ := tokenize_cut exponentWindow "gain.view" hexponent
  obtain ⟨-, -, hown⟩ := tokenize_cut (whole "'b\\'c' 2e".toList) "gain.view" (Nat.zero_le _)
  obtain ⟨-, -, herror⟩ := tokenize_cut escapeWindow "gain.view" hescape
  obtain ⟨own, hlex, htexts⟩ : ∃ own, lex "'b\\'c' 2e".toList 0 9 = .ok own ∧
      own.items.map (·.text) = ["'b\\'c'", "2e"] := exists_tokens (by decide +kernel)
  obtain ⟨e, he, hunterminated⟩ : ∃ e, lex gainText 6 9 = .error e ∧
      decide (e = ⟨.unterminatedString, ⟨2, 1⟩⟩) := exists_error_of_test (by decide +kernel)
  obtain rfl := of_decide_eq_true hunterminated
  have hown := hown.trans (congrArg (Except.mapError _) hlex)
  have herror := herror.trans (congrArg (Except.mapError _) he)
  rw [hslice, hlines, hown] at hcut
  exact ⟨hexponent, hescape,
    ⟨own, hown, htexts, eq_ok_of_mapError hcut,
      eq_ok_of_mapError ((hbehind (whole (gainText.take 15)) (by decide) (by decide)).trans hcut)⟩,
    _, herror, rfl, rfl⟩

end Window
end ViewTree
