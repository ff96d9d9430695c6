import ViewTree.Token.Lexer

/-!
Reading a text in place. A window is a text and where reading it stops. The text behind that is
still there, so each look at a character asks first whether it stands before the end. What is read
takes at least one character (`Window.lt_read`), so reading ends.
-/
namespace ViewTree
open Lexer Text

/-- A text and where reading it stops. -/
structure Window where
  text : List Char
  stop : Nat
  stop_le : stop ≤ text.length

namespace Window
variable {w : Window} {p q : Position} {c : Char}

/-- A text that is read to its end. -/
def whole (text : List Char) : Window := ⟨text, text.length, Nat.le_refl _⟩

def char? (w : Window) (offset : Nat) : Option Char :=
  if h : offset < w.stop then some (w.text.get ⟨offset, Nat.lt_of_lt_of_le h w.stop_le⟩)
  else none

def current? (w : Window) (p : Position) : Option Char := w.char? p.offset

/-- The character `n` further on. -/
def ahead? (w : Window) (p : Position) (n : Nat) : Option Char := w.char? (p.offset + n)

/-- Whether `cs` stands at the place, all of it before the end of the window. -/
def standsAt (w : Window) (cs : List Char) (p : Position) : Bool :=
  p.offset + cs.length ≤ w.stop && cs.isPrefixOf (w.text.drop p.offset)

/-- The place behind the current character; at the end of the window there is none. -/
def advance (w : Window) (p : Position) : Position :=
  match w.current? p with
  | some c => p.next c
  | none => p

def advanceBy (w : Window) : Nat → Position → Position
  | 0, p => p
  | n + 1, p => w.advanceBy n (w.advance p)

theorem lt_of_current? (h : w.current? p = some c) : p.offset < w.stop := by
  refine Decidable.byContradiction fun hge => ?_
  rw [current?, char?, dif_neg hge] at h
  nomatch h

theorem le_advance (w : Window) (p : Position) : p.offset ≤ (w.advance p).offset := by
  unfold advance
  split
  · rw [Position.offset_next]
    exact Nat.le_succ _
  · exact Nat.le_refl _

theorem lt_advance (h : w.current? p = some c) : p.offset < (w.advance p).offset := by
  rw [advance, h]
  dsimp only
  rw [Position.offset_next]
  exact Nat.lt_succ_self _

/-- Less is left of the window behind a place further on. -/
theorem remaining_lt (h : w.current? p = some c) (hq : p.offset < q.offset) :
    w.stop - q.offset < w.stop - p.offset := by
  have hlt := lt_of_current? h
  omega

theorem remaining_advance_lt (h : w.current? p = some c) :
    w.stop - (w.advance p).offset < w.stop - p.offset := remaining_lt h (lt_advance h)

theorem remaining_twice_lt (h : w.current? p = some c) :
    w.stop - (w.advance (w.advance p)).offset < w.stop - p.offset :=
  remaining_lt h (Nat.lt_of_lt_of_le (lt_advance h) (le_advance w _))

/-- The first place from `p` on whose character is not `ok`. -/
def skipWhile (w : Window) (ok : Char → Bool) (p : Position) : Position :=
  match _ : w.current? p with
  | none => p
  | some c => if ok c then w.skipWhile ok (w.advance p) else p
termination_by w.stop - p.offset
decreasing_by exact remaining_advance_lt ‹_›

/-- The place behind the closing delimiter of a string that goes on at `p`; only a long one has more
than one line. -/
def closing? (w : Window) (long : Bool) (delimiter : List Char) (p : Position) : Option Position :=
  match _ : w.current? p with
  | none => none
  | some c =>
    if c = '\n' && !long then none
    else if c = '\\' then w.closing? long delimiter (w.advance (w.advance p))
    else if w.standsAt delimiter p then some (w.advanceBy delimiter.length p)
    else w.closing? long delimiter (w.advance p)
termination_by w.stop - p.offset
decreasing_by
  · exact remaining_twice_lt ‹_›
  · exact remaining_advance_lt ‹_›

/-- The place behind the string whose first quote is at `p`, if the string is closed. -/
def string? (w : Window) (quote : Char) (p : Position) : Option Position :=
  let long := w.ahead? p 1 = some quote && w.ahead? p 2 = some quote
  let delimiter := if long then [quote, quote, quote] else [quote]
  w.closing? long delimiter (w.advanceBy delimiter.length p)

/-- The place behind the number at `p`. -/
def number (w : Window) (p : Position) : Position :=
  match _ : w.current? p with
  | none => p
  | some c =>
    if isWordChar c || c = '.' then
      if isExponentMark c && (w.ahead? p 1).any isSign then w.number (w.advance (w.advance p))
      else w.number (w.advance p)
    else p
termination_by w.stop - p.offset
decreasing_by
  · exact remaining_twice_lt ‹_›
  · exact remaining_advance_lt ‹_›

/-- What starts with a hash at `p`: a token that opens an attribute, a documentation comment, or a
comment, which is no token. -/
def hash (w : Window) (p : Position) : Option TokenKind × Position :=
  if w.ahead? p 1 = some '[' then (some .attrOpen, w.advanceBy 2 p)
  else if w.ahead? p 1 = some ':' then (some .docComment, w.skipWhile (· ≠ '\n') p)
  else (none, w.skipWhile (· ≠ '\n') p)

/-- What starts with a letter at `p`: a word, or a string with letters in front. -/
def word (w : Window) (p : Position) : Except LexicalProblem (Option TokenKind × Position) :=
  let q := w.skipWhile isWordChar p
  let text := slice w.text p.offset q.offset
  match (w.current? q).filter fun quote => (quote = '"' || quote = '\'') && isStringMark text with
  | some quote =>
    match w.string? quote q with
    | some behind => .ok (some .string, behind)
    | none => .error .unterminatedString
  | none => .ok (some (.ofWord (String.ofList text)), q)

/-- What starts at `p` with `c`: the kind of token, or none for a comment, and the place behind. -/
def read (w : Window) (p : Position) (c : Char) :
    Except LexicalProblem (Option TokenKind × Position) :=
  if c = '#' then .ok (w.hash p)
  else if c = '"' || c = '\'' then
    match w.string? c p with
    | some behind => .ok (some .string, behind)
    | none => .error .unterminatedString
  else if isDigit c || (c = '.' && (w.ahead? p 1).any isDigit) then
    .ok (some .number, w.number p)
  else if isLetter c || c = '_' then w.word p
  else
    match (w.ahead? p 1).bind (TokenKind.ofPair? c) with
    | some kind => .ok (some kind, w.advanceBy 2 p)
    | none =>
      match TokenKind.ofChar? c with
      | some kind => .ok (some kind, w.advance p)
      | none => .error (.unexpectedChar c)

theorem le_advanceBy (w : Window) (n : Nat) (p : Position) :
    p.offset ≤ (w.advanceBy n p).offset := by
  induction n generalizing p with
  | zero => exact Nat.le_refl _
  | succ n ih => exact Nat.le_trans (le_advance w p) (ih _)

theorem lt_advanceBy (h : w.current? p = some c) (n : Nat) :
    p.offset < (w.advanceBy (n + 1) p).offset :=
  Nat.lt_of_lt_of_le (lt_advance h) (le_advanceBy w n _)

theorem le_skipWhile (w : Window) (ok : Char → Bool) (p : Position) :
    p.offset ≤ (w.skipWhile ok p).offset := by
  fun_induction skipWhile w ok p with
  | case1 | case3 => exact Nat.le_refl _
  | case2 p c hc hok ih => exact Nat.le_trans (le_advance w p) ih

theorem lt_skipWhile {ok : Char → Bool} (h : w.current? p = some c) (hok : ok c) :
    p.offset < (w.skipWhile ok p).offset := by
  rw [skipWhile]
  split
  · next hend => nomatch hend.symm.trans h
  · next d hd =>
    obtain rfl := Option.some.inj (hd.symm.trans h)
    rw [if_pos hok]
    exact Nat.lt_of_lt_of_le (lt_advance h) (le_skipWhile w ok _)

theorem le_closing? {long : Bool} {delimiter : List Char} (h : w.closing? long delimiter p = some q) :
    p.offset ≤ q.offset := by
  fun_induction closing? w long delimiter p with
  | case1 | case2 => nomatch h
  | case3 p hc hfeed ih =>
    exact Nat.le_trans (Nat.le_trans (le_advance w p) (le_advance w _)) (ih h)
  | case4 p c hc hfeed hescape hends =>
    obtain rfl := Option.some.inj h
    exact le_advanceBy w _ p
  | case5 p c hc hfeed hescape hends ih => exact Nat.le_trans (le_advance w p) (ih h)

theorem lt_string? {quote : Char} (h : w.current? p = some c) (hq : w.string? quote p = some q) :
    p.offset < q.offset := by
  unfold string? at hq
  refine Nat.lt_of_lt_of_le ?_ (le_closing? hq)
  split
  · exact lt_advanceBy h 2
  · exact lt_advanceBy h 0

theorem le_number (w : Window) (p : Position) : p.offset ≤ (w.number p).offset := by
  fun_induction number w p with
  | case1 | case4 => exact Nat.le_refl _
  | case2 p c hc hword hsign ih =>
    exact Nat.le_trans (Nat.le_trans (le_advance w p) (le_advance w _)) ih
  | case3 p c hc hword hsign ih => exact Nat.le_trans (le_advance w p) ih

theorem lt_number (h : w.current? p = some c) (hc : isWordChar c || c = '.') :
    p.offset < (w.number p).offset := by
  rw [number]
  split
  · next hend => nomatch hend.symm.trans h
  · next d hd =>
    obtain rfl := Option.some.inj (hd.symm.trans h)
    rw [if_pos hc]
    have hnext := lt_advance h
    split
    · exact Nat.lt_of_lt_of_le hnext (Nat.le_trans (le_advance w _) (le_number w _))
    · exact Nat.lt_of_lt_of_le hnext (le_number w _)

theorem lt_hash (h : w.current? p = some '#') : p.offset < (w.hash p).2.offset := by
  unfold hash
  split
  · exact lt_advanceBy h 1
  split
  · exact lt_skipWhile h rfl
  · exact lt_skipWhile h rfl

theorem lt_word {kind? : Option TokenKind} (h : w.current? p = some c) (hc : isWordChar c)
    (hword : w.word p = .ok (kind?, q)) : p.offset < q.offset := by
  have hskip : p.offset < (w.skipWhile isWordChar p).offset := lt_skipWhile h hc
  unfold word at hword
  dsimp only at hword
  split at hword
  · next quote hquote =>
    split at hword
    · next behind hbehind =>
      obtain ⟨-, rfl⟩ := Prod.mk.inj (Except.ok.inj hword)
      exact Nat.lt_trans hskip (lt_string? (Option.filter_eq_some_iff.mp hquote).1 hbehind)
    · nomatch hword
  · obtain ⟨-, rfl⟩ := Prod.mk.inj (Except.ok.inj hword)
    exact hskip

/-- What is read takes at least one character. -/
theorem lt_read {kind? : Option TokenKind} (h : w.current? p = some c)
    (hread : w.read p c = .ok (kind?, q)) : p.offset < q.offset := by
  unfold read at hread
  split at hread
  · next hhash =>
    have hlt := lt_hash (hhash ▸ h)
    rwa [Except.ok.inj hread] at hlt
  split at hread
  · split at hread
    · next behind hbehind =>
      obtain ⟨-, rfl⟩ := Prod.mk.inj (Except.ok.inj hread)
      exact lt_string? h hbehind
    · nomatch hread
  split at hread
  · next hnumber =>
    obtain ⟨-, rfl⟩ := Prod.mk.inj (Except.ok.inj hread)
    refine lt_number h ?_
    rcases Bool.or_eq_true_iff.mp hnumber with hdigit | hpoint
    · simp [isWordChar, isAlphanumeric, hdigit]
    · simp [of_decide_eq_true (Bool.and_eq_true_iff.mp hpoint).1]
  split at hread
  · next hletter =>
    refine lt_word h ?_ hread
    rcases Bool.or_eq_true_iff.mp hletter with hletter | hline
    · simp [isWordChar, isAlphanumeric, hletter]
    · simp [isWordChar, of_decide_eq_true hline]
  split at hread
  · obtain ⟨-, rfl⟩ := Prod.mk.inj (Except.ok.inj hread)
    exact lt_advanceBy h 1
  split at hread
  · obtain ⟨-, rfl⟩ := Prod.mk.inj (Except.ok.inj hread)
    exact lt_advance h
  · nomatch hread

/-- A round of the loop takes at least one character. -/
theorem remaining_read_lt {kind? : Option TokenKind}
    (hc : w.current? (w.skipWhile isSkipped p) = some c)
    (hread : w.read (w.skipWhile isSkipped p) c = .ok (kind?, q)) :
    w.stop - q.offset < w.stop - p.offset := by
  have hskip := le_skipWhile w isSkipped p
  have hlt := lt_read hc hread
  have hstop := lt_of_current? hc
  omega

/-- Tokens with the one from `p` up to `q` in front, if what was read is one. -/
def emit (w : Window) (p q : Position) (kind? : Option TokenKind) (ts : Tokens) : Tokens :=
  match kind? with
  | none => ts
  | some kind =>
    { ts with items := ⟨kind, String.ofList (slice w.text p.offset q.offset), p.line, p.column,
        p.offset, q.offset⟩ :: ts.items }

/-- The tokens from `p` on. -/
def tokens (w : Window) (p : Position) : Except LexicalError Tokens :=
  let start := w.skipWhile isSkipped p
  match _ : w.current? start with
  | none => .ok ⟨[], ⟨.eof, "", start.line, start.column, start.offset, start.offset⟩⟩
  | some c =>
    match _ : w.read start c with
    | .error problem => .error ⟨problem, start.place⟩
    | .ok (kind?, behind) => (w.tokens behind).map (w.emit start behind kind?)
termination_by w.stop - p.offset
decreasing_by exact remaining_read_lt ‹_› ‹_›

def tokenize (w : Window) (file : String) (start : Nat) : Except Report Tokens :=
  (w.tokens (.ofOffset w.text start)).mapError (·.report file (String.ofList w.text))

end Window
end ViewTree
