import ViewTree.Proofs.Capture.Nesting
import ViewTree.Token.Lexer

/-!
The marks of a text: what of its characters decides where an expression in it ends. Strings and
comments have none. Main statement: marks move the counts of a nesting as lexemes do
(`Nesting.walk?_counts`).
-/
namespace ViewTree
open Embedded

/-- A bracket, a comma, a colon that is no part of `:=`, or the word that starts a lambda. -/
inductive Mark where
  | opening | closing | comma | colon | lambda
deriving DecidableEq

namespace Mark

def ofChar? (c : Char) (next? : Option Char) : Option Mark :=
  match c with
  | '(' | '[' | '\x7b' => some opening
  | ')' | ']' | '\x7d' => some closing
  | ',' => some comma
  | ':' => if next? = some '=' then none else some colon
  | _ => none

def lambdaWord : List Char := ['l', 'a', 'm', 'b', 'd', 'a']

def startsLambda (cs : List Char) : Bool := cs.takeWhile isWordByte = lambdaWord

/-- Characters that a number may hold and that belong to no word. -/
def isGlue (c : Char) : Bool := c = '.' || c = '+' || c = '-'

/-- The marks of a text behind the character `prev`; none if a string is not closed, or a lambda
stands where a number would run into it. -/
def ofText? (prev : Char) : List Char → Option (List Mark)
  | [] => some []
  | c :: rest =>
    if c = '"' || c = '\'' then
      match Lexer.stringLength? c rest with
      | none => none
      | some n => ofText? c (rest.drop n)
    else if c = '#' then ofText? c (rest.drop (Lexer.commentLength rest))
    else if startsLambda (c :: rest) && !isWordByte prev then
      if isGlue prev then none else (ofText? c rest).map (lambda :: ·)
    else (ofText? c rest).map ((ofChar? c rest.head?).toList ++ ·)
termination_by cs => cs.length
decreasing_by
  all_goals (simp only [List.length_cons, List.length_drop]; omega)

def ofLexeme? : LexemeKind → Option Mark
  | .symbol s =>
    if (closerOf? s).isSome then some opening
    else if isCloser s then some closing
    else if s = "," then some comma
    else if s = ":" then some colon
    else none
  | .keyword word => if word = "lambda" then some lambda else none
  | _ => none

def ofToken? (t : Token) : Option Mark :=
  if t.kind.isOpening then some opening
  else if t.kind.isClosing then some closing
  else if t.kind = .comma then some comma
  else if t.kind = .colon then some colon
  else if t.kind = .identifier && t.text = "lambda" then some lambda
  else none

def ofLexemes (lexemes : List Lexeme) : List Mark := lexemes.filterMap fun t => ofLexeme? t.kind

def ofTokens (tokens : List Token) : List Mark := tokens.filterMap ofToken?

theorem ofTokens_append (ts us : List Token) : ofTokens (ts ++ us) = ofTokens ts ++ ofTokens us :=
  List.filterMap_append

theorem ofLexemes_append (ts us : List Lexeme) :
    ofLexemes (ts ++ us) = ofLexemes ts ++ ofLexemes us := List.filterMap_append

theorem ofTokens_toList (t? : Option Token) : ofTokens t?.toList = (t?.bind ofToken?).toList := by
  cases t? with
  | none => rfl
  | some t =>
    unfold ofTokens
    rw [Option.toList_some, List.filterMap_cons, Option.bind_some]
    cases ofToken? t <;> rfl

theorem ofLexemes_cons (t : Lexeme) (lexemes : List Lexeme) :
    ofLexemes (t :: lexemes) = (ofLexeme? t.kind).toList ++ ofLexemes lexemes := by
  unfold ofLexemes
  rw [List.filterMap_cons]
  cases ofLexeme? t.kind <;> rfl

/-- Characters that are no mark and start nothing that is left out. -/
def isQuiet (c : Char) : Bool :=
  !(['"', '\'', '#', '(', '[', '\x7b', ')', ']', '\x7d', ',', ':'].contains c)

theorem ofChar?_of_isQuiet {c : Char} (h : isQuiet c) (next? : Option Char) :
    ofChar? c next? = none := by
  unfold ofChar?
  split
  case h_9 => rfl
  all_goals exact absurd h (by decide)

theorem isQuiet_of_isWordByte {c : Char} (h : isWordByte c) : isQuiet c := by
  by_cases hloud : isQuiet c
  · exact hloud
  have hmem : c ∈ ['"', '\'', '#', '(', '[', '\x7b', ')', ']', '\x7d', ',', ':'] := by
    simpa only [isQuiet, Bool.not_eq_true, Bool.not_eq_false', List.contains_iff_mem] using hloud
  have hnone : ['"', '\'', '#', '(', '[', '\x7b', ')', ']', '\x7d', ',', ':'].all
      (fun d => !isWordByte d) = true := by decide
  have hc := List.all_eq_true.mp hnone c hmem
  rw [h] at hc
  nomatch hc

theorem head_of_startsLambda {c : Char} {rest : List Char} (h : startsLambda (c :: rest)) :
    c = 'l' := by
  unfold startsLambda at h
  rw [List.takeWhile_cons] at h
  by_cases hc : isWordByte c
  · rw [if_pos hc] at h
    exact (List.cons.inj (of_decide_eq_true h)).1
  · rw [if_neg hc] at h
    exact absurd h (by decide)

theorem ofText?_nil (prev : Char) : ofText? prev [] = some [] := by
  rw [ofText?]

theorem ofText?_string {c : Char} {rest : List Char} {n : Nat} (hc : c = '"' ∨ c = '\'')
    (h : Lexer.stringLength? c rest = some n) (prev : Char) :
    ofText? prev (c :: rest) = ofText? c (rest.drop n) := by
  have hquote : (decide (c = '"') || decide (c = '\'')) = true := by simpa using hc
  rw [ofText?, if_pos hquote, h]

theorem ofText?_comment (prev : Char) (rest : List Char) :
    ofText? prev ('#' :: rest) = ofText? '#' (rest.drop (Lexer.commentLength rest)) := by
  rw [ofText?, if_neg (by decide), if_pos rfl]

theorem ofText?_char {c : Char} {rest : List Char} {prev : Char}
    (hc : c ≠ '"' ∧ c ≠ '\'' ∧ c ≠ '#') (h : startsLambda (c :: rest) → isWordByte prev) :
    ofText? prev (c :: rest) = (ofText? c rest).map ((ofChar? c rest.head?).toList ++ ·) := by
  have hquote : ¬(decide (c = '"') || decide (c = '\'')) = true := by simp [hc.1, hc.2.1]
  have hlambda : ¬(startsLambda (c :: rest) && !isWordByte prev) = true := by
    simpa using h
  rw [ofText?, if_neg hquote, if_neg hc.2.2, if_neg hlambda]

theorem ofText?_lambda {c : Char} {rest : List Char} {prev : Char}
    (h : startsLambda (c :: rest)) (hprev : isWordByte prev = false) :
    ofText? prev (c :: rest) =
      if isGlue prev then none else (ofText? c rest).map (lambda :: ·) := by
  obtain rfl := head_of_startsLambda h
  have hlambda : (startsLambda ('l' :: rest) && !isWordByte prev) = true := by simp [h, hprev]
  rw [ofText?, if_neg (by decide), if_neg (by decide), if_pos hlambda]

theorem ofText?_quiet {c : Char} {rest : List Char} {prev : Char} (hc : isQuiet c)
    (h : startsLambda (c :: rest) → isWordByte prev) :
    ofText? prev (c :: rest) = ofText? c rest := by
  have hplain : c ≠ '"' ∧ c ≠ '\'' ∧ c ≠ '#' := by
    refine ⟨?_, ?_, ?_⟩ <;> rintro rfl <;> exact absurd hc (by decide)
  rw [ofText?_char hplain h, ofChar?_of_isQuiet hc]
  cases ofText? c rest <;> rfl

/-- The last character of a text, or the one in front of it. -/
def lastOf (prev : Char) (cs : List Char) : Char := cs.getLastD prev

@[simp] theorem lastOf_nil (prev : Char) : lastOf prev [] = prev := rfl

@[simp] theorem lastOf_cons (prev c : Char) (cs : List Char) :
    lastOf prev (c :: cs) = lastOf c cs := List.getLastD_cons ..

/-- Nothing in a text that holds no mark and no `l` is one. -/
theorem ofText?_append_quiet {prev : Char} {cs : List Char}
    (h : ∀ c ∈ cs, isQuiet c ∧ c ≠ 'l') (rest : List Char) :
    ofText? prev (cs ++ rest) = ofText? (lastOf prev cs) rest := by
  induction cs generalizing prev with
  | nil => rfl
  | cons c cs ih =>
    obtain ⟨hquiet, hl⟩ := h c List.mem_cons_self
    have hlambda : startsLambda (c :: (cs ++ rest)) → isWordByte prev := fun hstarts =>
      absurd (head_of_startsLambda hstarts) hl
    rw [List.cons_append, ofText?_quiet hquiet hlambda, lastOf_cons]
    exact ih fun d hd => h d (List.mem_cons_of_mem c hd)

/-- Nothing in the rest of a word is a mark. -/
theorem ofText?_append_word {prev : Char} {cs : List Char} (hprev : isWordByte prev)
    (h : ∀ c ∈ cs, isWordByte c) (rest : List Char) :
    ofText? prev (cs ++ rest) = ofText? (lastOf prev cs) rest := by
  induction cs generalizing prev with
  | nil => rfl
  | cons c cs ih =>
    have hc := h c List.mem_cons_self
    rw [List.cons_append, ofText?_quiet (isQuiet_of_isWordByte hc) fun _ => hprev, lastOf_cons]
    exact ih hc fun d hd => h d (List.mem_cons_of_mem c hd)

theorem take_append_drop_takeWhile (ok : Char → Bool) (cs : List Char) :
    cs.takeWhile ok ++ cs.drop (cs.takeWhile ok).length = cs :=
  List.prefix_iff_eq_append.mp (List.takeWhile_prefix ok)

theorem not_head_drop_takeWhile (ok : Char → Bool) (cs : List Char) :
    ∀ d ∈ (cs.drop (cs.takeWhile ok).length).head?, ok d = false := by
  induction cs with
  | nil => exact nofun
  | cons c cs ih =>
    rw [List.takeWhile_cons]
    by_cases hc : ok c
    · rw [if_pos hc]
      exact ih
    · rw [if_neg hc]
      intro d hd
      obtain rfl := Option.some.inj hd
      simpa using hc

theorem not_startsLambda_of_head {cs : List Char} (h : ∀ d ∈ cs.head?, isWordByte d = false) :
    ¬startsLambda cs := by
  cases cs with
  | nil => decide
  | cons d cs =>
    intro hstarts
    have hd : isWordByte d = false := h d rfl
    obtain rfl := head_of_startsLambda hstarts
    exact absurd hd (by decide)

theorem takeWhile_word {word behind : List Char} (hword : ∀ d ∈ word, isWordByte d)
    (hbehind : ∀ d ∈ behind.head?, isWordByte d = false) :
    (word ++ behind).takeWhile isWordByte = word := by
  have hnone : behind.takeWhile isWordByte = [] := by
    cases behind with
    | nil => rfl
    | cons d behind => rw [List.takeWhile_cons, if_neg (by simp [hbehind d rfl])]
  rw [List.takeWhile_append_of_pos hword, hnone, List.append_nil]

/-- A text that starts with a word, which ends where no word goes on, starts a lambda just if the
word does. -/
theorem startsLambda_append {word behind : List Char} (hword : ∀ d ∈ word, isWordByte d)
    (hbehind : ∀ d ∈ behind.head?, isWordByte d = false) :
    startsLambda (word ++ behind) = decide (word = lambdaWord) := by
  unfold startsLambda
  rw [takeWhile_word hword hbehind]

theorem ofText?_word {prev c : Char} {tail behind : List Char} (hc : isWordByte c)
    (htail : ∀ d ∈ tail, isWordByte d) (hbehind : ∀ d ∈ behind.head?, isWordByte d = false)
    (hprev : startsLambda (c :: tail ++ behind) → isWordByte prev = false) :
    ofText? prev (c :: tail ++ behind) =
      if c :: tail = lambdaWord then
        if isGlue prev then none else (ofText? (lastOf c tail) behind).map (lambda :: ·)
      else ofText? (lastOf c tail) behind := by
  have hstarts : startsLambda (c :: (tail ++ behind)) = decide (c :: tail = lambdaWord) :=
    startsLambda_append (List.forall_mem_cons.mpr ⟨hc, htail⟩) hbehind
  have hrest : ofText? c (tail ++ behind) = ofText? (lastOf c tail) behind :=
    ofText?_append_word hc htail behind
  rw [List.cons_append]
  by_cases hlambda : c :: tail = lambdaWord
  · have hstarts := hstarts.trans (decide_eq_true hlambda)
    rw [if_pos hlambda, ofText?_lambda hstarts (hprev hstarts), hrest]
  · have hnot : ¬startsLambda (c :: (tail ++ behind)) := by
      rw [hstarts]
      simpa using hlambda
    rw [if_neg hlambda, ofText?_quiet (isQuiet_of_isWordByte hc) fun hl => absurd hl hnot, hrest]

/-- Open brackets and lambdas that wait for their colon, behind a mark; none where an expression
has ended before the mark. -/
def step? (counts : Nat × Nat) (m : Mark) : Option (Nat × Nat) :=
  let (depth, lambdas) := counts
  match m with
  | opening => some (depth + 1, lambdas)
  | closing => if depth = 0 then none else some (depth - 1, lambdas)
  | comma => if depth = 0 && lambdas = 0 then none else some (depth, lambdas)
  | colon => some (depth, if depth = 0 then lambdas - 1 else lambdas)
  | lambda => some (depth, if depth = 0 then lambdas + 1 else lambdas)

def walk? (counts : Nat × Nat) (marks : List Mark) : Option (Nat × Nat) := marks.foldlM step? counts

end Mark

namespace Embedded.Nesting
open Mark

def counts (v : Nesting) : Nat × Nat := (v.depth, v.lambdas)

/-- A lexeme moves the counts as its mark does. -/
theorem step?_counts {v w : Nesting} {k : LexemeKind} (h : v.step? k = some w) :
    Mark.walk? v.counts (ofLexeme? k).toList = some w.counts := by
  obtain ⟨depth, lambdas, joined⟩ := v
  unfold step? at h
  unfold ofLexeme?
  cases k with
  | symbol s =>
    dsimp only at h ⊢
    by_cases hopen : (closerOf? s).isSome
    · rw [if_pos hopen] at h ⊢
      obtain rfl := Option.some.inj h
      rfl
    rw [if_neg hopen] at h ⊢
    by_cases hclose : isCloser s
    · rw [if_pos hclose] at h ⊢
      by_cases hdepth : depth = 0
      · simp [hdepth] at h
      · rw [if_neg hdepth] at h
        obtain rfl := Option.some.inj h
        simp [Mark.walk?, Mark.step?, counts, hdepth]
    rw [if_neg hclose] at h ⊢
    by_cases hcomma : s = ","
    · rw [if_pos hcomma] at h ⊢
      by_cases hnone : (depth = 0 && lambdas = 0) = true
      · rw [if_pos hnone] at h
        nomatch h
      · rw [if_neg hnone] at h
        obtain rfl := Option.some.inj h
        simp only [Mark.walk?, Mark.step?, counts, Option.toList_some, List.foldlM_cons, if_neg hnone]
        rfl
    rw [if_neg hcomma] at h ⊢
    by_cases hcolon : s = ":"
    · rw [if_pos hcolon] at h ⊢
      obtain rfl := Option.some.inj h
      rfl
    rw [if_neg hcolon] at h ⊢
    by_cases hbind : s = ":="
    · rw [if_pos hbind] at h
      grind [Mark.walk?, counts]
    rw [if_neg hbind] at h
    by_cases hequals : s = "="
    · rw [if_pos hequals] at h
      grind [Mark.walk?, counts]
    rw [if_neg hequals] at h
    obtain rfl := Option.some.inj h
    rfl
  | keyword word =>
    dsimp only at h ⊢
    by_cases hlambda : word = "lambda"
    · rw [if_pos hlambda] at h ⊢
      by_cases hjoined : joined
      · rw [if_pos hjoined] at h
        nomatch h
      · rw [if_neg hjoined] at h
        obtain rfl := Option.some.inj h
        rfl
    · rw [if_neg hlambda] at h ⊢
      obtain rfl := Option.some.inj h
      rfl
  | _ =>
    obtain rfl := Option.some.inj h
    rfl

/-- Lexemes move the counts as their marks do. -/
theorem walk?_counts {v w : Nesting} {lexemes : List Lexeme} (h : v.walk? lexemes = some w) :
    Mark.walk? v.counts (ofLexemes lexemes) = some w.counts := by
  induction lexemes generalizing v with
  | nil =>
    obtain rfl := Option.some.inj h
    rfl
  | cons t lexemes ih =>
    obtain ⟨u, hstep, hrest⟩ := exists_step?_of_walk? h
    have hcounts := step?_counts hstep
    unfold Mark.walk? at hcounts ⊢
    rw [ofLexemes_cons, List.foldlM_append, hcounts]
    exact ih hrest

end Embedded.Nesting
end ViewTree
