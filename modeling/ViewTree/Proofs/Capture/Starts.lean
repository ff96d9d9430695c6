import ViewTree.Proofs.Capture.Cutting
import ViewTree.Proofs.Capture.Scanning

/-!
How expressions start. Main statement: no expression starts with a name and an equals sign
(`Aligned.not_assigned`), so none is taken for a node with its name in front.
-/
namespace ViewTree
open Embedded Mark Text Lexer

/-- Tokens and lexemes of the same text between brackets. -/
def Aligned (tokens : List Token) (lexemes : List Lexeme) : Prop :=
  ∃ (p : Position) (cs : List Char) (eof : Token) (offset : Nat) (pending : List String)
    (fresh : Bool), '\r' ∉ cs ∧ pending ≠ [] ∧ run p cs = .ok ⟨tokens, eof⟩ ∧
      scanFrom offset pending fresh cs = some lexemes

namespace Aligned
variable {t : Token} {tokens : List Token} {lexemes : List Lexeme}

/-- Tokens and lexemes of the same text after what both leave out. -/
theorem exists_step (h : Aligned (t :: tokens) lexemes)
    (hkind : t.kind ≠ .attrOpen ∧ t.kind ≠ .docComment) :
    ∃ (p : Position) (c : Char) (rest : List Char) (n : Nat) (eof : Token) (offset : Nat)
      (pending : List String) (fresh : Bool), '\r' ∉ c :: rest ∧ pending ≠ [] ∧
        step c rest = .ok (some t.kind, n) ∧ run p (rest.drop n) = .ok ⟨tokens, eof⟩ ∧
          scanFrom offset pending fresh (c :: rest) = some lexemes := by
  obtain ⟨p, cs, eof, offset, pending, fresh, hreturn, hpending, hrun, hscan⟩ := h
  induction cs using Lexer.induction generalizing p offset fresh with
  | nil =>
    rw [run_nil] at hrun
    nomatch hrun
  | step c rest ih =>
    obtain ⟨kind?, n, more, hstep, hmore, hitems⟩ := exists_step_of_run hrun
    cases kind? with
    | some kind =>
      obtain ⟨htoken, rfl⟩ := Tokens.mk.inj hitems
      obtain ⟨rfl, rfl⟩ := List.cons.inj htoken
      exact ⟨_, c, rest, n, more.eof, offset, pending, fresh, hreturn, hpending, hstep, hmore, hscan⟩
    | none =>
      have hmore : run (p.after (c :: rest.take n)) (rest.drop n) = .ok ⟨t :: tokens, eof⟩ :=
        hitems ▸ hmore
      have hrest (n : Nat) : '\r' ∉ rest.drop n := fun hmem =>
        hreturn (List.mem_cons_of_mem c (List.mem_of_mem_drop hmem))
      cases step_cases hstep with
      | blank hc =>
        have hline : c ≠ '\r' := fun hc => hreturn (hc ▸ List.mem_cons_self)
        rcases blank_of_isSkipped hc hline with hblank | rfl
        · rw [scanFrom_blank hblank] at hscan
          exact ih 0 _ _ _ (hrest 0) hmore hscan
        · have hopen : ¬(pending.isEmpty && !fresh) = true := by simp [hpending]
          rw [scanFrom_feed, if_neg hopen] at hscan
          exact ih 0 _ _ _ (hrest 0) hmore hscan
      | comment hc =>
        subst hc
        have hplain : '\r' ∉ rest := hrest 0
        rw [scanFrom_comment hplain] at hscan
        exact ih _ _ _ _ (hrest _) hmore hscan

/-- Words, which have a meaning of their own or none. -/
def isWord : LexemeKind → Bool
  | .keyword _ | .name _ => true
  | _ => false

/-- A word that the lexer takes is one for a scan too. -/
theorem word_of_lexeme? {c : Char} {rest : List Char} {offset n : Nat} {kind : LexemeKind}
    (h : lexeme? offset (c :: rest) = some (kind, n)) (hc : isLetter c ∨ c = '_')
    (hdigit : isDigit c = false)
    (hnext : ∀ quote ∈ (rest.drop (rest.takeWhile isWordChar).length).head?,
      quote = '"' ∨ quote = '\'' → isStringMark (c :: rest.takeWhile isWordChar) = false)
    (hbehind : ∀ d ∈ (rest.drop (rest.takeWhile isWordChar).length).head?,
      isWordByte d → isWordChar d) :
    isWord kind ∧ (kind = .keyword "lambda" → c :: rest.takeWhile isWordChar = lambdaWord) ∧
      n = (rest.takeWhile isWordChar).length + 1 := by
  have hsplit := take_append_drop_takeWhile isWordChar rest
  have hstop := not_head_drop_takeWhile isWordChar rest
  have htail : ∀ d ∈ rest.takeWhile isWordChar, isWordByte d := fun d hd =>
    isWordByte_of_isWordChar (List.all_eq_true.mp List.all_takeWhile d hd)
  generalize rest.takeWhile isWordChar = tail at *
  generalize rest.drop tail.length = behind at *
  subst hsplit
  have hbyte : isWordByte c := by
    rcases hc with hc | rfl
    · exact isWordByte_of_isWordChar (isWordChar_of_isLetter hc)
    · decide
  have hparted : ∀ d ∈ behind.head?, isWordByte d = false := by
    intro d hd
    by_cases hd' : isWordByte d
    · exact absurd (hbehind d hd hd') (by simp [hstop d hd])
    · simpa using hd'
  have hnumber : ¬(c.isDigit || (c = '.' && (tail ++ behind).head?.any (·.isDigit))) = true := by
    intro h
    rcases Bool.or_eq_true_iff.mp h with h | h
    · rw [isDigit, if_pos (toNat_lt_of_isDigit h), h] at hdigit
      cases hdigit
    · rw [of_decide_eq_true (Bool.and_eq_true_iff.mp h).1] at hc
      exact absurd hc (by decide)
  have hword : (c :: (tail ++ behind)).takeWhile isWordByte = c :: tail :=
    takeWhile_word (List.forall_mem_cons.mpr ⟨hbyte, htail⟩) hparted
  have hdrop : (c :: (tail ++ behind)).drop (c :: tail).length = behind := List.drop_left
  have hplain : ¬(behind.head?.any (fun q => q = '"' || q = '\'') &&
      stringLetters.contains (String.ofList ((c :: tail).map Char.toLower))) = true := by
    intro hstring
    obtain ⟨hquoted, hletters⟩ := Bool.and_eq_true_iff.mp hstring
    obtain ⟨quote, hhead, hquote⟩ := (Option.any_eq_true ..).mp hquoted
    have hmark : isStringMark (c :: tail) = false := hnext quote hhead (by simpa using hquote)
    have hsome : (String.ofList ((c :: tail).map Char.toLower) == "") = false := by
      refine beq_eq_false_iff_ne.mpr fun hempty => ?_
      have hlist := congrArg String.toList hempty
      rw [String.toList_ofList] at hlist
      cases hlist
    rw [show stringLetters = "" :: stringMarks from rfl, List.contains_cons, hsome,
      Bool.false_or] at hletters
    exact absurd hletters (by simpa [isStringMark] using hmark)
  unfold lexeme? at h
  dsimp only at h
  rw [if_neg hnumber, if_pos hbyte, hword, hdrop, if_neg hplain] at h
  by_cases hkeyword : isKeyword (String.ofList (c :: tail))
  · rw [if_pos hkeyword] at h
    obtain ⟨rfl, rfl⟩ := Prod.mk.inj (Option.some.inj h)
    refine ⟨rfl, fun hlambda => ?_, rfl⟩
    have hlist := congrArg String.toList (LexemeKind.keyword.inj hlambda)
    rw [String.toList_ofList] at hlist
    exact hlist
  rw [if_neg hkeyword] at h
  by_cases hname : isIdentifier (String.ofList (c :: tail))
  · rw [if_pos hname] at h
    obtain ⟨rfl, rfl⟩ := Prod.mk.inj (Option.some.inj h)
    exact ⟨rfl, by rintro ⟨⟩, rfl⟩
  · rw [if_neg hname] at h
    cases h

/-- A token that is a name is a word of the grammar too. -/
theorem exists_word (h : Aligned (t :: tokens) lexemes) (hname : t.kind.isName) :
    ∃ l later, lexemes = l :: later ∧ isWord l.kind ∧
      (l.kind = .keyword "lambda" → t.kind = .identifier) ∧ Aligned tokens later := by
  have hkind : t.kind ≠ .attrOpen ∧ t.kind ≠ .docComment := by
    constructor <;> (intro hkind; rw [hkind] at hname; cases hname)
  obtain ⟨p, c, rest, n, eof, offset, pending, fresh, hreturn, hpending, hstep, hrun, hscan⟩ :=
    h.exists_step hkind
  generalize t.kind = kind at hstep hname
  cases step_cases hstep with
  | attrOpen => cases hname
  | docComment => cases hname
  | string => cases hname
  | number => cases hname
  | marked => cases hname
  | pair hnext hpair =>
    unfold TokenKind.ofPair? at hpair
    split at hpair
    case h_12 => cases hpair
    all_goals
      rw [← Option.some.inj hpair] at hname
      cases hname
  | single hnext hsingle =>
    unfold TokenKind.ofChar? at hsingle
    split at hsingle
    case h_26 => cases hsingle
    all_goals
      rw [← Option.some.inj hsingle] at hname
      cases hname
  | word hc hdigit hnext =>
    have hother {d : Char} (hd : isLetter d = false ∧ d ≠ '_') : c ≠ d := by
      rintro rfl
      exact hc.elim (by simp [hd.1]) hd.2
    have hskipped : ¬isSkipped c := by
      have hblank : c ≠ ' ' ∧ c ≠ '\t' ∧ c ≠ '\r' ∧ c ≠ '\n' ∧ c ≠ '\x0c' :=
        ⟨hother (by decide), hother (by decide), hother (by decide), hother (by decide),
          hother (by decide)⟩
      simp [isSkipped, hblank]
    obtain ⟨kind', n', still, later, hlexeme, hnest, hlater, rfl⟩ :=
      exists_lexeme_of_scanFrom hskipped (hother (by decide)) (hother (by decide)) hscan
    obtain ⟨hword, hlambda, rfl⟩ :=
      word_of_lexeme? hlexeme hc hdigit hnext (isWordChar_of_run hrun)
    have hstill : pending = still := by
      cases kind' with
      | keyword => exact Option.some.inj hnest
      | name => exact Option.some.inj hnest
      | _ => cases hword
    subst hstill
    refine ⟨_, later, rfl, hword, fun h => by rw [hlambda h]; rfl, ?_⟩
    refine ⟨p, _, eof, _, pending, false, fun hmem => ?_, hpending, hrun, hlater⟩
    exact hreturn (List.mem_cons_of_mem c (List.mem_of_mem_drop hmem))

/-- A token that is an equals sign is one of the grammar too. -/
theorem exists_equals (h : Aligned (t :: tokens) lexemes) (hequals : t.kind = .equals) :
    ∃ l later, lexemes = l :: later ∧ l.kind = .symbol "=" := by
  have hkind : t.kind ≠ .attrOpen ∧ t.kind ≠ .docComment := by
    rw [hequals]
    decide
  obtain ⟨p, c, rest, n, eof, offset, pending, fresh, hreturn, hpending, hstep, hrun, hscan⟩ :=
    h.exists_step hkind
  have hequal : c = '=' ∧ rest.head? ≠ some '=' := by
    rw [hequals] at hstep
    generalize hkind : TokenKind.equals = kind at hstep
    cases step_cases hstep with
    | attrOpen => nomatch hkind
    | docComment => nomatch hkind
    | string => nomatch hkind
    | number => nomatch hkind
    | marked => nomatch hkind
    | word =>
      unfold TokenKind.ofWord at hkind
      split at hkind <;> nomatch hkind
    | pair hnext hpair =>
      subst hkind
      unfold TokenKind.ofPair? at hpair
      split at hpair <;> nomatch hpair
    | single hnext hsingle =>
      subst hkind
      unfold TokenKind.ofChar? at hsingle
      split at hsingle
      case h_10 =>
        refine ⟨rfl, fun hhead => ?_⟩
        rw [hhead] at hnext
        nomatch hnext
      all_goals nomatch hsingle
  obtain ⟨rfl, hnext⟩ := hequal
  obtain ⟨kind, m, still, later, hlexeme, -, -, rfl⟩ :=
    exists_lexeme_of_scanFrom (by decide) (by decide) (by decide) hscan
  refine ⟨_, later, rfl, ?_⟩
  have hsymbol : symbol? ('=' :: rest) = some "=" := by
    cases rest with
    | nil => rfl
    | cons d rest =>
      have hd : d ≠ '=' := fun hd => hnext (hd ▸ rfl)
      simp [symbol?, symbols, List.isPrefixOf, hd.symm]
  have hlexeme' : lexeme? offset ('=' :: rest) = some (.symbol "=", 1) := by
    show (symbol? ('=' :: rest)).map _ = _
    rw [hsymbol]
    rfl
  exact (Prod.mk.inj (Option.some.inj (hlexeme.symm.trans hlexeme'))).1

section
variable {v w : Nesting} {l closing : Lexeme} {inside later rest : List Lexeme}

/-- No equals sign stands where nothing is open but a lambda that has just started. -/
theorem not_equals_of_walk? (hwalk : v.walk? inside = some w) (hdepth : v.depth = 0)
    (hlambdas : v.lambdas = 0 ∨ v.joined) (hclosing : closing.kind = .symbol ")")
    (hlexemes : inside ++ closing :: rest = l :: later) : l.kind ≠ .symbol "=" := by
  intro hl
  cases inside with
  | nil =>
    obtain ⟨rfl, -⟩ := List.cons.inj hlexemes
    exact absurd (hclosing.symm.trans hl) (by decide)
  | cons t inside =>
    obtain ⟨rfl, -⟩ := List.cons.inj hlexemes
    obtain ⟨u, hstep, -⟩ := Nesting.exists_step?_of_walk? hwalk
    rw [hl] at hstep
    rcases hlambdas with hlambdas | hjoined
    · simp [Nesting.step?, hdepth, hlambdas, closerOf?, isCloser] at hstep
    · simp [Nesting.step?, hdepth, hjoined, closerOf?, isCloser] at hstep

/-- A word opens nothing, but for the one that starts a lambda. -/
theorem exists_walk?_of_word (hwalk : v.walk? inside = some w) (hv : v.depth = 0 ∧ v.lambdas = 0)
    (hclosing : closing.kind = .symbol ")") (hlexemes : inside ++ closing :: rest = l :: later)
    (hword : isWord l.kind) :
    ∃ (u : Nesting) (inside' : List Lexeme), u.walk? inside' = some w ∧
      inside' ++ closing :: rest = later ∧ u.depth = 0 ∧ (u.lambdas = 0 ∨ u.joined) ∧
        (l.kind ≠ .keyword "lambda" → u.lambdas = 0) := by
  cases inside with
  | nil =>
    obtain ⟨rfl, -⟩ := List.cons.inj hlexemes
    rw [hclosing] at hword
    nomatch hword
  | cons t inside =>
    obtain ⟨rfl, rfl⟩ := List.cons.inj hlexemes
    obtain ⟨u, hstep, hwalk⟩ := Nesting.exists_step?_of_walk? hwalk
    refine ⟨u, inside, hwalk, rfl, ?_⟩
    cases hkind : t.kind with
    | keyword word =>
      rw [hkind] at hstep
      unfold Nesting.step? at hstep
      dsimp only at hstep
      by_cases hlambda : word = "lambda"
      · rw [if_pos hlambda] at hstep
        by_cases hjoined : v.joined
        · rw [if_pos hjoined] at hstep
          nomatch hstep
        · rw [if_neg hjoined] at hstep
          obtain rfl := Option.some.inj hstep
          exact ⟨hv.1, .inr rfl, fun hne => absurd (congrArg LexemeKind.keyword hlambda) hne⟩
      · rw [if_neg hlambda] at hstep
        obtain rfl := Option.some.inj hstep
        exact ⟨hv.1, .inl hv.2, fun _ => hv.2⟩
    | name id =>
      rw [hkind] at hstep
      obtain rfl := Option.some.inj hstep
      exact ⟨hv.1, .inl hv.2, fun _ => hv.2⟩
    | _ =>
      rw [hkind] at hword
      nomatch hword

variable {t u s : Token} {tokens : List Token}

/-- No expression starts with a name and an equals sign. -/
theorem not_assigned (h : Aligned (t :: u :: tokens) (inside ++ closing :: rest))
    (hwalk : v.walk? inside = some w) (hv : v.depth = 0 ∧ v.lambdas = 0)
    (hclosing : closing.kind = .symbol ")") (hname : t.kind.isName) : u.kind ≠ .equals := by
  intro hequals
  obtain ⟨l, later, hlexemes, hword, -, halign⟩ := h.exists_word hname
  obtain ⟨x, inside, hwalk, rfl, hdepth, hlambdas, -⟩ :=
    exists_walk?_of_word hwalk hv hclosing hlexemes hword
  obtain ⟨l, later, hlexemes, hl⟩ := halign.exists_equals hequals
  exact not_equals_of_walk? hwalk hdepth hlambdas hclosing hlexemes hl

/-- No expression starts with a mutable name and an equals sign. -/
theorem not_assigned_mut (h : Aligned (t :: u :: s :: tokens) (inside ++ closing :: rest))
    (hwalk : v.walk? inside = some w) (hv : v.depth = 0 ∧ v.lambdas = 0)
    (hclosing : closing.kind = .symbol ")") (ht : t.kind = .mutWord) (hu : u.kind.isName) :
    s.kind ≠ .equals := by
  have hname : t.kind.isName := by
    rw [ht]
    rfl
  obtain ⟨l, later, hlexemes, hword, hidentifier, halign⟩ := h.exists_word hname
  obtain ⟨x, inside, hwalk, rfl, hdepth, -, hplain⟩ :=
    exists_walk?_of_word hwalk hv hclosing hlexemes hword
  have hlambdas : x.lambdas = 0 := hplain fun hlambda => by
    have := hidentifier hlambda
    rw [ht] at this
    nomatch this
  exact halign.not_assigned hwalk ⟨hdepth, hlambdas⟩ hclosing hu

end

end Aligned
end ViewTree
