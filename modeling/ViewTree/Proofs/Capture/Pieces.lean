import ViewTree.Proofs.Capture.Cutting

/-!
Pieces of a text that is lexed. Main statements: a run goes on at each of its tokens
(`Lexer.exists_run_of_items`), and a text that ends with a token has the same tokens in front of a
separator (`Lexer.run_append`).
-/
namespace ViewTree
namespace Lexer
open Embedded Text

/-- Blanks and the separators that no token runs into. -/
def isSeparator (c : Char) : Bool := isSkipped c || c = ',' || c = ')' || c = '\x7d'

theorem cases_of_isSeparator {c : Char} (h : isSeparator c) :
    c = ' ' ∨ c = '\t' ∨ c = '\r' ∨ c = '\n' ∨ c = '\x0c' ∨ c = ',' ∨ c = ')' ∨ c = '\x7d' := by
  simpa [isSeparator, isSkipped, or_assoc] using h

/-- What no token that a separator stands behind looks at. -/
theorem other_of_isSeparator {c : Char} (h : isSeparator c) :
    isWordChar c = false ∧ isDigit c = false ∧ isSign c = false ∧ c ≠ '.' ∧ c ≠ '"' ∧ c ≠ '\'' := by
  rcases cases_of_isSeparator h with rfl | rfl | rfl | rfl | rfl | rfl | rfl | rfl <;> decide

theorem ofPair?_of_isSeparator {d : Char} (h : isSeparator d) (c : Char) :
    TokenKind.ofPair? c d = none := by
  unfold TokenKind.ofPair?
  split
  case h_12 => rfl
  all_goals exact absurd h (by decide)

theorem ne_backslash {c : Char} {cs : List Char} (hone : c = '\\' → cs = [] → False)
    (hmore : ∀ d ds, c = '\\' → cs = d :: ds → False) : c ≠ '\\' := fun hc => by
  cases cs with
  | nil => exact hone hc rfl
  | cons d ds => exact hmore d ds hc rfl

theorem closingQuote?_append {quote : Char} {cs : List Char} {n : Nat}
    (h : closingQuote? quote cs = some n) (more : List Char) :
    n ≤ cs.length ∧ closingQuote? quote (cs ++ more) = some n := by
  induction cs using closingQuote?.induct quote generalizing n with
  | case1 => nomatch h
  | case2 => nomatch h
  | case3 c cs ih =>
    rw [closingQuote?] at h
    obtain ⟨m, hm, rfl⟩ := Option.map_eq_some_iff.mp h
    obtain ⟨hle, hmore⟩ := ih hm
    refine ⟨Nat.add_le_add_right hle 2, ?_⟩
    show closingQuote? quote ('\\' :: c :: (cs ++ more)) = _
    rw [closingQuote?, hmore]
    rfl
  | case4 cs hone hmore =>
    rw [closingQuote?.eq_4 _ _ _ hone hmore, if_pos rfl] at h
    nomatch h
  | case5 cs hone hmore hfeed =>
    have hc := ne_backslash hone hmore
    rw [closingQuote?.eq_4 _ _ _ hone hmore, if_neg hfeed, if_pos rfl] at h
    obtain rfl := Option.some.inj h
    refine ⟨by simp, ?_⟩
    rw [List.cons_append, closingQuote?.eq_4 _ _ _ (fun h _ => hc h) fun _ _ h _ => hc h,
      if_neg hfeed, if_pos rfl]
  | case6 c cs hone hmore hfeed hquote ih =>
    have hc := ne_backslash hone hmore
    rw [closingQuote?.eq_4 _ _ _ hone hmore, if_neg hfeed, if_neg hquote] at h
    obtain ⟨m, hm, rfl⟩ := Option.map_eq_some_iff.mp h
    obtain ⟨hle, hsame⟩ := ih hm
    refine ⟨Nat.succ_le_succ hle, ?_⟩
    rw [List.cons_append, closingQuote?.eq_4 _ _ _ (fun h _ => hc h) fun _ _ h _ => hc h,
      if_neg hfeed, if_neg hquote, hsame]
    rfl

theorem closingQuotes?_append {quote : Char} {cs : List Char} {n : Nat}
    (h : closingQuotes? quote cs = some n) (more : List Char) :
    3 ≤ n ∧ n ≤ cs.length ∧ closingQuotes? quote (cs ++ more) = some n := by
  induction cs using closingQuotes?.induct quote generalizing n with
  | case1 => nomatch h
  | case2 => nomatch h
  | case3 c cs ih =>
    rw [closingQuotes?] at h
    obtain ⟨m, hm, rfl⟩ := Option.map_eq_some_iff.mp h
    obtain ⟨hpos, hle, hmore⟩ := ih hm
    refine ⟨by omega, Nat.add_le_add_right hle 2, ?_⟩
    show closingQuotes? quote ('\\' :: c :: (cs ++ more)) = _
    rw [closingQuotes?, hmore]
    rfl
  | case4 c cs hone hmore hquotes =>
    have hc := ne_backslash hone hmore
    rw [closingQuotes?.eq_4 _ _ _ hone hmore, if_pos hquotes] at h
    obtain rfl := Option.some.inj h
    have hleading := List.isPrefixOf_iff_prefix.mp hquotes
    have hlonger := List.isPrefixOf_iff_prefix.mpr (hleading.trans (List.prefix_append _ more))
    refine ⟨Nat.le_refl 3, hleading.length_le, ?_⟩
    rw [List.cons_append, closingQuotes?.eq_4 _ _ _ (fun h _ => hc h) fun _ _ h _ => hc h]
    exact if_pos hlonger
  | case5 c cs hone hmore hquotes ih =>
    have hc := ne_backslash hone hmore
    rw [closingQuotes?.eq_4 _ _ _ hone hmore, if_neg hquotes] at h
    obtain ⟨m, hm, rfl⟩ := Option.map_eq_some_iff.mp h
    obtain ⟨hpos, hle, hsame⟩ := ih hm
    -- three quotes that start here would lie in front of what is appended
    have hlonger : ¬[quote, quote, quote].isPrefixOf (c :: (cs ++ more)) = true := by
      intro hlonger
      have hleading := List.isPrefixOf_iff_prefix.mp hlonger
      have hshort : (c :: cs) <+: c :: (cs ++ more) := List.prefix_append (c :: cs) more
      have hlength : [quote, quote, quote].length ≤ (c :: cs).length := by
        simp only [List.length_cons, List.length_nil]
        omega
      exact hquotes (List.isPrefixOf_iff_prefix.mpr
        (List.prefix_of_prefix_length_le hleading hshort hlength))
    refine ⟨by omega, Nat.succ_le_succ hle, ?_⟩
    rw [List.cons_append, closingQuotes?.eq_4 _ _ _ (fun h _ => hc h) fun _ _ h _ => hc h,
      if_neg hlonger, hsame]
    rfl

/-- A closed string ends at the same quote whatever stands behind it. -/
theorem stringLength?_append {quote : Char} {rest : List Char} {n : Nat}
    (h : stringLength? quote rest = some n) {c : Char} (hc : c ≠ quote) (more : List Char) :
    n ≤ rest.length ∧ stringLength? quote (rest ++ c :: more) = some n := by
  match rest, h with
  | [], h => nomatch h
  | [a], h =>
    obtain ⟨hle, hsame⟩ := closingQuote?_append h (c :: more)
    have hshort : ¬(decide (a = quote) && decide (c = quote)) = true := by simp [hc]
    exact ⟨hle, (if_neg hshort).trans hsame⟩
  | a :: b :: cs, h =>
    unfold stringLength? at h
    by_cases hlong : (decide (a = quote) && decide (b = quote)) = true
    · dsimp only at h
      rw [if_pos hlong] at h
      obtain ⟨m, hm, rfl⟩ := Option.map_eq_some_iff.mp h
      obtain ⟨-, hle, hsame⟩ := closingQuotes?_append hm (c :: more)
      refine ⟨Nat.add_le_add_right hle 2, ?_⟩
      show (if _ then (closingQuotes? quote (cs ++ c :: more)).map (· + 2) else _) = _
      rw [if_pos hlong, hsame]
      rfl
    · dsimp only at h
      rw [if_neg hlong] at h
      obtain ⟨hle, hsame⟩ := closingQuote?_append h (c :: more)
      exact ⟨hle, (if_neg hlong).trans hsame⟩

theorem numberLength_append {x : Char} (hx : isSeparator x) (cs more : List Char) :
    numberLength cs ≤ cs.length ∧ numberLength (cs ++ x :: more) = numberLength cs := by
  obtain ⟨hword, -, hsign, hdot, -, -⟩ := other_of_isSeparator hx
  have hstop : ¬(isWordChar x || decide (x = '.')) = true := by simp [hword, hdot]
  have hzero : numberLength (x :: more) = 0 := by
    cases more <;> rw [numberLength, if_neg hstop]
  induction cs using numberLength.induct with
  | case1 => exact ⟨Nat.le_refl 0, hzero⟩
  | case2 c hc =>
    have hplain : ¬(isExponentMark c && isSign x) = true := by simp [hsign]
    have hone : numberLength [c] = 1 := by rw [numberLength, if_pos hc]
    rw [List.singleton_append, hone, numberLength, if_pos hc, if_neg hplain, hzero]
    exact ⟨Nat.le_refl 1, rfl⟩
  | case3 c hc =>
    have hnone : numberLength [c] = 0 := by rw [numberLength, if_neg hc]
    rw [List.singleton_append, hnone, numberLength, if_neg hc]
    exact ⟨Nat.zero_le 1, rfl⟩
  | case4 c d cs hc hmark ih =>
    rw [List.cons_append, List.cons_append, numberLength, if_pos hc, if_pos hmark, numberLength,
      if_pos hc, if_pos hmark, ih.2]
    exact ⟨Nat.add_le_add_right ih.1 2, rfl⟩
  | case5 c d cs hc hmark ih =>
    rw [List.cons_append, List.cons_append, numberLength, if_pos hc, if_neg hmark, numberLength,
      if_pos hc, if_neg hmark, ← List.cons_append, ih.2]
    exact ⟨Nat.add_le_add_right ih.1 1, rfl⟩
  | case6 c d cs hc =>
    rw [List.cons_append, List.cons_append, numberLength, if_neg hc, numberLength, if_neg hc]
    exact ⟨Nat.zero_le _, rfl⟩

/-- A comment that ends in a text ends there whatever stands behind the text. -/
theorem commentLength_append {cs : List Char} (h : commentLength cs < cs.length)
    (more : List Char) : commentLength (cs ++ more) = commentLength cs := by
  induction cs with
  | nil => nomatch h
  | cons c cs ih =>
    unfold commentLength at h ih ⊢
    rw [List.cons_append, List.takeWhile_cons, List.takeWhile_cons] at *
    by_cases hc : c = '\n'
    · rw [if_neg (by simp [hc]), if_neg (by simp [hc])]
    · rw [if_pos (by simp [hc])] at h
      rw [if_pos (by simp [hc]), if_pos (by simp [hc]), List.length_cons, List.length_cons,
        ih (Nat.lt_of_succ_lt_succ h)]

theorem takeWhile_append_separator {x : Char} (hx : isSeparator x) (rest more : List Char) :
    (rest ++ x :: more).takeWhile isWordChar = rest.takeWhile isWordChar := by
  have hnone : (x :: more).takeWhile isWordChar = [] := by
    rw [List.takeWhile_cons, if_neg (by simp [(other_of_isSeparator hx).1])]
  induction rest with
  | nil => exact hnone
  | cons c rest ih =>
    rw [List.cons_append, List.takeWhile_cons, List.takeWhile_cons, ih]

theorem length_of_step {c : Char} {rest : List Char} {kind? : Option TokenKind} {n : Nat}
    (h : step c rest = .ok (kind?, n)) : n ≤ rest.length := by
  have hcomment : commentLength rest ≤ rest.length := (List.takeWhile_prefix _).length_le
  have hword : (rest.takeWhile isWordChar).length ≤ rest.length :=
    (List.takeWhile_prefix isWordChar).length_le
  have hother {quote : Char} (hquote : quote = '"' ∨ quote = '\'') : ' ' ≠ quote := by
    rcases hquote with rfl | rfl <;> decide
  cases step_cases h with
  | blank | single => exact Nat.zero_le _
  | attrOpen _ hnext | pair hnext =>
    obtain ⟨later, rfl⟩ := List.head?_eq_some_iff.mp hnext
    exact Nat.succ_le_succ (Nat.zero_le _)
  | docComment | comment => exact hcomment
  | string hc hlength => exact (stringLength?_append hlength (hother hc) []).1
  | number =>
    have hle := (numberLength_append (x := ' ') (by decide) (c :: rest) []).1
    exact Nat.sub_le_of_le_add hle
  | marked _ hbehind hquote _ hlength =>
    have hle := (stringLength?_append hlength (hother hquote) []).1
    have hdrop := congrArg List.length hbehind
    rw [List.length_drop, List.length_cons] at hdrop
    omega
  | word => exact hword

theorem head?_append_of_length_pos {rest behind : List Char} (h : 0 < rest.length) :
    (rest ++ behind).head? = rest.head? := by
  cases rest with
  | nil => nomatch h
  | cons d rest => rfl

/-- What is looked for in the next character is not found in a separator. -/
theorem head?_append_separator {x : Char} (rest more : List Char) {p : Char → Bool}
    (hx : p x = false) : (rest ++ x :: more).head?.any p = rest.head?.any p := by
  cases rest with
  | nil => simp [hx]
  | cons d rest => rfl

/-- A step takes the same in front of a separator. -/
theorem step_append {c x : Char} {rest : List Char} {kind? : Option TokenKind} {n : Nat}
    (h : step c rest = .ok (kind?, n))
    (hkind : ∀ kind ∈ kind?, kind ≠ .attrOpen ∧ kind ≠ .docComment) (hx : isSeparator x)
    (hfit : c = '#' → n < rest.length) (more : List Char) :
    n ≤ rest.length ∧ step c (rest ++ x :: more) = .ok (kind?, n) := by
  obtain ⟨-, hdigit, -, -, hdouble, hsingle⟩ := other_of_isSeparator hx
  have hother {quote : Char} (hquote : quote = '"' ∨ quote = '\'') : x ≠ quote := by
    rcases hquote with rfl | rfl
    · exact hdouble
    · exact hsingle
  have hword := takeWhile_append_separator hx rest more
  have hdrop : (rest ++ x :: more).drop (rest.takeWhile isWordChar).length =
      rest.drop (rest.takeWhile isWordChar).length ++ x :: more :=
    List.drop_append_of_le_length (List.takeWhile_prefix isWordChar).length_le
  refine ⟨length_of_step h, step_of ?_⟩
  cases step_cases h with
  | blank hc => exact .blank hc
  | attrOpen => exact absurd rfl (hkind _ rfl).1
  | docComment => exact absurd rfl (hkind _ rfl).2
  | comment hc hattribute hdoc =>
    have hhead : (rest ++ x :: more).head? = rest.head? :=
      head?_append_of_length_pos (Nat.zero_lt_of_lt (hfit hc))
    rw [← commentLength_append (hfit hc) (x :: more)]
    exact .comment hc (hhead ▸ hattribute) (hhead ▸ hdoc)
  | string hc hlength => exact .string hc (stringLength?_append hlength (hother hc) more).2
  | number hc =>
    rw [← (numberLength_append hx (c :: rest) more).2, List.cons_append]
    exact .number (by rwa [head?_append_separator rest more hdigit])
  | marked hc hbehind hquote hmark hlength hdigit =>
    rw [← hword] at hmark hdrop ⊢
    exact .marked hc (by rw [hdrop, hword, hbehind]; rfl) hquote hmark
      (stringLength?_append hlength (hother hquote) more).2 hdigit
  | word hc hdigit hnext =>
    rw [← hword] at hdrop ⊢
    refine .word hc hdigit fun quote hhead hquote => ?_
    rw [hdrop, hword] at hhead
    rw [hword]
    cases hlater : rest.drop (rest.takeWhile isWordChar).length with
    | nil =>
      rw [hlater] at hhead
      exact absurd (Option.some.inj hhead) (hother hquote)
    | cons d later =>
      rw [hlater] at hhead hnext
      exact hnext quote hhead hquote
  | pair hnext hpair =>
    obtain ⟨later, rfl⟩ := List.head?_eq_some_iff.mp hnext
    exact .pair rfl hpair
  | single hnext hsingle hnumber =>
    refine .single ?_ hsingle fun hc => by rw [head?_append_separator rest more hdigit, hnumber hc]
    cases rest with
    | nil => exact ofPair?_of_isSeparator hx c
    | cons d rest => exact hnext

def precede (items : List Token) (ts : Tokens) : Tokens := { ts with items := items ++ ts.items }

theorem kind_of_comment {rest : List Char} {kind? : Option TokenKind} {n : Nat}
    (h : step '#' rest = .ok (kind?, n))
    (hkind : ∀ kind ∈ kind?, kind ≠ .attrOpen ∧ kind ≠ .docComment) : kind? = none := by
  unfold step at h
  rw [if_neg (by decide), if_pos rfl] at h
  split at h
  · obtain ⟨rfl, -⟩ := Prod.mk.inj (Except.ok.inj h)
    exact absurd rfl (hkind _ rfl).1
  · obtain ⟨rfl, -⟩ := Prod.mk.inj (Except.ok.inj h)
    exact absurd rfl (hkind _ rfl).2
  · exact (Prod.mk.inj (Except.ok.inj h)).1.symm

/-- A text that ends with a token has the same tokens in front of a separator. -/
theorem run_append {p : Position} {cs : List Char} {ts : Tokens} (h : run p cs = .ok ts)
    (hkinds : ∀ t ∈ ts.items, t.kind ≠ .attrOpen ∧ t.kind ≠ .docComment)
    (hends : cs = [] ∨ ts.items.getLast?.map (·.stop) = some (p.offset + cs.length)) {x : Char}
    (hx : isSeparator x) (more : List Char) :
    run p (cs ++ x :: more) = (run (p.after cs) (x :: more)).map (precede ts.items) := by
  induction cs using Lexer.induction generalizing p ts with
  | nil =>
    rw [run_nil] at h
    obtain rfl := Except.ok.inj h
    rw [List.nil_append, Position.after_nil]
    cases run p (x :: more) <;> rfl
  | step c rest ih =>
    obtain ⟨kind?, n, later, hstep, hrun, rfl⟩ := exists_step_of_run h
    have hkind : ∀ kind ∈ kind?, kind ≠ .attrOpen ∧ kind ≠ .docComment := fun kind hmem =>
      hkinds (stepToken p (c :: rest.take n) kind) (List.mem_append_left _ (by
        rw [Option.mem_def.mp hmem]
        exact List.mem_singleton_self _))
    have hlast := hends.resolve_left (List.cons_ne_nil c rest)
    have hoffset := Position.offset_after p (c :: rest.take n)
    have htotal : (p.after (c :: rest.take n)).offset + (rest.drop n).length =
        p.offset + (c :: rest).length := by
      rw [hoffset, List.length_cons, List.length_cons, List.length_take, List.length_drop]
      omega
    have hrest : rest.drop n = [] ∨ later.items.getLast?.map (·.stop) =
        some ((p.after (c :: rest.take n)).offset + (rest.drop n).length) := by
      rw [htotal]
      cases hitems : later.items with
      | nil =>
        cases kind? with
        | none => simp [prepend, hitems] at hlast
        | some kind =>
          have hstop : (p.after (c :: rest.take n)).offset = p.offset + (c :: rest).length := by
            simpa [prepend, hitems, stepToken] using hlast
          exact .inl (List.length_eq_zero_iff.mp (by omega))
      | cons t items =>
        have hsome : (prepend p (c :: rest.take n) kind? later).items.getLast? =
            later.items.getLast? := by
          unfold prepend
          rw [List.getLast?_append, hitems, List.getLast?_cons, Option.some_or]
        rw [← hlast, hsome, hitems]
        exact .inr rfl
    have hfit : c = '#' → n < rest.length := by
      rintro rfl
      have hnone : kind? = none := kind_of_comment hstep hkind
      by_cases hshort : n < rest.length
      · exact hshort
      · rw [List.drop_eq_nil_of_le (Nat.le_of_not_lt hshort), run_nil] at hrun
        obtain rfl := Except.ok.inj hrun
        rw [hnone] at hlast
        cases hlast
    obtain ⟨hle, hsame⟩ := step_append hstep hkind hx hfit more
    have hbehind := ih n hrun (fun t ht => hkinds t (List.mem_append_right _ ht)) hrest
    have hsplit : c :: rest = (c :: rest.take n) ++ rest.drop n := by
      rw [List.cons_append, List.take_append_drop]
    rw [List.cons_append, run_ok hsame, List.drop_append_of_le_length hle,
      List.take_append_of_le_length hle, hbehind, hsplit, Position.after_append]
    cases run ((p.after (c :: rest.take n)).after (rest.drop n)) (x :: more) with
    | error e => rfl
    | ok us =>
      show Except.ok (Tokens.mk (_ ++ (later.items ++ us.items)) us.eof) =
        Except.ok (Tokens.mk ((_ ++ later.items) ++ us.items) us.eof)
      rw [List.append_assoc]

theorem take_append_drop_cons (c : Char) (rest : List Char) (n : Nat) :
    (c :: rest.take n) ++ rest.drop n = c :: rest := by
  rw [List.cons_append, List.take_append_drop]

/-- A run goes on at each of its tokens. -/
theorem exists_run_of_items {p : Position} {cs : List Char} {ts : Tokens} (h : run p cs = .ok ts)
    {before behind : List Token} {t : Token} (hitems : ts.items = before ++ t :: behind) :
    ∃ k, t.offset = p.offset + k ∧ t.place = (p.after (cs.take k)).place ∧
      run (p.after (cs.take k)) (cs.drop k) = .ok ⟨t :: behind, ts.eof⟩ := by
  induction cs using Lexer.induction generalizing p ts before with
  | nil =>
    rw [run_nil] at h
    obtain rfl := Except.ok.inj h
    exact absurd hitems.symm (by simp)
  | step c rest ih =>
    obtain ⟨kind?, n, later, hstep, hrun, rfl⟩ := exists_step_of_run h
    have hlater {before : List Token} (hitems : later.items = before ++ t :: behind) :
        ∃ k, t.offset = p.offset + k ∧ t.place = (p.after ((c :: rest).take k)).place ∧
          run (p.after ((c :: rest).take k)) ((c :: rest).drop k) = .ok ⟨t :: behind, later.eof⟩ := by
      obtain ⟨k, hoffset, hplace, hbehind⟩ := ih n hrun hitems
      refine ⟨(c :: rest.take n).length + k, ?_, ?_⟩
      · rw [hoffset, Position.offset_after, Nat.add_assoc]
      · rw [← take_append_drop_cons c rest n, List.take_length_add_append,
          List.drop_length_add_append, Position.after_append]
        exact ⟨hplace, hbehind⟩
    cases kind? with
    | none => exact hlater hitems
    | some kind =>
      cases before with
      | nil =>
        obtain ⟨rfl, rfl⟩ := List.cons.inj hitems
        exact ⟨0, rfl, rfl, h⟩
      | cons u before => exact hlater (List.cons.inj hitems).2

/-- What a text is cut into does not depend on where the text stands. -/
theorem run_elsewhere {p : Position} {cs : List Char} {ts : Tokens} (h : run p cs = .ok ts)
    (q : Position) :
    ∃ us, run q cs = .ok us ∧
      us.items.map (fun t => (t.kind, t.offset + p.offset, t.stop + p.offset)) =
        ts.items.map (fun t => (t.kind, t.offset + q.offset, t.stop + q.offset)) := by
  induction cs using Lexer.induction generalizing p q ts with
  | nil =>
    rw [run_nil] at h
    obtain rfl := Except.ok.inj h
    exact ⟨_, run_nil q, rfl⟩
  | step c rest ih =>
    obtain ⟨kind?, n, later, hstep, hrun, rfl⟩ := exists_step_of_run h
    obtain ⟨more, hmore, hsame⟩ := ih n hrun (q.after (c :: rest.take n))
    refine ⟨prepend q (c :: rest.take n) kind? more, ?_, ?_⟩
    · rw [run_ok hstep, hmore]
      rfl
    · have hshift := congrArg (List.map fun (kind, offset, stop) =>
        (kind, offset - (c :: rest.take n).length, stop - (c :: rest.take n).length)) hsame
      simp only [List.map_map, Function.comp_def, Position.offset_after, ← Nat.add_assoc,
        Nat.add_sub_cancel] at hshift
      unfold prepend
      rw [List.map_append, List.map_append, hshift]
      cases kind? with
      | none => rfl
      | some kind =>
        have hstop : q.offset + (c :: rest.take n).length + p.offset =
            p.offset + (c :: rest.take n).length + q.offset := by omega
        simp only [Option.map_some, Option.toList_some, List.map_cons, List.map_nil, stepToken,
          Position.offset_after, hstop, Nat.add_comm q.offset p.offset]

/-- Blanks in front of a text move its place and nothing else. -/
theorem run_append_blanks {blanks : List Char} (h : ∀ d ∈ blanks, isSkipped d) (p : Position)
    (cs : List Char) : run p (blanks ++ cs) = run (p.after blanks) cs := by
  induction blanks generalizing p with
  | nil => rfl
  | cons d blanks ih =>
    have hstep : step d (blanks ++ cs) = .ok (none, 0) := by
      unfold step
      rw [if_pos (h d List.mem_cons_self)]
    have hrest := ih (fun e he => h e (List.mem_cons_of_mem d he)) (p.next d)
    rw [List.cons_append, run_ok hstep]
    show (run (p.next d) (blanks ++ cs)).map (prepend p [d] none) =
      run ((p.next d).after blanks) cs
    rw [← hrest]
    cases run (p.next d) (blanks ++ cs) <;> rfl

end Lexer
end ViewTree
