import ViewTree.Token.Lexer

/-!
Lexing step by step. Main statements: a run takes one step and goes on behind it (`Lexer.run_error`,
`Lexer.run_ok`), and what holds when it holds of each rest holds of all texts (`Lexer.induction`).
-/
namespace ViewTree

/-- What a check of each character of a list finds. Deciding the statement itself may go through all
characters there are. -/
theorem Text.forall_of_all {p : Char → Prop} [DecidablePred p] {cs : List Char} (h : cs.all (p ·)) :
    ∀ c ∈ cs, p c := fun c hc => of_decide_eq_true (List.all_eq_true.mp h c hc)

namespace Lexer

/-- The token of a step that starts at `p` and takes `text`. -/
def stepToken (p : Position) (text : List Char) (kind : TokenKind) : Token :=
  ⟨kind, String.ofList text, p.line, p.column, p.offset, (p.after text).offset⟩

/-- Tokens with the one of a step in front, if the step gives one. -/
def prepend (p : Position) (text : List Char) (kind? : Option TokenKind) (ts : Tokens) : Tokens :=
  { ts with items := (kind?.map (stepToken p text)).toList ++ ts.items }

theorem run_nil (p : Position) :
    run p [] = .ok ⟨[], ⟨.eof, "", p.line, p.column, p.offset, p.offset⟩⟩ := by
  rw [run]

theorem run_error {c : Char} {rest : List Char} {problem : LexicalProblem}
    (h : step c rest = .error problem) (p : Position) :
    run p (c :: rest) = .error ⟨problem, p.place⟩ := by
  rw [run, h]

theorem run_ok {c : Char} {rest : List Char} {kind? : Option TokenKind} {n : Nat}
    (h : step c rest = .ok (kind?, n)) (p : Position) :
    run p (c :: rest) = (run (p.after (c :: rest.take n)) (rest.drop n)).map
      (prepend p (c :: rest.take n) kind?) := by
  rw [run, h]
  dsimp only
  cases run (p.after (c :: rest.take n)) (rest.drop n) with
  | error e => rfl
  | ok ts => cases kind? <;> rfl

open Text in
/-- What a step takes: the kind of its token, and how many characters behind the first one. -/
inductive Step (c : Char) (rest : List Char) : Option TokenKind → Nat → Prop where
  | blank (hc : isSkipped c) : Step c rest none 0
  | attrOpen (hc : c = '#') (hnext : rest.head? = some '[') : Step c rest (some .attrOpen) 1
  | docComment (hc : c = '#') (hnext : rest.head? = some ':') :
      Step c rest (some .docComment) (commentLength rest)
  | comment (hc : c = '#') (hattribute : rest.head? ≠ some '[') (hdoc : rest.head? ≠ some ':') :
      Step c rest none (commentLength rest)
  | string {n : Nat} (hc : c = '"' ∨ c = '\'') (hlength : stringLength? c rest = some n) :
      Step c rest (some .string) n
  | number (hc : isDigit c ∨ (c = '.' ∧ rest.head?.any isDigit)) :
      Step c rest (some .number) (numberLength (c :: rest) - 1)
  | marked {quote : Char} {later : List Char} {n : Nat} (hc : isLetter c ∨ c = '_')
      (hbehind : rest.drop (rest.takeWhile isWordChar).length = quote :: later)
      (hquote : quote = '"' ∨ quote = '\'') (hmark : isStringMark (c :: rest.takeWhile isWordChar))
      (hlength : stringLength? quote later = some n) (hdigit : isDigit c = false) :
      Step c rest (some .string) ((rest.takeWhile isWordChar).length + 1 + n)
  | word (hc : isLetter c ∨ c = '_') (hdigit : isDigit c = false)
      (hnext : ∀ quote ∈ (rest.drop (rest.takeWhile isWordChar).length).head?,
        quote = '"' ∨ quote = '\'' → isStringMark (c :: rest.takeWhile isWordChar) = false) :
      Step c rest (some (.ofWord (String.ofList (c :: rest.takeWhile isWordChar))))
        (rest.takeWhile isWordChar).length
  | pair {d : Char} {kind : TokenKind} (hnext : rest.head? = some d)
      (hkind : TokenKind.ofPair? c d = some kind) : Step c rest (some kind) 1
  | single {kind : TokenKind} (hnext : rest.head?.bind (TokenKind.ofPair? c) = none)
      (hkind : TokenKind.ofChar? c = some kind)
      (hnumber : c = '.' → rest.head?.any isDigit = false) : Step c rest (some kind) 0

/-- A step takes nothing else. -/
theorem step_cases {c : Char} {rest : List Char} {kind? : Option TokenKind} {n : Nat}
    (h : step c rest = .ok (kind?, n)) : Step c rest kind? n := by
  unfold step at h
  by_cases hskipped : isSkipped c
  · rw [if_pos hskipped] at h
    obtain ⟨rfl, rfl⟩ := Prod.mk.inj (Except.ok.inj h)
    exact .blank hskipped
  rw [if_neg hskipped] at h
  by_cases hcomment : c = '#'
  · rw [if_pos hcomment] at h
    split at h
    · next hnext =>
      obtain ⟨rfl, rfl⟩ := Prod.mk.inj (Except.ok.inj h)
      exact .attrOpen hcomment hnext
    · next hnext =>
      obtain ⟨rfl, rfl⟩ := Prod.mk.inj (Except.ok.inj h)
      exact .docComment hcomment hnext
    · next hattribute hdoc =>
      obtain ⟨rfl, rfl⟩ := Prod.mk.inj (Except.ok.inj h)
      exact .comment hcomment hattribute hdoc
  rw [if_neg hcomment] at h
  by_cases hquote : c = '"' ∨ c = '\''
  · rw [if_pos (by simpa using hquote)] at h
    split at h
    · next hlength =>
      obtain ⟨rfl, rfl⟩ := Prod.mk.inj (Except.ok.inj h)
      exact .string hquote hlength
    · nomatch h
  rw [if_neg (by simpa using hquote)] at h
  by_cases hnumber : (Text.isDigit c || (c = '.' && rest.head?.any Text.isDigit)) = true
  · rw [if_pos hnumber] at h
    obtain ⟨rfl, rfl⟩ := Prod.mk.inj (Except.ok.inj h)
    rcases Bool.or_eq_true_iff.mp hnumber with hdigit | hdot
    · exact .number (.inl hdigit)
    · exact .number (.inr (by simpa using hdot))
  rw [if_neg hnumber] at h
  obtain ⟨hdigit, hpoint⟩ := Bool.or_eq_false_iff.mp (Bool.not_eq_true _ ▸ hnumber)
  by_cases hletter : Text.isLetter c ∨ c = '_'
  · rw [if_pos (by simpa using hletter)] at h
    dsimp only at h
    split at h
    · next quote hsome =>
      obtain ⟨hhead, hmark⟩ := Option.filter_eq_some_iff.mp hsome
      obtain ⟨later, hbehind⟩ := List.head?_eq_some_iff.mp hhead
      obtain ⟨hquote, hmark⟩ := Bool.and_eq_true_iff.mp hmark
      rw [hbehind] at h
      split at h
      · next hlength =>
        obtain ⟨rfl, rfl⟩ := Prod.mk.inj (Except.ok.inj h)
        exact .marked hletter hbehind (by simpa using hquote) hmark hlength hdigit
      · nomatch h
    · next hnone =>
      obtain ⟨rfl, rfl⟩ := Prod.mk.inj (Except.ok.inj h)
      refine .word hletter hdigit ?_
      intro quote hhead hquote
      rw [Option.mem_def.mp hhead, Option.filter_eq_none_iff] at hnone
      simpa [hquote] using hnone quote rfl
  rw [if_neg (by simpa using hletter)] at h
  cases hpair : rest.head?.bind (TokenKind.ofPair? c) with
  | some kind =>
    rw [hpair] at h
    obtain ⟨rfl, rfl⟩ := Prod.mk.inj (Except.ok.inj h)
    obtain ⟨d, hd, hkind⟩ := Option.bind_eq_some_iff.mp hpair
    exact .pair hd hkind
  | none =>
    rw [hpair] at h
    cases hsingle : TokenKind.ofChar? c with
    | some kind =>
      rw [hsingle] at h
      obtain ⟨rfl, rfl⟩ := Prod.mk.inj (Except.ok.inj h)
      exact .single hpair hsingle fun hc => by simpa [hc] using hpoint
    | none =>
      rw [hsingle] at h
      nomatch h

/-- What starts other tokens starts no blank, comment or string. -/
theorem plain_of_not {p : Char → Bool} {c : Char} (hc : p c)
    (h : [' ', '\t', '\r', '\n', '\x0c', '#', '"', '\''].all (!p ·)) :
    ¬isSkipped c ∧ c ≠ '#' ∧ ¬(c = '"' || c = '\'') = true := by
  have hother {d : Char} (hd : p d = false) : c ≠ d := by
    rintro rfl
    simp [hc] at hd
  simp only [List.all_cons, List.all_nil, Bool.and_true, Bool.and_eq_true, Bool.not_eq_true'] at h
  obtain ⟨hspace, htab, hreturn, hfeed, hpage, hhash, hdouble, hsingle⟩ := h
  simp [isSkipped, hother hspace, hother htab, hother hreturn, hother hfeed, hother hpage,
    hother hhash, hother hdouble, hother hsingle]

/-- A step takes all of that. -/
theorem step_of {c : Char} {rest : List Char} {kind? : Option TokenKind} {n : Nat}
    (h : Step c rest kind? n) : step c rest = .ok (kind?, n) := by
  unfold step
  cases h with
  | blank hc => rw [if_pos hc]
  | attrOpen hc hnext | docComment hc hnext =>
    rw [if_neg (by subst hc; decide), if_pos hc, hnext]
    rfl
  | comment hc hattribute hdoc =>
    rw [if_neg (by subst hc; decide), if_pos hc]
    split
    · next hnext => exact absurd hnext hattribute
    · next hnext => exact absurd hnext hdoc
    · rfl
  | string hc hlength =>
    have hquote : ¬isSkipped c ∧ c ≠ '#' := by rcases hc with rfl | rfl <;> decide
    rw [if_neg hquote.1, if_neg hquote.2, if_pos (by simpa using hc), hlength]
  | number hc =>
    obtain ⟨hskipped, hhash, hquote⟩ := plain_of_not (p := fun c => Text.isDigit c || c = '.')
      (by simpa using hc.imp_right And.left) (by decide)
    rw [if_neg hskipped, if_neg hhash, if_neg hquote, if_pos (by simpa using hc)]
  | marked hc hbehind hquotes hmark hlength hdigit =>
    obtain ⟨hskipped, hhash, hquote⟩ := plain_of_not (p := fun c => Text.isLetter c || c = '_')
      (by simpa using hc) (by decide)
    have hpoint : c ≠ '.' := by
      rintro rfl
      exact absurd hc (by decide)
    rw [if_neg hskipped, if_neg hhash, if_neg hquote, if_neg (by simp [hdigit, hpoint]),
      if_pos (by simpa using hc)]
    dsimp only
    rw [hbehind, List.head?_cons, Option.filter_some, if_pos (by simp [hquotes, hmark])]
    dsimp only
    rw [List.tail_cons, hlength]
  | word hc hdigit hnext =>
    obtain ⟨hskipped, hhash, hquote⟩ := plain_of_not (p := fun c => Text.isLetter c || c = '_')
      (by simpa using hc) (by decide)
    have hpoint : c ≠ '.' := by
      rintro rfl
      exact absurd hc (by decide)
    have hnone : (rest.drop (rest.takeWhile Text.isWordChar).length).head?.filter (fun q =>
        (q = '"' || q = '\'') && isStringMark (c :: rest.takeWhile Text.isWordChar)) = none := by
      refine Option.filter_eq_none_iff.mpr fun quote hquote hmark => ?_
      obtain ⟨hquotes, hmark⟩ := Bool.and_eq_true_iff.mp hmark
      exact absurd hmark (by simp [hnext quote hquote (by simpa using hquotes)])
    rw [if_neg hskipped, if_neg hhash, if_neg hquote, if_neg (by simp [hdigit, hpoint]),
      if_pos (by simpa using hc)]
    dsimp only
    rw [hnone]
  | @pair d kind hnext hkind =>
    obtain ⟨hskipped, hhash, hquote⟩ := plain_of_not (p := fun c => (TokenKind.ofPair? c d).isSome)
      (show (TokenKind.ofPair? c d).isSome by rw [hkind]; rfl) rfl
    have hother : Text.isDigit c = false ∧ c ≠ '.' ∧ Text.isLetter c = false ∧ c ≠ '_' := by
      unfold TokenKind.ofPair? at hkind
      split at hkind
      case h_12 => nomatch hkind
      all_goals decide
    rw [if_neg hskipped, if_neg hhash, if_neg hquote, if_neg (by simp [hother]),
      if_neg (by simp [hother]), hnext, Option.bind_some, hkind]
  | single hnext hkind hnumber =>
    obtain ⟨hskipped, hhash, hquote⟩ := plain_of_not (p := fun c => (TokenKind.ofChar? c).isSome)
      (show (TokenKind.ofChar? c).isSome by rw [hkind]; rfl) (by decide)
    have hother : Text.isDigit c = false ∧ Text.isLetter c = false ∧ c ≠ '_' := by
      unfold TokenKind.ofChar? at hkind
      split at hkind
      case h_26 => nomatch hkind
      all_goals decide
    rw [if_neg hskipped, if_neg hhash, if_neg hquote, if_neg (by simpa [hother] using hnumber),
      if_neg (by simp [hother]), hnext, hkind]

theorem exists_step_of_run {p : Position} {c : Char} {rest : List Char} {ts : Tokens}
    (h : run p (c :: rest) = .ok ts) :
    ∃ kind? n more, step c rest = .ok (kind?, n) ∧
      run (p.after (c :: rest.take n)) (rest.drop n) = .ok more ∧
      ts = prepend p (c :: rest.take n) kind? more := by
  cases hstep : step c rest with
  | error problem =>
    rw [run_error hstep] at h
    nomatch h
  | ok found =>
    obtain ⟨kind?, n⟩ := found
    rw [run_ok hstep] at h
    cases hrun : run (p.after (c :: rest.take n)) (rest.drop n) with
    | error e =>
      rw [hrun] at h
      nomatch h
    | ok more =>
      rw [hrun] at h
      exact ⟨kind?, n, more, rfl, hrun, (Except.ok.inj h).symm⟩

/-- Lexing goes on behind each step, wherever that ends. -/
theorem induction {P : List Char → Prop} (nil : P [])
    (step : ∀ c rest, (∀ n, P (rest.drop n)) → P (c :: rest)) (cs : List Char) : P cs := by
  induction h : cs.length using Nat.strongRecOn generalizing cs with
  | _ length ih =>
    cases cs with
    | nil => exact nil
    | cons c rest =>
      refine step c rest fun n => ih (rest.drop n).length ?_ _ rfl
      subst h
      simp only [List.length_drop, List.length_cons]
      omega

/-- Tokens end where their text does, or before. -/
theorem stop_le_of_run {p : Position} {cs : List Char} {ts : Tokens} (h : run p cs = .ok ts) :
    ∀ t ∈ ts.items, t.stop ≤ p.offset + cs.length := by
  induction cs using induction generalizing p ts with
  | nil =>
    rw [run_nil] at h
    obtain rfl := Except.ok.inj h
    simp
  | step c rest ih =>
    obtain ⟨kind?, n, more, -, hrun, rfl⟩ := exists_step_of_run h
    have hbehind := ih n hrun
    have hoffset := Position.offset_after p (c :: rest.take n)
    simp only [List.length_cons, List.length_take, List.length_drop] at hoffset hbehind ⊢
    intro t ht
    rcases List.mem_append.mp ht with ht | ht
    · obtain ⟨kind, -, rfl⟩ := Option.map_eq_some_iff.mp (Option.mem_toList.mp ht)
      dsimp only [stepToken]
      omega
    · have := hbehind t ht
      omega

/-- No token is empty. -/
theorem offset_lt_of_run {p : Position} {cs : List Char} {ts : Tokens} (h : run p cs = .ok ts) :
    ∀ t ∈ ts.items, t.offset < t.stop := by
  induction cs using induction generalizing p ts with
  | nil =>
    rw [run_nil] at h
    obtain rfl := Except.ok.inj h
    simp
  | step c rest ih =>
    obtain ⟨kind?, n, more, -, hrun, rfl⟩ := exists_step_of_run h
    intro t ht
    rcases List.mem_append.mp ht with ht | ht
    · obtain ⟨kind, -, rfl⟩ := Option.map_eq_some_iff.mp (Option.mem_toList.mp ht)
      dsimp only [stepToken]
      rw [Position.offset_after, List.length_cons]
      omega
    · exact ih n hrun t ht

end Lexer

/-- Lexing is evaluated to see what its tokens are. -/
theorem exists_tokens {text : List Char} {start stop : Nat} {P : Tokens → Prop} [DecidablePred P]
    (h : (match lex text start stop with
      | .ok ts => decide (P ts)
      | .error _ => false) = true) : ∃ ts, lex text start stop = .ok ts ∧ P ts := by
  cases hlex : lex text start stop with
  | ok ts =>
    rw [hlex] at h
    exact ⟨ts, rfl, of_decide_eq_true h⟩
  | error e =>
    rw [hlex] at h
    nomatch h

end ViewTree
