import ViewTree.Proofs.Capture.Pieces
import ViewTree.Proofs.Scanning.Numbers

/-!
Lexemes in front of other texts. A lexeme does not look past a separator, so a text starts with the
same lexeme whichever of them stands behind it. Main statements: what a text starts with it starts
with in front of a separator too (`lexeme?_append`), what it starts with in front of a closing
parenthesis, or in front of a separator that does not belong to the lexeme, it starts with by itself
(`lexeme?_of_closing`, `lexeme?_of_append`), and wherever it stands (`exists_lexeme?_elsewhere`).
-/
namespace ViewTree.Embedded
open Text

section Separated

variable {s : List Char} (hs : Stops s)
include hs

theorem symbol?_append {a : List Char} (ha : a ≠ []) : symbol? (a ++ s) = symbol? a := by
  obtain ⟨c, a, rfl⟩ := List.exists_cons_of_ne_nil ha
  have hall : (symbols.all fun w => w.toList.tail.all (!isStop ·)) = true := by decide
  have hplain : ∀ w ∈ symbols, ∀ d ∈ w.toList.tail, isStop d = false := fun w hw d hd =>
    Bool.not_inj (List.all_eq_true.mp (List.all_eq_true.mp hall w hw) d hd)
  have hfind {ws : List String} (hws : ∀ w ∈ ws, ∀ d ∈ w.toList.tail, isStop d = false) :
      (ws.find? fun w => w.toList.isPrefixOf (c :: a ++ s)) =
        ws.find? fun w => w.toList.isPrefixOf (c :: a) := by
    induction ws with
    | nil => rfl
    | cons w ws ih =>
      obtain ⟨hw, hws⟩ := List.forall_mem_cons.mp hws
      have hsame : w.toList.isPrefixOf (c :: a ++ s) = w.toList.isPrefixOf (c :: a) := by
        cases hlist : w.toList with
        | nil => rfl
        | cons d tail =>
          rw [hlist] at hw
          have htail : tail.isPrefixOf (a ++ s) = tail.isPrefixOf a := isPrefixOf_append hs hw a
          simp only [List.cons_append, List.isPrefixOf, htail]
      rw [List.find?_cons, List.find?_cons, hsame, ih hws]
  exact hfind hplain

/-- A string that is closed is closed where it was, whatever stands behind it. -/
theorem longBodyLength?_append {quote : Char} {a : List Char} {n : Nat} (hquote : isStop quote = false)
    (h : longBodyLength? quote a = some n) : longBodyLength? quote (a ++ s) = some n := by
  have hplain : ∀ c ∈ [quote, quote, quote], isStop c = false := by simpa using hquote
  induction a using longBodyLength?.induct quote generalizing n with
  | case1 => cases h
  | case2 => cases h
  | case3 c cs ih =>
    rw [longBodyLength?] at h
    obtain ⟨m, hm, rfl⟩ := Option.map_eq_some_iff.mp h
    rw [List.cons_append, List.cons_append, longBodyLength?, ih hm]
    rfl
  | case4 c cs hone hmore hquotes =>
    have hc := Lexer.ne_backslash hone hmore
    rw [longBodyLength?.eq_4 _ _ _ hone hmore, if_pos hquotes] at h
    rw [List.cons_append, longBodyLength?.eq_4 _ _ _ (fun h _ => hc h) fun _ _ h _ => hc h,
      ← List.cons_append, isPrefixOf_append hs hplain, if_pos hquotes]
    exact h
  | case5 c cs hone hmore hquotes ih =>
    have hc := Lexer.ne_backslash hone hmore
    rw [longBodyLength?.eq_4 _ _ _ hone hmore, if_neg hquotes] at h
    obtain ⟨m, hm, rfl⟩ := Option.map_eq_some_iff.mp h
    rw [List.cons_append, longBodyLength?.eq_4 _ _ _ (fun h _ => hc h) fun _ _ h _ => hc h,
      ← List.cons_append, isPrefixOf_append hs hplain, if_neg hquotes, ih hm]
    rfl

end Separated

theorem bodyLength?_append {quote : Char} {a : List Char} {n : Nat}
    (h : bodyLength? quote a = some n) (s : List Char) : bodyLength? quote (a ++ s) = some n := by
  induction a using bodyLength?.induct quote generalizing n with
  | case1 => cases h
  | case2 => cases h
  | case3 c cs ih =>
    rw [bodyLength?] at h
    obtain ⟨m, hm, rfl⟩ := Option.map_eq_some_iff.mp h
    rw [List.cons_append, List.cons_append, bodyLength?, ih hm]
    rfl
  | case4 c cs hone hmore hline =>
    rw [bodyLength?.eq_4 _ _ _ hone hmore, if_pos hline] at h
    cases h
  | case5 cs hone hmore hline =>
    have hc := Lexer.ne_backslash hone hmore
    rw [bodyLength?.eq_4 _ _ _ hone hmore, if_neg hline, if_pos rfl] at h
    rw [List.cons_append, bodyLength?.eq_4 _ _ _ (fun h _ => hc h) fun _ _ h _ => hc h,
      if_neg hline, if_pos rfl]
    exact h
  | case6 c cs hone hmore hline hquote ih =>
    have hc := Lexer.ne_backslash hone hmore
    rw [bodyLength?.eq_4 _ _ _ hone hmore, if_neg hline, if_neg hquote] at h
    obtain ⟨m, hm, rfl⟩ := Option.map_eq_some_iff.mp h
    rw [List.cons_append, bodyLength?.eq_4 _ _ _ (fun h _ => hc h) fun _ _ h _ => hc h,
      if_neg hline, if_neg hquote, ih hm]
    rfl

/-- A string that is closed in a text is closed there without what stands behind the text. -/
theorem bodyLength?_of_append {quote : Char} {a s : List Char} {n : Nat}
    (h : bodyLength? quote (a ++ s) = some n) (hn : n < a.length) : bodyLength? quote a = some n := by
  induction a using bodyLength?.induct quote generalizing n with
  | case1 => cases hn
  | case2 =>
    cases s with
    | nil => cases h
    | cons c s =>
      obtain ⟨m, -, rfl⟩ := Option.map_eq_some_iff.mp h
      simp at hn
  | case3 c cs ih =>
    obtain ⟨m, hm, rfl⟩ := Option.map_eq_some_iff.mp h
    rw [bodyLength?, ih hm (Nat.lt_of_add_lt_add_right hn)]
    rfl
  | case4 c cs hone hmore hline =>
    have hc := Lexer.ne_backslash hone hmore
    rw [List.cons_append, bodyLength?.eq_4 _ _ _ (fun h _ => hc h) fun _ _ h _ => hc h,
      if_pos hline] at h
    cases h
  | case5 cs hone hmore hline =>
    have hc := Lexer.ne_backslash hone hmore
    rw [List.cons_append, bodyLength?.eq_4 _ _ _ (fun h _ => hc h) fun _ _ h _ => hc h,
      if_neg hline, if_pos rfl] at h
    rw [bodyLength?.eq_4 _ _ _ hone hmore, if_neg hline, if_pos rfl]
    exact h
  | case6 c cs hone hmore hline hquote ih =>
    have hc := Lexer.ne_backslash hone hmore
    rw [List.cons_append, bodyLength?.eq_4 _ _ _ (fun h _ => hc h) fun _ _ h _ => hc h,
      if_neg hline, if_neg hquote] at h
    obtain ⟨m, hm, rfl⟩ := Option.map_eq_some_iff.mp h
    rw [bodyLength?.eq_4 _ _ _ hone hmore, if_neg hline, if_neg hquote,
      ih hm (Nat.lt_of_succ_lt_succ hn)]
    rfl

theorem longBodyLength?_of_append {quote : Char} {a s : List Char} {n : Nat}
    (h : longBodyLength? quote (a ++ s) = some n) (hn : n + 3 ≤ a.length) :
    longBodyLength? quote a = some n := by
  induction a using longBodyLength?.induct quote generalizing n with
  | case1 => cases hn
  | case2 => simp at hn
  | case3 c cs ih =>
    obtain ⟨m, hm, rfl⟩ := Option.map_eq_some_iff.mp h
    rw [longBodyLength?, ih hm (by simpa using hn)]
    rfl
  | case4 c cs hone hmore hquotes =>
    have hc := Lexer.ne_backslash hone hmore
    have hquotes' : [quote, quote, quote].isPrefixOf (c :: (cs ++ s)) := List.isPrefixOf_iff_prefix.mpr
      ((List.isPrefixOf_iff_prefix.mp hquotes).trans (List.prefix_append _ s))
    rw [List.cons_append, longBodyLength?.eq_4 _ _ _ (fun h _ => hc h) fun _ _ h _ => hc h,
      if_pos hquotes'] at h
    rw [longBodyLength?.eq_4 _ _ _ hone hmore, if_pos hquotes]
    exact h
  | case5 c cs hone hmore hquotes ih =>
    have hc := Lexer.ne_backslash hone hmore
    rw [List.cons_append, longBodyLength?.eq_4 _ _ _ (fun h _ => hc h) fun _ _ h _ => hc h] at h
    rw [longBodyLength?.eq_4 _ _ _ hone hmore, if_neg hquotes]
    split at h
    · next hlong =>
      have hshort : [quote, quote, quote] <+: c :: cs := List.prefix_of_prefix_length_le
        (List.isPrefixOf_iff_prefix.mp hlong) (List.prefix_append (c :: cs) s)
        (Nat.le_trans (Nat.le_add_left 3 n) hn)
      exact absurd (List.isPrefixOf_iff_prefix.mpr hshort) hquotes
    · obtain ⟨m, hm, rfl⟩ := Option.map_eq_some_iff.mp h
      rw [ih hm (by simpa using hn)]
      rfl

/-- A closing bracket closes no string. -/
theorem bodyLength?_closing {quote x : Char} (hx : isClosing x) (hquote : quote ≠ x) (a : List Char) :
    bodyLength? quote (a ++ [x]) = bodyLength? quote a := by
  have hnone : bodyLength? quote [x] = none := by
    rcases cases_of_isClosing hx with rfl | rfl
    all_goals
      rw [bodyLength?.eq_4 _ _ _ (by simp) (by simp), if_neg (by decide), if_neg hquote.symm]
      rfl
  induction a using bodyLength?.induct quote with
  | case1 => exact hnone
  | case2 => rfl
  | case3 c cs ih => rw [List.cons_append, List.cons_append, bodyLength?, bodyLength?, ih]
  | case4 c cs hone hmore hline =>
    have hc := Lexer.ne_backslash hone hmore
    rw [List.cons_append, bodyLength?.eq_4 _ _ _ (fun h _ => hc h) fun _ _ h _ => hc h,
      bodyLength?.eq_4 _ _ _ hone hmore, if_pos hline, if_pos hline]
  | case5 cs hone hmore hline =>
    have hc := Lexer.ne_backslash hone hmore
    rw [List.cons_append, bodyLength?.eq_4 _ _ _ (fun h _ => hc h) fun _ _ h _ => hc h,
      bodyLength?.eq_4 _ _ _ hone hmore, if_neg hline, if_neg hline, if_pos rfl, if_pos rfl]
  | case6 c cs hone hmore hline hquote ih =>
    have hc := Lexer.ne_backslash hone hmore
    rw [List.cons_append, bodyLength?.eq_4 _ _ _ (fun h _ => hc h) fun _ _ h _ => hc h,
      bodyLength?.eq_4 _ _ _ hone hmore, if_neg hline, if_neg hline, if_neg hquote, if_neg hquote, ih]

theorem longBodyLength?_closing {quote x : Char} (hx : isClosing x) (hquote : isStop quote = false)
    (a : List Char) : longBodyLength? quote (a ++ [x]) = longBodyLength? quote a := by
  have hplain : ∀ c ∈ [quote, quote, quote], isStop c = false := by simpa using hquote
  have hsame (a : List Char) := isPrefixOf_append (stops_closing hx []) hplain a
  induction a using longBodyLength?.induct quote with
  | case1 =>
    rcases cases_of_isClosing hx with rfl | rfl
    all_goals
      rw [List.nil_append, longBodyLength?.eq_4 _ _ _ (by simp) (by simp), if_neg (by simp)]
      rfl
  | case2 => rfl
  | case3 c cs ih => rw [List.cons_append, List.cons_append, longBodyLength?, longBodyLength?, ih]
  | case4 c cs hone hmore hquotes =>
    have hc := Lexer.ne_backslash hone hmore
    rw [List.cons_append, longBodyLength?.eq_4 _ _ _ (fun h _ => hc h) fun _ _ h _ => hc h,
      longBodyLength?.eq_4 _ _ _ hone hmore, ← List.cons_append, hsame, if_pos hquotes,
      if_pos hquotes]
  | case5 c cs hone hmore hquotes ih =>
    have hc := Lexer.ne_backslash hone hmore
    rw [List.cons_append, longBodyLength?.eq_4 _ _ _ (fun h _ => hc h) fun _ _ h _ => hc h,
      longBodyLength?.eq_4 _ _ _ hone hmore, ← List.cons_append, hsame, if_neg hquotes,
      if_neg hquotes, ih]

/-- How many characters a string takes before its closing quotes, which are three in a long one. -/
def closedLength? (quote : Char) (long : Bool) (cs : List Char) : Option Nat :=
  if long then longBodyLength? quote cs else bodyLength? quote cs

theorem length_of_closedLength? {quote : Char} {long : Bool} {a : List Char} {n : Nat}
    (h : closedLength? quote long a = some n) : n ≤ a.length := by
  cases long with
  | true =>
    have hle := (Lexer.closingQuotes?_append (closingQuotes?_of_longBodyLength? h) []).2.1
    omega
  | false =>
    have hle := (Lexer.closingQuote?_append (closingQuote?_of_bodyLength? h) []).1
    omega

section Strings

variable {quote : Char} (hquote : isStop quote = false) {letters : List Char} {offset : Nat}
  {rest : List Char}
include hquote

/-- The opening quotes are found, and passed, whatever separator stands behind the text. -/
theorem string?_eq {s : List Char} (hs : Stops s) :
    string? letters offset (quote :: rest ++ s) =
      let long := [quote, quote].isPrefixOf rest
      let opening := if long then 3 else 1
      let body := (quote :: rest).drop opening
      (closedLength? quote long (body ++ s)).map fun n =>
        (⟨.ofLetters letters, unifyLineEnds ((body ++ s).take n), offset + opening⟩,
          n + 2 * opening) := by
  have hlong : [quote, quote].isPrefixOf (rest ++ s) = [quote, quote].isPrefixOf rest :=
    isPrefixOf_append hs (by simpa using hquote) rest
  have hopening : (if [quote, quote].isPrefixOf rest then 3 else 1) ≤ (quote :: rest).length := by
    split
    · next h => simpa using (List.isPrefixOf_iff_prefix.mp h).length_le
    · simp
  unfold string?
  rw [List.cons_append]
  dsimp only
  rw [hlong, ← List.cons_append, List.drop_append_of_le_length hopening]
  rfl

/-- A string that stands at the start of a text stands there in front of a separator too. -/
theorem string?_append {s : List Char} (hs : Stops s) {r : StringLiteral × Nat}
    (h : string? letters offset (quote :: rest) = some r) :
    string? letters offset (quote :: rest ++ s) = some r := by
  rw [← List.append_nil (quote :: rest), string?_eq hquote stops_nil] at h
  rw [string?_eq hquote hs]
  dsimp only at h ⊢
  generalize [quote, quote].isPrefixOf rest = long at h ⊢
  rw [List.append_nil] at h
  generalize (quote :: rest).drop (if long then 3 else 1) = body at h ⊢
  obtain ⟨n, hn, rfl⟩ := Option.map_eq_some_iff.mp h
  have hmore : closedLength? quote long (body ++ s) = some n := by
    cases long with
    | true => exact longBodyLength?_append hs hquote hn
    | false => exact bodyLength?_append hn s
  rw [hmore, Option.map_some, List.take_append_of_le_length (length_of_closedLength? hn)]

/-- A string that ends in front of a separator stands there without it. -/
theorem string?_of_append {s : List Char} (hs : Stops s) {r : StringLiteral × Nat}
    (h : string? letters offset (quote :: rest ++ s) = some r) (hr : r.2 ≤ (quote :: rest).length) :
    string? letters offset (quote :: rest) = some r := by
  rw [string?_eq hquote hs] at h
  rw [← List.append_nil (quote :: rest), string?_eq hquote stops_nil]
  dsimp only at h ⊢
  generalize hlong : [quote, quote].isPrefixOf rest = long at h ⊢
  rw [List.append_nil]
  have hlength : ((quote :: rest).drop (if long then 3 else 1)).length =
      (quote :: rest).length - if long then 3 else 1 := List.length_drop
  generalize (quote :: rest).drop (if long then 3 else 1) = body at h hlength ⊢
  obtain ⟨n, hn, rfl⟩ := Option.map_eq_some_iff.mp h
  have hclosed : closedLength? quote long body = some n := by
    cases long with
    | true =>
      simp only [if_true] at hr hlength
      exact longBodyLength?_of_append hn (by omega)
    | false =>
      simp only [Bool.false_eq_true, if_false] at hr hlength
      exact bodyLength?_of_append hn (by omega)
  rw [hclosed, Option.map_some, List.take_append_of_le_length (length_of_closedLength? hclosed)]

/-- A closing bracket behind a text closes no string in it. -/
theorem string?_closing {x : Char} (hx : isClosing x) :
    string? letters offset (quote :: rest ++ [x]) = string? letters offset (quote :: rest) := by
  have hplain : string? letters offset (quote :: rest) = _ :=
    (congrArg _ (List.append_nil _).symm).trans (string?_eq hquote stops_nil)
  rw [string?_eq hquote (stops_closing hx []), hplain]
  dsimp only
  generalize [quote, quote].isPrefixOf rest = long
  rw [List.append_nil]
  generalize (quote :: rest).drop (if long then 3 else 1) = body
  have hsame : closedLength? quote long (body ++ [x]) = closedLength? quote long body := by
    cases long with
    | true => exact longBodyLength?_closing hx hquote body
    | false =>
      refine bodyLength?_closing hx ?_ body
      rintro rfl
      rcases cases_of_isClosing hx with rfl | rfl <;> nomatch hquote
  rw [hsame]
  refine Option.map_congr fun n hn => ?_
  rw [List.take_append_of_le_length (length_of_closedLength? hn)]

end Strings

theorem length_of_string? {letters : List Char} {offset n : Nat} {quote : Char} {rest : List Char}
    {found : StringLiteral} (hquote : quote ≠ ')')
    (h : string? letters offset (quote :: rest) = some (found, n)) : n ≤ (quote :: rest).length := by
  obtain ⟨m, rfl, hlength⟩ := stringLength?_of_string? h
  exact Nat.succ_le_succ (Lexer.stringLength?_append hlength hquote.symm []).1

theorem length_of_symbol? {a : List Char} {w : String} (h : symbol? a = some w) :
    w.length ≤ a.length := by
  have hleading : w.toList.isPrefixOf a := by
    have hfound := List.find?_some h
    exact hfound
  rw [← String.length_toList]
  exact (List.isPrefixOf_iff_prefix.mp hleading).length_le

/-- A lexeme is not longer than the text that it starts. -/
theorem length_of_lexeme? {offset n : Nat} {a : List Char} {kind : LexemeKind}
    (h : lexeme? offset a = some (kind, n)) : n ≤ a.length := by
  cases a with
  | nil => nomatch h
  | cons c rest =>
    unfold lexeme? at h
    dsimp only at h
    by_cases hnumber : (c.isDigit || (decide (c = '.') && rest.head?.any (·.isDigit))) = true
    · rw [if_pos hnumber] at h
      obtain ⟨⟨l, m⟩, hm, hsame⟩ := Option.map_eq_some_iff.mp h
      obtain ⟨-, rfl⟩ := Prod.mk.inj hsame
      have hc : c.isDigit ∨ c = '.' := by
        rcases Bool.or_eq_true_iff.mp hnumber with hdigit | hdot
        · exact .inl hdigit
        · exact .inr (of_decide_eq_true (Bool.and_eq_true_iff.mp hdot).1)
      obtain ⟨k, rfl, -, hfigures, -⟩ := figures_of_number? hm hc
      exact Nat.succ_le_succ hfigures.length_le
    rw [if_neg hnumber] at h
    by_cases hword : isWordByte c
    · rw [if_pos hword] at h
      have hle : ((c :: rest).takeWhile isWordByte).length ≤ (c :: rest).length :=
        (List.takeWhile_prefix _).length_le
      have hdrop : ((c :: rest).drop ((c :: rest).takeWhile isWordByte).length).length = _ :=
        List.length_drop
      generalize (c :: rest).takeWhile isWordByte = word at h hle hdrop
      split at h
      · next hstring =>
        obtain ⟨q, hq, hquote⟩ := (Option.any_eq_true _ _).mp (Bool.and_eq_true_iff.mp hstring).1
        obtain ⟨more, hmore⟩ := List.head?_eq_some_iff.mp hq
        rw [hmore] at h hdrop
        obtain ⟨⟨found, m⟩, hm, hsame⟩ := Option.map_eq_some_iff.mp h
        obtain ⟨-, rfl⟩ := Prod.mk.inj hsame
        have hother : q ≠ ')' := by
          rintro rfl
          exact absurd hquote (by decide)
        have := length_of_string? hother hm
        omega
      split at h
      · obtain ⟨-, rfl⟩ := Prod.mk.inj (Option.some.inj h)
        exact hle
      split at h
      · obtain ⟨-, rfl⟩ := Prod.mk.inj (Option.some.inj h)
        exact hle
      · nomatch h
    rw [if_neg hword] at h
    by_cases hquote : (decide (c = '"') || decide (c = '\'')) = true
    · rw [if_pos hquote] at h
      obtain ⟨⟨found, m⟩, hm, hsame⟩ := Option.map_eq_some_iff.mp h
      obtain ⟨-, rfl⟩ := Prod.mk.inj hsame
      refine length_of_string? ?_ hm
      rintro rfl
      exact absurd hquote (by decide)
    · rw [if_neg hquote] at h
      obtain ⟨w, hw, hsame⟩ := Option.map_eq_some_iff.mp h
      obtain ⟨-, rfl⟩ := Prod.mk.inj hsame
      exact length_of_symbol? hw

/-- Whatever lexeme of at most `bound` characters `a` starts with, `b` starts with it too: they agree on
all that is looked at. -/
structure Leads (bound : Nat) (a b : List Char) : Prop where
  head : a.head? = b.head?
  digit : a.tail.head?.any (·.isDigit) = b.tail.head?.any (·.isDigit)
  number : number? a = number? b
  word : a.takeWhile isWordByte = b.takeWhile isWordByte
  quote : (a.drop (a.takeWhile isWordByte).length).head?.any (fun q => q = '"' || q = '\'') =
    (b.drop (a.takeWhile isWordByte).length).head?.any fun q => q = '"' || q = '\''
  string : ∀ q ∈ (a.drop (a.takeWhile isWordByte).length).head?, (q = '"' ∨ q = '\'') →
    ∀ letters offset r, (a.takeWhile isWordByte).length + r.2 ≤ bound →
      string? letters offset (a.drop (a.takeWhile isWordByte).length) = some r →
        string? letters offset (b.drop (a.takeWhile isWordByte).length) = some r
  symbol : symbol? a = symbol? b

theorem Leads.lexeme? {bound : Nat} {a b : List Char} (h : Leads bound a b) {offset : Nat}
    {r : LexemeKind × Nat} (ha : lexeme? offset a = some r) (hr : r.2 ≤ bound) :
    lexeme? offset b = some r := by
  cases a with
  | nil => nomatch ha
  | cons c rest =>
    cases b with
    | nil => nomatch h.head
    | cons d more =>
      obtain rfl := Option.some.inj h.head
      have hdigit : rest.head?.any (·.isDigit) = more.head?.any (·.isDigit) := h.digit
      unfold Embedded.lexeme? at ha ⊢
      dsimp only at ha ⊢
      rw [← hdigit, ← h.number, ← h.symbol, ← h.word, ← h.quote]
      have hstrings := h.string
      by_cases hnumber : (c.isDigit || (decide (c = '.') && rest.head?.any (·.isDigit))) = true
      · rw [if_pos hnumber] at ha ⊢
        exact ha
      rw [if_neg hnumber] at ha ⊢
      by_cases hword : isWordByte c
      · rw [if_pos hword] at ha ⊢
        generalize (c :: rest).takeWhile isWordByte = word at ha hstrings ⊢
        by_cases hstring : (((c :: rest).drop word.length).head?.any
            (fun q => q = '"' || q = '\'') &&
              stringLetters.contains (String.ofList (word.map Char.toLower))) = true
        · rw [if_pos hstring] at ha ⊢
          obtain ⟨s, hs, rfl⟩ := Option.map_eq_some_iff.mp ha
          obtain ⟨q, hq, hquote⟩ := (Option.any_eq_true _ _).mp (Bool.and_eq_true_iff.mp hstring).1
          rw [hstrings q hq (by simpa using hquote) _ _ _ hr hs, Option.map_some]
        · rw [if_neg hstring] at ha ⊢
          exact ha
      rw [if_neg hword] at ha ⊢
      by_cases hquote : (decide (c = '"') || decide (c = '\'')) = true
      · rw [if_pos hquote] at ha ⊢
        rw [List.takeWhile_cons, if_neg hword] at hstrings
        obtain ⟨s, hs, rfl⟩ := Option.map_eq_some_iff.mp ha
        have hmore : string? [] offset (c :: more) = some s :=
          hstrings c rfl (by simpa using hquote) _ _ _ (by simpa using hr) hs
        rw [hmore, Option.map_some]
      · rw [if_neg hquote] at ha ⊢
        exact ha

/-- Lexemes in front of a separator, and those of the text alone, are looked for in the same way. -/
theorem leads_append (bound : Nat) {s : List Char} (hs : Stops s) {a : List Char} (ha : a ≠ []) :
    Leads bound a (a ++ s) := by
  have hle : (a.takeWhile isWordByte).length ≤ a.length := (List.takeWhile_prefix _).length_le
  have hdrop : (a ++ s).drop (a.takeWhile isWordByte).length =
      a.drop (a.takeWhile isWordByte).length ++ s := List.drop_append_of_le_length hle
  refine ⟨?_, ?_, (number?_append hs ha).symm,
    (hs.takeWhile_append (fun _ => isWordByte_of_isStop) a).symm, ?_,
    fun q hq hquote letters offset r _ hr => ?_, (symbol?_append hs ha).symm⟩
  · obtain ⟨c, a, rfl⟩ := List.exists_cons_of_ne_nil ha
    rfl
  · rw [List.tail_append_of_ne_nil ha, hs.head?_append_any eq_false_of_isStop]
  · rw [hdrop, hs.head?_append_any eq_false_of_isStop]
  · rw [hdrop]
    obtain ⟨more, hmore⟩ := List.head?_eq_some_iff.mp hq
    rw [hmore] at hr ⊢
    refine string?_append ?_ hs hr
    rcases hquote with rfl | rfl <;> decide

/-- A text starts with the same lexeme in front of a separator. -/
theorem lexeme?_append {s : List Char} (hs : Stops s) {offset : Nat} {a : List Char}
    {r : LexemeKind × Nat} (h : lexeme? offset a = some r) : lexeme? offset (a ++ s) = some r := by
  have ha : a ≠ [] := by
    rintro rfl
    nomatch h
  exact (leads_append r.2 hs ha).lexeme? h (Nat.le_refl _)

/-- A text starts with the lexeme that it starts with in front of a closing bracket. -/
theorem lexeme?_of_closing {x : Char} (hx : isClosing x) {offset : Nat} {a : List Char}
    {r : LexemeKind × Nat} (ha : a ≠ []) (h : lexeme? offset (a ++ [x]) = some r) :
    lexeme? offset a = some r := by
  obtain ⟨hhead, hdigit, hnumber, hword, hquote, -, hsymbol⟩ := leads_append r.2 (stops_closing hx []) ha
  have hle : (a.takeWhile isWordByte).length ≤ a.length := (List.takeWhile_prefix _).length_le
  refine Leads.lexeme?
    (⟨hhead.symm, hdigit.symm, hnumber.symm, hword.symm, ?_, ?_, hsymbol.symm⟩ : Leads r.2 _ _) h
    (Nat.le_refl _)
  · rw [← hword, hquote]
  · rw [← hword, List.drop_append_of_le_length hle]
    intro q hq hquote letters offset r _ hr
    cases hbehind : a.drop (a.takeWhile isWordByte).length with
    | nil =>
      rw [hbehind] at hq
      obtain rfl := Option.some.inj hq
      rcases cases_of_isClosing hx with rfl | rfl <;> exact absurd hquote (by decide)
    | cons d more =>
      rw [hbehind] at hq hr
      obtain rfl := Option.some.inj hq
      rwa [string?_closing _ hx] at hr
      rcases hquote with rfl | rfl <;> decide

/-- A text starts with the lexeme that it starts with in front of a separator, if the separator does not
belong to the lexeme. -/
theorem lexeme?_of_append {s : List Char} (hs : Stops s) {offset : Nat} {a : List Char}
    {r : LexemeKind × Nat} (ha : a ≠ []) (h : lexeme? offset (a ++ s) = some r)
    (hr : r.2 ≤ a.length) : lexeme? offset a = some r := by
  obtain ⟨hhead, hdigit, hnumber, hword, hquote, -, hsymbol⟩ := leads_append a.length hs ha
  have hle : (a.takeWhile isWordByte).length ≤ a.length := (List.takeWhile_prefix _).length_le
  refine Leads.lexeme?
    (⟨hhead.symm, hdigit.symm, hnumber.symm, hword.symm, ?_, ?_, hsymbol.symm⟩ : Leads a.length _ _) h hr
  · rw [← hword, hquote]
  · rw [← hword, List.drop_append_of_le_length hle]
    intro q hq hquote letters offset r hr hstring
    have hlength : (a.drop (a.takeWhile isWordByte).length).length =
        a.length - (a.takeWhile isWordByte).length := List.length_drop
    cases hbehind : a.drop (a.takeWhile isWordByte).length with
    | nil =>
      rw [hbehind, List.nil_append] at hq
      have hstop := hs q hq
      rcases hquote with rfl | rfl <;> exact absurd hstop (by decide)
    | cons d more =>
      rw [hbehind] at hq hstring hlength
      obtain rfl := Option.some.inj hq
      refine string?_of_append ?_ hs hstring (by omega)
      rcases hquote with rfl | rfl <;> decide

def LexemeKind.unplaced : LexemeKind → LexemeKind
  | .string literal => .string { literal with offset := 0 }
  | kind => kind

theorem exists_string?_elsewhere {letters : List Char} {offset n : Nat} {cs : List Char}
    {found : StringLiteral} (h : string? letters offset cs = some (found, n)) (offset' : Nat) :
    ∃ found', string? letters offset' cs = some (found', n) ∧
      (LexemeKind.string found').unplaced = (LexemeKind.string found).unplaced := by
  unfold string? at h ⊢
  cases cs with
  | nil => nomatch h
  | cons quote rest =>
    obtain ⟨m, hm, hsame⟩ := Option.map_eq_some_iff.mp h
    obtain ⟨rfl, rfl⟩ := Prod.mk.inj hsame
    exact ⟨_, Option.map_eq_some_iff.mpr ⟨m, hm, rfl⟩, rfl⟩

/-- A text starts with the same lexeme wherever it stands. -/
theorem exists_lexeme?_elsewhere {offset n : Nat} {cs : List Char} {kind : LexemeKind}
    (h : lexeme? offset cs = some (kind, n)) (offset' : Nat) :
    ∃ kind', lexeme? offset' cs = some (kind', n) ∧ kind'.unplaced = kind.unplaced := by
  unfold lexeme? at h ⊢
  cases cs with
  | nil => nomatch h
  | cons c rest =>
    dsimp only at h ⊢
    split at h
    · next hnumber =>
      rw [if_pos hnumber]
      exact ⟨kind, h, rfl⟩
    next hnumber =>
    rw [if_neg hnumber]
    split at h
    · next hword =>
      rw [if_pos hword]
      generalize (c :: rest).takeWhile isWordByte = word at h ⊢
      split at h
      · next hstring =>
        rw [if_pos hstring]
        obtain ⟨⟨found, m⟩, hm, hsame⟩ := Option.map_eq_some_iff.mp h
        obtain ⟨rfl, rfl⟩ := Prod.mk.inj hsame
        obtain ⟨found', hfound, hunplaced⟩ := exists_string?_elsewhere hm (offset' + word.length)
        exact ⟨_, Option.map_eq_some_iff.mpr ⟨_, hfound, rfl⟩, hunplaced⟩
      · next hstring =>
        rw [if_neg hstring]
        exact ⟨kind, h, rfl⟩
    next hword =>
    rw [if_neg hword]
    split at h
    · next hquote =>
      rw [if_pos hquote]
      obtain ⟨⟨found, m⟩, hm, hsame⟩ := Option.map_eq_some_iff.mp h
      obtain ⟨rfl, rfl⟩ := Prod.mk.inj hsame
      obtain ⟨found', hfound, hunplaced⟩ := exists_string?_elsewhere hm offset'
      exact ⟨_, Option.map_eq_some_iff.mpr ⟨_, hfound, rfl⟩, hunplaced⟩
    · next hquote =>
      rw [if_neg hquote]
      exact ⟨kind, h, rfl⟩

end ViewTree.Embedded
