import ViewTree.Proofs.Capture.Pieces

/-!
Portions of a text that is lexed. A step looks at what stands behind its token, but takes the same
where the text ends there. Main statement: a portion that ends with a token has, on its own, the
tokens that it has in the whole text (`Lexer.run_of_append`).
-/
namespace ViewTree
namespace Lexer
open Text

variable {quote c : Char} {cs rest behind : List Char} {n : Nat}

/-- A string does not look behind its closing quote. -/
theorem closingQuote?_take (h : closingQuote? quote cs = some n) :
    0 < n ∧ closingQuote? quote (cs.take n) = some n := by
  induction cs using closingQuote?.induct quote generalizing n with
  | case1 => cases h
  | case2 => cases h
  | case3 c cs ih =>
    rw [closingQuote?] at h
    obtain ⟨m, hm, rfl⟩ := Option.map_eq_some_iff.mp h
    refine ⟨Nat.succ_pos _, ?_⟩
    rw [List.take_succ_cons, List.take_succ_cons, closingQuote?, (ih hm).2]
    rfl
  | case4 cs hone hmore =>
    rw [closingQuote?.eq_4 _ _ _ hone hmore, if_pos rfl] at h
    cases h
  | case5 cs hone hmore hfeed =>
    have hc := ne_backslash hone hmore
    rw [closingQuote?.eq_4 _ _ _ hone hmore, if_neg hfeed, if_pos rfl] at h
    obtain rfl := Option.some.inj h
    refine ⟨Nat.one_pos, ?_⟩
    rw [List.take_succ_cons, closingQuote?.eq_4 _ _ _ (fun h _ => hc h) fun _ _ h _ => hc h,
      if_neg hfeed, if_pos rfl]
  | case6 c cs hone hmore hfeed hquote ih =>
    have hc := ne_backslash hone hmore
    rw [closingQuote?.eq_4 _ _ _ hone hmore, if_neg hfeed, if_neg hquote] at h
    obtain ⟨m, hm, rfl⟩ := Option.map_eq_some_iff.mp h
    refine ⟨Nat.succ_pos _, ?_⟩
    rw [List.take_succ_cons, closingQuote?.eq_4 _ _ _ (fun h _ => hc h) fun _ _ h _ => hc h,
      if_neg hfeed, if_neg hquote, (ih hm).2]
    rfl

theorem closingQuotes?_take (h : closingQuotes? quote cs = some n) :
    closingQuotes? quote (cs.take n) = some n := by
  induction cs using closingQuotes?.induct quote generalizing n with
  | case1 => cases h
  | case2 => cases h
  | case3 c cs ih =>
    rw [closingQuotes?] at h
    obtain ⟨m, hm, rfl⟩ := Option.map_eq_some_iff.mp h
    rw [List.take_succ_cons, List.take_succ_cons, closingQuotes?, ih hm]
    rfl
  | case4 c cs hone hmore hquotes =>
    have hc := ne_backslash hone hmore
    rw [closingQuotes?.eq_4 _ _ _ hone hmore, if_pos hquotes] at h
    obtain rfl := Option.some.inj h
    have hleading : [quote, quote, quote] <+: (c :: cs).take 3 :=
      List.prefix_take_iff.mpr ⟨List.isPrefixOf_iff_prefix.mp hquotes, Nat.le_refl 3⟩
    rw [List.take_succ_cons] at hleading ⊢
    rw [closingQuotes?.eq_4 _ _ _ (fun h _ => hc h) fun _ _ h _ => hc h]
    exact if_pos (List.isPrefixOf_iff_prefix.mpr hleading)
  | case5 c cs hone hmore hquotes ih =>
    have hc := ne_backslash hone hmore
    rw [closingQuotes?.eq_4 _ _ _ hone hmore, if_neg hquotes] at h
    obtain ⟨m, hm, rfl⟩ := Option.map_eq_some_iff.mp h
    have hnone : ¬[quote, quote, quote].isPrefixOf (c :: cs.take m) = true := fun hleading => by
      have hshort := List.isPrefixOf_iff_prefix.mp hleading
      rw [← List.take_succ_cons] at hshort
      exact hquotes (List.isPrefixOf_iff_prefix.mpr (List.prefix_take_iff.mp hshort).1)
    rw [List.take_succ_cons, closingQuotes?.eq_4 _ _ _ (fun h _ => hc h) fun _ _ h _ => hc h,
      if_neg hnone, ih hm]
    rfl

theorem stringLength?_eq (quote : Char) (cs : List Char) :
    stringLength? quote cs = if [quote, quote].isPrefixOf cs then
      (closingQuotes? quote (cs.drop 2)).map (· + 2) else closingQuote? quote cs := by
  match cs with
  | [] => rfl
  | [a] => simp [stringLength?]
  | a :: b :: cs =>
    show (if (a = quote && b = quote) = true then _ else _) = _
    have hsame : [quote, quote].isPrefixOf (a :: b :: cs) = (a = quote && b = quote) := by
      simp [List.isPrefixOf, BEq.comm (a := quote)]
      rfl
    rw [hsame]
    rfl

theorem prefix_of_append {s : List Char} (h : s <+: rest ++ behind) (hle : s.length ≤ rest.length) :
    s <+: rest :=
  List.prefix_of_prefix_length_le h (List.prefix_append rest behind) hle

/-- A string that ends in a portion is closed there. -/
theorem stringLength?_of_append (h : stringLength? quote (rest ++ behind) = some n)
    (hle : n ≤ rest.length) : 0 < n ∧ stringLength? quote rest = some n := by
  rw [stringLength?_eq] at h ⊢
  by_cases hlong : [quote, quote].isPrefixOf (rest ++ behind)
  · rw [if_pos hlong] at h
    obtain ⟨m, hm, rfl⟩ := Option.map_eq_some_iff.mp h
    have hfits : 2 ≤ rest.length := Nat.le_of_add_left_le hle
    have hshort := prefix_of_append (List.isPrefixOf_iff_prefix.mp hlong) hfits
    rw [List.drop_append_of_le_length hfits] at hm
    have htake := closingQuotes?_take hm
    rw [List.take_append_of_le_length (by rw [List.length_drop]; omega)] at htake
    have hsame := (closingQuotes?_append htake ((rest.drop 2).drop m)).2.2
    rw [List.take_append_drop] at hsame
    rw [if_pos (List.isPrefixOf_iff_prefix.mpr hshort), hsame]
    exact ⟨Nat.succ_pos _, rfl⟩
  · rw [if_neg hlong] at h
    obtain ⟨hpos, htake⟩ := closingQuote?_take h
    have hshort : ¬[quote, quote].isPrefixOf rest = true := fun hshort => hlong
      (List.isPrefixOf_iff_prefix.mpr
        ((List.isPrefixOf_iff_prefix.mp hshort).trans (List.prefix_append _ _)))
    rw [List.take_append_of_le_length hle] at htake
    have hsame := (closingQuote?_append htake (rest.drop n)).2
    rw [List.take_append_drop] at hsame
    rw [if_neg hshort, hsame]
    exact ⟨hpos, rfl⟩

theorem numberLength_of_append (h : numberLength (cs ++ behind) ≤ cs.length) :
    numberLength (cs ++ behind) = numberLength cs := by
  induction cs using numberLength.induct with
  | case1 => exact Nat.le_zero.mp h
  | case2 c hc =>
    cases behind with
    | nil => rfl
    | cons d behind =>
      rw [List.singleton_append, numberLength, if_pos hc] at h ⊢
      rw [numberLength, if_pos hc]
      split at h
      · rw [List.length_singleton] at h
        omega
      · rw [List.length_singleton] at h
        rw [if_neg ‹_›]
        omega
  | case3 c hc =>
    cases behind with
    | nil => rfl
    | cons d behind => rw [List.singleton_append, numberLength, if_neg hc, numberLength, if_neg hc]
  | case4 c d cs hc hmark ih =>
    rw [List.cons_append, List.cons_append, numberLength, if_pos hc, if_pos hmark] at h ⊢
    rw [numberLength, if_pos hc, if_pos hmark, ih (by simpa using h)]
  | case5 c d cs hc hmark ih =>
    rw [List.cons_append, List.cons_append, numberLength, if_pos hc, if_neg hmark,
      ← List.cons_append] at h ⊢
    rw [numberLength, if_pos hc, if_neg hmark, ih (by simpa using h)]
  | case6 c d cs hc =>
    rw [List.cons_append, List.cons_append, numberLength, if_neg hc, numberLength, if_neg hc]

theorem takeWhile_of_append {ok : Char → Bool} (h : ((cs ++ behind).takeWhile ok).length ≤ cs.length) :
    (cs ++ behind).takeWhile ok = cs.takeWhile ok := by
  rw [List.takeWhile_append] at h ⊢
  split at h
  · next hall =>
    rw [List.length_append] at h
    have hnone : behind.takeWhile ok = [] := List.length_eq_zero_iff.mp (by omega)
    have hwhole : cs.takeWhile ok = cs := (List.takeWhile_prefix ok).eq_of_length hall
    rw [if_pos hall, hnone, List.append_nil, hwhole]
  · next hall => rw [if_neg hall]

theorem isNumber_of_append
    (h : isDigit c ∨ (c = '.' ∧ (rest ++ behind).head?.any isDigit))
    (hle : numberLength (c :: rest ++ behind) ≤ rest.length + 1) :
    isDigit c ∨ (c = '.' ∧ rest.head?.any isDigit) := by
  cases rest with
  | cons d rest => exact h
  | nil =>
    refine h.imp_right fun ⟨hpoint, hnext⟩ => ?_
    obtain ⟨d, hd, hdigit⟩ := (Option.any_eq_true _ _).mp hnext
    obtain ⟨later, rfl⟩ := List.head?_eq_some_iff.mp hd
    rw [List.singleton_append, numberLength_cons (.inr hpoint), numberLength_cons (.inl hdigit)] at hle
    nomatch hle

/-- A step whose token ends in a portion is the same there. -/
theorem step_of_append {kind? : Option TokenKind} (h : step c (rest ++ behind) = .ok (kind?, n))
    (hle : n ≤ rest.length) : step c rest = .ok (kind?, n) := by
  have hhead (hpos : 0 < n) : (rest ++ behind).head? = rest.head? :=
    head?_append_of_length_pos (Nat.lt_of_lt_of_le hpos hle)
  have hfirst {d : Char} (hd : rest.head? = some d) : (rest ++ behind).head? = some d := by
    rw [List.head?_append, hd, Option.some_or]
  have hword (hfits : ((rest ++ behind).takeWhile isWordChar).length ≤ rest.length) :
      (rest ++ behind).takeWhile isWordChar = rest.takeWhile isWordChar :=
    takeWhile_of_append hfits
  have hdrop : (rest ++ behind).drop (rest.takeWhile isWordChar).length =
      rest.drop (rest.takeWhile isWordChar).length ++ behind :=
    List.drop_append_of_le_length (List.takeWhile_prefix isWordChar).length_le
  have hcomment (hfits : commentLength (rest ++ behind) ≤ rest.length) :
      commentLength (rest ++ behind) = commentLength rest :=
    congrArg List.length (takeWhile_of_append hfits)
  refine step_of ?_
  cases step_cases h with
  | blank hc => exact .blank hc
  | attrOpen hc hnext => exact .attrOpen hc (hhead Nat.one_pos ▸ hnext)
  | docComment hc hnext =>
    rw [hcomment hle]
    refine .docComment hc (hhead ?_ ▸ hnext)
    obtain ⟨later, hlater⟩ := List.head?_eq_some_iff.mp hnext
    simp [hlater, commentLength]
  | comment hc hattribute hdoc =>
    rw [hcomment hle]
    exact .comment hc (mt hfirst hattribute) (mt hfirst hdoc)
  | string hc hlength => exact .string hc (stringLength?_of_append hlength hle).2
  | number hc =>
    have hfits : numberLength (c :: rest ++ behind) ≤ (c :: rest).length := by
      rw [List.length_cons, List.cons_append]
      omega
    rw [← List.cons_append, numberLength_of_append hfits]
    exact .number (isNumber_of_append hc hfits)
  | @marked quote later m hc hbehind hquote hmark hlength hdigit =>
    have hsame := hword (by omega)
    rw [hsame] at hbehind hmark hle ⊢
    rw [hdrop] at hbehind
    have hlater := congrArg List.length (List.take_append_drop (rest.takeWhile isWordChar).length rest)
    cases hshort : rest.drop (rest.takeWhile isWordChar).length with
    | nil =>
      rw [hshort, List.append_nil, List.length_take] at hlater
      omega
    | cons d short =>
      rw [hshort] at hbehind hlater
      obtain ⟨rfl, rfl⟩ := List.cons.inj hbehind
      rw [List.length_append, List.length_take, List.length_cons] at hlater
      exact .marked hc hshort hquote hmark (stringLength?_of_append hlength (by omega)).2 hdigit
  | word hc hdigit hnext =>
    rw [hword hle] at hnext ⊢
    rw [hdrop] at hnext
    refine .word hc hdigit fun quote hquote => hnext quote ?_
    rw [List.head?_append, Option.mem_def.mp hquote]
    rfl
  | pair hnext hkind => exact .pair (hhead Nat.one_pos ▸ hnext) hkind
  | single hnext hkind hnumber =>
    cases rest with
    | nil => exact .single rfl hkind fun _ => rfl
    | cons d rest => exact .single hnext hkind hnumber

theorem offset_le_of_run {p : Position} {ts : Tokens} (h : run p cs = .ok ts) :
    ∀ t ∈ ts.items, p.offset ≤ t.offset := by
  induction cs using Lexer.induction generalizing p ts with
  | nil =>
    rw [run_nil] at h
    obtain rfl := Except.ok.inj h
    simp
  | step c rest ih =>
    obtain ⟨kind?, n, more, -, hrun, rfl⟩ := exists_step_of_run h
    refine List.forall_mem_append.mpr ⟨fun t ht => ?_, fun t ht => ?_⟩
    · obtain ⟨kind, -, rfl⟩ := Option.map_eq_some_iff.mp (Option.mem_toList.mp ht)
      exact Nat.le_refl _
    · have hbehind := ih n hrun t ht
      rw [Position.offset_after] at hbehind
      omega

/-- A portion that ends with a token has the tokens that it has in the whole text. -/
theorem run_of_append {p : Position} {cs behind : List Char} {ts : Tokens} {us vs : List Token}
    (h : run p (cs ++ behind) = .ok ts) (hitems : ts.items = us ++ vs)
    (hlast : us.getLast?.map (·.stop) = some (p.offset + cs.length)) :
    ∃ eof, run p cs = .ok ⟨us, eof⟩ := by
  induction cs using Lexer.induction generalizing p ts us with
  | nil =>
    obtain ⟨t, ht, hstop⟩ := Option.map_eq_some_iff.mp hlast
    have hmem : t ∈ ts.items := hitems ▸ List.mem_append_left vs (List.mem_of_getLast? ht)
    have hfirst := offset_le_of_run h t hmem
    have hlength := offset_lt_of_run h t hmem
    rw [List.length_nil] at hstop
    omega
  | step c rest ih =>
    rw [List.cons_append] at h
    obtain ⟨kind?, n, more, hstep, hrun, rfl⟩ := exists_step_of_run h
    have hoffset := Position.offset_after p (c :: (rest ++ behind).take n)
    rw [List.length_cons, List.length_take, Nat.min_eq_left (length_of_step hstep)] at hoffset
    rw [List.length_cons] at hlast
    -- the tokens behind that of the step are those of the rest, if there are any
    have hlater {later : List Token} (hmore : more.items = later ++ vs)
        (hstop : later.getLast?.map (·.stop) = some (p.offset + (rest.length + 1))) :
        ∃ eof, run p (c :: rest) = .ok ⟨(kind?.map (stepToken p (c :: (rest ++ behind).take n))).toList
          ++ later, eof⟩ := by
      obtain ⟨t, ht, htstop⟩ := Option.map_eq_some_iff.mp hstop
      have hmem : t ∈ more.items := hmore ▸ List.mem_append_left vs (List.mem_of_getLast? ht)
      have hfirst := offset_le_of_run hrun t hmem
      have hlength := offset_lt_of_run hrun t hmem
      have hle : n ≤ rest.length := by omega
      rw [List.take_append_of_le_length hle] at hrun hoffset ⊢
      rw [List.drop_append_of_le_length hle] at hrun
      have hend : p.offset + (rest.length + 1) =
          (p.after (c :: rest.take n)).offset + (rest.drop n).length := by
        rw [hoffset, List.length_drop]
        omega
      obtain ⟨eof, hshort⟩ := ih n hrun hmore (hend ▸ hstop)
      rw [run_ok (step_of_append hstep hle), hshort]
      exact ⟨eof, rfl⟩
    cases kind? with
    | none => exact hlater hitems hlast
    | some kind =>
      match us, hitems, hlast with
      | [t], hitems, hlast =>
        obtain ⟨rfl, -⟩ := List.cons.inj hitems
        have hstop : (p.after (c :: (rest ++ behind).take n)).offset = p.offset + (rest.length + 1) :=
          Option.some.inj hlast
        have hle : n = rest.length := by omega
        subst hle
        rw [run_ok (step_of_append hstep (Nat.le_refl _)), List.drop_length, run_nil, List.take_length,
          List.take_left]
        exact ⟨_, rfl⟩
      | t :: u :: us, hitems, hlast =>
        obtain ⟨rfl, hmore⟩ := List.cons.inj hitems
        exact hlater hmore hlast

end Lexer
end ViewTree
