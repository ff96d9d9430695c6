import ViewTree.Proofs.Pasting.Arguments
import ViewTree.Proofs.Pasting.Paths
import ViewTree.Proofs.Reading.Results
import ViewTree.Proofs.Words

/-!
Calls with more calls chained to them. Main statements: the lexemes of paths behind dots are read as
suffixes of the value in front of them (`exists_suffixes_of_chained`), and a scan finds such lexemes in
words (`exists_passes_words`) and in calls (`exists_passes_chain`) that are put behind dots; arguments
that are read between parentheses of their own are read there too (`IsArguments.exists_passesAs`).
-/
namespace ViewTree
open Embedded Reader Text

namespace Embedded

theorem ne_of_isWordByte {c d : Char} (hc : isWordByte c = false) (hd : isWordByte d) : c ≠ d := by
  rintro rfl
  exact absurd hd (by simp [hc])

theorem isWordByte_of_isIdentifierContinue {c : Char} (h : isIdentifierContinue c) : isWordByte c := by
  unfold isIdentifierContinue at h
  unfold isWordByte
  split at h <;> grind

theorem isWordByte_of_isIdentifierStart {c : Char} (h : isIdentifierStart c) :
    isWordByte c ∧ c.isDigit = false := by
  unfold isIdentifierStart at h
  unfold isWordByte
  by_cases hascii : c.toNat < 128
  · rw [if_pos hascii] at h
    rcases Bool.or_eq_true_iff.mp h with halpha | hline
    · refine ⟨by simp [Char.isAlphanum, halpha], ?_⟩
      delta Char.isAlpha Char.isUpper Char.isLower at halpha
      delta Char.isDigit
      grind
    · obtain rfl := eq_of_beq hline
      decide
  · have hdigit : c.isDigit = false := by
      by_contra hdigit
      have := toNat_lt_of_isDigit (by simpa using hdigit)
      omega
    exact ⟨by simp; omega, hdigit⟩

/-- A word is read up to a character that belongs to none and starts no string. -/
theorem lexeme?_word {first : Char} {more : List Char} (hbytes : ∀ d ∈ first :: more, isWordByte d)
    (hdigit : first.isDigit = false) {c : Char} (hc : isWordByte c = false)
    (hquote : c ≠ '"' ∧ c ≠ '\'') (offset : Nat) (rest : List Char) :
    lexeme? offset (first :: more ++ c :: rest) =
      let word := String.ofList (first :: more)
      if isKeyword word then some (.keyword word, more.length + 1)
      else if isIdentifier word then some (.name (compatible word), more.length + 1)
      else none := by
  have htake : (first :: (more ++ c :: rest)).takeWhile isWordByte = first :: more :=
    Mark.takeWhile_word hbytes (by simpa using hc)
  have hdrop : (first :: (more ++ c :: rest)).drop (first :: more).length = c :: rest :=
    List.drop_left
  have hnumber : ¬(first.isDigit || (decide (first = '.') &&
      (more ++ c :: rest).head?.any (·.isDigit))) = true := by
    have hdot : first ≠ '.' := by
      rintro rfl
      exact absurd (hbytes '.' List.mem_cons_self) (by decide)
    simp [hdigit, hdot]
  have hplain : ¬((c :: rest).head?.any (fun q => q = '"' || q = '\'') &&
      stringLetters.contains (String.ofList ((first :: more).map Char.toLower))) = true := by
    simp [hquote]
  unfold lexeme?
  rw [List.cons_append]
  dsimp only
  rw [if_neg hnumber, if_pos (hbytes first List.mem_cons_self), htake, hdrop, if_neg hplain]
  rfl

theorem lexeme?_name {word : String} (hname : isIdentifier word) (hkeyword : ¬isKeyword word)
    {c : Char} (hc : isWordByte c = false) (hquote : c ≠ '"' ∧ c ≠ '\'') (offset : Nat)
    (rest : List Char) :
    lexeme? offset (word.toList ++ c :: rest) = some (.name (compatible word), word.length) := by
  have hchars : isIdentifierChars word.toList := hname
  have hlength : word.length = word.toList.length := String.length_toList.symm
  have hsame : String.ofList word.toList = word := String.ofList_toList
  rw [hlength]
  cases hlist : word.toList with
  | nil =>
    rw [hlist] at hchars
    nomatch hchars
  | cons first more =>
    rw [hlist] at hchars hsame
    obtain ⟨hfirst, hmore⟩ := Bool.and_eq_true_iff.mp hchars
    obtain ⟨hbyte, hdigit⟩ := isWordByte_of_isIdentifierStart hfirst
    have hbytes : ∀ d ∈ first :: more, isWordByte d := List.forall_mem_cons.mpr ⟨hbyte, fun d hd =>
      isWordByte_of_isIdentifierContinue (List.all_eq_true.mp hmore d hd)⟩
    rw [lexeme?_word hbytes hdigit hc hquote]
    dsimp only
    rw [hsame, if_neg hkeyword, if_pos hname]
    rfl

theorem ne_symbol_of_lexeme? {offset n : Nat} {c : Char} {rest : List Char} {kind : LexemeKind}
    (hc : isWordByte c) (h : lexeme? offset (c :: rest) = some (kind, n)) (s : String) :
    kind ≠ .symbol s := by
  unfold lexeme? at h
  dsimp only at h
  rintro rfl
  split at h
  · obtain ⟨x, -, hx⟩ := Option.map_eq_some_iff.mp h
    nomatch hx
  split at h
  · obtain ⟨x, -, hx⟩ := Option.map_eq_some_iff.mp h
    nomatch hx
  split at h
  · nomatch h
  split at h
  · nomatch h
  · nomatch h

/-- The lexemes are those of paths, each behind a dot. -/
inductive Chained (n : Nat) : List Term → List Lexeme → Prop where
  | nil : Chained n [] []
  | cons {dot first us term terms ts} (hdot : dot.kind = .symbol ".")
      (hfirst : ∀ s, first.kind ≠ .symbol s) (hread : ReadsWithin n (first :: us) term)
      (hpath : term.isPath) (h : Chained n terms ts) :
      Chained n (term :: terms) (dot :: first :: us ++ ts)

/-- Lexemes of a path are its name and those of its suffixes. -/
theorem exists_suffixes_of_readsWithin {n depth : Nat} {first : Lexeme} {us : List Lexeme} {term : Term}
    (hfirst : ∀ s, first.kind ≠ .symbol s) (hread : ReadsWithin n (first :: us) term)
    (hpath : term.isPath) (hdepth : us.length ≤ depth) :
    ∃ m, ∃ name : Lexeme, ∃ id ts i, m ≤ n ∧ first.kind = .name id ∧ Alike us ts ∧
      Suffixes (grammarAt (readField m) depth).1 (grammarAt (readField m) depth).2 name.start
        (.mk name.start name.stop (.name id)) ⟨ts ++ i.rest, name.stop⟩ term i := by
  obtain ⟨m, ts, hm, ⟨depth₀, last₀, last₁, behind, rest, -, hterm⟩, halike⟩ := hread
  obtain ⟨name, ts, rfl, hkind, halike⟩ := List.map_eq_cons_iff.mp halike.symm
  obtain ⟨used, hused, -, hdeep⟩ :=
    (follows_grammarAt (readField m) depth₀ (depth + 2)).1.expression _ _ _ trivial hterm
  obtain rfl : name :: ts = used := List.append_cancel_right hused
  have hlength : ts.length = us.length := by simpa using congrArg List.length halike
  have hterm := hdeep (by
    show 0 + (name :: ts).length + 0 ≤ depth + 1
    rw [List.length_cons]
    omega)
  have hname : ∀ s, name.kind ≠ .symbol s := fun s hs =>
    hfirst s ((eq_of_unplaced (by rw [hs]; rfl) hkind).symm.trans hs)
  obtain ⟨id, hid, hsuffixes⟩ := exists_suffixes_of_expression hname hpath hterm
  exact ⟨m, name, id, ts, ⟨behind :: rest, last₁⟩, hm,
    (eq_of_unplaced (by rw [hid]; rfl) hkind).symm.trans hid, halike.symm, hsuffixes⟩

theorem ReadsWithin.trails {n : Nat} {first : Lexeme} {us : List Lexeme} {term : Term}
    (h : ReadsWithin n (first :: us) term) (hfirst : ∀ s, first.kind ≠ .symbol s) (hpath : term.isPath) :
    Trails (first :: us) := by
  obtain ⟨m, name, id, ts, i, -, hid, halike, hsuffixes⟩ :=
    exists_suffixes_of_readsWithin hfirst h hpath (Nat.le_refl _)
  obtain ⟨hg, hp⟩ := follows_grammarAt (readField m) us.length us.length
  obtain ⟨used, hused, htrails⟩ := hsuffixes.exists_trails hg hp
  obtain rfl : ts = used := List.append_cancel_right hused
  exact .name hid (htrails.of_alike halike)

/-- A path behind a dot is read as suffixes of the value in front of the dot. -/
theorem exists_suffixes_of_path {n depth : Nat} {dot first : Lexeme} {us : List Lexeme}
    {term : Term} (hdot : dot.kind = .symbol ".") (hfirst : ∀ s, first.kind ≠ .symbol s)
    (hread : ReadsWithin n (first :: us) term) (hpath : term.isPath) (hdepth : us.length ≤ depth)
    (start : Nat) (v : Term) (tail : List Lexeme) (last : Nat) :
    ∃ x last', Suffixes (grammarAt (readField n) depth).1 (grammarAt (readField n) depth).2 start v
        ⟨dot :: first :: (us ++ tail), last⟩ x ⟨tail, last'⟩ ∧
      x.unplaced = (v.withPath term).unplaced := by
  obtain ⟨m, name, id, ts, i, hm, hid, halike, hsuffixes⟩ :=
    exists_suffixes_of_readsWithin hfirst hread hpath hdepth
  obtain ⟨hg, hp⟩ := mirrors_grammarAt (fieldsAlike_readField hm) depth
  obtain ⟨used, hused, honto⟩ := hsuffixes.exists_withPath hg hp
  obtain rfl : ts = used := List.append_cancel_right hused
  obtain ⟨x, last', hx, hsame⟩ := honto v (.mk start first.stop (.attribute v id)) start
    ⟨us ++ tail, first.stop⟩ us tail rfl rfl halike.symm
  exact ⟨x, last', .more (suffix_attribute hdot hid _ last) hx, hsame.symm⟩

theorem foldl_withPath_unplaced (terms : List Term) (v : Term) :
    (terms.foldl Term.withPath v).unplaced =
      (terms.map Term.unplaced).foldl Term.withPath v.unplaced := by
  induction terms generalizing v with
  | nil => rfl
  | cons term terms ih => rw [List.foldl_cons, ih, Term.withPath_unplaced, List.map_cons, List.foldl_cons]

theorem exists_suffixes_of_chained {n depth : Nat} {terms : List Term} {ts : List Lexeme}
    (h : Chained n terms ts) (hdepth : ts.length ≤ depth) (start : Nat) (v : Term)
    (tail : List Lexeme) (last : Nat) :
    ∃ x last', Suffixes (grammarAt (readField n) depth).1 (grammarAt (readField n) depth).2 start v
        ⟨ts ++ tail, last⟩ x ⟨tail, last'⟩ ∧
      x.unplaced = (terms.foldl Term.withPath v).unplaced := by
  induction h generalizing v last with
  | nil => exact ⟨v, last, .done v _, rfl⟩
  | @cons dot first us term terms ts hdot hfirst hread hpath h ih =>
    simp only [List.length_cons, List.length_append, List.cons_append] at hdepth
    have hfits : us.length ≤ depth := by omega
    obtain ⟨w, last₁, hw, hsame⟩ :=
      exists_suffixes_of_path hdot hfirst hread hpath hfits start v (ts ++ tail) last
    obtain ⟨x, last₂, hx, hfold⟩ := ih (by omega) w last₁
    refine ⟨x, last₂, by simpa using hw.trans hx, ?_⟩
    rw [hfold, foldl_withPath_unplaced, hsame, ← foldl_withPath_unplaced]
    rfl

/-- What is read as the name that it is: an identifier, and no keyword. -/
def IsVariable (word : String) : Prop := isIdentifier word ∧ ¬isKeyword word

def nameTerm (word : String) : Term := .mk 0 0 (.name (compatible word))

theorem IsVariable.exists_first {word : String} (h : IsVariable word) :
    ∃ c rest, word.toList = c :: rest ∧ isWordByte c ∧ c.isDigit = false := by
  have hchars : isIdentifierChars word.toList := h.1
  cases hlist : word.toList with
  | nil =>
    rw [hlist] at hchars
    nomatch hchars
  | cons c rest =>
    rw [hlist] at hchars
    exact ⟨c, rest, rfl, isWordByte_of_isIdentifierStart (Bool.and_eq_true_iff.mp hchars).1⟩

theorem startsLexeme_of_isWordByte {c : Char} (h : isWordByte c) : startsLexeme c := by
  have hc {d : Char} (hd : isWordByte d = false) : c ≠ d := by
    rintro rfl
    exact absurd h (by simp [hd])
  have hblank : Lexer.isSkipped c = false := by
    unfold Lexer.isSkipped
    simp [hc (d := ' ') (by decide), hc (d := '\t') (by decide), hc (d := '\x0d') (by decide),
      hc (d := '\n') (by decide), hc (d := '\x0c') (by decide)]
  simp [startsLexeme, hblank, hc (d := '#') (by decide), hc (d := '\\') (by decide)]

/-- A scan passes a word up to a character that belongs to no word. -/
theorem IsVariable.passes {word : String} (h : IsVariable word) {c : Char}
    (hc : isWordByte c = false) (hquote : c ≠ '"' ∧ c ≠ '\'') (offset : Nat) (pending : List String)
    (fresh : Bool) (rest : List Char) :
    Passes ⟨offset, pending, fresh⟩ (word.toList ++ c :: rest)
      [⟨.name (compatible word), offset, offset + word.length⟩]
      ⟨offset + word.length, pending, false⟩ (c :: rest) := by
  have hlexeme := lexeme?_name h.1 h.2 hc hquote offset rest
  obtain ⟨d, more, hlist, hword, -⟩ := h.exists_first
  have hlength : word.length = more.length + 1 := by
    rw [← String.length_toList, hlist, List.length_cons]
  rw [hlist, hlength, List.cons_append] at hlexeme ⊢
  have hbehind : Passes ⟨offset + max 1 (more.length + 1), pending, false⟩
      ((more ++ c :: rest).drop (more.length + 1 - 1)) [] ⟨offset + (more.length + 1), pending, false⟩
      (c :: rest) := by
    rw [Nat.max_eq_right (by omega), Nat.add_sub_cancel, List.drop_left]
    exact .done _ _
  exact .lexeme (startsLexeme_of_isWordByte hword) hlexeme rfl hbehind

theorem readsWithin_name {n : Nat} {t : Lexeme} {id : String} (ht : t.kind = .name id) :
    ReadsWithin n [t] (.mk t.start t.stop (.name id)) := by
  have hread : (grammarAt (readField n) 2).1.expression ⟨[t, ⟨.lineEnd, 0, 0⟩], 0⟩ =
      some (.mk t.start t.stop (.name id), ⟨[⟨.lineEnd, 0, 0⟩], t.stop⟩) :=
    expression_of_suffixes (fieldsAlike_readField (Nat.le_refl n)) ht (.done _ _) 0 rfl
  exact ⟨n, [t], Nat.le_refl n, ⟨2, 0, t.stop, ⟨.lineEnd, 0, 0⟩, [], rfl, hread⟩, rfl⟩

theorem passes_dot {c : Char} (hc : isWordByte c) (hdigit : c.isDigit = false) {offset : Nat}
    {pending : List String} {fresh : Bool} {rest s : List Char} {ts : List Lexeme} {j : ScanPoint}
    (h : Passes ⟨offset + 1, pending, false⟩ (c :: rest) ts j s) :
    Passes ⟨offset, pending, fresh⟩ ('.' :: c :: rest) (⟨.symbol ".", offset, offset + 1⟩ :: ts) j s :=
  .lexeme (by decide) (lexeme?_dot (ne_of_isWordByte (by decide) hc).symm hdigit offset rest) rfl h

/-- Words behind dots are passed as paths up to a parenthesis. -/
theorem exists_passes_words {words : List String} (h : ∀ w ∈ words, IsVariable w) (n offset : Nat)
    (rest : List Char) :
    ∃ ts terms stop, Passes ⟨offset, [], false⟩ (words.flatMap (fun w => '.' :: w.toList) ++ '(' :: rest)
        ts ⟨stop, [], false⟩ ('(' :: rest) ∧ Chained n terms ts ∧
      terms.map Term.unplaced = words.map nameTerm := by
  induction words generalizing offset with
  | nil => exact ⟨[], [], offset, .done _ _, .nil, rfl⟩
  | cons word words ih =>
    obtain ⟨hword, hwords⟩ := List.forall_mem_cons.mp h
    obtain ⟨ts, terms, stop, hts, hchained, hterms⟩ := ih hwords (offset + 1 + word.length)
    obtain ⟨d, more, hlist, hbyte, hdigit⟩ := hword.exists_first
    have hall : Passes ⟨offset + 1, [], false⟩
        (word.toList ++ (words.flatMap (fun w => '.' :: w.toList) ++ '(' :: rest))
        ([⟨.name (compatible word), offset + 1, offset + 1 + word.length⟩] ++ ts)
        ⟨stop, [], false⟩ ('(' :: rest) := by
      cases words with
      | nil => exact (hword.passes (by decide) (by decide) _ _ _ _).trans hts
      | cons next words =>
        rw [List.flatMap_cons, List.cons_append, List.cons_append] at hts ⊢
        exact (hword.passes (by decide) (by decide) _ _ _ _).trans hts
    let name : Lexeme := ⟨.name (compatible word), offset + 1, offset + 1 + word.length⟩
    have hread : ReadsWithin n [name] (.mk name.start name.stop (.name (compatible word))) :=
      readsWithin_name rfl
    have hname (s : String) : name.kind ≠ .symbol s := nofun
    refine ⟨⟨.symbol ".", offset, offset + 1⟩ :: [name] ++ ts, _, stop, ?_,
      .cons rfl hname hread rfl hchained, ?_⟩
    · rw [List.flatMap_cons, List.cons_append, List.cons_append, List.append_assoc]
      rw [hlist] at hall ⊢
      exact passes_dot hbyte hdigit hall
    · rw [List.map_cons, hterms]
      rfl

end Embedded

/-- The text is a group that starts with a name, and the term a path: a name with attributes, calls and
subscripts behind it, as it may be chained to a call. -/
structure Expr.IsPath (e : Expr) : Prop where
  group : IsGroup e.text
  noReturn : '\r' ∉ e.text.toList
  begins : ∃ c, e.text.toList.head? = some c ∧ isWordByte c ∧ c.isDigit = false
  path : e.term.isPath

theorem Expr.IsPath.isInline {e : Expr} (h : e.IsPath) (hreads : e.Reads) : IsInline e.text e.term := by
  refine ⟨h.group, h.noReturn, hreads.term, .inr ?_⟩
  refine isExpression_of_isPath h.group h.noReturn (fun c hc hzero => ?_) hreads.term h.path
  have hend := hreads.whole c hc
  simp [TreeReader.endsTexts, hzero] at hend

/-- What stands behind a call, with more calls. -/
def chainChars (es : List Expr) : List Char := es.flatMap fun e => '.' :: e.code.toList

namespace Embedded

theorem exists_lexeme_of_passes {i j : ScanPoint} {c : Char} {cs : List Char} {ts : List Lexeme}
    (hc : isWordByte c) (h : Passes i (c :: cs) ts j []) :
    ∃ first us, ts = first :: us ∧ ∀ s, first.kind ≠ .symbol s := by
  cases h with
  | blank hblank => rcases hblank with (rfl | rfl) | rfl <;> exact absurd hc (by decide)
  | feed => exact absurd hc (by decide)
  | comment => exact absurd hc (by decide)
  | join => exact absurd hc (by decide)
  | lexeme _ hlexeme => exact ⟨_, _, rfl, ne_symbol_of_lexeme? hc hlexeme⟩

theorem startsDot_chainChars (es : List Expr) {rest : List Char} (hrest : StartsDot rest) :
    StartsDot (chainChars es ++ rest) := by
  cases es with
  | nil => exact hrest
  | cons e es => exact startsDot_cons _

/-- Paths of one line behind dots are passed as paths. -/
theorem exists_passes_chain {n : Nat} {es : List Expr} {rest : List Char}
    (h : ∀ e ∈ es, e.IsPath ∧ e.Reads) (hlines : ∀ e ∈ es, ¬isMultiline e.text)
    (hrest : StartsDot rest) (hn : ∀ e ∈ es, (grouped e.text).length ≤ n) (offset : Nat) :
    ∃ ts stop, Passes ⟨offset, [], false⟩ (chainChars es ++ rest) ts ⟨stop, [], false⟩ rest ∧
      Chained n (es.map (·.term)) ts := by
  induction es generalizing offset with
  | nil => exact ⟨[], offset, .done _ _, .nil⟩
  | cons e es ih =>
    obtain ⟨⟨he, hread⟩, hes⟩ := List.forall_mem_cons.mp h
    obtain ⟨hline, hlines⟩ := List.forall_mem_cons.mp hlines
    obtain ⟨hne, hnes⟩ := List.forall_mem_cons.mp hn
    obtain ⟨vs, hreads, hpasses, -⟩ := (he.isInline hread).exists_passesAs
    obtain ⟨us, ⟨o, p, f⟩, hus, hp, hf, halike⟩ := hpasses (offset + 1) false
    obtain rfl : p = [] := hp
    obtain rfl : f = false := hf
    obtain ⟨ts, stop, hts, hchained⟩ := ih hes hlines hnes o
    have hcode : inlineText e.text = e.text := if_neg hline
    rw [hcode] at hus
    obtain ⟨c, hfirst, hc, hdigit⟩ := he.begins
    obtain ⟨cs, hlist⟩ := List.head?_eq_some_iff.mp hfirst
    obtain ⟨first, us, rfl, hfirst⟩ := exists_lexeme_of_passes hc (hlist ▸ hus)
    have hwithin : ReadsWithin n (first :: us) e.term := ⟨_, vs, hne, hreads, halike⟩
    have hfront : Passes ⟨offset + 1, [], false⟩ (e.text.toList ++ (chainChars es ++ rest)) (first :: us)
        ⟨o, [], false⟩ (chainChars es ++ rest) :=
      hus.before (hwithin.trails hfirst he.path) (startsDot_chainChars es hrest)
    have hall := hfront.trans hts
    refine ⟨⟨.symbol ".", offset, offset + 1⟩ :: first :: us ++ ts, stop, ?_,
      .cons rfl hfirst hwithin he.path hchained⟩
    rw [chainChars, List.flatMap_cons, Expr.code, hcode, hlist, List.cons_append, List.cons_append,
      List.cons_append, List.cons_append, List.append_assoc]
    rw [hlist, List.cons_append] at hall
    exact passes_dot hc hdigit hall

/-- Of lexemes in front of a line end those that are in the line are all but the last. -/
theorem eq_of_lineEnd {inner used rest : List Lexeme} {closing ending : Lexeme}
    (h : inner ++ [closing, ending] = used ++ rest) (hclosing : closing.kind ≠ .lineEnd)
    (hending : ending.kind = .lineEnd) (hused : ∀ t ∈ used, t.kind ≠ .lineEnd)
    (hrest : ∀ t ∈ rest, t.kind = .lineEnd) : inner ++ [closing] = used := by
  have hsplit : inner ++ [closing] ++ [ending] = used ++ rest := by rw [← h, List.append_assoc]; rfl
  rcases List.append_eq_append_iff.mp hsplit with ⟨a, rfl, ha⟩ | ⟨a, ha, rfl⟩
  · cases a with
    | nil => exact (List.append_nil _).symm
    | cons t a =>
      obtain rfl : ending = t := (List.cons.inj ha).1
      exact absurd hending (hused ending (by simp))
  · rcases List.eq_nil_or_concat a with rfl | ⟨a, t, rfl⟩
    · rw [ha, List.append_nil]
    · rw [List.concat_eq_append, ← List.append_assoc] at ha
      obtain rfl : closing = t := List.head_eq_of_cons_eq (List.append_inj' ha rfl).2
      exact absurd (hrest closing (by simp)) hclosing

end Embedded

/-- The text, put in parentheses, is read as the arguments of a call. -/
structure IsArguments (text : String) (read : Grammar.Arguments) : Prop where
  group : IsGroup text
  noReturn : '\r' ∉ text.toList
  reads : readArguments? ("(" ++ text ++ ")") = some read

section
variable {text : String} {read : Grammar.Arguments} {inner : List Lexeme} {opening closing ending : Lexeme}

/-- In parentheses of their own the arguments are read up to the closing one. -/
theorem IsArguments.exists_arguments (h : IsArguments text read)
    (hscan : scan (grouped text) = some (opening :: inner ++ [closing, ending]))
    (hopening : opening.kind = .symbol "(") (hclosing : closing.kind = .symbol ")")
    (hending : ending.kind = .lineEnd) :
    ∃ depth last, (grammarAt (readField (grouped text).length) depth).1.arguments
      (grammarAt (readField (grouped text).length) depth).2 opening.start
      ⟨inner ++ [closing, ending], opening.stop⟩ = some (read, ⟨[ending], last⟩) := by
  have hchars : ("(" ++ text ++ ")").toList = grouped text := by simp [grouped]
  have hread := h.reads
  unfold readArguments? at hread
  rw [hchars] at hread
  obtain ⟨all, hall, hread⟩ := Option.bind_eq_some_iff.mp hread
  obtain rfl := Option.some.inj (hscan.symm.trans hall)
  obtain ⟨⟨found, ⟨left, last⟩⟩, hall, hend⟩ := Option.bind_eq_some_iff.mp hread
  obtain ⟨hleft, rfl⟩ : atEnd ⟨left, last⟩ ∧ found = read := by
    have hend : (if atEnd ⟨left, last⟩ then some found else none) = some read := hend
    split at hend
    · exact ⟨‹_›, Option.some.inj hend⟩
    · cases hend
  unfold readAll? at hall
  generalize (opening :: inner ++ [closing, ending]).length + 1 = depth at hall
  dsimp only at hall
  rw [bind_eq (here_eq _), List.cons_append, bind_eq (symbol_eq hopening _ _)] at hall
  obtain ⟨hg, hp⟩ := follows_grammarAt (readField (grouped text).length) depth depth
  obtain ⟨used, hused, hpassage, -⟩ := follows_arguments hg hp _ _ _ _ trivial hall
  obtain rfl : inner ++ [closing] = used := by
    refine eq_of_lineEnd hused (by simp [hclosing]) hending hpassage.inLine fun t ht => ?_
    exact of_decide_eq_true (List.all_eq_true.mp hleft t ht)
  obtain rfl : [ending] = left := List.append_cancel_left
    (((List.append_assoc inner [closing] [ending]).trans hused : _ ++ [ending] = _ ++ left))
  exact ⟨depth, last, hall⟩

/-- Arguments in parentheses are passed outside of all brackets, and read behind the opening one
whatever stands behind them. -/
theorem IsArguments.exists_passesAs (h : IsArguments text read) :
    ∃ opening used, opening.kind = .symbol "(" ∧ PassesAs [] (grouped text) (opening :: used) ∧
      Trails (opening :: used) ∧ ∀ n depth start last us tail, (grouped text).length ≤ n → us.length ≤ depth →
        Alike us used →
        ∃ found last', (grammarAt (readField n) depth).1.arguments (grammarAt (readField n) depth).2
            start ⟨us ++ tail, last⟩ = some (found, ⟨tail, last'⟩) ∧ found.unplaced = read.unplaced := by
  obtain ⟨inner, fresh, hscan, hnest, hpasses⟩ := h.group.exists_passes h.noReturn
  have hbetween : nestAll? ([] ++ [")"]) inner = some [")"] := hpasses.nestAll?_eq
  generalize hopening : (⟨.symbol "(", 0, 1⟩ : Lexeme) = opening at hscan
  generalize hclosing : (⟨.symbol ")", text.length + 1, text.length + 2⟩ : Lexeme) = closing at hscan
  generalize hending : (⟨.lineEnd, text.length + 2, text.length + 2⟩ : Lexeme) = ending at hscan
  have hopens : opening.kind = .symbol "(" := hopening ▸ rfl
  have hcloses : closing.kind = .symbol ")" := hclosing ▸ rfl
  obtain ⟨depth₀, last₀, hread⟩ := h.exists_arguments hscan hopens hcloses (hending ▸ rfl)
  refine ⟨opening, inner ++ [closing], hopens,
    passesAs_grouped hpasses nofun hnest (by decide) hbetween hopens hcloses,
    .of_closes (.inl hcloses) (opening :: inner), ?_⟩
  intro n depth start last us tail hn hdepth halike
  have hlength : (inner ++ [closing]).length = us.length := by
    simpa using (congrArg List.length halike).symm
  have hused : inner ++ [closing, ending] = inner ++ [closing] ++ [ending] := by simp
  -- the arguments are read as deep as there are lexemes, and then among deeper texts
  obtain ⟨hg, hp⟩ := follows_grammarAt (readField (grouped text).length) depth₀ depth
  obtain ⟨used, hused', -, hdeep⟩ := follows_arguments hg hp _ _ _ _ trivial hread
  obtain rfl : inner ++ [closing] = used := List.append_cancel_right (hused.symm.trans hused')
  have hdeep := hdeep (by
    show 1 + (inner ++ [closing]).length + 0 ≤ depth + 1
    omega)
  obtain ⟨hg, hp⟩ := mirrors_grammarAt (fieldsAlike_readField hn) depth
  obtain ⟨used, hused', -, hseals⟩ := seals_arguments hg hp _ start _ _ _ hdeep
  obtain rfl : inner ++ [closing] = used := List.append_cancel_right (hused.symm.trans hused')
  obtain ⟨final, last', hfinal, hsame⟩ := hseals ⟨us ++ tail, last⟩ us tail rfl halike.symm
  exact ⟨final, last', hfinal, hsame.symm⟩

end

end ViewTree
