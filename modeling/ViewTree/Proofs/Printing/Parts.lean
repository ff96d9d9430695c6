import ViewTree.Proofs.Elements.Slices
import ViewTree.Proofs.Elements.Spans
import ViewTree.Proofs.Pasting.Chaining
import ViewTree.Proofs.Printing.Consuming

/-!
Parts of printed texts. A part is found as the same kinds of lexemes wherever it stands, in front of any
character that may stand behind it, and closes the brackets that it opens. Main statements: parts can be
put behind each other (`Scans.append`) and between brackets (`Scans.bracketed`).
-/
namespace ViewTree.Embedded
open Text

/-- From an offset and text a scan gets to another offset and the rest of the text, past the lexemes
between them, however many brackets they open. -/
inductive Lexes : Nat → List Char → List Lexeme → Nat → List Char → Prop where
  | done (o : Nat) (s : List Char) : Lexes o s [] o s
  | blank {o cs ts o' s} (h : Lexes (o + 1) cs ts o' s) : Lexes o (' ' :: cs) ts o' s
  | lexeme {o c rest kind n ts o' s} (hc : startsLexeme c)
      (hlexeme : lexeme? o (c :: rest) = some (kind, n))
      (h : Lexes (o + max 1 n) (rest.drop (n - 1)) ts o' s) :
      Lexes o (c :: rest) (⟨kind, o, o + n⟩ :: ts) o' s

theorem Lexes.trans {o p q : Nat} {a s r : List Char} {ts us : List Lexeme} (h : Lexes o a ts p s)
    (hrest : Lexes p s us q r) : Lexes o a (ts ++ us) q r := by
  induction h with
  | done => exact hrest
  | blank _ ih => exact .blank (ih hrest)
  | lexeme hc hlexeme _ ih => exact .lexeme hc hlexeme (ih hrest)

theorem Lexes.passes {o p : Nat} {a s : List Char} {ts : List Lexeme} (h : Lexes o a ts p s)
    {pending still : List String} (hnest : nestAll? pending ts = some still) :
    Passes ⟨o, pending, false⟩ a ts ⟨p, still, false⟩ s := by
  induction h generalizing pending with
  | done o s =>
    obtain rfl := Option.some.inj hnest
    exact .done _ s
  | blank _ ih => exact .blank (.inl (.inl rfl)) (ih hnest)
  | lexeme hc hlexeme _ ih =>
    obtain ⟨next, hnext, hrest⟩ := Option.bind_eq_some_iff.mp hnest
    exact .lexeme hc hlexeme hnext (ih hrest)

/-- How many brackets are open behind a lexeme. -/
def depthBehind (depth : Nat) : LexemeKind → Nat
  | .symbol s => if (closerOf? s).isSome then depth + 1 else if isCloser s then depth - 1 else depth
  | _ => depth

/-- The most brackets that are open at a time. -/
def deepest (depth : Nat) : List LexemeKind → Nat
  | [] => depth
  | k :: ks => max depth (deepest (depthBehind depth k) ks)

/-- The lexemes close the brackets that they open, and no others. -/
def Matched (kinds : List LexemeKind) : Prop := ∀ pending more,
  deepest pending.length (kinds ++ more) ≤ maxNesting →
    kinds.foldlM nest? pending = some pending ∧ deepest pending.length more ≤ maxNesting

section
variable {ks ls : List LexemeKind} {k : LexemeKind}

theorem matched_nil : Matched [] := fun _ _ h => ⟨rfl, h⟩

theorem Matched.append (hks : Matched ks) (hls : Matched ls) : Matched (ks ++ ls) := by
  intro pending more h
  rw [List.append_assoc] at h
  obtain ⟨hfirst, h⟩ := hks pending _ h
  obtain ⟨hsecond, h⟩ := hls pending _ h
  refine ⟨?_, h⟩
  rw [List.foldlM_append, hfirst]
  exact hsecond

theorem depthBehind_of_isFlat (hk : isFlat k) (depth : Nat) : depthBehind depth k = depth := by
  cases k with
  | symbol s =>
    obtain ⟨hopens, hcloses⟩ : closerOf? s = none ∧ isCloser s = false := by simpa [isFlat] using hk
    simp [depthBehind, hopens, hcloses]
  | _ => rfl

theorem matched_flat (hk : isFlat k) : Matched [k] := by
  intro pending more h
  rw [List.singleton_append, deepest, depthBehind_of_isFlat hk] at h
  refine ⟨?_, by omega⟩
  rw [List.foldlM_cons, nest?_flat hk]
  rfl

theorem deepest_concat_flat (hk : isFlat k) (depth : Nat) (ks : List LexemeKind) :
    deepest depth (ks ++ [k]) = deepest depth ks := by
  induction ks generalizing depth with
  | nil => simp [deepest, depthBehind_of_isFlat hk]
  | cons l ks ih => simp only [List.cons_append, deepest, ih]

/-- Lexemes between brackets. -/
theorem Matched.bracketed {opener closer : String} (hopens : closerOf? opener = some closer)
    (hplain : closerOf? closer = none) (hcloses : isCloser closer) (h : Matched ks) :
    Matched (.symbol opener :: ks ++ [.symbol closer]) := by
  intro pending more hdeep
  have hopen : depthBehind pending.length (.symbol opener) = pending.length + 1 := by
    simp [depthBehind, hopens]
  rw [List.append_assoc, List.cons_append, deepest, hopen] at hdeep
  have hinside : deepest (closer :: pending).length (ks ++ ([.symbol closer] ++ more)) ≤ maxNesting :=
    Nat.le_trans (Nat.le_max_right _ _) hdeep
  obtain ⟨hfold, hend⟩ := h (closer :: pending) _ hinside
  -- the closing bracket is the one that is awaited, since all inside is matched
  have hclose : depthBehind (closer :: pending).length (.symbol closer) = pending.length := by
    simp [depthBehind, hplain, hcloses]
  rw [List.singleton_append, deepest, hclose, List.length_cons] at hend
  have hfits : pending.length < maxNesting := by omega
  refine ⟨?_, by omega⟩
  have hfirst : nest? pending (.symbol opener) = some (closer :: pending) := by
    unfold nest?
    dsimp only
    rw [hopens]
    exact if_pos hfits
  have hlast : nest? (closer :: pending) (.symbol closer) = some pending := by
    unfold nest?
    dsimp only
    rw [hplain]
    simp [hcloses]
  rw [List.cons_append, List.foldlM_cons, hfirst, Option.bind_eq_bind, Option.bind_some,
    List.foldlM_append, hfold, Option.bind_eq_bind, Option.bind_some, List.foldlM_cons, hlast]
  rfl

end

theorem nestAll?_of_kinds (pending : List String) (ts : List Lexeme) :
    nestAll? pending ts = (kindsOf ts).foldlM nest? pending := by
  induction ts generalizing pending with
  | nil => rfl
  | cons t ts ih =>
    have hkind : t.kind.unplaced.unplaced = t.kind.unplaced := by cases t.kind <;> rfl
    unfold nestAll?
    rw [List.foldlM_cons, kindsOf, List.map_cons, List.foldlM_cons, nest?_congr hkind]
    cases nest? pending t.kind with
    | none => rfl
    | some still => exact ih still

/-- In front of such a character the text is found as lexemes of these kinds. -/
def Lexed (ends : Char → Bool) (text : List Char) (kinds : List LexemeKind) : Prop :=
  ∀ offset c rest, ends c → ∃ ts stop, Lexes offset (text ++ c :: rest) ts stop (c :: rest) ∧
    kindsOf ts = kinds

def StartsWith (P : Char → Bool) (text : List Char) : Prop := text.head?.any P = true

abbrev anyChar (_ : Char) : Bool := true

section
variable {ends ends' : Char → Bool} {a b : List Char} {ks ls : List LexemeKind}

theorem StartsWith.imp {P Q : Char → Bool} (h : StartsWith P a) (hPQ : ∀ c, P c → Q c) : StartsWith Q a := by
  obtain ⟨c, hc, hP⟩ := (Option.any_eq_true _ _).mp h
  exact (Option.any_eq_true _ _).mpr ⟨c, hc, hPQ c hP⟩

theorem StartsWith.append {P : Char → Bool} (h : StartsWith P a) : StartsWith P (a ++ b) := by
  cases a with
  | nil => cases h
  | cons c a => exact h

theorem Lexed.mono (h : Lexed ends a ks) (hends : ∀ c, ends' c → ends c) : Lexed ends' a ks :=
  fun offset c rest hc => h offset c rest (hends c hc)

theorem Lexed.append (ha : Lexed ends a ks) (hb : Lexed ends' b ls) (hstart : StartsWith ends b) :
    Lexed ends' (a ++ b) (ks ++ ls) := by
  intro offset c rest hc
  cases b with
  | nil => cases hstart
  | cons d b =>
    obtain ⟨ts, middle, hts, rfl⟩ := ha offset d (b ++ c :: rest) hstart
    obtain ⟨us, stop, hus, rfl⟩ := hb middle c rest hc
    refine ⟨ts ++ us, stop, ?_, List.map_append⟩
    rw [List.append_assoc]
    exact hts.trans hus

/-- A text behind one that any character may follow. -/
theorem Lexed.append_any (ha : Lexed anyChar a ks) (hb : Lexed ends b ls) :
    Lexed ends (a ++ b) (ks ++ ls) := by
  intro offset c rest hc
  obtain ⟨d, more, hmore⟩ : ∃ d more, b ++ c :: rest = d :: more := by
    cases b with
    | nil => exact ⟨c, rest, rfl⟩
    | cons d b => exact ⟨d, b ++ c :: rest, rfl⟩
  obtain ⟨ts, middle, hts, rfl⟩ := ha offset d more rfl
  obtain ⟨us, stop, hus, rfl⟩ := hb middle c rest hc
  rw [← hmore] at hts
  refine ⟨ts ++ us, stop, ?_, List.map_append⟩
  rw [List.append_assoc]
  exact hts.trans hus

theorem lexed_nil : Lexed ends [] [] := fun offset _ _ _ => ⟨[], offset, .done _ _, rfl⟩

theorem lexed_blank : Lexed anyChar [' '] [] :=
  fun offset _ _ _ => ⟨[], offset + 1, .blank (.done _ _), rfl⟩

/-- A text that is one lexeme. -/
theorem lexed_lexeme {d : Char} {kind : LexemeKind} (hd : startsLexeme d)
    (h : ∀ offset c rest, ends c → ∃ found, lexeme? offset (d :: a ++ c :: rest) =
      some (found, a.length + 1) ∧ found.unplaced = kind) :
    Lexed ends (d :: a) [kind] := by
  intro offset c rest hc
  obtain ⟨found, hfound, rfl⟩ := h offset c rest hc
  have hbehind : Lexes (offset + max 1 (a.length + 1)) ((a ++ c :: rest).drop (a.length + 1 - 1)) []
      (offset + (a.length + 1)) (c :: rest) := by
    rw [Nat.max_eq_right (by omega), Nat.add_sub_cancel, List.drop_left]
    exact .done _ _
  exact ⟨_, _, .lexeme hd hfound hbehind, rfl⟩

end

/-- A part of a text on one line, which is found as lexemes of these kinds. -/
structure Scans (ends : Char → Bool) (text : List Char) (kinds : List LexemeKind) : Prop where
  lexed : Lexed ends text kinds
  matched : Matched kinds
  inline : '\n' ∉ text

section
variable {ends ends' : Char → Bool} {a b : List Char} {ks ls : List LexemeKind}

theorem Scans.mono {e : Char → Bool} (h : Scans ends a ks) (hends : ∀ c, e c → ends c) : Scans e a ks :=
  ⟨h.lexed.mono hends, h.matched, h.inline⟩

theorem Scans.append (ha : Scans ends a ks) (hb : Scans ends' b ls) (hstart : StartsWith ends b) :
    Scans ends' (a ++ b) (ks ++ ls) :=
  ⟨ha.lexed.append hb.lexed hstart, ha.matched.append hb.matched, by simpa using ⟨ha.inline, hb.inline⟩⟩

theorem Scans.append_any (ha : Scans anyChar a ks) (hb : Scans ends b ls) :
    Scans ends (a ++ b) (ks ++ ls) :=
  ⟨ha.lexed.append_any hb.lexed, ha.matched.append hb.matched, by simpa using ⟨ha.inline, hb.inline⟩⟩

/-- A text that is one lexeme, and no bracket. -/
theorem scans_lexeme {d : Char} {kind : LexemeKind} (hd : startsLexeme d) (hkind : isFlat kind)
    (hline : '\n' ∉ a) (h : ∀ offset c rest, ends c → ∃ found, lexeme? offset (d :: a ++ c :: rest) =
      some (found, a.length + 1) ∧ found.unplaced = kind) :
    Scans ends (d :: a) [kind] :=
  ⟨lexed_lexeme hd h, matched_flat hkind, by simpa using ⟨(ne_of_startsLexeme hd).1.symm, hline⟩⟩

theorem scans_nil : Scans ends [] [] := ⟨lexed_nil, matched_nil, nofun⟩

theorem scans_blank : Scans anyChar [' '] [] := ⟨lexed_blank, matched_nil, by decide⟩

/-- A text with a blank in front and one behind. -/
theorem Scans.spaced (h : Scans ends a ks) (hends : ends ' ') : Scans anyChar (' ' :: a ++ [' ']) ks := by
  have hall := (scans_blank.append_any h).append scans_blank hends
  rwa [List.append_nil] at hall

theorem Scans.blank (h : Scans ends a ks) (hends : ends ' ') : Scans anyChar (a ++ [' ']) ks := by
  have hall := h.append scans_blank hends
  rwa [List.append_nil] at hall

theorem Scans.behind_blank (h : Scans ends a ks) : Scans ends (' ' :: a) ks := scans_blank.append_any h

/-- A text between brackets. -/
theorem Scans.bracketed {opening closing : Char} {opener closer : String} (h : Scans ends a ks)
    (hopening : startsLexeme opening) (hclosing : startsLexeme closing)
    (hopener : ∀ offset rest, lexeme? offset (opening :: rest) = some (.symbol opener, 1))
    (hcloser : ∀ offset rest, lexeme? offset (closing :: rest) = some (.symbol closer, 1))
    (hopens : closerOf? opener = some closer) (hplain : closerOf? closer = none)
    (hcloses : isCloser closer) (hends : ends closing) :
    Scans anyChar (opening :: a ++ [closing]) (.symbol opener :: ks ++ [.symbol closer]) := by
  have hfirst : Lexed anyChar [opening] [.symbol opener] :=
    lexed_lexeme hopening fun offset c rest _ => ⟨_, hopener offset (c :: rest), rfl⟩
  have hlast : Lexed anyChar [closing] [.symbol closer] :=
    lexed_lexeme hclosing fun offset c rest _ => ⟨_, hcloser offset (c :: rest), rfl⟩
  refine ⟨(hfirst.append_any h.lexed).append hlast hends, h.matched.bracketed hopens hplain hcloses, ?_⟩
  simpa using ⟨(ne_of_startsLexeme hopening).1.symm, h.inline, (ne_of_startsLexeme hclosing).1.symm⟩

theorem Scans.parentheses (h : Scans ends a ks) (hends : ends ')') :
    Scans anyChar ('(' :: a ++ [')']) (.symbol "(" :: ks ++ [.symbol ")"]) :=
  h.bracketed (by decide) (by decide) (fun _ _ => rfl) (fun _ _ => rfl) rfl rfl rfl hends

theorem Scans.squares (h : Scans ends a ks) (hends : ends ']') :
    Scans anyChar ('[' :: a ++ [']']) (.symbol "[" :: ks ++ [.symbol "]"]) :=
  h.bracketed (by decide) (by decide) (fun _ _ => rfl) (fun _ _ => rfl) rfl rfl rfl hends

theorem Scans.braces (h : Scans ends a ks) (hends : ends '\x7d') :
    Scans anyChar ('\x7b' :: a ++ ['\x7d']) (.symbol "\x7b" :: ks ++ [.symbol "\x7d"]) :=
  h.bracketed (by decide) (by decide) (fun _ _ => rfl) (fun _ _ => rfl) rfl rfl rfl hends

end

def endsPart (c : Char) : Bool :=
  c = ' ' || c = ',' || c = ':' || c = ')' || c = ']' || c = '\x7d' || c = '(' || c = '['

def startsPart (c : Char) : Bool :=
  isWordByte c || c = '\'' || c = '"' || c = '(' || c = '[' || c = '\x7b' || c = '-' || c = '+' || c = '~' ||
    c = '.'

end ViewTree.Embedded
