import ViewTree.Proofs.Chunks.Productions
import ViewTree.Proofs.Coverage
import ViewTree.Proofs.Totality

/-!
What the header of a section says about its component. A header is found in the characters of a
line, a component in the tokens of a section: a section with a header starts with its two words
(`Section.exists_words`), and so does the first chunk, unless the name starts another one
(`Chunk.exists_first`). Main statement: the first component of the section is reported with the
header's kind and name (`Section.reports_ofText`); only where the name has a meaning of its own and
the component cannot be read is the name missing.
-/
namespace ViewTree
open Lexer

namespace Lexer

/-- The first character of a name starts a word and nothing else. -/
theorem startsWord {c : Char} (hc : c.isAlpha ∨ c = '_') : isSkipped c = false ∧ c ≠ '#' ∧
    (c ≠ '"' ∧ c ≠ '\'') ∧ (Text.isDigit c = false ∧ c ≠ '.') ∧ (Text.isLetter c ∨ c = '_') := by
  have hsmall : c.toNat < 128 := by
    rcases hc with hc | rfl
    · exact Embedded.toNat_lt_of_isAlpha hc
    · decide
  have hall : ∀ n < 128, (Char.ofNat n).isAlpha ∨ Char.ofNat n = '_' →
      isSkipped (Char.ofNat n) = false ∧ Char.ofNat n ≠ '#' ∧
        (Char.ofNat n ≠ '"' ∧ Char.ofNat n ≠ '\'') ∧
          (Text.isDigit (Char.ofNat n) = false ∧ Char.ofNat n ≠ '.') ∧
            (Text.isLetter (Char.ofNat n) ∨ Char.ofNat n = '_') := by decide
  have hchar := hall c.toNat hsmall
  rw [Char.ofNat_toNat] at hchar
  exact hchar hc

def endsWord (c : Char) : Prop := Header.isGap c ∨ c = '(' ∨ c = '\x7b'

theorem other_of_endsWord {c : Char} (h : endsWord c) :
    Text.isWordChar c = false ∧ c ≠ '"' ∧ c ≠ '\'' := by
  have hcases : (c = ' ' ∨ c = '\t') ∨ c = '(' ∨ c = '\x7b' := by
    simpa [endsWord, Header.isGap] using h
  rcases hcases with (rfl | rfl) | rfl | rfl <;> decide

theorem step_word {c : Char} {tail behind : List Char} (hc : c.isAlpha ∨ c = '_')
    (htail : ∀ d ∈ tail, Text.isWordChar d) (hbehind : ∀ d ∈ behind.head?, endsWord d) :
    step c (tail ++ behind) = .ok (some (.ofWord (String.ofList (c :: tail))), tail.length) := by
  obtain ⟨hskipped, hcomment, ⟨hdouble, hsingle⟩, ⟨hdigit, hdot⟩, hletter⟩ := startsWord hc
  have hword : (tail ++ behind).takeWhile Text.isWordChar = tail := by
    rw [List.takeWhile_append_of_pos htail]
    cases behind with
    | nil => rw [List.takeWhile_nil, List.append_nil]
    | cons d behind =>
      have hd := (other_of_endsWord (hbehind d rfl)).1
      rw [List.takeWhile_cons_of_neg (by simp [hd]), List.append_nil]
  have hmark : behind.head?.filter (fun q => (q = '"' || q = '\'') && isStringMark (c :: tail)) =
      none := by
    refine Option.filter_eq_none_iff.mpr fun d hd => ?_
    obtain ⟨-, hdouble, hsingle⟩ := other_of_endsWord (hbehind d hd)
    simp [hdouble, hsingle]
  unfold step
  rw [if_neg (Bool.eq_false_iff.mp hskipped), if_neg hcomment, if_neg (by simp [hdouble, hsingle]),
    if_neg (by simp [hdigit, hdot]), if_pos (by simpa using hletter)]
  dsimp only
  rw [hword, List.drop_left, hmark]

/-- A word is one token in front of the others. -/
theorem run_word {c : Char} {tail behind : List Char} (hc : c.isAlpha ∨ c = '_')
    (htail : ∀ d ∈ tail, Text.isWordChar d) (hbehind : ∀ d ∈ behind.head?, endsWord d)
    {p : Position} {ts : Tokens} (h : run p (c :: (tail ++ behind)) = .ok ts) :
    ∃ t later q, ts.items = t :: later ∧ t.kind = .ofWord (String.ofList (c :: tail)) ∧
      t.text = String.ofList (c :: tail) ∧ run q behind = .ok ⟨later, ts.eof⟩ := by
  rw [run_ok (step_word hc htail hbehind), List.take_left, List.drop_left] at h
  cases hrun : run (p.after (c :: tail)) behind with
  | error e =>
    rw [hrun] at h
    nomatch h
  | ok more =>
    rw [hrun] at h
    obtain rfl := Except.ok.inj h
    exact ⟨_, more.items, _, rfl, rfl, rfl, hrun⟩

end Lexer

namespace Header

/-- The text starts with the header: its word, a gap, its name, and a gap or a bracket behind. -/
inductive Stands : Header → List Char → Prop
  | intro {kind : ComponentKind} {gap tail behind : List Char} {c : Char} (hgap : ∀ d ∈ gap, isGap d)
      (hsome : gap ≠ []) (hc : c.isAlpha ∨ c = '_') (htail : ∀ d ∈ tail, Text.isWordChar d)
      (hbehind : ∀ d ∈ behind.head?, endsWord d) :
      Stands ⟨kind, String.ofList (c :: tail)⟩ (kind.word.toList ++ (gap ++ c :: (tail ++ behind)))

/-- The first two tokens of a text that starts with a header are its words. -/
theorem Stands.exists_words {header : Header} {cs : List Char} (hcs : header.Stands cs)
    {p : Position} {ts : Tokens} (h : run p cs = .ok ts) :
    ∃ t u later, ts.items = t :: u :: later ∧ ComponentKind.ofToken? t.kind = some header.kind ∧
      u.kind = .ofWord header.name ∧ u.text = header.name := by
  obtain ⟨hgap, hsome, hc, htail, hbehind⟩ := hcs
  rename_i kind gap tail behind c
  have hfirst : ∃ t later q, ts.items = t :: later ∧ t.kind = .ofWord kind.word ∧
      run q (gap ++ c :: (tail ++ behind)) = .ok ⟨later, ts.eof⟩ := by
    have hends : ∀ d ∈ (gap ++ c :: (tail ++ behind)).head?, endsWord d := by
      obtain ⟨g, gap, rfl⟩ := List.exists_cons_of_ne_nil hsome
      rintro d ⟨⟩
      exact .inl (hgap g List.mem_cons_self)
    cases kind with
    | view =>
      have h : run p ('v' :: (['i', 'e', 'w'] ++ (gap ++ c :: (tail ++ behind)))) = .ok ts := h
      obtain ⟨t, later, q, hitems, hkind, -, hrun⟩ :=
        run_word (by decide) (List.all_eq_true.mp (by decide)) hends h
      exact ⟨t, later, q, hitems, hkind, hrun⟩
    | template =>
      have h : run p ('t' :: (['e', 'm', 'p', 'l', 'a', 't', 'e'] ++ (gap ++ c :: (tail ++ behind)))) =
        .ok ts := h
      obtain ⟨t, later, q, hitems, hkind, -, hrun⟩ :=
        run_word (by decide) (List.all_eq_true.mp (by decide)) hends h
      exact ⟨t, later, q, hitems, hkind, hrun⟩
  obtain ⟨t, later, q, hitems, hkind, hrun⟩ := hfirst
  have hskipped : ∀ d ∈ gap, isSkipped d := by
    intro d hd
    have hblank : d = ' ' ∨ d = '\t' := by simpa [Header.isGap] using hgap d hd
    rcases hblank with rfl | rfl <;> decide
  rw [run_append_blanks hskipped] at hrun
  obtain ⟨u, more, _, hmore, hname, htext, -⟩ := run_word hc htail hbehind hrun
  refine ⟨t, u, more, by rw [hitems, ← hmore], ?_, hname, htext⟩
  rw [hkind]
  cases kind <;> rfl

theorem eq_append_of_dropWord? {word : String} {cs rest : List Char}
    (h : dropWord? word cs = some rest) : cs = word.toList ++ rest := by
  unfold dropWord? at h
  split at h
  · next hprefix =>
    obtain ⟨more, rfl⟩ := List.isPrefixOf_iff_prefix.mp hprefix
    have hdrop : (word.toList ++ more).drop word.toList.length = rest := Option.some.inj h
    rw [← hdrop, List.drop_left]
  · nomatch h

theorem stands_of_nameOf? (kind : ComponentKind) {cs : List Char} {name : String}
    (h : nameOf? cs = some name) : Stands ⟨kind, name⟩ (kind.word.toList ++ cs) := by
  unfold nameOf? at h
  split at h
  · next g gap c rest hgap hrest =>
    split at h
    · next hc =>
      dsimp only at h
      split at h
      · next b more hbehind =>
        split at h
        · next hb =>
          obtain rfl := Option.some.inj h
          have hsplit := List.takeWhile_append_dropWhile (p := isGap) (l := cs)
          have hword := Mark.take_append_drop_takeWhile Text.isWordChar rest
          rw [hgap, hrest, ← hword] at hsplit
          rw [← hsplit]
          refine .intro ?_ (List.cons_ne_nil g gap) (by simpa using hc) ?_ fun d hd => ?_
          · exact fun d hd => List.all_eq_true.mp List.all_takeWhile d (hgap ▸ hd)
          · exact List.all_eq_true.mp List.all_takeWhile
          · obtain ⟨later, hlater⟩ := List.head?_eq_some_iff.mp hd
            rw [hlater, List.dropWhile_cons] at hbehind
            split at hbehind
            · next hd => exact .inl hd
            · obtain rfl := (List.cons.inj hbehind).1
              exact .inr (by simpa using hb)
        · cases h
      · cases h
    · cases h
  · cases h

theorem stands_of_read? {cs : List Char} {header : Header} (h : read? cs = some header) :
    header.Stands cs := by
  unfold read? at h
  split at h
  · next rest hview =>
    obtain ⟨name, hname, rfl⟩ := Option.map_eq_some_iff.mp h
    exact eq_append_of_dropWord? hview ▸ stands_of_nameOf? .view hname
  · split at h
    · next rest htemplate =>
      obtain ⟨name, hname, rfl⟩ := Option.map_eq_some_iff.mp h
      exact eq_append_of_dropWord? htemplate ▸ stands_of_nameOf? .template hname
    · nomatch h

theorem read?_of_mem_findFrom {offset : Nat} {fresh : Bool} {cs : List Char} {start : Nat}
    {header : Header} (h : (start, header) ∈ findFrom offset fresh cs) :
    ∃ n, start = offset + n ∧ read? (cs.drop n) = some header := by
  induction cs generalizing offset fresh with
  | nil => cases h
  | cons c cs ih =>
    have hmore (h : (start, header) ∈ findFrom (offset + 1) (c = '\n') cs) :
        ∃ n, start = offset + n ∧ read? ((c :: cs).drop n) = some header := by
      obtain ⟨n, hstart, hread⟩ := ih h
      exact ⟨n + 1, by omega, hread⟩
    rw [findFrom] at h
    split at h
    · next hread =>
      rcases List.mem_cons.mp h with heq | h
      · obtain ⟨rfl, rfl⟩ := Prod.mk.inj heq
        by_cases hfresh : fresh
        · rw [if_pos hfresh] at hread
          exact ⟨0, rfl, hread⟩
        · rw [if_neg hfresh] at hread
          cases hread
      · exact hmore h
    · exact hmore h

end Header

namespace Section

theorem mem_of_some_mem_anchored {headers : List (Nat × Option Header)} {start : Nat}
    {header : Header} (h : (start, some header) ∈ anchored headers) :
    (start, some header) ∈ headers := by
  match headers with
  | [] => nomatch List.mem_singleton.mp h
  | (0, own) :: more => exact h
  | (n + 1, own) :: more => exact (List.mem_cons.mp h).resolve_left nofun

theorem read?_slice {text : List Char} {s : Section} {header : Header} (hs : s ∈ ofText text)
    (hheader : s.header = some header) :
    Header.read? (Text.slice text s.start s.stop) = some header := by
  have hread : Header.read? (text.drop s.start) = some header := by
    rw [ofText_eq] at hs
    have hentry := mem_of_mem_fromStarts hs
    rw [hheader] at hentry
    obtain ⟨⟨start, found⟩, hmem, heq⟩ := List.mem_map.mp (mem_of_some_mem_anchored hentry)
    obtain ⟨rfl, hfound⟩ := Prod.mk.inj heq
    obtain ⟨n, hn, hread⟩ := Header.read?_of_mem_findFrom hmem
    rw [hn, Nat.zero_add, hread, hfound]
  rcases stop_of_mem_ofText hs with ⟨-, hstop⟩ | ⟨hlt, hstop⟩
  · rwa [Text.slice, hstop, ← List.length_drop, List.take_length]
  · have hfeed : '\n' ∈ Text.slice text s.start s.stop := by
      refine List.mem_of_getElem? (i := s.stop - 1 - s.start) ?_
      rw [Text.slice, List.getElem?_take_of_lt (by omega), List.getElem?_drop, ← hstop]
      exact congrArg (text[·]?) (by omega)
    have hsplit : Text.slice text s.start s.stop ++ text.drop s.stop = text.drop s.start := by
      have hdrop : text.drop s.stop = (text.drop s.start).drop (s.stop - s.start) := by
        rw [List.drop_drop, Nat.add_sub_cancel' (Nat.le_of_lt hlt)]
      rw [hdrop, Text.slice, List.take_append_drop]
    rw [← Header.read?_append hfeed, hsplit, hread]

theorem exists_words {text : List Char} {s : Section} {header : Header} (hs : s ∈ ofText text)
    (hheader : s.header = some header) {ts : Tokens} (hlex : lex text s.start s.stop = .ok ts) :
    ∃ t u later, ts.items = t :: u :: later ∧ ComponentKind.ofToken? t.kind = some header.kind ∧
      u.kind = .ofWord header.name ∧ u.text = header.name :=
  (Header.stands_of_read? (read?_slice hs hheader)).exists_words hlex

end Section

namespace Chunk

def Cut.groups (cut : Cut) : List (List Token) := cut.done.reverse ++ [cut.current.reverse]

def StartsComponent (group : List Token) : Prop :=
  ∃ t ∈ group.head?, t.kind.startsComponent

theorem starts_push {cut : Cut} (h : ∀ group ∈ cut.groups.tail, StartsComponent group) (t : Token) :
    ∀ group ∈ (cut.push t).groups.tail, StartsComponent group := by
  obtain ⟨done, current, depth⟩ := cut
  unfold Cut.groups at h ⊢
  unfold Cut.push
  dsimp only at h ⊢
  split
  · next hstarts =>
    have ht : t.kind.startsComponent := (Bool.and_eq_true_iff.mp (Bool.and_eq_true_iff.mp hstarts).1).2
    rw [List.reverse_cons, List.tail_append_of_ne_nil (by simp)]
    exact List.forall_mem_append.mpr ⟨h, List.forall_mem_singleton.mpr ⟨t, rfl, ht⟩⟩
  · cases hdone : done.reverse with
    | nil => exact nofun
    | cons first others =>
      rw [hdone] at h
      obtain ⟨hothers, hcurrent⟩ := List.forall_mem_append.mp h
      obtain ⟨u, hu, hstarts⟩ := hcurrent _ List.mem_cons_self
      refine List.forall_mem_append.mpr ⟨hothers, List.forall_mem_singleton.mpr ⟨u, ?_, hstarts⟩⟩
      rw [List.reverse_cons, Option.mem_def, List.head?_append, Option.mem_def.mp hu, Option.some_or]

/-- Each chunk but the first one starts as a component does. -/
theorem starts_of_mem_tail_split {tokens : Tokens} {chunk : Chunk}
    (h : chunk ∈ (split tokens).tail) : StartsComponent chunk.tokens.items := by
  have hfold (ts : List Token) (cut : Cut) (hcut : ∀ group ∈ cut.groups.tail, StartsComponent group) :
      ∀ group ∈ (ts.foldl Cut.push cut).groups.tail, StartsComponent group := by
    induction ts generalizing cut with
    | nil => exact hcut
    | cons t ts ih => exact ih (cut.push t) (starts_push hcut t)
  have hgroups := hfold tokens.items {} nofun
  unfold split at h
  rw [← List.map_tail] at h
  obtain ⟨group, hgroup, rfl⟩ := List.mem_map.mp h
  refine hgroups group ?_
  unfold Cut.groups
  split at hgroup
  · cases hdone : (tokens.items.foldl Cut.push {}).done.reverse with
    | nil =>
      rw [hdone] at hgroup
      nomatch hgroup
    | cons first others =>
      rw [hdone] at hgroup
      exact List.mem_append_left _ hgroup
  · rwa [List.reverse_cons] at hgroup

/-- The first chunk holds the first two tokens, or the second one starts another chunk. -/
theorem exists_first {t u : Token} {later : List Token} {tokens : Tokens}
    (h : tokens.items = t :: u :: later) : ∃ chunk more, split tokens = chunk :: more ∧
      ((∃ own, chunk.tokens.items = t :: u :: own) ∨
        chunk.tokens.items = [t] ∧ u.kind.startsComponent) := by
  have hitems := items_split tokens
  rw [h] at hitems
  cases hsplit : split tokens with
  | nil => rw [hsplit] at hitems; nomatch hitems
  | cons chunk more =>
    refine ⟨chunk, more, rfl, ?_⟩
    have hsome := items_ne_nil_of_mem_split (hsplit ▸ List.mem_cons_self : chunk ∈ split tokens)
    rw [hsplit, List.flatMap_cons] at hitems
    match hchunk : chunk.tokens.items with
    | [] => exact absurd hchunk hsome
    | _ :: _ :: own =>
      rw [hchunk, List.cons_append, List.cons_append] at hitems
      obtain ⟨hfirst, hitems⟩ := List.cons.inj hitems
      exact .inl ⟨own, by rw [hfirst, (List.cons.inj hitems).1]⟩
    | [_] =>
      rw [hchunk, List.cons_append, List.nil_append] at hitems
      obtain ⟨hfirst, hmore⟩ := List.cons.inj hitems
      refine .inr ⟨by rw [hfirst], ?_⟩
      cases more with
      | nil => nomatch hmore
      | cons next more =>
        obtain ⟨v, hv, hstarts⟩ := starts_of_mem_tail_split
          (hsplit ▸ List.mem_cons_self : next ∈ (split tokens).tail)
        obtain ⟨own, hown⟩ := List.head?_eq_some_iff.mp hv
        rw [List.flatMap_cons, hown] at hmore
        exact (List.cons.inj hmore).1 ▸ hstarts

end Chunk

/-- The outcome has the kind and the name of the header. Only where the component cannot be read, and
its name is a word with a meaning of its own, the name is missing. -/
structure Outcome.Reports (o : Outcome) (header : Header) : Prop where
  kind : o.kind = some header.kind
  name : o.name = some header.name ∨ o.name = none ∧ TokenKind.ofWord header.name ≠ .identifier ∧
    ∃ e, o.result = .error (.grammar e)

theorem Chunk.kind?_eq {chunk : Chunk} {t : Token} {own : List Token} {kind : ComponentKind}
    (hitems : chunk.tokens.items = t :: own) (hkind : ComponentKind.ofToken? t.kind = some kind) :
    chunk.kind? = some kind := by
  rw [kind?, hitems]
  exact hkind

theorem Outcome.reports_of_ofChunk? {context : Context} {chunk : Chunk} {header : Header}
    {t u : Token} {own : List Token} (hkind : ComponentKind.ofToken? t.kind = some header.kind)
    (hword : u.kind = .ofWord header.name) (hname : u.text = header.name)
    (hitems : chunk.tokens.items = t :: u :: own) (heof : chunk.tokens.eof.kind = .eof) {o : Outcome}
    (h : ofChunk? context chunk = some o) : o.Reports header := by
  have hchunk := Chunk.kind?_eq hitems hkind
  unfold ofChunk? at h
  split at h
  · next component hread =>
    obtain rfl := Option.some.inj h
    obtain ⟨first, second, later, hrest, hfound, hsecond⟩ :=
      Component.exists_words_of_ofTokens heof hread
    obtain ⟨hfirst, hrest⟩ := List.cons.inj (hitems.symm.trans hrest)
    refine ⟨?_, .inl (congrArg some ?_)⟩
    · rw [← hkind, hfirst, hfound]
    · rw [← hname, (List.cons.inj hrest).1, hsecond]
  · next e hread =>
    obtain rfl := Option.some.inj h
    have hfound : chunk.name? = if u.kind = .identifier then some u.text else none := by
      rw [Chunk.name?, hchunk, hitems]
    refine ⟨hchunk, ?_⟩
    by_cases hidentifier : u.kind = .identifier
    · exact .inl (by rw [hfound, if_pos hidentifier, hname])
    · exact .inr ⟨by rw [hfound, if_neg hidentifier], hword ▸ hidentifier, e, rfl⟩
  · nomatch h

/-- A chunk of one word cannot be read. -/
theorem Outcome.reports_of_word {context : Context} {chunk : Chunk} {header : Header} {t : Token}
    (hkind : ComponentKind.ofToken? t.kind = some header.kind)
    (hword : TokenKind.ofWord header.name ≠ .identifier) (hitems : chunk.tokens.items = [t])
    (heof : chunk.tokens.eof.kind = .eof) {o : Outcome} (h : ofChunk? context chunk = some o) :
    o.Reports header := by
  unfold ofChunk? at h
  split at h
  · next component hread =>
    obtain ⟨first, second, later, hrest, -⟩ := Component.exists_words_of_ofTokens heof hread
    nomatch hitems.symm.trans hrest
  · next e hread =>
    obtain rfl := Option.some.inj h
    have hchunk := Chunk.kind?_eq hitems hkind
    exact ⟨hchunk, .inr ⟨by rw [Chunk.name?, hchunk, hitems], hword, e, rfl⟩⟩
  · nomatch h

namespace Section

theorem reports_header {context : Context} {s : Section} {header : Header}
    (hs : s ∈ ofText context.text) (hheader : s.header = some header) {outcomes : List Outcome}
    (h : Outcome.ofSection? context s = some outcomes) :
    ∃ o more, outcomes = o :: more ∧ o.Reports header := by
  unfold Outcome.ofSection? at h
  split at h
  · obtain rfl := Option.some.inj h
    exact ⟨_, [], rfl, by rw [hheader]; rfl, .inl (by rw [hheader]; rfl)⟩
  · next tokens hlex =>
    obtain ⟨t, u, later, hitems, hkind, hword, hname⟩ := exists_words hs hheader hlex
    obtain ⟨chunk, more, hsplit, hfirst⟩ := Chunk.exists_first hitems
    have heof : chunk.tokens.eof.kind = .eof := by
      rw [Chunk.eof_of_mem_split (hsplit ▸ List.mem_cons_self : chunk ∈ Chunk.split tokens)]
      exact (Lexer.eof_of_run hlex).1
    rw [hsplit, List.mapM_cons] at h
    obtain ⟨o, ho, h⟩ := Option.bind_eq_some_iff.mp h
    obtain ⟨others, -, h⟩ := Option.bind_eq_some_iff.mp h
    refine ⟨o, others, (Option.some.inj h).symm, ?_⟩
    rcases hfirst with ⟨own, hown⟩ | ⟨hown, hstarts⟩
    · exact Outcome.reports_of_ofChunk? hkind hword hname hown heof ho
    · refine Outcome.reports_of_word hkind (fun hidentifier => ?_) hown heof ho
      rw [hword, hidentifier] at hstarts
      cases hstarts

/-- The first component of a section with a header is reported as that, and tokens that make up one
component are not cut. -/
theorem reports_ofText (context : Context) :
    (∀ s ∈ ofText context.text, ∀ header ∈ s.header,
      (context.Usable → ∃ outcomes, Outcome.ofSection? context s = some outcomes) ∧
        ∀ outcomes, Outcome.ofSection? context s = some outcomes →
          ∃ o more, outcomes = o :: more ∧ o.Reports header) ∧
    ∀ tokens component, tokens.StartsOnce → Component.ofTokens context tokens = .ok component →
      Chunk.split tokens = [⟨tokens⟩] :=
  ⟨fun _ hs _ hheader => ⟨fun husable => Outcome.exists_ofSection? husable hs,
    fun _ h => reports_header hs hheader h⟩, fun _ _ hstarts h => Chunk.split_of_ofTokens hstarts h⟩

/-- A view with a word for a name and words among its tokens, a view that cannot be named as it is, and
a template that cannot be lexed. -/
def stageText : List Char :=
  ("view match(m) tracked \x7b\n  #[template] Box \x7b view: m.a, b: template \x7d,\n\x7d\n" ++
    "view if(m) \x7b Box \x7d\ntemplate Leaf \x7b 'x\n").toList

theorem reports_stageText :
    (∃ o more, Outcome.ofSection? ⟨stageText, {}⟩ ⟨0, 72, some ⟨.view, "match"⟩⟩ = some (o :: more) ∧
      o.Reports ⟨.view, "match"⟩) ∧
    (∃ o more, Outcome.ofSection? ⟨stageText, {}⟩ ⟨91, 110, some ⟨.template, "Leaf"⟩⟩ =
      some (o :: more) ∧ o.Reports ⟨.template, "Leaf"⟩) ∧
    ∃ tokens component, lex stageText 0 72 = .ok tokens ∧ tokens.StartsOnce ∧
      Component.ofTokens ⟨stageText, {}⟩ tokens = .ok component ∧ Chunk.split tokens = [⟨tokens⟩] := by
  have hspelled : stageText = _ := (Spelled.append .literal .literal).toList_eq
  have hsections : ofText stageText = [⟨0, 72, some ⟨.view, "match"⟩⟩, ⟨72, 91, some ⟨.view, "if"⟩⟩,
      ⟨91, 110, some ⟨.template, "Leaf"⟩⟩] := by
    rw [hspelled]
    decide
  have husable : Context.Usable ⟨stageText, {}⟩ := by
    rw [hspelled]
    exact ⟨by decide +kernel, by decide +kernel, by decide +kernel⟩
  have hread : ∃ tokens, lex stageText 0 72 = .ok tokens ∧
      ((tokens.eof.kind = .eof ∧ ∀ t ∈ tokens.items, t.kind ≠ .eof) ∧
        (tokens.items[1]?.all (·.kind.startsComponent = false) ∧ Chunk.Nested tokens.items)) ∧
      (Component.ofTokens ⟨stageText, {}⟩ tokens).toOption.isSome := by
    rw [hspelled]
    exact exists_tokens (by decide +kernel)
  obtain ⟨hreports, hsplit⟩ := reports_ofText ⟨stageText, {}⟩
  have hreported (s : Section) (header : Header) (hs : s ∈ ofText stageText)
      (hheader : s.header = some header) :
      ∃ o more, Outcome.ofSection? ⟨stageText, {}⟩ s = some (o :: more) ∧ o.Reports header := by
    obtain ⟨hread, hfirst⟩ := hreports s hs header hheader
    obtain ⟨outcomes, houtcomes⟩ := hread husable
    obtain ⟨o, more, rfl, ho⟩ := hfirst outcomes houtcomes
    exact ⟨o, more, houtcomes, ho⟩
  refine ⟨hreported _ _ (by rw [hsections]; decide) rfl,
    hreported _ _ (by rw [hsections]; decide) rfl, ?_⟩
  obtain ⟨tokens, hlex, ⟨⟨heof, hitems⟩, hname, hnested⟩, hsome⟩ := hread
  have hstarts : tokens.StartsOnce := ⟨heof, hitems, fun t ht => by
    rw [Option.mem_def.mp ht] at hname
    simpa using hname, hnested⟩
  cases hcomponent : Component.ofTokens ⟨stageText, {}⟩ tokens with
  | error e => rw [hcomponent] at hsome; nomatch hsome
  | ok component =>
    exact ⟨tokens, component, hlex, hstarts, hcomponent, hsplit tokens component hstarts hcomponent⟩

/-- A view with a word for a name that cannot be read, and one with a word behind an attribute. -/
def matchText : List Char :=
  "view match(model) \x7b\n    Gtk.Label \x7b\n        set_label: ,\n    \x7d,\n\x7d\n".toList
def gaugeText : List Char :=
  "view Gauge(model) \x7b\n    #[root]\n    view.Label,\n\x7d\n".toList

/-- The name of the first is not reported, and the tokens of the second are cut. -/
theorem not_reports_matchText :
    (∃ s ∈ ofText matchText, s.header = some ⟨.view, "match"⟩ ∧
      ∃ o more, Outcome.ofSection? ⟨matchText, {}⟩ s = some (o :: more) ∧ o.name = none) ∧
    ∃ tokens component, lex gaugeText 0 gaugeText.length = .ok tokens ∧
      Component.ofTokens ⟨gaugeText, {}⟩ tokens = .ok component ∧
        (Chunk.split tokens).length = 2 := by
  have hmatch : matchText = _ := Spelled.literal.toList_eq
  have hgauge : gaugeText = _ := Spelled.literal.toList_eq
  have hsections : ofText matchText = [⟨0, 66, some ⟨.view, "match"⟩⟩] := by
    rw [hmatch]
    decide
  have hname : ((Outcome.ofSection? ⟨matchText, {}⟩ ⟨0, 66, some ⟨.view, "match"⟩⟩).map
      (List.map (·.name))) = some [none] := by
    rw [hmatch]
    decide +kernel
  have hcut : ∃ tokens, lex gaugeText 0 gaugeText.length = .ok tokens ∧
      ((Component.ofTokens ⟨gaugeText, {}⟩ tokens).toOption.isSome ∧
        (Chunk.split tokens).length = 2) := by
    rw [hgauge]
    exact exists_tokens (by decide +kernel)
  refine ⟨⟨_, by rw [hsections]; exact List.mem_cons_self, rfl, ?_⟩, ?_⟩
  · obtain ⟨outcomes, houtcomes, hnames⟩ := Option.map_eq_some_iff.mp hname
    obtain ⟨o, more, rfl, ho, -⟩ := List.map_eq_cons_iff.mp hnames
    exact ⟨o, more, houtcomes, ho⟩
  · obtain ⟨tokens, hlex, hsome, hlength⟩ := hcut
    cases hcomponent : Component.ofTokens ⟨gaugeText, {}⟩ tokens with
    | error e => rw [hcomponent] at hsome; nomatch hsome
    | ok component => exact ⟨tokens, component, hlex, hcomponent, hlength⟩

end Section
end ViewTree
