import ViewTree.Proofs.Capture.Ending
import ViewTree.Proofs.Chunks.Cutting
import ViewTree.Proofs.Relocation.Sections
import ViewTree.ViewFile

/-!
Where values of properties stand in a view file. Main statements: the tokens from a value on are its
own, then the delimiter, then others (`Occurrence.exists_splits`), and they are in one chunk if no word
of the value is taken for the start of another component (`Occurrence.Splits.exists_chunk`).
-/
namespace ViewTree
open Lexer

/-- The line and column of the character at an offset, both counted from one. -/
def placeAt (text : List Char) (offset : Nat) : Place :=
  ((⟨0, 1, 1⟩ : Position).after (text.take offset)).place

theorem line_after (p : Position) (cs : List Char) : (p.after cs).line = p.line + cs.count '\n' := by
  induction cs generalizing p with
  | nil => rfl
  | cons c cs ih =>
    rw [Position.after_cons, ih, List.count_cons, Position.next]
    by_cases hc : c = '\n'
    · simp [hc]
      omega
    · simp [hc]

/-- A piece of text that starts a line starts at the place where walking through the text ends. -/
theorem ofOffset_eq {text : List Char} {start : Nat}
    (h : start = 0 ∨ text[start - 1]? = some '\n') :
    Position.ofOffset text start = (⟨0, 1, 1⟩ : Position).after (text.take start) := by
  rcases h with rfl | h
  · rfl
  cases start with
  | zero => rfl
  | succ n =>
    have hn : text[n]? = some '\n' := h
    have htake : text.take (n + 1) = text.take n ++ ['\n'] := by
      rw [List.take_add_one, hn]
      rfl
    have hlength : n < text.length := (List.getElem?_eq_some_iff.mp hn).1
    rw [Position.ofOffset, htake, Position.after_append, Position.after_cons, Position.after_nil,
      Position.next, if_pos rfl, line_after, Position.offset_after]
    simp
    omega

theorem drop_slice (text : List Char) (start stop k : Nat) :
    (Text.slice text start stop).drop k = Text.slice text (start + k) stop := by
  simp [Text.slice, List.drop_take, Nat.sub_sub]

theorem slice_of_prefix {text value behind : List Char} {start stop : Nat}
    (h : Text.slice text start stop = value ++ behind) :
    Text.slice text start (start + value.length) = value := by
  have hlength : value.length ≤ stop - start := by
    have hle : (Text.slice text start stop).length ≤ stop - start := List.length_take_le ..
    rw [h, List.length_append] at hle
    omega
  have htake := congrArg (List.take value.length) h
  unfold Text.slice at htake ⊢
  rw [List.take_take, List.take_left, Nat.min_eq_left hlength] at htake
  rw [Nat.add_sub_cancel_left, htake]

namespace Header

/-- A header starts a line. -/
theorem start_of_mem_findFrom {offset : Nat} {fresh : Bool} {cs : List Char} {start : Nat}
    {header : Header} (h : (start, header) ∈ findFrom offset fresh cs) :
    (start = offset ∧ fresh) ∨ ∃ n, start = offset + n + 1 ∧ cs[n]? = some '\n' := by
  induction cs generalizing offset fresh with
  | nil => cases h
  | cons c cs ih =>
    have hmore (h : (start, header) ∈ findFrom (offset + 1) (c = '\n') cs) :
        (start = offset ∧ fresh) ∨ ∃ n, start = offset + n + 1 ∧ (c :: cs)[n]? = some '\n' := by
      rcases ih h with ⟨hstart, hc⟩ | ⟨n, hstart, hn⟩
      · exact .inr ⟨0, hstart, congrArg some (of_decide_eq_true hc)⟩
      · exact .inr ⟨n + 1, by omega, hn⟩
    rw [findFrom] at h
    split at h
    · next hread =>
      rcases List.mem_cons.mp h with heq | h
      · obtain ⟨rfl, -⟩ := Prod.mk.inj heq
        by_cases hfresh : fresh
        · exact .inl ⟨rfl, hfresh⟩
        · rw [if_neg hfresh] at hread
          cases hread
      · exact hmore h
    · exact hmore h

end Header

namespace Section

theorem mem_of_mem_fromStarts {stop : Nat} {starts : List (Nat × Option Header)} {s : Section}
    (hs : s ∈ fromStarts stop starts) : (s.start, s.header) ∈ starts := by
  induction starts with
  | nil => nomatch hs
  | cons a starts ih =>
    obtain ⟨here, own⟩ := a
    cases starts with
    | nil =>
      obtain rfl := List.mem_singleton.mp hs
      exact List.mem_cons_self
    | cons b starts =>
      obtain ⟨next, other⟩ := b
      rw [fromStarts] at hs
      rcases List.mem_cons.mp hs with rfl | hs
      · exact List.mem_cons_self
      · exact List.mem_cons_of_mem _ (ih hs)

theorem start_of_mem_anchored {text : List Char} {entry : Nat × Option Header}
    (h : entry ∈ anchored (headerStarts text)) :
    entry.1 = 0 ∨ text[entry.1 - 1]? = some '\n' := by
  rcases mem_of_mem_anchored h with hzero | h
  · exact .inl hzero
  · obtain ⟨⟨start, header⟩, hmem, rfl⟩ := List.mem_map.mp h
    rcases Header.start_of_mem_findFrom hmem with ⟨hstart, -⟩ | ⟨n, hstart, hn⟩
    · exact .inl hstart
    · refine .inr ?_
      dsimp only
      rw [hstart, Nat.zero_add, Nat.add_sub_cancel]
      exact hn

/-- A section starts a line. -/
theorem start_of_mem_ofText {text : List Char} {s : Section} (hs : s ∈ ofText text) :
    s.start = 0 ∨ text[s.start - 1]? = some '\n' :=
  start_of_mem_anchored (mem_of_mem_fromStarts (ofText_eq text ▸ hs))

end Section

/-- The value of a property in a text: one of the sections has among its tokens a name and a colon,
which a question mark may stand in front of, and from the next token on the section is the value,
blanks, a comma or closing brace, and what is behind. -/
structure Occurrence (text value : List Char) where
  part : Section
  tokens : Tokens
  before : List Token
  name : Token
  optional : Bool
  marks : List Token
  first : Token
  others : List Token
  blanks : List Char
  delimiter : Char
  behind : List Char
  part_mem : part ∈ Section.ofText text
  lexed : lex text part.start part.stop = .ok tokens
  items_eq : tokens.items = before ++ name :: (marks ++ first :: others)
  name_eq : name.kind.isName
  marks_eq : marks.map (·.kind) = if optional then [.question, .colon] else [.colon]
  text_eq : Text.slice text first.offset part.stop = value ++ blanks ++ delimiter :: behind
  skipped : ∀ c ∈ blanks, isSkipped c
  ends : delimiter = ',' ∨ delimiter = '\x7d'

namespace Occurrence
variable {text value : List Char}

/-- The value is not cut in two: none of its tokens starts another component, since that is looked for
only outside of the brackets that are taken for open. -/
def Whole (o : Occurrence text value) : Prop :=
  ∀ own, lex value 0 value.length = .ok own →
    Chunk.keeps (Chunk.depthAfter 0 o.before) (own.items.map (·.kind))

/-- The tokens of the section from the value on are those of a run at the value. -/
theorem exists_run (o : Occurrence text value) :
    ∃ p, p.offset = o.first.offset ∧ o.first.place = placeAt text o.first.offset ∧
      run p (value ++ (o.blanks ++ o.delimiter :: o.behind)) =
        .ok ⟨o.first :: o.others, o.tokens.eof⟩ := by
  have hitems : o.tokens.items = (o.before ++ o.name :: o.marks) ++ o.first :: o.others := by
    rw [o.items_eq, List.append_assoc, List.cons_append]
  obtain ⟨k, hoffset, hplace, hrun⟩ := exists_run_of_items o.lexed hitems
  have hstart : (Position.ofOffset text o.part.start).offset = o.part.start := rfl
  rw [hstart] at hoffset
  rw [drop_slice, ← hoffset, o.text_eq, List.append_assoc] at hrun
  have hlength : k < (Text.slice text o.part.start o.part.stop).length := by
    have hdrop := congrArg List.length (drop_slice text o.part.start o.part.stop k)
    rw [← hoffset, o.text_eq, List.length_drop] at hdrop
    simp only [List.length_append, List.length_cons] at hdrop
    omega
  have htake : text.take o.first.offset =
      text.take o.part.start ++ (Text.slice text o.part.start o.part.stop).take k := by
    have hk : k ≤ o.part.stop - o.part.start :=
      Nat.le_of_lt (Nat.lt_of_lt_of_le hlength (List.length_take_le ..))
    rw [hoffset, List.take_add, Text.slice, List.take_take, Nat.min_eq_left hk]
  refine ⟨_, ?_, ?_, hrun⟩
  · rw [Position.offset_after, List.length_take, hstart]
    omega
  · rw [hplace, placeAt, htake, Position.after_append,
      ofOffset_eq (Section.start_of_mem_ofText o.part_mem)]

/-- The tokens of the section from the value on fall into those of the value, the delimiter, and later
ones. -/
structure Splits (o : Occurrence text value) (p : Position) (own : Tokens) (d : Token)
    (later : List Token) : Prop where
  offset_eq : p.offset = o.first.offset
  place_eq : o.first.place = placeAt text o.first.offset
  run_eq : run p value = .ok own
  kinds : ∀ t ∈ own.items, t.kind ≠ .attrOpen ∧ t.kind ≠ .docComment
  head_eq : own.items.head?.map (·.offset) = some p.offset
  last_eq : own.items.getLast?.map (·.stop) = some (p.offset + value.length)
  rest_eq : o.first :: o.others = own.items ++ d :: later
  kind_eq : TokenKind.ofChar? o.delimiter = some d.kind
  at_offset : d.offset = o.first.offset + value.length + o.blanks.length

theorem isSeparator_head (o : Occurrence text value) :
    ∃ x more, isSeparator x ∧ o.blanks ++ o.delimiter :: o.behind = x :: more := by
  have hskipped := o.skipped
  generalize o.blanks = blanks at hskipped
  cases blanks with
  | nil =>
    refine ⟨o.delimiter, o.behind, ?_, rfl⟩
    rcases o.ends with h | h <;> rw [h] <;> decide
  | cons x more =>
    refine ⟨x, more ++ o.delimiter :: o.behind, ?_, rfl⟩
    simp [isSeparator, hskipped x List.mem_cons_self]

theorem step_delimiter (o : Occurrence text value) :
    ∃ kind, TokenKind.ofChar? o.delimiter = some kind ∧
      step o.delimiter o.behind = .ok (some kind, 0) := by
  have hpair (c : Char) (hc : c = ',' ∨ c = '\x7d') (cs : List Char) :
      cs.head?.bind (TokenKind.ofPair? c) = none := by
    cases cs with
    | nil => rfl
    | cons d cs =>
      show TokenKind.ofPair? c d = none
      rcases hc with rfl | rfl <;> rfl
  have hnone := hpair o.delimiter o.ends o.behind
  rcases o.ends with hdelimiter | hdelimiter
  · rw [hdelimiter] at hnone ⊢
    refine ⟨.comma, rfl, ?_⟩
    unfold step
    rw [hnone]
    rfl
  · rw [hdelimiter] at hnone ⊢
    refine ⟨.rbrace, rfl, ?_⟩
    unfold step
    rw [hnone]
    rfl

theorem exists_splits (o : Occurrence text value) (hcut : IsCut value) :
    ∃ p own d later, o.Splits p own d later := by
  obtain ⟨p, hoffset, hplace, hrun⟩ := o.exists_run
  obtain ⟨own, hown, hkinds, hhead, hlast⟩ := hcut.exists_run p
  obtain ⟨x, more, hx, hbehind⟩ := o.isSeparator_head
  obtain ⟨kind, hkind, hstep⟩ := o.step_delimiter
  rw [hbehind, run_append hown hkinds (.inr hlast) hx more, ← hbehind,
    run_append_blanks o.skipped, run_ok hstep] at hrun
  generalize hq : (p.after value).after o.blanks = q at hrun
  have hqoffset : q.offset = o.first.offset + value.length + o.blanks.length := by
    rw [← hq, Position.offset_after, Position.offset_after, hoffset]
  cases hmore : run (q.after (o.delimiter :: o.behind.take 0)) (o.behind.drop 0) with
  | error e =>
    rw [hmore] at hrun
    nomatch hrun
  | ok us =>
    rw [hmore] at hrun
    have hitems : own.items ++ stepToken q [o.delimiter] kind :: us.items = o.first :: o.others :=
      congrArg Tokens.items (Except.ok.inj hrun)
    exact ⟨p, own, _, us.items, hoffset, hplace, hown, hkinds, hhead, hlast, hitems.symm, hkind,
      hqoffset⟩

theorem Splits.kind_cases {o : Occurrence text value} {p : Position} {own : Tokens} {d : Token}
    {later : List Token} (h : o.Splits p own d later) : d.kind = .comma ∨ d.kind = .rbrace := by
  have hkind := h.kind_eq
  rcases o.ends with hdelimiter | hdelimiter
  · rw [hdelimiter] at hkind
    exact .inl (Option.some.inj hkind).symm
  · rw [hdelimiter] at hkind
    exact .inr (Option.some.inj hkind).symm

/-- The name, the colon and the whole value with its delimiter are in one chunk. -/
theorem Splits.exists_chunk {o : Occurrence text value} {p : Position} {own : Tokens} {d : Token}
    {later : List Token} (h : o.Splits p own d later) (hwhole : o.Whole) :
    ∃ chunk ∈ Chunk.split o.tokens, ∃ earlier behind, chunk.tokens =
      ⟨earlier ++ o.name :: (o.marks ++ (own.items ++ d :: behind)), o.tokens.eof⟩ := by
  have hname : o.name.kind.isOpening = false ∧ o.name.kind.isClosing = false := by
    have hname := o.name_eq
    revert hname
    cases o.name.kind <;> decide
  have hmarks : ∀ t ∈ o.marks, t.kind = .question ∨ t.kind = .colon := by
    intro t ht
    have hmem : t.kind ∈ o.marks.map (·.kind) := List.mem_map_of_mem ht
    rw [o.marks_eq] at hmem
    split at hmem <;> simp_all
  have hquiet : ∀ t ∈ o.marks, t.kind.isOpening = false ∧ t.kind.isClosing = false := by
    intro t ht
    rcases hmarks t ht with hkind | hkind <;> rw [hkind] <;> decide
  have hplain : ∀ kind ∈ o.marks.map (·.kind), kind.startsComponent = false := by
    refine List.forall_mem_map.mpr fun t ht => ?_
    rcases hmarks t ht with hkind | hkind <;> rw [hkind] <;> rfl
  have hend : d.kind.startsComponent = false := by
    rcases h.kind_cases with hkind | hkind <;> rw [hkind] <;> rfl
  have hown : Chunk.keeps (Chunk.depthAfter 0 o.before) (own.items.map (·.kind)) := by
    obtain ⟨us, hus, hsame⟩ := run_elsewhere h.run_eq (Position.ofOffset value 0)
    have hlex : lex value 0 value.length = .ok us := by
      rw [lex, show Text.slice value 0 value.length = value by simp [Text.slice], hus]
    have hkinds := congrArg (List.map Prod.fst) hsame
    simp only [List.map_map, Function.comp_def] at hkinds
    exact hkinds ▸ hwhole us hlex
  have hkeeps : Chunk.keeps (Chunk.depthAfter 0 (o.before ++ [o.name]))
      ((o.marks ++ (own.items ++ [d])).map (·.kind)) := by
    have hopen : Chunk.depthAfter (Chunk.depthAfter 0 o.before) [o.name] =
        Chunk.depthAfter 0 o.before := Chunk.depthAfter_of_plain (by simpa using hname)
    rw [Chunk.depthAfter_append, hopen, Chunk.keeps_append, Chunk.depthAfter_of_plain hquiet, Chunk.keeps_append]
    exact ⟨Chunk.keeps_of_plain hplain, hown, Chunk.keeps_of_plain (by simpa using hend)⟩
  have hitems : o.tokens.items = o.before ++ o.name :: (o.marks ++ (own.items ++ [d]) ++ later) := by
    rw [o.items_eq, h.rest_eq]
    simp
  obtain ⟨chunk, hchunk, earlier, behind, hparts⟩ := Chunk.exists_of_keeps hitems hkeeps
  refine ⟨chunk, hchunk, earlier, behind, hparts.trans ?_⟩
  simp

end Occurrence
end ViewTree
