import ViewTree.Proofs.Capture.Occurrence
import ViewTree.Proofs.Reading.Files

/-!
What sections, tokens and chunks leave of a text. Sections follow each other from line start to line
start, the tokens of one stand in it in order with blanks and comments between them
(`Tokens.cover_of_run`), and chunks hold all of these tokens. Main statement: no part of a text is
dropped (`Section.covers_ofText`).
-/
namespace ViewTree
open Lexer

/-- Blanks and whole comments, in front of `behind`. A comment reaches up to the end of its line, and is
neither the start of an attribute nor documentation. -/
inductive IsGap (behind : List Char) : List Char → Prop
  | nil : IsGap behind []
  | blank {c : Char} {cs : List Char} (hc : c ∈ [' ', '\t', '\r', '\n', '\x0c'])
      (h : IsGap behind cs) : IsGap behind (c :: cs)
  | comment {note cs : List Char} (hnote : '\n' ∉ note)
      (hmark : ∀ c ∈ note.head?, c ≠ '[' ∧ c ≠ ':') (hend : ∀ c ∈ (cs ++ behind).head?, c = '\n')
      (h : IsGap behind cs) : IsGap behind ('#' :: note ++ cs)

/-- How far an offset is from the line end in front of it, or from the start of the text; the first
column has number one. -/
def columnAt (text : List Char) (offset : Nat) : Nat :=
  ((text.take offset).reverse.takeWhile (· ≠ '\n')).length + 1

/-- The token stands where it says, and is not empty. -/
structure Token.Placed (text : List Char) (t : Token) : Prop where
  pos : t.offset < t.stop
  written : t.text = String.ofList (Text.slice text t.offset t.stop)
  line : t.line = (text.take t.offset).count '\n' + 1
  column : t.column = columnAt text t.offset

/-- Tokens stand one behind the other between `start` and `stop`, and nothing but gaps between
them. -/
def Covered (text : List Char) (stop start : Nat) : List Token → Prop
  | [] => start ≤ stop ∧ IsGap [] (Text.slice text start stop)
  | t :: ts => start ≤ t.offset ∧
      IsGap (Text.slice text t.offset stop) (Text.slice text start t.offset) ∧ t.Placed text ∧
        Covered text stop t.stop ts

/-- The tokens cover the text between `start` and `stop`, and their end is marked at `stop`. -/
structure Tokens.Cover (text : List Char) (start stop : Nat) (ts : Tokens) : Prop where
  items : Covered text stop start ts.items
  eof : ts.eof = ⟨.eof, "", (text.take stop).count '\n' + 1, columnAt text stop, stop, stop⟩

theorem column_after (cs : List Char) :
    ((⟨0, 1, 1⟩ : Position).after cs).column = (cs.reverse.takeWhile (· ≠ '\n')).length + 1 := by
  induction cs using List.reverseRecOn with
  | nil => rfl
  | append_singleton cs c ih =>
    rw [Position.after_append, Position.after_cons, Position.after_nil, Position.next,
      List.reverse_append, List.reverse_singleton, List.singleton_append, List.takeWhile_cons]
    by_cases hc : c = '\n'
    · simp [hc]
    · simp [hc, ih]

/-- Where walking through the first characters of a text ends. -/
theorem after_take {text : List Char} {offset : Nat} (h : offset ≤ text.length) :
    (⟨0, 1, 1⟩ : Position).after (text.take offset) =
      ⟨offset, (text.take offset).count '\n' + 1, columnAt text offset⟩ := by
  have hoffset := Position.offset_after ⟨0, 1, 1⟩ (text.take offset)
  have hline := line_after ⟨0, 1, 1⟩ (text.take offset)
  have hcolumn := column_after (text.take offset)
  generalize (⟨0, 1, 1⟩ : Position).after (text.take offset) = p at hoffset hline hcolumn
  obtain ⟨own, line, column⟩ := p
  dsimp only at hoffset hline hcolumn
  rw [List.length_take_of_le h, Nat.zero_add] at hoffset
  rw [hoffset, hline, hcolumn, Nat.add_comm 1]
  rfl

namespace Lexer

/-- What no token is made of is a blank or a comment. -/
theorem step_eq_none {c : Char} {rest : List Char} {n : Nat} (h : step c rest = .ok (none, n)) :
    (isSkipped c ∧ n = 0) ∨
      (c = '#' ∧ (∀ d ∈ rest.head?, d ≠ '[' ∧ d ≠ ':') ∧ n = commentLength rest) := by
  have hcases := step_cases h
  generalize hnone : (none : Option TokenKind) = kind? at hcases
  cases hcases with
  | blank hc => exact .inl ⟨hc, rfl⟩
  | comment hc hattribute hdoc =>
    refine .inr ⟨hc, fun d hd => ⟨?_, ?_⟩, rfl⟩
    · rintro rfl
      exact hattribute hd
    · rintro rfl
      exact hdoc hd
  | _ => nomatch hnone

end Lexer

/-- A gap goes on in front with what the lexer skips. -/
theorem IsGap.of_step {c : Char} {rest behind cs : List Char} {n : Nat}
    (h : step c rest = .ok (none, n)) (hrest : rest.drop n = cs ++ behind) (hcs : IsGap behind cs) :
    IsGap behind (c :: rest.take n ++ cs) := by
  rcases step_eq_none h with ⟨hc, rfl⟩ | ⟨rfl, hmark, rfl⟩
  · refine .blank ?_ hcs
    simpa [isSkipped, or_assoc] using hc
  · have hsplit := List.takeWhile_append_dropWhile (p := (· ≠ '\n')) (l := rest)
    have htake : rest.take (commentLength rest) = rest.takeWhile (· ≠ '\n') :=
      (List.prefix_iff_eq_take.mp (List.takeWhile_prefix _)).symm
    have hdrop : rest.drop (commentLength rest) = rest.dropWhile (· ≠ '\n') := by
      conv_lhs => arg 2; rw [← hsplit]
      exact List.drop_left
    rw [htake]
    refine .comment (fun hmem => ?_) (fun d hd => ?_) (fun d hd => ?_) hcs
    · simpa using List.all_eq_true.mp List.all_takeWhile _ hmem
    · refine hmark d ?_
      rw [← hsplit, Option.mem_def, List.head?_append, Option.mem_def.mp hd, Option.some_or]
    · have hhead := List.head?_dropWhile_not (· ≠ '\n') rest
      rw [← hrest, hdrop, Option.mem_def] at hd
      rw [hd] at hhead
      simpa using hhead

theorem slice_append {text : List Char} {start middle stop : Nat} (hstart : start ≤ middle)
    (hstop : middle ≤ stop) :
    Text.slice text start middle ++ Text.slice text middle stop = Text.slice text start stop := by
  obtain ⟨m, rfl⟩ := Nat.exists_eq_add_of_le hstart
  have hsplit := List.take_append_drop m (Text.slice text start stop)
  rw [drop_slice] at hsplit
  have hfront : (Text.slice text start stop).take m = Text.slice text start (start + m) := by
    rw [Text.slice, Text.slice, List.take_take, Nat.add_sub_cancel_left, Nat.min_eq_left (by omega)]
  rw [← hsplit, hfront]

theorem slice_self (text : List Char) (start : Nat) : Text.slice text start start = [] := by
  rw [Text.slice, Nat.sub_self, List.take_zero]

theorem length_slice {text : List Char} (start : Nat) {stop : Nat} (h : stop ≤ text.length) :
    (Text.slice text start stop).length = stop - start := by
  rw [Text.slice, List.length_take, List.length_drop]
  omega

namespace Covered
variable {text : List Char} {start middle stop : Nat} {ts : List Token}

theorem start_le (h : Covered text stop start ts) : start ≤ stop := by
  induction ts generalizing start with
  | nil => exact h.1
  | cons t ts ih =>
    obtain ⟨hstart, -, hplaced, hbehind⟩ := h
    exact Nat.le_trans hstart (Nat.le_trans (Nat.le_of_lt hplaced.pos) (ih hbehind))

/-- Tokens cover what is behind them and a gap in front of them. -/
theorem skip (h : Covered text stop middle ts) (hstart : start ≤ middle)
    (hgap : ∀ cs behind, cs ++ behind = Text.slice text middle stop → IsGap behind cs →
      IsGap behind (Text.slice text start middle ++ cs)) : Covered text stop start ts := by
  cases ts with
  | nil =>
    refine ⟨Nat.le_trans hstart h.1, ?_⟩
    rw [← slice_append hstart h.1]
    exact hgap _ _ (List.append_nil _) h.2
  | cons t ts =>
    obtain ⟨hmiddle, hfront, hplaced, hbehind⟩ := h
    have hstop := Nat.le_trans (Nat.le_of_lt hplaced.pos) hbehind.start_le
    refine ⟨Nat.le_trans hstart hmiddle, ?_, hplaced, hbehind⟩
    rw [← slice_append hstart hmiddle]
    exact hgap _ _ (slice_append hmiddle hstop) hfront

end Covered

namespace Tokens

/-- A run from a place in a text on covers what it reads. -/
theorem cover_of_run {text : List Char} {start stop : Nat} {ts : Tokens} (hstart : start ≤ stop)
    (hstop : stop ≤ text.length)
    (h : run ((⟨0, 1, 1⟩ : Position).after (text.take start)) (Text.slice text start stop) = .ok ts) :
    ts.Cover text start stop := by
  generalize hcs : Text.slice text start stop = cs at h
  induction cs using Lexer.induction generalizing start ts with
  | nil =>
    obtain rfl : start = stop := by
      have hlength := length_slice start hstop
      rw [hcs, List.length_nil] at hlength
      omega
    rw [run_nil, after_take hstop] at h
    obtain rfl := Except.ok.inj h
    refine ⟨⟨Nat.le_refl start, ?_⟩, rfl⟩
    rw [hcs]
    exact .nil
  | step c rest ih =>
    obtain ⟨kind?, n, more, hstep, hrun, rfl⟩ := exists_step_of_run h
    have hn : (c :: rest.take n).length = n + 1 := by
      rw [List.length_cons, List.length_take_of_le (length_of_step hstep)]
    have htaken : Text.slice text start (start + (n + 1)) = c :: rest.take n := by
      rw [← hn]
      exact slice_of_prefix (hcs.trans (take_append_drop_cons c rest n).symm)
    have hleft : Text.slice text (start + (n + 1)) stop = rest.drop n := by
      rw [← drop_slice, hcs, List.drop_succ_cons]
    have hnext : start + (n + 1) ≤ stop := by
      have hlength := length_slice start hstop
      rw [hcs, List.length_cons] at hlength
      have := length_of_step hstep
      omega
    have hafter : ((⟨0, 1, 1⟩ : Position).after (text.take start)).after (c :: rest.take n) =
        (⟨0, 1, 1⟩ : Position).after (text.take (start + (n + 1))) := by
      rw [← Position.after_append, ← htaken, Text.slice, Nat.add_sub_cancel_left, ← List.take_add]
    rw [hafter] at hrun
    have hmore := ih n hnext hleft hrun
    have hbegin : start ≤ start + (n + 1) := Nat.le_add_right _ _
    cases kind? with
    | none =>
      refine ⟨hmore.items.skip hbegin fun cs behind hcs hgap => ?_, hmore.eof⟩
      rw [htaken]
      exact .of_step hstep (hleft ▸ hcs.symm) hgap
    | some kind =>
      have htoken : stepToken ((⟨0, 1, 1⟩ : Position).after (text.take start)) (c :: rest.take n)
          kind = ⟨kind, String.ofList (c :: rest.take n), (text.take start).count '\n' + 1,
            columnAt text start, start, start + (n + 1)⟩ := by
        rw [stepToken, hafter, after_take (Nat.le_trans hnext hstop),
          after_take (Nat.le_trans hstart hstop)]
      refine ⟨?_, hmore.eof⟩
      show Covered text stop start (stepToken _ _ kind :: more.items)
      rw [htoken]
      refine ⟨Nat.le_refl start, ?_, ⟨?_, ?_, rfl, rfl⟩, hmore.items⟩
      · rw [slice_self]
        exact .nil
      · exact Nat.lt_add_of_pos_right (Nat.succ_pos n)
      · rw [htaken]

end Tokens

namespace Header

theorem pairwise_findFrom (offset : Nat) (fresh : Bool) (cs : List Char) :
    (findFrom offset fresh cs).Pairwise fun a b => a.1 < b.1 := by
  induction cs generalizing offset fresh with
  | nil => exact .nil
  | cons c cs ih =>
    rw [findFrom]
    split
    · exact .cons (fun entry hentry => (lt_of_mem_findFrom hentry).1) (ih _ _)
    · exact ih _ _

end Header

namespace Section

theorem pairwise_anchored {headers : List (Nat × Option Header)}
    (h : headers.Pairwise fun a b => a.1 < b.1) :
    (anchored headers).Pairwise fun a b => a.1 < b.1 := by
  match headers with
  | [] => exact List.pairwise_singleton _ _
  | (0, own) :: more => exact h
  | (n + 1, own) :: more =>
    refine .cons (List.forall_mem_cons.mpr ⟨Nat.succ_pos n, fun entry hentry => ?_⟩) h
    exact Nat.lt_of_le_of_lt (Nat.zero_le _) (List.rel_of_pairwise_cons h hentry)

theorem pairwise_starts (text : List Char) :
    (anchored (headerStarts text)).Pairwise fun a b => a.1 < b.1 :=
  pairwise_anchored (List.pairwise_map.mpr (Header.pairwise_findFrom 0 true text))

/-- A later section does not start with the text. -/
theorem pos_of_mem_tail {starts : List (Nat × Option Header)}
    (h : starts.Pairwise fun a b => a.1 < b.1) {entry : Nat × Option Header}
    (hentry : entry ∈ starts.tail) : 0 < entry.1 := by
  cases starts with
  | nil => nomatch hentry
  | cons a starts => exact Nat.lt_of_le_of_lt (Nat.zero_le a.1) (List.rel_of_pairwise_cons h hentry)

theorem tail_fromStarts (stop : Nat) (starts : List (Nat × Option Header)) :
    (fromStarts stop starts).tail = fromStarts stop starts.tail := by
  match starts with
  | [] => rfl
  | [_] => rfl
  | _ :: _ :: _ => rfl

/-- A section from rising starts ends where all of them do, or where a later one starts. -/
theorem stop_of_mem_fromStarts {stop : Nat} {starts : List (Nat × Option Header)}
    (h : starts.Pairwise fun a b => a.1 < b.1) (hstop : ∀ entry ∈ starts, entry.1 ≤ stop)
    {s : Section} (hs : s ∈ fromStarts stop starts) : (s.start ≤ stop ∧ s.stop = stop) ∨
      ∃ entry ∈ starts.tail, s.start < entry.1 ∧ s.stop = entry.1 := by
  induction starts with
  | nil => nomatch hs
  | cons a starts ih =>
    obtain ⟨here, own⟩ := a
    cases starts with
    | nil =>
      obtain rfl := List.mem_singleton.mp hs
      exact .inl ⟨hstop _ List.mem_cons_self, rfl⟩
    | cons b starts =>
      obtain ⟨next, other⟩ := b
      obtain ⟨hfirst, hmore⟩ := List.pairwise_cons.mp h
      rw [fromStarts] at hs
      rcases List.mem_cons.mp hs with rfl | hs
      · exact .inr ⟨_, List.mem_cons_self, hfirst _ List.mem_cons_self, rfl⟩
      · refine (ih hmore (fun entry hentry => hstop entry (List.mem_cons_of_mem _ hentry)) hs).imp_right ?_
        rintro ⟨entry, hentry, hends⟩
        exact ⟨entry, List.mem_cons_of_mem _ hentry, hends⟩

variable {text : List Char} {s : Section}

theorem start_of_mem_tail_ofText (hs : s ∈ (ofText text).tail) :
    0 < s.start ∧ text[s.start - 1]? = some '\n' := by
  have hpos : 0 < s.start := by
    rw [ofText_eq, tail_fromStarts] at hs
    exact pos_of_mem_tail (pairwise_starts text) (mem_of_mem_fromStarts hs)
  exact ⟨hpos, (start_of_mem_ofText (List.mem_of_mem_tail hs)).resolve_left (Nat.ne_of_gt hpos)⟩

/-- A section ends with the text or with a line. -/
theorem stop_of_mem_ofText (hs : s ∈ ofText text) : (s.start ≤ s.stop ∧ s.stop = text.length) ∨
    s.start < s.stop ∧ text[s.stop - 1]? = some '\n' := by
  rw [ofText_eq] at hs
  rcases stop_of_mem_fromStarts (pairwise_starts text) (fun _ hentry => le_of_mem_anchored hentry) hs
    with ⟨hle, hstop⟩ | ⟨entry, hentry, hlt, hstop⟩
  · exact .inl ⟨hstop ▸ hle, hstop⟩
  · rw [hstop]
    have hpos := pos_of_mem_tail (pairwise_starts text) hentry
    exact .inr ⟨hlt, (start_of_mem_anchored (List.mem_of_mem_tail hentry)).resolve_left
      (Nat.ne_of_gt hpos)⟩

theorem start_le_stop (hs : s ∈ ofText text) : s.start ≤ s.stop :=
  (stop_of_mem_ofText hs).elim And.left fun h => Nat.le_of_lt h.1

end Section

namespace Chunk

/-- Cutting leaves no chunk empty. -/
theorem items_ne_nil_of_mem_split {tokens : Tokens} {chunk : Chunk} (h : chunk ∈ split tokens) :
    chunk.tokens.items ≠ [] := by
  have hfold (ts : List Token) (cut : Cut) (hcut : ∀ group ∈ cut.done, group ≠ []) :
      ∀ group ∈ (ts.foldl Cut.push cut).done, group ≠ [] := by
    induction ts generalizing cut with
    | nil => exact hcut
    | cons t ts ih =>
      refine ih (cut.push t) ?_
      unfold Cut.push
      dsimp only
      split
      · next hstarts =>
        refine List.forall_mem_cons.mpr ⟨fun hnil => ?_, hcut⟩
        rw [List.reverse_eq_nil_iff] at hnil
        simp [hnil] at hstarts
      · exact hcut
  have hdone := hfold tokens.items {} nofun
  unfold split at h
  obtain ⟨group, hgroup, rfl⟩ := List.mem_map.mp h
  rw [List.mem_reverse] at hgroup
  split at hgroup
  · exact hdone group hgroup
  · next hcurrent =>
    rcases List.mem_cons.mp hgroup with rfl | hgroup
    · rintro hnil
      rw [List.reverse_eq_nil_iff] at hnil
      simp [hnil] at hcurrent
    · exact hdone group hgroup

end Chunk

namespace Section

/-- No part of a text is dropped: its sections follow each other from line start to line start, the
tokens of each of them cover it but for blanks and comments, and its chunks hold all of them. -/
theorem covers_ofText (text : List Char) :
    Chained 0 text.length (ofText text) ∧
    (∀ s ∈ (ofText text).tail, 0 < s.start ∧ text[s.start - 1]? = some '\n') ∧
    ∀ s ∈ ofText text, s.start ≤ s.stop ∧ ∀ tokens, lex text s.start s.stop = .ok tokens →
      tokens.Cover text s.start s.stop ∧
      (∀ chunk ∈ Chunk.split tokens, chunk.tokens.items ≠ [] ∧ chunk.tokens.eof = tokens.eof) ∧
      (Chunk.split tokens).flatMap (·.tokens.items) = tokens.items := by
  refine ⟨chained_ofText text, fun s hs => start_of_mem_tail_ofText hs, fun s hs =>
    ⟨start_le_stop hs, fun tokens hlex => ⟨?_, fun chunk hchunk => ?_, Chunk.items_split tokens⟩⟩⟩
  · rw [lex, ofOffset_eq (start_of_mem_ofText hs)] at hlex
    exact Tokens.cover_of_run (start_le_stop hs) (le_of_mem_ofText hs).2 hlex
  · exact ⟨Chunk.items_ne_nil_of_mem_split hchunk, Chunk.eof_of_mem_split hchunk⟩

/-- A comment, a view with a comment and documentation, and a template that cannot be lexed. -/
def stripText : List Char :=
  "# A\nview Strip(m) \x7b #\n  Box #: b\n  1e-5\x0c\"\\\"\"\r\n\x7d\ntemplate Leaf \x7b 'x\n".toList

theorem covers_stripText : ofText stripText =
      [⟨0, 4, none⟩, ⟨4, 48, some ⟨.view, "Strip"⟩⟩, ⟨48, 67, some ⟨.template, "Leaf"⟩⟩] ∧
    ∃ tokens, lex stripText 4 48 = .ok tokens ∧
      tokens.items.map (·.text) =
        ["view", "Strip", "(", "m", ")", "\x7b", "Box", "#: b", "1e-5", "\"\\\"\"", "\x7d"] ∧
      tokens.Cover stripText 4 48 := by
  have hsections : ofText stripText =
      [⟨0, 4, none⟩, ⟨4, 48, some ⟨.view, "Strip"⟩⟩, ⟨48, 67, some ⟨.template, "Leaf"⟩⟩] := by
    decide
  obtain ⟨tokens, hlex, htexts⟩ : ∃ tokens, lex stripText 4 48 = .ok tokens ∧
      tokens.items.map (·.text) =
        ["view", "Strip", "(", "m", ")", "\x7b", "Box", "#: b", "1e-5", "\"\\\"\"", "\x7d"] :=
    exists_tokens (by decide +kernel)
  obtain ⟨-, -, hcovers⟩ := covers_ofText stripText
  have hmem : ⟨4, 48, some ⟨.view, "Strip"⟩⟩ ∈ ofText stripText := by rw [hsections]; decide
  exact ⟨hsections, tokens, hlex, htexts, ((hcovers _ hmem).2 tokens hlex).1⟩

end Section
end ViewTree
