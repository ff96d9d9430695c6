import ViewTree.Proofs.Coverage
import ViewTree.Proofs.Signatures

/-!
Excerpts shown with a problem. Where the excerpt is cut out of the source and where its lines get their
numbers, its first line is found out separately; both have to agree. Main statement: the error at a token
shows the lines around it, each behind its own number, and its carets stand under the token's first
line; a lexical error has three carets (`shows_of_lex`).
-/
namespace ViewTree
open Text Lexer

namespace Text

section
variable {sep : Char}

theorem length_fields (cs : List Char) : (fields sep cs).length = cs.count sep + 1 := by
  induction cs with
  | nil => rfl
  | cons c cs ih =>
    rw [fields]
    by_cases hc : c = sep
    · rw [if_pos hc, List.length_cons, ih, hc, List.count_cons_self]
    · rw [if_neg hc, List.count_cons_of_ne hc, ← ih]
      obtain ⟨f, fs, hf⟩ := List.exists_cons_of_ne_nil (fields_ne_nil sep cs)
      rw [hf]
      rfl

theorem notMem_of_mem_fields {cs f : List Char} (hf : f ∈ fields sep cs) : sep ∉ f := by
  induction cs generalizing f with
  | nil =>
    obtain rfl := List.mem_singleton.mp hf
    nofun
  | cons c cs ih =>
    rw [fields] at hf
    split at hf
    · rcases List.mem_cons.mp hf with rfl | hf
      · nofun
      · exact ih hf
    · next hc =>
      obtain ⟨g, gs, hg⟩ := List.exists_cons_of_ne_nil (fields_ne_nil sep cs)
      rw [hg] at hf ih
      rcases List.mem_cons.mp hf with rfl | hf
      · exact List.not_mem_cons_of_ne_of_not_mem (Ne.symm hc) (ih List.mem_cons_self)
      · exact ih (List.mem_cons_of_mem g hf)

theorem fields_append (a b : List Char) : fields sep (a ++ sep :: b) = fields sep a ++ fields sep b := by
  induction a with
  | nil => exact if_pos rfl
  | cons c a ih =>
    rw [List.cons_append, fields, fields, ih]
    by_cases hc : c = sep
    · rw [if_pos hc, if_pos hc, List.cons_append]
    · obtain ⟨f, fs, hf⟩ := List.exists_cons_of_ne_nil (fields_ne_nil sep a)
      rw [if_neg hc, if_neg hc, hf]
      rfl

/-- The first field of a text is longer by what stands in front of it. -/
theorem head?_fields_append {a : List Char} (ha : sep ∉ a) (b : List Char) :
    (fields sep (a ++ b)).head? = (fields sep b).head?.map (a ++ ·) := by
  induction a with
  | nil => simp
  | cons c a ih =>
    rw [List.mem_cons, not_or] at ha
    rw [List.cons_append, fields, if_neg (Ne.symm ha.1)]
    have hrest := ih ha.2
    obtain ⟨f, fs, hf⟩ := List.exists_cons_of_ne_nil (fields_ne_nil sep (a ++ b))
    obtain ⟨g, gs, hg⟩ := List.exists_cons_of_ne_nil (fields_ne_nil sep b)
    rw [hf, hg] at hrest
    rw [hf, hg]
    simp_all

/-- The first field of the front is the start of the first field. -/
theorem exists_head?_fields_append (sep : Char) (a b : List Char) : ∃ first behind,
    (fields sep a).head? = some first ∧ (fields sep (a ++ b)).head? = some (first ++ behind) := by
  induction a with
  | nil =>
    obtain ⟨g, gs, hg⟩ := List.exists_cons_of_ne_nil (fields_ne_nil sep b)
    exact ⟨[], g, rfl, by rw [List.nil_append, hg]; rfl⟩
  | cons c a ih =>
    obtain ⟨first, behind, hfirst, hall⟩ := ih
    obtain ⟨f, fs, hf⟩ := List.exists_cons_of_ne_nil (fields_ne_nil sep a)
    obtain ⟨g, gs, hg⟩ := List.exists_cons_of_ne_nil (fields_ne_nil sep (a ++ b))
    rw [List.cons_append, fields, fields]
    by_cases hc : c = sep
    · exact ⟨[], [], by rw [if_pos hc]; rfl, by rw [if_pos hc]; rfl⟩
    · rw [hf] at hfirst
      rw [hg] at hall
      obtain rfl := Option.some.inj hfirst
      obtain rfl := Option.some.inj hall
      exact ⟨c :: f, behind, by rw [if_neg hc, hf]; rfl, by rw [if_neg hc, hg]; rfl⟩

/-- A text goes on in the field that its front ends in. -/
theorem exists_field_append (sep : Char) (a b : List Char) : ∃ before,
    (fields sep (a ++ b))[a.count sep]? = (fields sep b).head?.map (before ++ ·) ∧
      before.length = (a.reverse.takeWhile (· ≠ sep)).length := by
  by_cases hmem : sep ∈ a
  · obtain ⟨before, front, hreverse, hbefore⟩ := List.eq_append_cons_of_mem (List.mem_reverse.mpr hmem)
    refine ⟨before.reverse, ?_, ?_⟩
    · -- the fields in front of the last separator are as many as the separators
      obtain rfl : a = front.reverse ++ sep :: before.reverse := by
        rw [← List.reverse_reverse a, hreverse]
        simp
      have hnone : before.reverse.count sep = 0 := List.count_eq_zero_of_not_mem (by simpa using hbefore)
      rw [List.append_assoc, List.cons_append, fields_append, List.count_append, List.count_cons_self, hnone,
        Nat.zero_add, ← length_fields, List.getElem?_append_right (Nat.le_refl _), Nat.sub_self,
        ← List.head?_eq_getElem?]
      exact head?_fields_append (by simpa using hbefore) b
    · rw [hreverse, List.takeWhile_append_of_pos (by simpa using fun c hc => ne_of_mem_of_not_mem hc hbefore)]
      simp
  · refine ⟨a, ?_, ?_⟩
    · rw [List.count_eq_zero_of_not_mem hmem, ← List.head?_eq_getElem?]
      exact head?_fields_append hmem b
    · have hall : (a.reverse ++ []).takeWhile (· ≠ sep) = a.reverse ++ [].takeWhile (· ≠ sep) :=
        List.takeWhile_append_of_pos (by simpa using fun c hc => ne_of_mem_of_not_mem hc hmem)
      rw [List.append_nil] at hall
      rw [hall]
      simp

end

/-- Lines that hold no line feed are the lines of the text they are put together to. -/
theorem lines_intercalate {ls : List String} (hls : ls ≠ []) (h : ∀ l ∈ ls, '\n' ∉ l.toList) :
    lines ("\n".intercalate ls) = ls := by
  have hfields : fields '\n' (['\n'].intercalate (ls.map String.toList)) = ls.map String.toList :=
    fields_intercalate (by simpa using hls) (List.forall_mem_map.mpr h)
  rw [lines, String.toList_intercalate, show "\n".toList = ['\n'] from rfl, hfields, List.map_map]
  exact List.map_id'' (fun l => String.ofList_toList) ls

theorem notMem_of_mem_lines {text l : String} (h : l ∈ lines text) : '\n' ∉ l.toList := by
  obtain ⟨f, hf, rfl⟩ := List.mem_map.mp h
  rw [String.toList_ofList]
  exact notMem_of_mem_fields hf

end Text

/-- What stands in front of a line. -/
def margin (n : Nat) : String := padLeft 4 (toString n) ++ " | "

/-- Line `n` of the source behind its number. -/
def numberedRow (source : String) (n : Nat) : String := margin n ++ ((lines source)[n - 1]?).getD ""

/-- Carets under `width` columns of a line, from `column` on. -/
def caretRow (line column width : Nat) : String :=
  String.ofList (List.replicate ((margin line).length + (column - 1)) ' ' ++ List.replicate width '^')

/-- The rows show the lines from two above `line` to two below, as far as there are any, and under
`line` one row of carets. -/
structure Shows (source : String) (line column width : Nat) (rows : List String) : Prop where
  inside : 1 ≤ line ∧ line ≤ (lines source).length
  rows_eq : rows =
    (List.range' (max 1 (line - 2)) (line - max 1 (line - 2))).map (numberedRow source) ++
      [numberedRow source line, caretRow line column width] ++
        (List.range' (line + 1) (min (lines source).length (line + 2) - line)).map (numberedRow source)

/-- The lines that an excerpt is made of. -/
def window (source : String) (line : Nat) : List String :=
  ((lines source).take (min (lines source).length (line + 2))).drop (max 1 (line - 2) - 1)

theorem excerpt_eq (source : String) (line : Nat) :
    excerpt source line = "\n".intercalate (window source line) := by
  have hfirst : (max 1 ((line : Int) - 2) - 1).toNat = max 1 (line - 2) - 1 := by omega
  have hlast : min ((lines source).length : Int) (line + 2) =
      (min (lines source).length (line + 2) : Nat) := by omega
  unfold excerpt sliceTo window
  dsimp only
  rw [hlast, hfirst, if_neg (by omega), Int.toNat_natCast]

theorem length_window {source : String} {line : Nat} (hpos : 1 ≤ line) (h : line ≤ (lines source).length) :
    (window source line).length = min (lines source).length (line + 2) + 1 - max 1 (line - 2) := by
  rw [window, List.length_drop, List.length_take]
  omega

theorem lines_excerpt {source : String} {line : Nat} (hpos : 1 ≤ line) (h : line ≤ (lines source).length) :
    lines (excerpt source line) = window source line := by
  rw [excerpt_eq]
  refine lines_intercalate (fun hnil => ?_) fun l hl => ?_
  · have := length_window hpos h
    rw [hnil, List.length_nil] at this
    omega
  · exact notMem_of_mem_lines (List.mem_of_mem_take (List.mem_of_mem_drop hl))

/-- The lines of an excerpt get the numbers that they have in the source. -/
theorem zipIdx_window {source : String} {line : Nat} (hpos : 1 ≤ line) (h : line ≤ (lines source).length) :
    (window source line).zipIdx (max 1 (line - 2)) =
      (List.range' (max 1 (line - 2)) (min (lines source).length (line + 2) + 1 - max 1 (line - 2))).map
        fun n => (((lines source)[n - 1]?).getD "", n) := by
  rw [← length_window hpos h]
  refine List.ext_getElem (by simp) fun i hi _ => ?_
  rw [List.length_zipIdx] at hi
  have hlength := length_window hpos h
  have hin : max 1 (line - 2) - 1 + i < (lines source).length := by omega
  have hindex : max 1 (line - 2) + i - 1 = max 1 (line - 2) - 1 + i := by omega
  simp [window, hindex, hin]

/-- Where a row of carets stands under one line only. -/
theorem flatMap_of_notMem {line : Nat} {ns : List Nat} (h : line ∉ ns) (row : Nat → String) (carets : String) :
    (ns.flatMap fun n => if n = line then [row n, carets] else [row n]) = ns.map row := by
  rw [List.map_eq_flatMap]
  refine List.flatMap_congr fun n hn => if_neg ?_
  rintro rfl
  exact h hn

theorem shows_rows {source : String} {s : Site} {line column width : Nat} (hline : s.line = line)
    (hcolumn : s.column = column) (hwidth : s.caretCount = width) (hpos : 1 ≤ line)
    (h : line ≤ (lines source).length) (hpositive : 1 ≤ column) :
    Shows source line column width (s.rows (lines (excerpt source line))) where
  inside := ⟨hpos, h⟩
  rows_eq := by
    have hstart : (max 1 ((line : Int) - 2)).toNat = max 1 (line - 2) := by omega
    rw [lines_excerpt hpos h, Site.rows, hline, hstart, zipIdx_window hpos h, List.flatMap_map]
    refine (List.flatMap_congr (g := fun n => if n = line then
      [numberedRow source n, caretRow line column width] else [numberedRow source n]) fun n _ => ?row).trans
        ?rows
    case row =>
      by_cases hn : n = line
      · have hblanks : ((margin line).length + (column : Int) - 1).toNat =
            (margin line).length + (column - 1) := by omega
        subst hn
        rw [hcolumn, hwidth]
        dsimp only
        rw [if_pos rfl, if_pos rfl, repeatChar, repeatChar, caretRow, String.ofList_append, Int.toNat_natCast,
          ← hblanks]
        rfl
      · have hn' : (n : Int) ≠ line := by omega
        dsimp only
        rw [if_neg hn, if_neg hn']
        rfl
    case rows =>
      have hcut : List.range' (max 1 (line - 2)) (min (lines source).length (line + 2) + 1 - max 1 (line - 2)) =
          List.range' (max 1 (line - 2)) (line - max 1 (line - 2)) ++
            (line :: List.range' (line + 1) (min (lines source).length (line + 2) - line)) := by
        have hline : line = max 1 (line - 2) + (line - max 1 (line - 2)) := by omega
        have hcount : min (lines source).length (line + 2) + 1 - max 1 (line - 2) =
            line - max 1 (line - 2) + (min (lines source).length (line + 2) - line + 1) := by omega
        rw [hcount, ← List.range'_append_1, ← hline]
        rfl
      rw [hcut, List.flatMap_append, List.flatMap_cons, if_pos rfl, flatMap_of_notMem, flatMap_of_notMem,
        List.append_assoc]
      all_goals
        rw [List.mem_range'_1]
        omega

theorem excerpt_ne_empty {source : String} (hne : source ≠ "") {line : Nat} (hpos : 1 ≤ line)
    (h : line ≤ (lines source).length) : excerpt source line ≠ "" := by
  intro hempty
  have hwindow : window source line = [""] := by
    rw [← lines_excerpt hpos h, hempty]
    rfl
  have hlength := length_window hpos h
  rw [hwindow, List.length_singleton] at hlength
  have hone : (lines source).length = 1 := by omega
  have hall : window source line = lines source := by
    have hlast : min (lines source).length (line + 2) = (lines source).length := by omega
    have hfirst : max 1 (line - 2) - 1 = 0 := by omega
    rw [window, hlast, hfirst, List.take_length, List.drop_zero]
  apply hne
  rw [← intercalate_lines source, ← hall, hwindow]
  rfl

/-- The text of a problem: its place, rows that show the lines around it, and the message. -/
def IsPage (source file : String) (line column width : Nat) (message page : String) : Prop :=
  ∃ rows, Shows source line column width rows ∧
    page = file ++ ":" ++ toString line ++ ":" ++ toString column ++ "\n" ++ "\n".intercalate rows ++
      "\n" ++ message

theorem isPage_render {source message : String} {s : Site} {line column width : Nat} (hne : source ≠ "")
    (hline : s.line = line) (hcolumn : s.column = column) (hwidth : s.caretCount = width)
    (hexcerpt : s.excerpt = some (excerpt source line)) (hcomponent : s.component = none) (hpos : 1 ≤ line)
    (h : line ≤ (lines source).length) (hpositive : 1 ≤ column) :
    IsPage source s.file line column width message (Report.render ⟨message, some s⟩) := by
  refine ⟨_, shows_rows hline hcolumn hwidth hpos h hpositive, ?_⟩
  have hplace (n : Nat) : toString (n : Int) = toString n := rfl
  dsimp only [Report.render, Site.render]
  rw [hexcerpt, hcomponent]
  dsimp only
  rw [if_neg (excerpt_ne_empty hne hpos h), hline, hcolumn, hplace, hplace]

/-- In the line, `shown` stands from the column on. -/
def StandsAt (source : String) (line column : Nat) (shown : List Char) : Prop :=
  ∃ before behind, (lines source)[line - 1]? = some (String.ofList (before ++ shown ++ behind)) ∧
    column = before.length + 1

theorem standsAt_of_drop {source : String} {offset : Nat} {front rest shown : List Char}
    (hdrop : source.toList.drop offset = front ++ rest) (hshown : (fields '\n' front).head? = some shown) :
    StandsAt source ((source.toList.take offset).count '\n' + 1) (columnAt source.toList offset) shown := by
  obtain ⟨before, hfield, hlength⟩ :=
    exists_field_append '\n' (source.toList.take offset) (source.toList.drop offset)
  obtain ⟨first, behind, hfirst, hhead⟩ := exists_head?_fields_append '\n' front rest
  obtain rfl := Option.some.inj (hshown.symm.trans hfirst)
  rw [List.take_append_drop, hdrop, hhead] at hfield
  refine ⟨before, behind, ?_, ?_⟩
  · rw [lines, Nat.add_sub_cancel, List.getElem?_map, hfield, List.append_assoc]
    rfl
  · rw [columnAt, hlength]

theorem StandsAt.inside {source : String} {line column : Nat} {shown : List Char}
    (h : StandsAt source line column shown) (hpos : 1 ≤ line) : line ≤ (lines source).length := by
  obtain ⟨before, behind, hline, -⟩ := h
  obtain ⟨hlt, -⟩ := List.getElem?_eq_some_iff.mp hline
  omega

namespace Lexer

/-- No token starts with a line feed. -/
theorem head?_ne_of_run {p : Position} {cs : List Char} {ts : Tokens} (h : run p cs = .ok ts) :
    ∀ t ∈ ts.items, ∃ c more, t.text = String.ofList (c :: more) ∧ c ≠ '\n' := by
  induction cs using induction generalizing p ts with
  | nil =>
    rw [run_nil] at h
    obtain rfl := Except.ok.inj h
    nofun
  | step c rest ih =>
    obtain ⟨kind?, n, more, hstep, hrun, rfl⟩ := exists_step_of_run h
    intro t ht
    rcases List.mem_append.mp ht with ht | ht
    · obtain ⟨kind, hkind, rfl⟩ := Option.map_eq_some_iff.mp (Option.mem_toList.mp ht)
      refine ⟨c, _, rfl, ?_⟩
      rintro rfl
      rw [hkind] at hstep
      simp [step, isSkipped] at hstep
    · exact ih n hrun t ht

/-- Where lexing fails. -/
theorem exists_step_of_error {p : Position} {cs : List Char} {e : LexicalError} (h : run p cs = .error e) :
    ∃ front c rest, cs = front ++ c :: rest ∧ step c rest = .error e.problem ∧
      e.place = (p.after front).place := by
  induction cs using induction generalizing p with
  | nil => nomatch (run_nil p).symm.trans h
  | step c rest ih =>
    cases hstep : step c rest with
    | error problem =>
      rw [run_error hstep] at h
      obtain rfl := Except.error.inj h
      exact ⟨[], c, rest, rfl, hstep, rfl⟩
    | ok found =>
      obtain ⟨kind?, n⟩ := found
      rw [run_ok hstep] at h
      cases hrun : run (p.after (c :: rest.take n)) (rest.drop n) with
      | ok more =>
        rw [hrun] at h
        nomatch h
      | error e' =>
        rw [hrun] at h
        obtain rfl := Except.error.inj h
        obtain ⟨front, d, more, hdrop, hfails, hplace⟩ := ih n hrun
        refine ⟨c :: rest.take n ++ front, d, more, ?_, hfails, ?_⟩
        · rw [List.append_assoc, ← hdrop, List.cons_append, List.take_append_drop]
        · rw [hplace, Position.after_append]

/-- Nothing fails at a line feed. -/
theorem ne_of_step_error {c : Char} {rest : List Char} {problem : LexicalProblem}
    (h : step c rest = .error problem) : c ≠ '\n' := by
  rintro rfl
  simp [step, isSkipped] at h

end Lexer

section
variable {source file : String}

/-- The text of a token stands where the token says, as far as its first line goes. -/
theorem standsAt_of_placed {t : Token} (h : t.Placed source.toList)
    (hstart : ∃ c more, t.text = String.ofList (c :: more) ∧ c ≠ '\n') :
    ∃ shown, (lines t.text).head? = some (String.ofList shown) ∧ shown ≠ [] ∧
      StandsAt source t.line t.column shown := by
  obtain ⟨c, more, htext, hc⟩ := hstart
  obtain ⟨first, behind, hfirst, -⟩ := exists_head?_fields_append '\n' more []
  have hshown : (fields '\n' (c :: more)).head? = some (c :: first) := by
    have hmem : '\n' ∉ [c] := by simpa using Ne.symm hc
    simpa [hfirst] using head?_fields_append hmem more
  refine ⟨c :: first, ?_, List.cons_ne_nil c first, ?_⟩
  · rw [lines, htext, String.toList_ofList, List.head?_map, hshown]
    rfl
  · have hdrop := (List.take_append_drop (t.stop - t.offset) (source.toList.drop t.offset)).symm
    rw [h.line, h.column]
    refine standsAt_of_drop hdrop ?_
    rw [← Text.slice, ← String.toList_ofList (l := Text.slice source.toList t.offset t.stop), ← h.written, htext,
      String.toList_ofList]
    exact hshown

theorem StandsAt.pos {line column : Nat} {shown : List Char} (h : StandsAt source line column shown) :
    1 ≤ column := by
  obtain ⟨before, behind, -, rfl⟩ := h
  exact Nat.le_add_left 1 _

theorem Covered.placed {text : List Char} {start stop : Nat} {ts : List Token}
    (h : Covered text stop start ts) : ∀ t ∈ ts, t.Placed text := by
  induction ts generalizing start with
  | nil => nofun
  | cons t ts ih =>
    obtain ⟨-, -, hplaced, hbehind⟩ := h
    exact List.forall_mem_cons.mpr ⟨hplaced, ih hbehind⟩

theorem isPage_atToken {t : Token} {shown : List Char} (hne : source ≠ "")
    (hstands : StandsAt source t.line t.column shown) (hpos : 1 ≤ t.line)
    (hwidth : (lines t.text).head? = some (String.ofList shown)) (problem : Problem)
    (faults : Faults) :
    IsPage source file t.line t.column (max 1 shown.length) (problem.message faults)
      ((ParseError.atToken problem t).report file source faults).render := by
  have hfirst : t.firstLineWidth = max 1 shown.length := by
    rw [Token.firstLineWidth, List.headD_eq_head?_getD, hwidth]
    simp
  have hcarets : ((ParseError.atToken problem t).site file source faults).caretCount = (max 1 shown.length : Nat) := by
    have hcolumn : (t.column : Int) + (max 1 shown.length : Nat) ≠ 0 := by omega
    have hcount : max 1 ((t.column : Int) + (max 1 shown.length : Nat) - t.column) =
        (max 1 shown.length : Nat) := by omega
    simp only [ParseError.site, ParseError.atToken, ParseError.told, ParseError.width?,
      Site.caretCount, hfirst, Token.place, Option.map_some]
    exact (if_pos (by simpa using hcolumn)).trans hcount
  exact isPage_render hne rfl rfl hcarets rfl rfl hpos (hstands.inside hpos) hstands.pos

/-- A lexical error is placed at a character that no token starts with. -/
theorem exists_standsAt_of_error {start stop : Nat} (hstop : stop ≤ source.toList.length)
    {e : LexicalError}
    (he : run ((⟨0, 1, 1⟩ : Position).after (source.toList.take start))
      (Text.slice source.toList start stop) = .error e) : ∃ c rest, step c rest = .error e.problem ∧
        StandsAt source e.place.line e.place.column [c] ∧ 1 ≤ e.place.line := by
  obtain ⟨front, c, rest, hslice, hfails, hplace⟩ := exists_step_of_error he
  have hbehind : Text.slice source.toList (start + front.length) stop = c :: rest := by
    rw [← drop_slice, hslice, List.drop_left]
  have hoffset : start + front.length < stop := by
    have hlength := length_slice (start + front.length) hstop
    rw [hbehind, List.length_cons] at hlength
    omega
  have hdrop : source.toList.drop (start + front.length) =
      [c] ++ (rest ++ source.toList.drop stop) := by
    have hjoin := List.take_append_drop (stop - (start + front.length))
      (source.toList.drop (start + front.length))
    rw [← Text.slice, hbehind, List.drop_drop, Nat.add_sub_cancel' hoffset.le] at hjoin
    exact hjoin.symm
  have hafter : ((⟨0, 1, 1⟩ : Position).after (source.toList.take start)).after front =
      (⟨0, 1, 1⟩ : Position).after (source.toList.take (start + front.length)) := by
    have htaken : Text.slice source.toList start (start + front.length) = front := slice_of_prefix hslice
    have hjoin : source.toList.take start ++ front = source.toList.take (start + front.length) := by
      conv_lhs => rw [← htaken, Text.slice, Nat.add_sub_cancel_left, ← List.take_add]
    rw [← Position.after_append, hjoin]
  rw [hafter, after_take (by omega)] at hplace
  have hstands : StandsAt source e.place.line e.place.column [c] := by
    rw [hplace]
    have hc : '\n' ∉ [c] := by simpa using (ne_of_step_error hfails).symm
    exact standsAt_of_drop hdrop (congrArg List.head? (fields_of_notMem hc))
  exact ⟨c, rest, hfails, hstands, hplace ▸ Nat.le_add_left 1 _⟩

/-- Problems are shown with the lines around them. -/
theorem shows_of_lex {start stop : Nat} (hne : source ≠ "")
    (hstart : start = 0 ∨ source.toList[start - 1]? = some '\n') (hle : start ≤ stop)
    (hstop : stop ≤ source.toList.length) (file : String)
    (faults : Faults) :
    (∀ tokens, lex source.toList start stop = .ok tokens →
      (∀ t ∈ tokens.items, ∀ problem, ∃ shown, (lines t.text).head? = some (String.ofList shown) ∧
        shown ≠ [] ∧ StandsAt source t.line t.column shown ∧
          IsPage source file t.line t.column shown.length (problem.message faults)
            ((ParseError.atToken problem t).report file source faults).render) ∧
      ∀ problem, StandsAt source tokens.eof.line tokens.eof.column [] ∧
        IsPage source file tokens.eof.line tokens.eof.column 1 (problem.message faults)
          ((ParseError.atToken problem tokens.eof).report file source faults).render) ∧
    ∀ e, lex source.toList start stop = .error e →
      (∃ c rest, step c rest = .error e.problem ∧ StandsAt source e.place.line e.place.column [c]) ∧
        IsPage source file e.place.line e.place.column 3 e.problem.message
          (e.report file source).render := by
  rw [lex, ofOffset_eq hstart]
  refine ⟨fun tokens hrun => ?_, fun e he => ?_⟩
  · obtain ⟨hitems, heof⟩ := Tokens.cover_of_run hle hstop hrun
    refine ⟨fun t ht problem => ?_, fun problem => ?_⟩
    · have hplaced := hitems.placed t ht
      obtain ⟨shown, hwidth, hne', hstands⟩ := standsAt_of_placed hplaced (head?_ne_of_run hrun t ht)
      have hpage : IsPage source file _ _ _ _ _ :=
        isPage_atToken hne hstands (hplaced.line ▸ Nat.le_add_left 1 _) hwidth problem faults
      rw [Nat.max_eq_right (List.length_pos_iff.mpr hne')] at hpage
      exact ⟨shown, hwidth, hne', hstands, hpage⟩
    · have hstands : StandsAt source tokens.eof.line tokens.eof.column [] := by
        rw [heof]
        exact standsAt_of_drop (List.nil_append _).symm rfl
      exact ⟨hstands, isPage_atToken hne hstands (heof ▸ Nat.le_add_left 1 _) (heof ▸ rfl) problem faults⟩
  · obtain ⟨c, rest, hfails, hstands, hpos⟩ := exists_standsAt_of_error hstop he
    exact ⟨⟨c, rest, hfails, hstands⟩,
      isPage_render hne rfl rfl rfl rfl rfl hpos (hstands.inside hpos) hstands.pos⟩

end

/-- A string over two lines, and a character that starts no token. -/
def noteSource : String := "Label\n\n  r\"\"\"b\nc\"\"\" 7\n$"

theorem shows_noteSource : ∃ tokens e, lex noteSource.toList 0 22 = .ok tokens ∧
    lex noteSource.toList 0 23 = .error e ∧ e.place = ⟨5, 1⟩ ∧
      tokens.items.map (·.text) = ["Label", "r\"\"\"b\nc\"\"\"", "7"] ∧
      (∀ t ∈ tokens.items, ∀ problem, ∃ shown, (lines t.text).head? = some (String.ofList shown) ∧
        shown ≠ [] ∧ StandsAt noteSource t.line t.column shown ∧
          IsPage noteSource "note.view" t.line t.column shown.length (problem.message .plain)
            ((ParseError.atToken problem t).report "note.view" noteSource .plain).render) ∧
      IsPage noteSource "note.view" 5 1 3 e.problem.message (e.report "note.view" noteSource).render := by
  obtain ⟨tokens, hlex, htexts⟩ : ∃ tokens, lex noteSource.toList 0 22 = .ok tokens ∧
      tokens.items.map (·.text) = ["Label", "r\"\"\"b\nc\"\"\"", "7"] := exists_tokens (by decide +kernel)
  obtain ⟨e, herror, hplace⟩ : ∃ e, lex noteSource.toList 0 23 = .error e ∧
      decide (e.place = ⟨5, 1⟩) := exists_error_of_test (by decide +kernel)
  have hplace := of_decide_eq_true hplace
  have hne : noteSource ≠ "" := by decide
  obtain ⟨htokens, -⟩ := shows_of_lex hne (.inl rfl) (Nat.zero_le 22) (by decide) "note.view" .plain
  obtain ⟨-, herrors⟩ := shows_of_lex hne (.inl rfl) (Nat.zero_le 23) (by decide) "note.view" .plain
  have hpage := (herrors e herror).2
  rw [hplace] at hpage
  exact ⟨tokens, e, hlex, herror, hplace, htexts, (htokens tokens hlex).1, hpage⟩

end ViewTree
