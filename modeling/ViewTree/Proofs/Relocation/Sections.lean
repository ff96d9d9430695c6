import Mathlib.Data.List.Basic
import ViewTree.Source.Section

/-!
Sections of two texts put together. Main statement: where the first text ends in a line end and the
second starts with a header, the sections of both are those of the first and then those of the
second, further in (`Section.ofText_append`).
-/
namespace ViewTree
open Text

namespace Header

theorem takeWhile_append_of_stop {α : Type} {p : α → Bool} {u : List α} {c : α} (hc : c ∈ u)
    (hp : p c = false) (s : List α) : (u ++ s).takeWhile p = u.takeWhile p := by
  induction u with
  | nil => simp at hc
  | cons a u ih =>
    rw [List.cons_append, List.takeWhile_cons, List.takeWhile_cons]
    split
    · rename_i ha
      have hu : c ∈ u := by
        rcases List.mem_cons.mp hc with rfl | hu
        · simp [hp] at ha
        · exact hu
      rw [ih hu]
    · rfl

theorem dropWhile_append_of_stop {α : Type} {p : α → Bool} {u : List α} {c : α} (hc : c ∈ u)
    (hp : p c = false) (s : List α) :
    (u ++ s).dropWhile p = u.dropWhile p ++ s ∧ c ∈ u.dropWhile p := by
  induction u with
  | nil => simp at hc
  | cons a u ih =>
    rw [List.cons_append, List.dropWhile_cons, List.dropWhile_cons]
    split
    · rename_i ha
      have hu : c ∈ u := by
        rcases List.mem_cons.mp hc with rfl | hu
        · simp [hp] at ha
        · exact hu
      exact ih hu
    · exact ⟨rfl, hc⟩

theorem dropWord?_append (word : String) {u : List Char} {c : Char} (hc : c ∈ u)
    (hword : c ∉ word.toList) (s : List Char) :
    dropWord? word (u ++ s) = (dropWord? word u).map (· ++ s) ∧
      ∀ rest ∈ dropWord? word u, c ∈ rest := by
  unfold dropWord?
  by_cases h : word.toList <+: u
  · obtain ⟨rest, rfl⟩ := h
    have hlength : word.length = word.toList.length := rfl
    have hrest : c ∈ rest := (List.mem_append.mp hc).resolve_left hword
    simp [hlength, hrest]
  · have happend : ¬word.toList <+: u ++ s := by
      intro hleading
      rcases List.prefix_or_prefix_of_prefix hleading (List.prefix_append u s) with hu | hu
      · exact h hu
      · exact hword (hu.subset hc)
    simp [h, happend]

theorem nameOf?_append {u : List Char} (h : '\n' ∈ u) (s : List Char) :
    nameOf? (u ++ s) = nameOf? u := by
  have hgap : isGap '\n' = false := by decide
  have hword : isWordChar '\n' = false := by decide
  obtain ⟨hdrop, hmem⟩ := dropWhile_append_of_stop h hgap s
  unfold nameOf?
  rw [takeWhile_append_of_stop h hgap s, hdrop]
  cases hrest : u.dropWhile isGap with
  | nil => simp [hrest] at hmem
  | cons c rest =>
    rw [List.cons_append]
    cases u.takeWhile isGap with
    | nil => rfl
    | cons d gap =>
      dsimp only
      split
      · rename_i hletter
        have hrestmem : '\n' ∈ rest := by
          rw [hrest] at hmem
          rcases List.mem_cons.mp hmem with rfl | hmem
          · exact absurd hletter (by decide)
          · exact hmem
        obtain ⟨hbehind, hbehindmem⟩ := dropWhile_append_of_stop hrestmem hword s
        obtain ⟨hopen, hopenmem⟩ := dropWhile_append_of_stop hbehindmem hgap s
        have hdrop (cs : List Char) :
            cs.drop (cs.takeWhile isWordChar).length = cs.dropWhile isWordChar := by
          conv_lhs => arg 2; rw [← List.takeWhile_append_dropWhile (p := isWordChar) (l := cs)]
          exact List.drop_left
        have htake := takeWhile_append_of_stop hrestmem hword s
        rw [← htake, hdrop, hbehind, hopen, htake, hdrop]
        cases hlast : (rest.dropWhile isWordChar).dropWhile isGap with
        | nil => simp [hlast] at hopenmem
        | cons b more => rfl
      · rfl

/-- A header ends on its line, so what follows the line has no part in it. -/
theorem read?_append {u : List Char} (h : '\n' ∈ u) (s : List Char) :
    read? (u ++ s) = read? u := by
  obtain ⟨hview, hviewmem⟩ := dropWord?_append "view" h (by decide) s
  obtain ⟨htemplate, htemplatemem⟩ := dropWord?_append "template" h (by decide) s
  unfold read?
  rw [hview, htemplate]
  cases hv : dropWord? "view" u with
  | some rest =>
    simp only [Option.map_some]
    rw [nameOf?_append (hviewmem rest hv)]
  | none =>
    cases ht : dropWord? "template" u with
    | some rest =>
      simp only [Option.map_none, Option.map_some]
      rw [nameOf?_append (htemplatemem rest ht)]
    | none => rfl

/-- Headers with so many characters in front of them. -/
def shift {α : Type} (n : Nat) (start : Nat × α) : Nat × α := (start.1 + n, start.2)

theorem findFrom_add (offset n : Nat) (fresh : Bool) (cs : List Char) :
    findFrom (offset + n) fresh cs = (findFrom offset fresh cs).map (shift n) := by
  induction cs generalizing offset fresh with
  | nil => rfl
  | cons c cs ih =>
    have hnext : offset + n + 1 = offset + 1 + n := by omega
    rw [findFrom, findFrom, hnext, ih]
    split <;> rfl

/-- Behind a line end the headers are found as in a text of their own. -/
theorem findFrom_append (offset : Nat) (fresh : Bool) (u s : List Char) :
    findFrom offset fresh (u ++ '\n' :: s) =
      findFrom offset fresh (u ++ ['\n']) ++ findFrom (offset + u.length + 1) true s := by
  induction u generalizing offset fresh with
  | nil =>
    have hread (cs : List Char) : read? ('\n' :: cs) = none := rfl
    simp only [List.nil_append, findFrom, hread, ite_self, List.length_nil, Nat.add_zero,
      decide_true]
  | cons c u ih =>
    have hread : read? (c :: (u ++ '\n' :: s)) = read? (c :: (u ++ ['\n'])) := by
      have h := read?_append (u := c :: (u ++ ['\n'])) (by simp) s
      simpa using h
    have hlength : offset + 1 + u.length = offset + (c :: u).length := by
      simp only [List.length_cons]
      omega
    rw [List.cons_append, findFrom, List.cons_append, findFrom, hread, ih, hlength]
    split <;> rfl

theorem lt_of_mem_findFrom {offset : Nat} {fresh : Bool} {cs : List Char} {start : Nat}
    {header : Header} (h : (start, header) ∈ findFrom offset fresh cs) :
    offset ≤ start ∧ start < offset + cs.length := by
  induction cs generalizing offset fresh with
  | nil => simp [findFrom] at h
  | cons c cs ih =>
    have hmore (h : (start, header) ∈ findFrom (offset + 1) (c = '\n') cs) :
        offset ≤ start ∧ start < offset + (c :: cs).length := by
      have := ih h
      simp only [List.length_cons]
      omega
    rw [findFrom] at h
    split at h
    · rcases List.mem_cons.mp h with heq | h
      · obtain ⟨rfl, -⟩ := Prod.mk.inj heq
        simp only [List.length_cons]
        omega
      · exact hmore h
    · exact hmore h

end Header

namespace Section

def shift (n : Nat) (s : Section) : Section := { s with start := s.start + n, stop := s.stop + n }

theorem fromStarts_append (stop : Nat) (as : List (Nat × Option Header)) (start : Nat)
    (header : Option Header) (bs : List (Nat × Option Header)) :
    fromStarts stop (as ++ (start, header) :: bs) =
      fromStarts start as ++ fromStarts stop ((start, header) :: bs) := by
  induction as with
  | nil => rfl
  | cons a as ih =>
    obtain ⟨here, own⟩ := a
    cases as with
    | nil => rfl
    | cons b as =>
      obtain ⟨next, other⟩ := b
      simp only [List.cons_append, fromStarts] at ih ⊢
      rw [ih]

theorem fromStarts_shift (stop n : Nat) (starts : List (Nat × Option Header)) :
    fromStarts (stop + n) (starts.map (Header.shift n)) = (fromStarts stop starts).map (shift n) := by
  induction starts with
  | nil => rfl
  | cons a starts ih =>
    obtain ⟨here, own⟩ := a
    cases starts with
    | nil => rfl
    | cons b starts =>
      obtain ⟨next, other⟩ := b
      simp only [List.map_cons, Header.shift, fromStarts] at ih ⊢
      rw [ih]
      rfl

theorem le_of_mem_fromStarts {stop : Nat} {starts : List (Nat × Option Header)}
    (h : ∀ entry ∈ starts, entry.1 ≤ stop) {s : Section} (hs : s ∈ fromStarts stop starts) :
    s.start ≤ stop ∧ s.stop ≤ stop := by
  induction starts with
  | nil => simp [fromStarts] at hs
  | cons a starts ih =>
    obtain ⟨here, own⟩ := a
    have hhere : here ≤ stop := h _ List.mem_cons_self
    cases starts with
    | nil =>
      obtain rfl := List.mem_singleton.mp hs
      exact ⟨hhere, Nat.le_refl stop⟩
    | cons b starts =>
      obtain ⟨next, other⟩ := b
      rw [fromStarts] at hs
      rcases List.mem_cons.mp hs with rfl | hs
      · exact ⟨hhere, h (next, other) (by simp)⟩
      · exact ih (fun entry hentry => h entry (List.mem_cons_of_mem _ hentry)) hs

/-- Starts of sections from those of headers: the beginning of the text is always one. -/
def anchored : List (Nat × Option Header) → List (Nat × Option Header)
  | (0, header) :: more => (0, header) :: more
  | headers => (0, none) :: headers

theorem anchored_append (as : List (Nat × Option Header)) (start : Nat) (header : Option Header)
    (bs : List (Nat × Option Header)) :
    anchored (as ++ (start + 1, header) :: bs) = anchored as ++ (start + 1, header) :: bs := by
  match as with
  | [] => rfl
  | (0, own) :: more => rfl
  | (n + 1, own) :: more => rfl

theorem mem_of_mem_anchored {headers : List (Nat × Option Header)} {entry : Nat × Option Header}
    (h : entry ∈ anchored headers) : entry.1 = 0 ∨ entry ∈ headers := by
  match headers with
  | [] => exact .inl (by rw [List.mem_singleton.mp h])
  | (0, own) :: more => exact .inr h
  | (n + 1, own) :: more =>
    rcases List.mem_cons.mp h with rfl | h
    · exact .inl rfl
    · exact .inr h

def headerStarts (text : List Char) : List (Nat × Option Header) :=
  (Header.findFrom 0 true text).map fun (start, header) => (start, some header)

theorem ofText_eq (text : List Char) :
    ofText text = fromStarts text.length (anchored (headerStarts text)) := by
  show fromStarts _ (match headerStarts text with
    | (0, header) :: more => (0, header) :: more
    | _ => (0, none) :: headerStarts text) = _
  match headerStarts text with
  | [] => rfl
  | (0, own) :: more => rfl
  | (n + 1, own) :: more => rfl

theorem le_of_mem_anchored {text : List Char} {entry : Nat × Option Header}
    (h : entry ∈ anchored (headerStarts text)) : entry.1 ≤ text.length := by
  rcases mem_of_mem_anchored h with hzero | h
  · omega
  · obtain ⟨⟨start, header⟩, hmem, rfl⟩ := List.mem_map.mp h
    have := Header.lt_of_mem_findFrom hmem
    dsimp only
    omega

theorem le_of_mem_ofText {text : List Char} {s : Section} (hs : s ∈ ofText text) :
    s.start ≤ text.length ∧ s.stop ≤ text.length :=
  le_of_mem_fromStarts (fun _ hentry => le_of_mem_anchored hentry) (ofText_eq text ▸ hs)

/-- A text that starts with a header has its first section there. -/
theorem headerStarts_of_read? {s : List Char} (hs : (Header.read? s).isSome) :
    ∃ header more, headerStarts s = (0, some header) :: more := by
  obtain ⟨header, hheader⟩ := Option.isSome_iff_exists.mp hs
  cases s with
  | nil => simp [Header.read?, Header.dropWord?] at hheader
  | cons c cs => exact ⟨header, _, by rw [headerStarts, Header.findFrom, if_pos rfl, hheader]; rfl⟩

/-- Headers are found behind whole lines as by themselves. -/
theorem headerStarts_append (u s : List Char) : headerStarts (u ++ '\n' :: s) =
    headerStarts (u ++ ['\n']) ++ (headerStarts s).map (Header.shift (u.length + 1)) := by
  have hshift := Header.findFrom_add 0 (u.length + 1) true s
  rw [headerStarts, Header.findFrom_append, Nat.add_assoc, hshift, List.map_append, List.map_map,
    headerStarts, headerStarts, List.map_map]
  rfl

/-- The sections of a text of whole lines and of one that starts with a header. -/
theorem ofText_append (u s : List Char) (hs : (Header.read? s).isSome) :
    ofText (u ++ '\n' :: s) =
      ofText (u ++ ['\n']) ++ (ofText s).map (shift (u.length + 1)) := by
  obtain ⟨header, more, hstarts⟩ := headerStarts_of_read? hs
  have hsource : ofText s = fromStarts s.length ((0, some header) :: more) := by
    rw [ofText_eq, hstarts]
    rfl
  have hlength : (u ++ '\n' :: s).length = s.length + (u.length + 1) := by
    simp only [List.length_append, List.length_cons]
    omega
  have hfirst : (u ++ ['\n']).length = u.length + 1 := by simp
  have hzero : 0 + (u.length + 1) = u.length + 1 := Nat.zero_add _
  rw [ofText_eq, headerStarts_append, hstarts, List.map_cons, Header.shift, hzero, anchored_append,
    fromStarts_append, hsource, ← fromStarts_shift, hlength, ofText_eq, hfirst, List.map_cons,
    Header.shift, hzero]

end Section
end ViewTree
