import ViewTree.Code.Statement
import ViewTree.Proofs.Pasting.Inline

/-!
Lines that have an expression without parentheses around it. Main statement: an expression that
stands alone is read there as the tree that it is between parentheses (`Slot.exists_read?_line`).
-/
namespace ViewTree
open Embedded Reader Text

/-- Where generated lines have an expression without parentheses around it. -/
inductive Slot where
  /-- What is assigned. -/
  | value
  /-- What a loop goes through. -/
  | items
  | condition
  | subject
deriving DecidableEq, Repr

namespace Slot

/-- The words in front of the expression, and the lexemes that they are. -/
def words : Slot → List (String × LexemeKind)
  | value => [(valueLocal, .name valueLocal), ("=", .symbol "=")]
  | items => [("for", .keyword "for"), (itemLocal, .name itemLocal), ("in", .keyword "in")]
  | condition => [("if", .keyword "if")]
  | subject => [("match", .name "match")]

/-- Whether a colon stands behind the expression. -/
def opensBlock (s : Slot) : Bool := s ≠ value

def line (s : Slot) (code : String) : String :=
  String.join (s.words.map fun w => w.1 ++ " ") ++ code ++ if s.opensBlock then ":" else ""

/-- One or more items as a term, up to a colon or the end of the line. -/
def itemsTerm (item : Reader Term) : Reader Term := do
  let start ← here
  let (found, commas) ← Reader.items item fun k => endsItems k || k = .symbol ":"
  match found, commas with
  | [one], false => pure one
  | _, _ => close start (.tuple found)

/-- What may stand in the slot. -/
def content (g : Grammar) : Slot → Reader Term
  | value => do
    if (← peek) = some (.keyword "yield") then g.yieldTerm else itemsTerm g.plainItem
  | items => itemsTerm g.plainItem
  | condition => g.named
  | subject => do
    let found ← itemsTerm g.item
    if found.isStarred then failure
    pure found

def expectAll : List LexemeKind → Reader Unit
  | [] => pure ()
  | kind :: more => do
    expect kind
    expectAll more

/-- Reads a line, and gives what stands in the slot. -/
def reader (s : Slot) (g : Grammar) : Reader Term := do
  expectAll (s.words.map (·.2))
  let found ← s.content g
  if s.opensBlock then symbol ":"
  pure found

def read? (s : Slot) (line : String) : Option Term :=
  readText? (fun g _ => s.reader g) line.toList

end Slot

namespace Embedded

/-- The text is a lexeme that no place and no bracket changes. -/
structure IsWord (text : String) (kind : LexemeKind) : Prop where
  starts : text.toList.head?.any startsLexeme
  lexeme : lexeme? 0 text.toList = some (kind, text.length)
  plain : isPlain kind
  level : ∀ pending, nest? pending kind = some pending

theorem passes_word {text : String} {kind : LexemeKind} (h : IsWord text kind) (offset : Nat)
    (pending : List String) (fresh : Bool) (cs : List Char) :
    ∃ k, Passes ⟨offset, pending, fresh⟩ (text.toList ++ ' ' :: cs)
      [⟨kind, offset, offset + text.length⟩] k cs ∧ k.pending = pending ∧ k.fresh = false := by
  obtain ⟨c, hc, hstarts⟩ := (Option.any_eq_true _ _).mp h.starts
  obtain ⟨rest, htext⟩ := List.head?_eq_some_iff.mp hc
  obtain ⟨kind', hkind', hsame⟩ := exists_lexeme?_elsewhere h.lexeme offset
  obtain rfl := eq_of_unplaced h.plain hsame.symm
  have hlexeme := lexeme?_append (stops_cons (c := ' ') (by decide) cs) hkind'
  have hlength : text.length = rest.length + 1 := by
    rw [← String.length_toList, htext, List.length_cons]
  rw [htext, List.cons_append] at hlexeme ⊢
  have hdrop : (rest ++ ' ' :: cs).drop (text.length - 1) = ' ' :: cs := by
    rw [hlength, Nat.add_sub_cancel, List.drop_left]
  refine ⟨⟨offset + max 1 text.length + 1, pending, false⟩,
    .lexeme hstarts hlexeme (h.level pending) ?_, rfl, rfl⟩
  rw [hdrop]
  exact .blank (.inl (.inl rfl)) (.done _ _)

theorem passes_words {words : List (String × LexemeKind)} (hwords : ∀ w ∈ words, IsWord w.1 w.2)
    (offset : Nat) (pending : List String) (fresh : Bool) (cs : List Char) :
    ∃ ts k, Passes ⟨offset, pending, fresh⟩
      ((String.join (words.map fun w => w.1 ++ " ")).toList ++ cs) ts k cs ∧ k.pending = pending ∧
        k.fresh = (fresh && words.isEmpty) ∧ ts.map (·.kind) = words.map (·.2) := by
  induction words generalizing offset fresh with
  | nil => exact ⟨[], _, .done _ _, rfl, by simp, rfl⟩
  | cons w words ih =>
    obtain ⟨hword, hwords⟩ := List.forall_mem_cons.mp hwords
    obtain ⟨⟨o, p, f⟩, hfirst, rfl, rfl⟩ := passes_word hword offset pending fresh
      ((String.join (words.map fun w => w.1 ++ " ")).toList ++ cs)
    obtain ⟨ts, k, hrest, hpending, hfresh, hkinds⟩ := ih hwords o false
    refine ⟨[⟨w.2, offset, offset + w.1.length⟩] ++ ts, k, ?_, hpending, ?_, ?_⟩
    · simpa using hfirst.trans hrest
    · simpa using hfresh
    · simpa using hkinds

theorem length_le_inlineText (text : String) : text.length ≤ (inlineText text).length := by
  unfold inlineText
  split
  · rw [String.length_ofList, grouped, List.length_append, List.length_cons, String.length_toList]
    omega
  · exact Nat.le_refl _

theorem not_feed_of_getLast? (text : String) : '\n' ∉ (inlineText text).toList.getLast? := by
  unfold inlineText
  by_cases hlines : isMultiline text
  · rw [if_pos hlines, String.toList_ofList, grouped, List.cons_append, List.getLast?_cons,
      List.getLast?_concat]
    decide
  · rw [if_neg hlines]
    have hfeed : '\n' ∉ text.toList := by simpa [isMultiline] using hlines
    exact fun h => hfeed (List.mem_of_mem_getLast? h)

section
variable {inner : FieldReader} {depth last last' : Nat} {us tail : List Lexeme} {t : Lexeme}
  {term : Term} (hread : (grammarAt inner depth).1.expression ⟨us ++ t :: tail, last⟩ =
    some (term, ⟨t :: tail, last'⟩))
include hread

theorem exists_walk?_of_expression : ∃ w, Nesting.walk? ⟨0, 0, false⟩ us = some w := by
  obtain ⟨used, hused, hpassage, -⟩ :=
    (follows_grammarAt inner depth depth).1.expression _ _ _ trivial hread
  obtain rfl : us = used := List.append_cancel_right hused
  obtain ⟨w, hwalk, -⟩ := hpassage.walks 0 0 ⟨0, 0, false⟩ ⟨rfl, fun _ => rfl⟩
  exact ⟨w, hwalk⟩

/-- No expression starts with a name that is bound. -/
theorem namesNext_of_expression (ht : endsExpression t.kind) :
    Grammar.namesNext ⟨us ++ t :: tail, last⟩ = some (false, ⟨us ++ t :: tail, last⟩) := by
  obtain ⟨w, hwalk⟩ := exists_walk?_of_expression hread
  refine namesNext_of_walk? hwalk ?_ ?_
  · rcases cases_of_endsExpression ht with h | h | h | h <;> simp [h]
  · rcases cases_of_endsExpression ht with h | h | h | h <;> simp [h]

end
end Embedded

namespace Slot

/-- What stands behind the expression. -/
def behind (s : Slot) : LexemeKind := if s.opensBlock then .symbol ":" else .lineEnd

/-- An expression may stand in each slot. -/
theorem content_of_expression (s : Slot) {inner : FieldReader} {depth last last' : Nat}
    {us tail : List Lexeme} {t : Lexeme} {term : Term} (ht : t.kind = s.behind)
    (hread : (grammarAt inner depth).1.expression ⟨us ++ t :: tail, last⟩ =
      some (term, ⟨t :: tail, last'⟩)) :
    s.content (grammarAt inner depth).1 ⟨us ++ t :: tail, last⟩ = some (term, ⟨t :: tail, last'⟩) := by
  have hends : endsExpression t.kind := by
    rw [ht]
    cases s <;> decide
  have hnamed := namesNext_of_expression hread hends
  have hstray (k : LexemeKind) := not_stray_of_expression (k := k) hread
  have hterm := unstarred_expression inner depth _ _ _ hread
  have hj : Next (some t.kind) ⟨t :: tail, last'⟩ := rfl
  have hcomma : t.kind ≠ .symbol "," := by
    rw [ht]
    cases s <;> decide
  have hitems {item : Reader Term}
      (hitem : item ⟨us ++ t :: tail, last⟩ = some (term, ⟨t :: tail, last'⟩)) :
      itemsTerm item ⟨us ++ t :: tail, last⟩ = some (term, ⟨t :: tail, last'⟩) := by
    unfold itemsTerm
    rw [bind_eq (here_eq _), bind_eq (items_stop hitem hj hcomma)]
    rfl
  cases s with
  | value =>
    have hyield : ¬(us ++ t :: tail).head?.map (·.kind) = some (.keyword "yield") :=
      fun hi => hstray _ hi rfl
    unfold content
    dsimp only
    rw [bind_eq (peek_of_next rfl), if_neg hyield]
    exact hitems (plainItem_of_expression hread hstray)
  | items => exact hitems (plainItem_of_expression hread hstray)
  | condition => exact named_of_expression hread hnamed
  | subject =>
    unfold content
    dsimp only
    rw [bind_eq (hitems (item_of_expression hread hstray hnamed)), hterm]
    rfl

theorem expectAll_eq {kinds : List LexemeKind} {ts : List Lexeme} (h : ts.map (·.kind) = kinds)
    (rest : List Lexeme) (last : Nat) :
    ∃ last', expectAll kinds ⟨ts ++ rest, last⟩ = some ((), ⟨rest, last'⟩) := by
  induction ts generalizing kinds last with
  | nil =>
    obtain rfl := h
    exact ⟨last, rfl⟩
  | cons t ts ih =>
    obtain rfl := h
    obtain ⟨last', hlast⟩ := ih rfl t.stop
    have hfirst : expect t.kind ⟨t :: ts ++ rest, last⟩ = some ((), ⟨ts ++ rest, t.stop⟩) :=
      expect_eq rfl _ _
    refine ⟨last', ?_⟩
    rw [List.map_cons, expectAll, bind_eq hfirst, hlast]

theorem isWord_of_mem (s : Slot) : ∀ w ∈ s.words, IsWord w.1 w.2 := by
  cases s
  all_goals repeat
    first
    | exact List.forall_mem_nil _
    | refine List.forall_mem_cons.mpr ⟨⟨by decide, by decide, rfl, fun _ => rfl⟩, ?_⟩

/-- What stands behind the expression is seen there. -/
theorem exists_scan_behind (s : Slot) (offset : Nat) :
    ∃ t tail, ScanPoint.scan ⟨offset, [], false⟩ (if s.opensBlock then [':'] else []) =
      some (t :: tail) ∧ t.kind = s.behind ∧ ∀ u ∈ if s.opensBlock then tail else t :: tail,
        u.kind = .lineEnd := by
  have hend (offset : Nat) : scanFrom offset [] false [] = some [⟨.lineEnd, offset, offset⟩] := by
    rw [scanFrom]
    rfl
  have hblock : ∃ t tail, scanFrom offset [] false [':'] = some (t :: tail) ∧
      t.kind = .symbol ":" ∧ ∀ u ∈ tail, u.kind = .lineEnd := by
    have hcolon : lexeme? offset [':'] = some (.symbol ":", 1) := rfl
    have hlevel : nest? [] (.symbol ":") = some [] := rfl
    rw [scanFrom_lexeme (by decide) hcolon hlevel, List.drop_nil, hend]
    exact ⟨_, _, rfl, rfl, by simp⟩
  cases s with
  | value => exact ⟨_, _, hend offset, rfl, by simp [opensBlock]⟩
  | _ => exact hblock

/-- The line is scanned as the lexemes of the words, those of the expression, and what is behind. -/
theorem exists_scan_line (s : Slot) {text : String} {ts : List Lexeme}
    (h : PassesAs [] (inlineText text).toList ts) :
    ∃ ws us t tail, scan (s.line (inlineText text)).toList = some (ws ++ (us ++ t :: tail)) ∧
      ws.map (·.kind) = s.words.map (·.2) ∧ Alike us ts ∧ t.kind = s.behind ∧
        ∀ u ∈ if s.opensBlock then tail else t :: tail, u.kind = .lineEnd := by
  have hline : (s.line (inlineText text)).toList =
      (String.join (s.words.map fun w => w.1 ++ " ")).toList ++
        ((inlineText text).toList ++ if s.opensBlock then [':'] else []) := by
    unfold line
    rw [String.toList_append, String.toList_append, List.append_assoc]
    split <;> rfl
  obtain ⟨ws, ⟨o, p, f⟩, hwords, hp, hf, hkinds⟩ := passes_words s.isWord_of_mem 0 [] true
    ((inlineText text).toList ++ if s.opensBlock then [':'] else [])
  obtain rfl : p = [] := hp
  obtain rfl : f = false := by
    refine hf.trans ?_
    cases s <;> rfl
  obtain ⟨us, ⟨o', p', f'⟩, hus, hp', hf', halike⟩ := h o false
  obtain rfl : p' = [] := hp'
  obtain rfl : f' = false := hf'
  have hstops : Stops (if s.opensBlock then [':'] else []) := by
    split
    · exact stops_cons (by decide) []
    · exact stops_nil
  obtain ⟨t, tail, hbehind, hkind, hend⟩ := s.exists_scan_behind o'
  refine ⟨ws, us, t, tail, ?_, hkinds, halike, hkind, hend⟩
  have hall := (hwords.trans (hus.append hstops)).scan_eq fun hfeed => ?_
  · rw [hline]
    refine hall.trans ?_
    rw [List.nil_append, hbehind, Option.map_some, List.append_assoc]
  · -- a line ends with its colon, or with the code, which ends with no line feed
    have hwords : '\n' ∉ (String.join (s.words.map fun w => w.1 ++ " ")).toList.getLast? := by
      cases s <;> decide
    have hcode := not_feed_of_getLast? text
    cases hblock : s.opensBlock with
    | true => simp
    | false =>
      rw [hblock, if_neg nofun, List.append_nil, List.getLast?_append] at hfeed
      rcases Option.or_eq_some_iff.mp hfeed with hfeed | ⟨-, hfeed⟩
      · exact absurd hfeed hcode
      · exact absurd hfeed hwords

/-- Where a group that stands alone is put into a slot, the line is read with the same tree in it. -/
theorem exists_read?_line (s : Slot) {text : String} {term : Term} (h : IsInline text term) :
    ∃ found, s.read? (s.line (inlineText text)) = some found ∧ found.unplaced = term.unplaced := by
  obtain ⟨ts, hreads, hpasses, -⟩ := h.exists_passesAs
  obtain ⟨ws, us, t, tail, hscan, hkinds, halike, hkind, hend⟩ := s.exists_scan_line hpasses
  have hends : endsExpression t.kind := by
    rw [hkind]
    cases s <;> decide
  have hlength : (grouped text).length ≤ (s.line (inlineText text)).toList.length := by
    have hwords : 2 ≤ (String.join (s.words.map fun w => w.1 ++ " ")).length := by
      cases s <;> decide
    have hcode := length_le_inlineText text
    rw [String.length_toList, line, String.length_append, String.length_append, grouped,
      List.length_append, List.length_cons, String.length_toList]
    simp only [List.length_singleton]
    omega
  obtain ⟨last, hwords⟩ := expectAll_eq hkinds (us ++ t :: tail) 0
  have hdepth : us.length < (ws ++ (us ++ t :: tail)).length + 1 := by
    simp
    omega
  obtain ⟨found, last', hfound, hsame⟩ :=
    hreads.exists_expression hlength halike hends hdepth tail last
  have hcontent := s.content_of_expression hkind hfound
  refine ⟨found, ?_, hsame⟩
  have hall : ∃ left, readAll? (readField (s.line (inlineText text)).toList.length)
      (fun g _ => s.reader g) (ws ++ (us ++ t :: tail)) = some (found, left) ∧ atEnd left := by
    unfold readAll? reader
    dsimp only
    rw [bind_eq hwords, bind_eq hcontent]
    cases hblock : s.opensBlock with
    | true =>
      rw [hblock] at hend
      rw [if_pos rfl, bind_eq (symbol_eq (hkind.trans (by rw [behind, hblock]; rfl)) _ _)]
      exact ⟨_, rfl, by simpa [atEnd] using hend⟩
    | false =>
      rw [hblock] at hend
      exact ⟨_, rfl, by simpa [atEnd] using hend⟩
  obtain ⟨left, hall, hleft⟩ := hall
  unfold read? readText?
  rw [hscan, Option.bind_eq_bind, Option.bind_some, hall, Option.bind_eq_bind, Option.bind_some]
  show (if atEnd _ then _ else _) = _
  rw [if_pos hleft]
  rfl

end Slot
end ViewTree
