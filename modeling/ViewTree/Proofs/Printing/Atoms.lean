import ViewTree.Proofs.Printing.Levels

/-!
Atoms and items on lexemes whose kinds are known. Main statements: what the reader of atoms reads is read
at the tightest place (`readsAt_of_atom`), a term of any place between parentheses too
(`ReadsAt.grouped`), and in lists terms are read as items (`ItemAt.item`).
-/
namespace ViewTree.Embedded
open Reader Grammar

namespace ReadsAt
variable {inner : FieldReader} {depth : Nat} {l : Level} {kinds : List LexemeKind} {y : Term}

theorem expression {i : FieldReader} {d : Nat} (h : ReadsAt 4 kinds y) (hdepth : kinds.length < d) :
    Consumes Term.unplaced (Under 4) (grammarAt i d).1.expression kinds y := by
  obtain ⟨d, rfl⟩ := Nat.exists_eq_add_of_le' (Nat.lt_of_le_of_lt (Nat.zero_le _) hdepth)
  cases d with
  | zero => exact absurd (List.length_pos_iff.mpr h.ne_nil) (by omega)
  | succ d => exact h.consumes (d := d) (by omega)

theorem inversion (h : ReadsAt 7 kinds y) (hdepth : kinds.length < depth) :
    Consumes Term.unplaced (Under 7) (grammarAt inner depth).1.inversion kinds y := by
  obtain ⟨depth, rfl⟩ := Nat.exists_eq_add_of_le' (Nat.lt_of_le_of_lt (Nat.zero_le _) hdepth)
  cases depth with
  | zero => exact absurd (List.length_pos_iff.mpr h.ne_nil) (by omega)
  | succ depth => exact h.consumes (d := depth) (by omega)

theorem succ_of_length_le (h : ReadsAt l kinds y) (hdepth : kinds.length ≤ depth) :
    ∃ below, depth = below + 1 :=
  Nat.exists_eq_add_one_of_ne_zero
    (Nat.ne_zero_of_lt (Nat.lt_of_lt_of_le (List.length_pos_iff.mpr h.ne_nil) hdepth))

theorem disjunction {i : FieldReader} {d : Nat} (h : ReadsAt 5 kinds y) (hdepth : kinds.length ≤ d) :
    Consumes Term.unplaced (Under 5) (grammarAt i d).1.disjunction kinds y := by
  obtain ⟨d, rfl⟩ := h.succ_of_length_le hdepth
  exact h.consumes hdepth

theorem bitOr (h : ReadsAt 9 kinds y) (hdepth : kinds.length ≤ depth) :
    Consumes Term.unplaced (Under 9) (grammarAt inner depth).1.bitOr kinds y := by
  obtain ⟨depth, rfl⟩ := h.succ_of_length_le hdepth
  exact h.consumes hdepth

theorem factor {i : FieldReader} {d : Nat} (h : ReadsAt 15 kinds y) (hdepth : kinds.length ≤ d) :
    Consumes Term.unplaced (Under 15) (grammarAt i d).1.factor kinds y := by
  obtain ⟨d, rfl⟩ := h.succ_of_length_le hdepth
  exact h.consumes hdepth

theorem primary (h : ReadsAt 18 kinds y) (hdepth : kinds.length ≤ depth) :
    Consumes Term.unplaced (Under 18) (grammarAt inner depth).2 kinds y := by
  obtain ⟨depth, rfl⟩ := h.succ_of_length_le hdepth
  exact h.consumes hdepth

end ReadsAt

section
variable {kinds : List LexemeKind} {y : Term}

theorem readsAt_of_atom (hopens : ∃ k ks, kinds = k :: ks ∧ 18 ≤ opens k)
    (hunbound : ∀ id k ks, kinds = .name id :: k :: ks → Under 20 k) (hstar : y.isStarred = false)
    (h : ∀ inner depth, kinds.length ≤ depth + 1 →
      Consumes Term.unplaced (Under 19) ((grammarAt inner depth).1.atom inner (grammarAt inner depth).2)
        kinds y) : ReadsAt 18 kinds y :=
  ⟨hopens, hunbound, hstar, fun inner depth hdepth =>
    (readIn_of_loop rfl).mpr (loops_of_first (h inner depth hdepth))⟩

/-- What the reader of atoms does behind its first lexeme, which is no string. -/
def Grammar.atomFrom (g : Grammar) (primary : Reader Term) (start : Nat) : LexemeKind → Reader Term
  | .name id => close start (.name id)
  | .number value => close start (.literal value)
  | .keyword "None" => close start (.literal .none)
  | .keyword "True" => close start (.literal (.bool true))
  | .keyword "False" => close start (.literal (.bool false))
  | .symbol "..." => close start (.literal .ellipsis)
  | .symbol "(" => g.parenthesized primary start
  | .symbol "[" => g.bracketed primary start
  | .symbol "\x7b" => g.braced primary start
  | _ => failure

theorem consumes_atom {g : Grammar} {inner : FieldReader} {primary : Reader Term} {k : LexemeKind}
    (hk : isPlain k)
    (h : ∀ start, Consumes Term.unplaced (Under 19) (g.atomFrom primary start k) kinds y) :
    Consumes Term.unplaced (Under 19) (g.atom inner primary) (k :: kinds) y := by
  refine consumes_here fun start => consumes_peek (begins_plain (P := (· = k)) hk rfl) ?_
  rintro _ rfl
  split
  · next heq =>
    obtain rfl := Option.some.inj heq
    cases hk
  · exact consumes_take hk (h start)

theorem readsAt_name (id : String) : ReadsAt 18 [.name id] (.mk 0 0 (.name id)) :=
  readsAt_of_atom ⟨_, _, rfl, Nat.le_refl 18⟩ nofun rfl fun _ _ _ =>
    consumes_atom rfl fun start => consumes_close rfl start

theorem readsAt_number (value : Literal) : ReadsAt 18 [.number value] (.mk 0 0 (.literal value)) :=
  readsAt_of_atom ⟨_, _, rfl, Nat.le_refl 18⟩ nofun rfl fun _ _ _ =>
    consumes_atom rfl fun start => consumes_close rfl start

def constant? : LexemeKind → Option Literal
  | .keyword "None" => some .none
  | .keyword "True" => some (.bool true)
  | .keyword "False" => some (.bool false)
  | .symbol "..." => some .ellipsis
  | _ => none

theorem readsAt_constant {k : LexemeKind} {value : Literal} (h : constant? k = some value) :
    ReadsAt 18 [k] (.mk 0 0 (.literal value)) := by
  unfold constant? at h
  split at h
  case h_5 => cases h
  all_goals
    obtain rfl := Option.some.inj h
    exact readsAt_of_atom ⟨_, _, rfl, by decide⟩ nofun rfl fun _ _ _ =>
      consumes_atom rfl fun start => consumes_close rfl start

theorem exists_string_of_unplaced {k : LexemeKind} {s : StringLiteral}
    (h : k.unplaced = .string ⟨s.marks, s.body, 0⟩) : ∃ offset, k = .string ⟨s.marks, s.body, offset⟩ := by
  cases k with
  | string found =>
    obtain ⟨marks, body, offset⟩ := found
    obtain ⟨rfl, rfl, -⟩ := StringLiteral.mk.inj (LexemeKind.string.inj h)
    exact ⟨offset, rfl⟩
  | _ => cases h

/-- A string that stands alone. -/
theorem consumes_stringLiterals (s : StringLiteral) :
    Consumes (List.map StringLiteral.unplaced) (Under 19) stringLiterals [.string ⟨s.marks, s.body, 0⟩]
      [⟨s.marks, s.body, 0⟩] := by
  refine consumes_many_one (consumes_peek (fun _ hk => hk) fun k hk => ?_) (List.cons_ne_nil _ _)
    (consumes_peek (fun _ => exists_string_of_unplaced) ?_)
  · split
    · next heq =>
      obtain rfl := Option.some.inj heq
      exact absurd hk (Nat.lt_irrefl 19)
    · exact consumes_pure rfl
  · rintro _ ⟨offset, rfl⟩
    exact consumes_next fun _ _ => consumes_pure rfl

theorem readsAt_string {s : StringLiteral} {value : Literal}
    (h : ∀ inner offset, stringsForm? inner [⟨s.marks, s.body, offset⟩] = some (.literal value)) :
    ReadsAt 18 [.string ⟨s.marks, s.body, 0⟩] (.mk 0 0 (.literal value)) := by
  refine readsAt_of_atom ⟨_, _, rfl, Nat.le_refl 18⟩ nofun rfl fun inner depth _ =>
    consumes_here fun start => ?_
  refine consumes_peek (fun _ => exists_string_of_unplaced) ?_
  rintro _ ⟨offset, rfl⟩
  refine (consumes_stringLiterals s).bind_nil fun literals hliterals => ?_
  obtain ⟨⟨marks, body, offset⟩, rfl, hs⟩ := List.map_eq_singleton_iff.mp hliterals
  obtain ⟨rfl, rfl, -⟩ := StringLiteral.mk.inj hs
  rw [h]
  exact consumes_close rfl start

end
end ViewTree.Embedded
