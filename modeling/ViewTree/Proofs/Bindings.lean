import Mathlib.Logic.Function.Basic
import ViewTree.Embedded.Names

/-!
Names that embedded texts give values. An expression does so by `:=`, outside of lambdas; a pattern
binds what it captures, and what it has captured stays even if it does not fit. Main statements: no
other name has a new value afterwards (`Assigns.frame`, `Attempts.frame`), and each of these may have
any (`exists_assigns`, `exists_attempts`).
-/
namespace ViewTree.Embedded

mutual

/-- The names that `:=` gives a value around the term. What the body of a lambda assigns is its
own; a comprehension assigns around itself. -/
def Term.assigned : Term → List String
  | .mk _ _ form => form.assigned

def Form.assigned : Form → List String
  | .name _ | .binder _ | .literal _ => []
  | .format pieces => Piece.allAssigned pieces
  | .attribute value _ => value.assigned
  | .subscript value index => value.assigned ++ index.assigned
  | .call function plain keywords =>
    function.assigned ++ Term.allAssigned plain ++ Keyword.allAssigned keywords
  | .unary _ operand => operand.assigned
  | .binary _ left right => left.assigned ++ right.assigned
  | .bool _ operands => Term.allAssigned operands
  | .compare first _ others => first.assigned ++ Term.allAssigned others
  | .lambda params _ => Param.allAssigned params
  | .choice test body other => test.assigned ++ body.assigned ++ other.assigned
  | .tuple items | .list items | .set items => Term.allAssigned items
  | .dict entries => Entry.allAssigned entries
  | .listOf element clauses | .setOf element clauses | .generator element clauses =>
    element.assigned ++ Clause.allAssigned clauses
  | .dictOf key value clauses => key.assigned ++ value.assigned ++ Clause.allAssigned clauses
  | .await value | .yieldFrom value | .starred value => value.assigned
  | .named target value => target :: value.assigned
  | .yield value => Term.optionAssigned value
  | .slice lower upper step =>
    Term.optionAssigned lower ++ Term.optionAssigned upper ++ Term.optionAssigned step

def Term.optionAssigned : Option Term → List String
  | none => []
  | some t => t.assigned

def Term.allAssigned : List Term → List String
  | [] => []
  | t :: ts => t.assigned ++ Term.allAssigned ts

def Piece.allAssigned : List Piece → List String
  | [] => []
  | .text _ :: more => Piece.allAssigned more
  | .field value _ none :: more => value.assigned ++ Piece.allAssigned more
  | .field value _ (some spec) :: more =>
    value.assigned ++ Piece.allAssigned spec ++ Piece.allAssigned more

def Keyword.allAssigned : List Keyword → List String
  | [] => []
  | .mk _ value :: more => value.assigned ++ Keyword.allAssigned more

def Param.allAssigned : List Param → List String
  | [] => []
  | .mk _ _ default :: more => Term.optionAssigned default ++ Param.allAssigned more

def Entry.allAssigned : List Entry → List String
  | [] => []
  | .mk key value :: more =>
    Term.optionAssigned key ++ value.assigned ++ Entry.allAssigned more

def Clause.allAssigned : List Clause → List String
  | [] => []
  | .mk _ target source conditions :: more =>
    target.assigned ++ source.assigned ++ Term.allAssigned conditions ++ Clause.allAssigned more

end

/-- The values of the locals of a routine, by their names. -/
abbrev Locals (α : Type) := String → α

variable {α : Type} {s t : Locals α} {name : String}

/-- A local keeps its value when one of some other names gets one. -/
theorem update_of_notMem {names : List String} {other : String} (hother : other ∈ names)
    (hname : name ∉ names) (s : Locals α) (value : α) : Function.update s other value name = s name :=
  Function.update_of_ne (ne_of_mem_of_not_mem hother hname).symm value s

/-- Some of the names have got new values, one after the other. -/
inductive Assigns (names : List String) : Locals α → Locals α → Prop
  | done (s : Locals α) : Assigns names s s
  | next {s t : Locals α} {name : String} (hname : name ∈ names) (value : α)
      (rest : Assigns names (Function.update s name value) t) : Assigns names s t

theorem Assigns.frame {names : List String} (h : Assigns names s t) (hname : name ∉ names) :
    t name = s name := by
  induction h with
  | done s => rfl
  | next hmem value rest ih => exact ih.trans (update_of_notMem hmem hname _ value)

theorem exists_assigns {names : List String} (hname : name ∈ names) (s : Locals α) (value : α) :
    ∃ t, Assigns names s t ∧ t name = value :=
  ⟨_, .next hname value (.done _), Function.update_self ..⟩

mutual

/-- The pattern is tried. Whether it fits or not, what it has captured so far keeps its value. -/
inductive Attempts : Pattern → Locals α → Locals α → Prop
  | untouched (p : Pattern) (s : Locals α) : Attempts p s s
  | capture (name : String) (s : Locals α) (value : α) :
      Attempts (.capture (some name)) s (Function.update s name value)
  | star (name : String) (s : Locals α) (value : α) :
      Attempts (.star (some name)) s (Function.update s name value)
  | under {p : Pattern} (name : String) {s t : Locals α} (h : Attempts p s t) :
      Attempts (.bound p name) s t
  | bound {p : Pattern} (name : String) {s t : Locals α} (h : Attempts p s t) (value : α) :
      Attempts (.bound p name) s (Function.update t name value)
  | sequence {items : List Pattern} {s t : Locals α} (h : AttemptsAll items s t) :
      Attempts (.sequence items) s t
  | alternatives {options : List Pattern} {s t : Locals α} (h : AttemptsAll options s t) :
      Attempts (.alternatives options) s t
  | mapping (keys : List Term) {values : List Pattern} (others : Option String) {s t : Locals α}
      (h : AttemptsAll values s t) : Attempts (.mapping keys values others) s t
  | others (keys : List Term) {values : List Pattern} (name : String) {s t : Locals α}
      (h : AttemptsAll values s t) (value : α) :
      Attempts (.mapping keys values (some name)) s (Function.update t name value)
  | object (type : Term) {positional named : List Pattern} (names : List String)
      {s t u : Locals α} (hpositional : AttemptsAll positional s t)
      (hnamed : AttemptsAll named t u) : Attempts (.object type positional names named) s u

/-- The patterns are tried one after the other. -/
inductive AttemptsAll : List Pattern → Locals α → Locals α → Prop
  | nil (s : Locals α) : AttemptsAll [] s s
  | cons {p : Pattern} {ps : List Pattern} {s t u : Locals α} (h : Attempts p s t)
      (more : AttemptsAll ps t u) : AttemptsAll (p :: ps) s u

end

/-- Patterns may all fail before they bind a name. -/
theorem attemptsAll_refl (ps : List Pattern) (s : Locals α) : AttemptsAll ps s s := by
  induction ps with
  | nil => exact .nil s
  | cons p ps ih => exact .cons (.untouched p s) ih

mutual

/-- A pattern binds no other names than it captures. -/
theorem Attempts.frame : {p : Pattern} → {s t : Locals α} → Attempts p s t →
    name ∉ p.captures → t name = s name
  | _, _, _, .untouched _ _, _ => rfl
  | _, _, _, .capture _ s value, hname | _, _, _, .star _ s value, hname =>
    update_of_notMem (List.mem_singleton_self _) hname s value
  | _, _, _, .under _ h, hname => h.frame fun hmem => hname (List.mem_cons_of_mem _ hmem)
  | _, _, _, .bound _ h value, hname =>
    (update_of_notMem List.mem_cons_self hname _ value).trans
      (h.frame fun hmem => hname (List.mem_cons_of_mem _ hmem))
  | _, _, _, .sequence h, hname | _, _, _, .alternatives h, hname => h.frame hname
  | _, _, _, .mapping _ _ h, hname => h.frame fun hmem => hname (List.mem_append_right _ hmem)
  | _, _, _, .others _ _ h value, hname =>
    (update_of_notMem List.mem_cons_self hname _ value).trans
      (h.frame fun hmem => hname (List.mem_append_right _ hmem))
  | _, _, _, .object _ _ hpositional hnamed, hname =>
    (hnamed.frame fun hmem => hname (List.mem_append_right _ hmem)).trans
      (hpositional.frame fun hmem => hname (List.mem_append_left _ hmem))

theorem AttemptsAll.frame : {ps : List Pattern} → {s t : Locals α} → AttemptsAll ps s t →
    name ∉ Pattern.allCaptures ps → t name = s name
  | _, _, _, .nil _, _ => rfl
  | _, _, _, .cons h more, hname =>
    (more.frame fun hmem => hname (List.mem_append_right _ hmem)).trans
      (h.frame fun hmem => hname (List.mem_append_left _ hmem))

end

mutual

/-- Each name that a pattern captures may get any value. -/
theorem exists_attempts : (p : Pattern) → name ∈ p.captures → ∀ (s : Locals α) (value : α),
    ∃ t, Attempts p s t ∧ t name = value
  | .value _, hname | .singleton _, hname => nomatch hname
  | .capture none, hname | .star none, hname => nomatch hname
  | .capture (some own), hname => fun s value => by
    obtain rfl := List.mem_singleton.mp hname
    exact ⟨_, .capture name s value, Function.update_self ..⟩
  | .star (some own), hname => fun s value => by
    obtain rfl := List.mem_singleton.mp hname
    exact ⟨_, .star name s value, Function.update_self ..⟩
  | .bound p own, hname => fun s value => by
    rcases List.mem_cons.mp hname with rfl | hname
    · exact ⟨_, .bound name (.untouched p s) value, Function.update_self ..⟩
    · obtain ⟨t, h, hvalue⟩ := exists_attempts p hname s value
      exact ⟨t, .under own h, hvalue⟩
  | .sequence items, hname => fun s value => by
    obtain ⟨t, h, hvalue⟩ := exists_attemptsAll items hname s value
    exact ⟨t, .sequence h, hvalue⟩
  | .alternatives options, hname => fun s value => by
    obtain ⟨t, h, hvalue⟩ := exists_attemptsAll options hname s value
    exact ⟨t, .alternatives h, hvalue⟩
  | .mapping keys values others, hname => fun s value => by
    rcases List.mem_append.mp hname with hname | hname
    · obtain rfl := Option.mem_toList.mp hname
      exact ⟨_, .others keys name (attemptsAll_refl values s) value, Function.update_self ..⟩
    · obtain ⟨t, h, hvalue⟩ := exists_attemptsAll values hname s value
      exact ⟨t, .mapping keys others h, hvalue⟩
  | .object type positional names named, hname => fun s value => by
    rcases List.mem_append.mp hname with hname | hname
    · obtain ⟨t, h, hvalue⟩ := exists_attemptsAll positional hname s value
      exact ⟨t, .object type names h (attemptsAll_refl named t), hvalue⟩
    · obtain ⟨t, h, hvalue⟩ := exists_attemptsAll named hname s value
      exact ⟨t, .object type names (attemptsAll_refl positional s) h, hvalue⟩

theorem exists_attemptsAll : (ps : List Pattern) → name ∈ Pattern.allCaptures ps →
    ∀ (s : Locals α) (value : α), ∃ t, AttemptsAll ps s t ∧ t name = value
  | [], hname => nomatch hname
  | p :: ps, hname => fun s value => by
    rcases List.mem_append.mp hname with hname | hname
    · obtain ⟨t, h, hvalue⟩ := exists_attempts p hname s value
      exact ⟨t, .cons h (attemptsAll_refl ps t), hvalue⟩
    · obtain ⟨t, h, hvalue⟩ := exists_attemptsAll ps hname s value
      exact ⟨t, .cons (.untouched p s) h, hvalue⟩

end

end ViewTree.Embedded
