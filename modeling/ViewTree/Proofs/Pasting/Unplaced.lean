import ViewTree.Embedded.Grammar

/-!
Embedded expressions without their places. Two texts read as the same tree if what they read as
differs in places only. Main statement: what a term is as a target does not depend on its places
(`target?_unplaced`).
-/
namespace ViewTree.Embedded

mutual

/-- The term with all places forgotten. -/
def Term.unplaced : Term → Term
  | .mk _ _ form => .mk 0 0 form.unplaced

def Form.unplaced : Form → Form
  | .name id => .name id
  | .binder id => .binder id
  | .literal value => .literal value
  | .format pieces => .format (Piece.allUnplaced pieces)
  | .attribute value attr => .attribute value.unplaced attr
  | .subscript value index => .subscript value.unplaced index.unplaced
  | .call function plain keywords =>
    .call function.unplaced (Term.allUnplaced plain) (Keyword.allUnplaced keywords)
  | .unary op operand => .unary op operand.unplaced
  | .binary op left right => .binary op left.unplaced right.unplaced
  | .bool op operands => .bool op (Term.allUnplaced operands)
  | .compare first ops others => .compare first.unplaced ops (Term.allUnplaced others)
  | .lambda params body => .lambda (Param.allUnplaced params) body.unplaced
  | .choice test body other => .choice test.unplaced body.unplaced other.unplaced
  | .tuple items => .tuple (Term.allUnplaced items)
  | .list items => .list (Term.allUnplaced items)
  | .set items => .set (Term.allUnplaced items)
  | .dict entries => .dict (Entry.allUnplaced entries)
  | .listOf element clauses => .listOf element.unplaced (Clause.allUnplaced clauses)
  | .setOf element clauses => .setOf element.unplaced (Clause.allUnplaced clauses)
  | .generator element clauses => .generator element.unplaced (Clause.allUnplaced clauses)
  | .dictOf key value clauses =>
    .dictOf key.unplaced value.unplaced (Clause.allUnplaced clauses)
  | .await value => .await value.unplaced
  | .yield value => .yield (Term.optionUnplaced value)
  | .yieldFrom value => .yieldFrom value.unplaced
  | .starred value => .starred value.unplaced
  | .named target value => .named target value.unplaced
  | .slice lower upper step =>
    .slice (Term.optionUnplaced lower) (Term.optionUnplaced upper) (Term.optionUnplaced step)

def Term.optionUnplaced : Option Term → Option Term
  | none => none
  | some t => some t.unplaced

def Term.allUnplaced : List Term → List Term
  | [] => []
  | t :: ts => t.unplaced :: Term.allUnplaced ts

def Piece.unplaced : Piece → Piece
  | .text codes => .text codes
  | .field value conversion none => .field value.unplaced conversion none
  | .field value conversion (some spec) =>
    .field value.unplaced conversion (some (Piece.allUnplaced spec))

def Piece.allUnplaced : List Piece → List Piece
  | [] => []
  | piece :: more => piece.unplaced :: Piece.allUnplaced more

def Keyword.unplaced : Keyword → Keyword
  | .mk name value => .mk name value.unplaced

def Keyword.allUnplaced : List Keyword → List Keyword
  | [] => []
  | k :: more => k.unplaced :: Keyword.allUnplaced more

def Param.unplaced : Param → Param
  | .mk kind name default => .mk kind name (Term.optionUnplaced default)

def Param.allUnplaced : List Param → List Param
  | [] => []
  | p :: more => p.unplaced :: Param.allUnplaced more

def Entry.unplaced : Entry → Entry
  | .mk key value => .mk (Term.optionUnplaced key) value.unplaced

def Entry.allUnplaced : List Entry → List Entry
  | [] => []
  | e :: more => e.unplaced :: Entry.allUnplaced more

def Clause.unplaced : Clause → Clause
  | .mk isAsync target source conditions =>
    .mk isAsync target.unplaced source.unplaced (Term.allUnplaced conditions)

def Clause.allUnplaced : List Clause → List Clause
  | [] => []
  | c :: more => c.unplaced :: Clause.allUnplaced more

end

@[simp] theorem Term.optionUnplaced_eq (value : Option Term) :
    Term.optionUnplaced value = value.map Term.unplaced := by
  cases value <;> rfl

theorem eq_map {α β : Type} {f : List α → List β} {g : α → β} (hnil : f [] = [])
    (hcons : ∀ x xs, f (x :: xs) = g x :: f xs) (xs : List α) : f xs = xs.map g := by
  induction xs with
  | nil => exact hnil
  | cons x xs ih => rw [hcons, ih, List.map_cons]

@[simp] theorem Term.allUnplaced_eq (terms : List Term) :
    Term.allUnplaced terms = terms.map Term.unplaced := eq_map rfl (fun _ _ => rfl) terms

@[simp] theorem Piece.allUnplaced_eq (pieces : List Piece) :
    Piece.allUnplaced pieces = pieces.map Piece.unplaced := eq_map rfl (fun _ _ => rfl) pieces

@[simp] theorem Keyword.allUnplaced_eq (keywords : List Keyword) :
    Keyword.allUnplaced keywords = keywords.map Keyword.unplaced :=
  eq_map rfl (fun _ _ => rfl) keywords

@[simp] theorem Param.allUnplaced_eq (params : List Param) :
    Param.allUnplaced params = params.map Param.unplaced := eq_map rfl (fun _ _ => rfl) params

@[simp] theorem Entry.allUnplaced_eq (entries : List Entry) :
    Entry.allUnplaced entries = entries.map Entry.unplaced := eq_map rfl (fun _ _ => rfl) entries

@[simp] theorem Clause.allUnplaced_eq (clauses : List Clause) :
    Clause.allUnplaced clauses = clauses.map Clause.unplaced := eq_map rfl (fun _ _ => rfl) clauses

@[simp] theorem Piece.unplaced_text (codes : List Nat) :
    (Piece.text codes).unplaced = .text codes := rfl

@[simp] theorem Piece.unplaced_field (value : Term) (conversion : Option Char)
    (format : Option (List Piece)) :
    (Piece.field value conversion format).unplaced =
      .field value.unplaced conversion (format.map (List.map Piece.unplaced)) := by
  cases format with
  | none => rfl
  | some spec => rw [Piece.unplaced, Piece.allUnplaced_eq, Option.map_some]

theorem Term.isStarred_unplaced (t : Term) : t.unplaced.isStarred = t.isStarred := by
  obtain ⟨start, stop, form⟩ := t
  cases form <;> rfl

theorem Term.isStarred_congr {t u : Term} (h : t.unplaced = u.unplaced) :
    t.isStarred = u.isStarred := by
  rw [← t.isStarred_unplaced, h, u.isStarred_unplaced]

namespace Grammar

mutual

/-- A term is the same target wherever it stands. -/
theorem target?_unplaced : ∀ t : Term, target? t.unplaced = (target? t).map Term.unplaced
  | .mk start stop form => by
    rw [Term.unplaced, target?, targetForm?_unplaced form, target?, Option.map_map, Option.map_map]
    rfl

theorem targetForm?_unplaced :
    ∀ form : Form, targetForm? form.unplaced = (targetForm? form).map Form.unplaced
  | .tuple items => by
    rw [Form.unplaced, targetForm?, targetForm?, targets?_unplaced items, Option.map_map,
      Option.map_map]
    rfl
  | .list items => by
    rw [Form.unplaced, targetForm?, targetForm?, targets?_unplaced items, Option.map_map,
      Option.map_map]
    rfl
  | .starred (.mk start stop form) => by
    have hvalue := target?_unplaced (.mk start stop form)
    have hmap : ((target? (.mk start stop form)).map Form.starred).map Form.unplaced =
        ((target? (.mk start stop form)).map Term.unplaced).map Form.starred := by
      rw [Option.map_map, Option.map_map]
      rfl
    -- a star in a star is no target; behind any other form the star is kept
    cases form
    case starred => rfl
    all_goals exact (congrArg (Option.map Form.starred) hvalue).trans hmap.symm
  | .name _ | .binder _ | .literal _ | .format _ | .attribute _ _ | .subscript _ _ | .call _ _ _
  | .unary _ _ | .binary _ _ _ | .bool _ _ | .compare _ _ _ | .lambda _ _ | .choice _ _ _
  | .set _ | .dict _ | .listOf _ _ | .setOf _ _ | .generator _ _ | .dictOf _ _ _ | .await _
  | .yield _ | .yieldFrom _ | .named _ _ | .slice _ _ _ => rfl

theorem targets?_unplaced :
    ∀ ts : List Term, targets? (Term.allUnplaced ts) = (targets? ts).map Term.allUnplaced
  | [] => rfl
  | t :: ts => by
    rw [Term.allUnplaced, targets?, target?_unplaced t, targets?_unplaced ts, targets?]
    cases target? t with
    | none => rfl
    | some t' => cases targets? ts <;> rfl

end

theorem target?_congr {t u : Term} (h : t.unplaced = u.unplaced) :
    (target? t).map Term.unplaced = (target? u).map Term.unplaced := by
  rw [← target?_unplaced, h, target?_unplaced]

end Grammar
end ViewTree.Embedded
