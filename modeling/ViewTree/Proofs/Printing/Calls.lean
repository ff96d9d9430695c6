import ViewTree.Proofs.Pasting.Arguments
import ViewTree.Proofs.Printing.Suffixes

/-!
Calls on lexemes whose kinds are known: plain arguments in front of keywords, as they are printed. Main
statement: `ReadsAt.call`.
-/
namespace ViewTree.Embedded
open Reader Grammar

/-- The lexemes are read as a keyword argument. -/
inductive KeywordAt : List LexemeKind → Keyword → Prop where
  | named {id ks y} (h : ReadsAt 4 ks y) : KeywordAt (.name id :: .symbol "=" :: ks) (.mk (some id) y)
  | spread {ks y} (h : ReadsAt 4 ks y) : KeywordAt (.symbol "**" :: ks) (.mk none y)

namespace Grammar.Arguments

def push (read : Arguments) (t : Term) : Arguments := { read with plain := t :: read.plain }

def pushKeyword (read : Arguments) : Keyword → Arguments
  | .mk name value => { read with
      keywords := .mk name value :: read.keywords, spread := read.spread || name.isNone }

/-- No keyword has been read. -/
structure IsPlain (read : Arguments) : Prop where
  keywords : read.keywords = []
  spread : read.spread = false

theorem IsPlain.push {read : Arguments} (h : read.IsPlain) (t : Term) : (read.push t).IsPlain := ⟨h.1, h.2⟩

theorem plain_foldl_push (ys : List Term) (read : Arguments) :
    (ys.foldl push read).plain = ys.reverse ++ read.plain ∧
      (ys.foldl push read).keywords = read.keywords := by
  induction ys generalizing read with
  | nil => exact ⟨rfl, rfl⟩
  | cons y ys ih => simp [ih, push]

theorem plain_foldl_pushKeyword (ws : List Keyword) (read : Arguments) :
    (ws.foldl pushKeyword read).plain = read.plain ∧
      (ws.foldl pushKeyword read).keywords = ws.reverse ++ read.keywords := by
  induction ws generalizing read with
  | nil => exact ⟨rfl, rfl⟩
  | cons w ws ih =>
    obtain ⟨name, value⟩ := w
    simp [ih, pushKeyword]

end Grammar.Arguments

open Grammar.Arguments

section
variable {inner : FieldReader} {depth : Nat} {kinds : List LexemeKind} {y : Term} {w : Keyword}

theorem KeywordAt.consumes_argument (h : KeywordAt kinds w) (hdepth : kinds.length < depth)
    (read : Arguments) :
    Consumes Arguments.unplaced (Under 4) ((grammarAt inner depth).1.argument read) kinds
      (read.unplaced.pushKeyword w) := by
  refine consumes_here fun start => ?_
  cases h with
  | @named id ks y h =>
    simp only [List.length_cons] at hdepth
    refine consumes_unless (begins_plain rfl nofun) ?_
    refine consumes_unless (begins_plain rfl nofun) ?_
    refine consumes_peekTwo_plain rfl rfl (consumes_next fun _ _ => consumes_next fun _ _ => ?_)
    refine (h.expression (by omega)).bind_nil fun x hx => consumes_pure ?_
    simp [Arguments.unplaced, pushKeyword, Keyword.unplaced, hx]
  | spread h =>
    refine consumes_when rfl ?_
    refine (h.expression (Nat.lt_of_succ_lt hdepth)).bind_nil fun x hx => consumes_pure ?_
    simp [Arguments.unplaced, pushKeyword, Keyword.unplaced, hx]

theorem ItemAt.consumes_argument (h : ItemAt kinds y) (hdepth : kinds.length < depth)
    (read : Arguments) (hread : read.unplaced.IsPlain) :
    Consumes Arguments.unplaced (Under 4) ((grammarAt inner depth).1.argument read) kinds
      (read.unplaced.push y) := by
  have hkeywords : read.keywords = [] := List.map_eq_nil_iff.mp hread.keywords
  refine consumes_here fun start => ?_
  cases h with
  | term h =>
    refine consumes_unless (h.begins_ne (by decide)) ?_
    refine consumes_unless (h.begins_ne (by decide)) ?_
    obtain ⟨first, ks, hks, hfirst⟩ := h.exists_first (B := Under 4) (a := []) (under_of_le (by decide))
    have hvalue := h.named (i := inner) hdepth
    rw [List.append_nil] at hks
    subst hks
    refine consumes_peekTwo hfirst fun first second hsecond => ?_
    split
    · obtain ⟨next, hnext, hunder⟩ := hsecond _ (Option.some.inj ‹_›)
      obtain rfl := Option.some.inj hnext
      exact absurd hunder (by decide)
    · dsimp only
      rw [hkeywords]
      refine consumes_ite_neg Bool.false_ne_true (hvalue.bind_nil fun x hx => consumes_pure ?_)
      simp [Arguments.unplaced, push, hx, hkeywords]
  | starred h =>
    have hspread : read.spread = false := hread.spread
    have hvalue := (h.mono (l := 4) (by decide) (by decide) (by decide)).expression (i := inner)
      (Nat.lt_of_succ_lt hdepth)
    refine consumes_unless (begins_plain rfl (by decide)) ?_
    refine consumes_when rfl ?_
    dsimp only
    rw [hspread]
    refine consumes_ite_neg Bool.false_ne_true (hvalue.bind_nil fun x hx => ?_)
    refine (consumes_close (by rw [Form.unplaced, hx]) start).bind_nil fun v hv => consumes_pure ?_
    simp [Arguments.unplaced, push, hv, hspread]

theorem KeywordAt.begins (h : KeywordAt kinds w) {B P : LexemeKind → Prop} (hspread : P (.symbol "**"))
    (hname : ∀ id, P (.name id)) : Begins B kinds P := by
  cases h with
  | named => exact begins_plain rfl (hname _)
  | spread => exact begins_plain rfl hspread

theorem KeywordAt.ne_nil (h : KeywordAt kinds w) : kinds ≠ [] := by
  cases h <;> exact List.cons_ne_nil _ _

theorem consumes_nextArgument_none (read : Arguments) :
    Consumes (Option.map Arguments.unplaced) (· = .symbol ")")
      (nextArgument (grammarAt inner depth).1 read) []
      none :=
  consumes_accept_other (by rintro _ rfl; decide) (consumes_pure rfl)

/-- Another argument behind a comma. -/
theorem consumes_nextArgument {g : Grammar} {read : Arguments} {after : Arguments}
    (hclosing : Begins (Under 4) kinds (· ≠ .symbol ")"))
    (h : Consumes Arguments.unplaced (Under 4) (g.argument read) kinds after) :
    Consumes (Option.map Arguments.unplaced) (Under 4) (nextArgument g read) (.symbol "," :: kinds)
      (some after) := by
  refine consumes_accept rfl (consumes_peek hclosing fun k hk => ?_)
  exact consumes_ite_neg (fun hsame => hk (Option.some.inj hsame))
    (h.bind_nil fun x hx => consumes_pure (congrArg some hx))

variable {kss lss : List (List LexemeKind)} {ys : List Term} {ws : List Keyword}

theorem rounds_keywords {i : FieldReader} {d : Nat} (h : List.Forall₂ KeywordAt lss ws)
    (hdepth : (led (.symbol ",") lss).length ≤ d)
    (read : Arguments) :
    Rounds Arguments.unplaced (· = .symbol ")") (nextArgument (grammarAt i d).1)
      (led (.symbol ",") lss) read (ws.foldl pushKeyword read) := by
  refine rounds_foldl (C := Under 4) (by rintro _ rfl; decide) consumes_nextArgument_none ?_ read
  rw [List.forall₂_map_left_iff]
  refine forall₂_of_led (.symbol ",") h hdepth fun ks w hlength hw =>
    ⟨List.cons_ne_nil _ _, begins_under (by decide), fun read => ?_⟩
  exact consumes_nextArgument (hw.begins nofun nofun) (hw.consumes_argument hlength read)

theorem ItemAt.begins_ne_closing (h : ItemAt kinds y) {B : LexemeKind → Prop} :
    Begins B kinds (· ≠ .symbol ")") :=
  h.begins nofun fun _ hk => ne_of_opens hk (by decide)

theorem rounds_arguments {i : FieldReader} {d : Nat} (hplain : List.Forall₂ ItemAt kss ys)
    (hkeywords : List.Forall₂ KeywordAt lss ws)
    (hdepth : (led (.symbol ",") (kss ++ lss)).length ≤ d) {a : Arguments} (hread : a.IsPlain) :
    Rounds Arguments.unplaced (· = .symbol ")") (nextArgument (grammarAt i d).1)
      (led (.symbol ",") (kss ++ lss)) a (ws.foldl pushKeyword (ys.foldl push a)) := by
  rw [led_append, List.length_append] at hdepth
  rw [led_append]
  refine rounds_foldl_append (C := Under 4) IsPlain (fun _ _ h => h.push _) ?_ ?_ hread
    (rounds_keywords hkeywords (by omega) _)
  · rw [List.forall₂_map_left_iff]
    refine forall₂_of_led (.symbol ",") (d := d) hplain (by omega) fun ks y hlength hy =>
      ⟨List.cons_ne_nil _ _, begins_under (by decide), fun a hread => ?_⟩
    exact consumes_nextArgument hy.begins_ne_closing (hy.consumes_argument hlength a hread)
  · cases lss with
    | nil => rintro _ rfl; decide
    | cons => exact begins_under (by decide)

def unplacedArguments (read : Arguments) : List Term × List Keyword :=
  (read.plain.map Term.unplaced, read.keywords.map Keyword.unplaced)

theorem consumes_argumentsFrom {g : Grammar} {first after : Arguments}
    (h : Rounds Arguments.unplaced (· = .symbol ")") (nextArgument g) kinds first.unplaced after) :
    Consumes unplacedArguments Any (argumentsFrom g first) (kinds ++ [.symbol ")"])
      (after.plain.reverse, after.keywords.reverse) := by
  refine (h.consumes_repeating rfl).bind (begins_plain rfl rfl) fun read hread =>
    consumes_symbol (consumes_pure ?_)
  subst hread
  simp [unplacedArguments, Arguments.unplaced]

theorem consumes_arguments (hplain : List.Forall₂ ItemAt kss ys) (hkeywords : List.Forall₂ KeywordAt lss ws)
    (hdepth : (commas (kss ++ lss)).length < depth) (start : Nat) :
    Consumes unplacedArguments Any ((grammarAt inner depth).1.arguments (grammarAt inner depth).2 start)
      (commas (kss ++ lss) ++ [.symbol ")"]) (ys, ws) := by
  cases hplain with
  | nil =>
    cases hkeywords with
    | nil => exact consumes_accept rfl (consumes_pure rfl)
    | @cons ls w lss ws hw hkeywords =>
      simp only [List.nil_append, commas, List.length_append] at hdepth
      rw [List.nil_append, commas, List.append_assoc]
      refine consumes_unless ((hw.begins (by decide) fun _ h => LexemeKind.noConfusion h).append hw.ne_nil) ?_
      refine (hw.consumes_argument (by omega) {}).bind ?_ fun first hfirst => ?_
      · exact begins_led rfl (by decide) (begins_under (by decide))
      have hrest := rounds_keywords (i := inner) hkeywords (d := depth) (by omega) first.unplaced
      -- the first argument is read in front of the loop, which would have taken a generator alone
      have hnone : first.plain = [] := by
        cases w
        exact List.map_eq_nil_iff.mp (congrArg Arguments.plain hfirst)
      have hall := consumes_argumentsFrom hrest
      rw [hfirst] at hall
      obtain ⟨hplain, hkeywords⟩ := plain_foldl_pushKeyword ws (pushKeyword (Arguments.unplaced {}) w)
      have hws : (ws.reverse ++ [w]).reverse = w :: ws := by simp
      obtain ⟨name, value⟩ := w
      rw [hplain, hkeywords] at hall
      dsimp only
      rw [hnone]
      exact hws ▸ hall
  | @cons ks y kss ys hy hplain =>
    simp only [List.cons_append, commas, List.length_append] at hdepth
    rw [List.cons_append, commas, List.append_assoc]
    have hnext : Begins Any (led (.symbol ",") (kss ++ lss) ++ [.symbol ")"]) (Under 2) :=
      begins_led rfl (by decide) (begins_under (by decide))
    refine consumes_unless (hy.begins_ne_closing.append hy.ne_nil) ?_
    refine (hy.consumes_argument (by omega) {} ⟨rfl, rfl⟩).bind (hnext.imp (under_of_le (by decide)))
      fun first hfirst => ?_
    have hrest := rounds_arguments (i := inner) hplain hkeywords (d := depth) (by omega)
      (a := first.unplaced) (hfirst ▸ ⟨rfl, rfl⟩)
    obtain ⟨one, hone, -⟩ := List.map_eq_singleton_iff.mp (congrArg Arguments.plain hfirst)
    have hall := consumes_argumentsFrom hrest
    obtain ⟨hplain, hkeywords⟩ := plain_foldl_pushKeyword ws (ys.foldl push first.unplaced)
    obtain ⟨hplain', hkeywords'⟩ := plain_foldl_push ys first.unplaced
    rw [hplain, hkeywords, hplain', hkeywords', hfirst] at hall
    have hys : (ys.reverse ++ [y]).reverse = y :: ys := by simp
    have hws : (ws.reverse ++ []).reverse = ws := by simp
    dsimp only
    rw [hone]
    exact consumes_no_clauses hnext (hys ▸ hws ▸ hall)

theorem ReadsAt.call (h : ReadsAt 18 kinds y) (hplain : List.Forall₂ ItemAt kss ys)
    (hkeywords : List.Forall₂ KeywordAt lss ws) :
    ReadsAt 18 (kinds ++ .symbol "(" :: (commas (kss ++ lss) ++ [.symbol ")"]))
      (.mk 0 0 (.call y ys ws)) := by
  refine h.suffixed (by decide) rfl fun inner depth start s hdepth hs => ?_
  rw [List.length_append] at hdepth
  refine consumes_peek_plain rfl ?_
  refine consumes_here fun opening => consumes_next fun _ _ => ?_
  refine ((consumes_arguments hplain hkeywords (Nat.lt_of_succ_lt hdepth) opening).mono fun _ _ =>
    trivial).bind_nil
    fun read hread => ?_
  obtain ⟨hread, hwords⟩ := Prod.mk.inj hread
  exact (consumes_close (by simp [Form.unplaced, hs, hread, hwords]) start).bind_nil fun x hx =>
    consumes_pure (congrArg some hx)

end
end ViewTree.Embedded
