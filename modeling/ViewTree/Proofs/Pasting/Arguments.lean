import ViewTree.Proofs.Pasting.Slots

/-!
Expressions as arguments of calls. Main statement: arguments that stand alone are read one by one as
the trees that they are between parentheses of their own (`exists_readArguments?`).
-/
namespace ViewTree
open Embedded Reader

/-- Arguments in the parentheses of their call. -/
def argumentList (codes : List String) : String := "(" ++ ", ".intercalate codes ++ ")"

def readArguments? (text : String) : Option Grammar.Arguments :=
  readText? (fun g primary => do
    let start ← here
    symbol "("
    g.arguments primary start) text.toList

namespace Embedded

section
variable {inner : FieldReader} {depth last last' : Nat} {us tail : List Lexeme} {t : Lexeme}
  {term : Term}

theorem argument_of_expression (ht : endsExpression t.kind)
    (hread : (grammarAt inner depth).1.expression ⟨us ++ t :: tail, last⟩ =
      some (term, ⟨t :: tail, last'⟩)) (read : Grammar.Arguments) (hkeywords : read.keywords = []) :
    (grammarAt inner depth).1.argument read ⟨us ++ t :: tail, last⟩ =
      some ({ read with plain := term :: read.plain }, ⟨t :: tail, last'⟩) := by
  have hnamed := named_of_expression hread (namesNext_of_expression hread ht)
  have hstray (k : LexemeKind) := not_stray_of_expression (k := k) hread
  unfold Grammar.argument
  rw [bind_eq (here_eq _), bind_eq (accept_of_not fun hi => hstray _ hi rfl),
    if_neg Bool.false_ne_true, bind_eq (accept_of_not fun hi => hstray _ hi rfl),
    if_neg Bool.false_ne_true, bind_eq (peek_of_next rfl), bind_eq (peekSecond_eq _)]
  dsimp only
  generalize hfirst : (us ++ t :: tail).head?.map (·.kind) = first?
  generalize hsecond : (us ++ t :: tail)[1]?.map (·.kind) = second?
  split
  · obtain ⟨w, hwalk⟩ := exists_walk?_of_expression hread
    refine absurd hsecond (second_ne_of_walk? hwalk ?_ (.inr rfl) ?_ hfirst)
    · rcases cases_of_endsExpression ht with h | h | h | h <;> simp [h]
    · rcases cases_of_endsExpression ht with h | h | h | h <;> simp [h]
  · rw [hkeywords, if_neg (by decide), bind_eq hnamed]
    rfl

end
/-- The lexemes are those of an expression whose text has at most so many characters. -/
def ReadsWithin (n : Nat) (us : List Lexeme) (term : Term) : Prop :=
  ∃ m ts, m ≤ n ∧ ReadsAs (readField m) ts term ∧ Alike us ts

/-- Lexemes behind an argument: those of more arguments, up to the parenthesis behind them. -/
inductive Behind (n : Nat) : List Term → List Lexeme → Prop where
  | closing {t} (ht : t.kind = .symbol ")") : Behind n [] [t]
  | comma {t us term terms ts} (ht : t.kind = .symbol ",") (hread : ReadsWithin n us term)
      (h : Behind n terms ts) : Behind n (term :: terms) (t :: us ++ ts)

theorem Behind.exists_cons {n : Nat} {terms : List Term} {ts : List Lexeme} (h : Behind n terms ts) :
    ∃ t rest, ts = t :: rest ∧ (t.kind = .symbol ")" ∨ t.kind = .symbol ",") := by
  cases h with
  | closing ht => exact ⟨_, _, rfl, .inl ht⟩
  | comma ht => exact ⟨_, _, rfl, .inr ht⟩

theorem Behind.length_lt {n : Nat} {terms : List Term} {ts : List Lexeme} (h : Behind n terms ts) :
    terms.length < ts.length := by
  induction h with
  | closing => exact Nat.one_pos
  | comma _ _ _ ih =>
    rw [List.length_cons, List.cons_append, List.length_cons, List.length_append]
    omega

theorem exists_rounds_of_behind {n : Nat} {terms : List Term} {ts : List Lexeme}
    (h : Behind n terms ts) {depth : Nat} (hdepth : ts.length < depth) (rest : List Lexeme)
    (last : Nat) (read : Grammar.Arguments) (hkeywords : read.keywords = []) {count : Nat}
    (hcount : terms.length < count) :
    ∃ final t last', rounds failure (nextArgument (grammarAt (readField n) depth).1) count read
        ⟨ts ++ rest, last⟩ = some (final, ⟨t :: rest, last'⟩) ∧ t.kind = .symbol ")" ∧
      final.unplaced = ⟨(terms.map Term.unplaced).reverse ++ read.plain.map Term.unplaced, [],
        read.spread⟩ := by
  induction h generalizing read last count with
  | @closing t ht =>
    obtain ⟨count, rfl⟩ := Nat.exists_eq_add_one_of_ne_zero (Nat.ne_zero_of_lt hcount)
    have hnext : Next (some (.symbol ")")) ⟨t :: rest, last⟩ := congrArg some ht
    have hstep : nextArgument (grammarAt (readField n) depth).1 read ⟨t :: rest, last⟩ =
        some (none, ⟨t :: rest, last⟩) := by
      unfold nextArgument
      rw [bind_eq (accept_of_other hnext (.symbol ",") nofun)]
      rfl
    refine ⟨read, t, last, ?_, ht, by simp [Grammar.Arguments.unplaced, hkeywords]⟩
    rw [rounds, List.singleton_append, bind_eq hstep]
    rfl
  | @comma t us term terms ts ht hread h ih =>
    obtain ⟨count, rfl⟩ := Nat.exists_eq_add_one_of_ne_zero (Nat.ne_zero_of_lt hcount)
    obtain ⟨m, vs, hm, hreads, halike⟩ := hread
    obtain ⟨behind, more, rfl, hbehind⟩ := h.exists_cons
    have hends : endsExpression behind.kind := by
      rcases hbehind with hbehind | hbehind <;> rw [hbehind] <;> rfl
    have hlength : us.length < depth := by
      simp at hdepth
      omega
    have hlater : (behind :: more).length < depth := by
      simp at hdepth ⊢
      omega
    obtain ⟨found, last', hfound, hsame⟩ :=
      hreads.exists_expression hm halike hends hlength (more ++ rest) t.stop
    have hclosed : ¬(us ++ behind :: (more ++ rest)).head?.map (·.kind) = some (.symbol ")") :=
      fun hnext => not_stray_of_expression hfound hnext rfl
    have hstep : nextArgument (grammarAt (readField n) depth).1 read
        ⟨t :: (us ++ behind :: (more ++ rest)), last⟩ =
          some (some { read with plain := found :: read.plain }, ⟨behind :: (more ++ rest), last'⟩) := by
      unfold nextArgument
      rw [bind_eq (accept_eq ht _ _), if_neg (by decide), bind_eq (peek_of_next rfl), if_neg hclosed,
        bind_eq (argument_of_expression hends hfound read hkeywords)]
      rfl
    obtain ⟨final, t', last'', hrounds, ht', hfinal⟩ := ih hlater last'
      { read with plain := found :: read.plain } hkeywords (Nat.lt_of_succ_lt_succ hcount)
    refine ⟨final, t', last'', ?_, ht', ?_⟩
    · rw [rounds, show t :: us ++ behind :: more ++ rest = t :: (us ++ behind :: (more ++ rest)) by simp,
        bind_eq hstep]
      exact hrounds
    · rw [hfinal]
      simp [hsame]

theorem exists_arguments_of_behind {n depth : Nat} {us ts : List Lexeme} {term : Term}
    {terms : List Term} (hread : ReadsWithin n us term) (h : Behind n terms ts)
    (hdepth : us.length + ts.length < depth) (primary : Reader Term) (start : Nat)
    (rest : List Lexeme) (last : Nat) :
    ∃ final last', (grammarAt (readField n) depth).1.arguments primary start
        ⟨us ++ (ts ++ rest), last⟩ = some (final, ⟨rest, last'⟩) ∧
      final.unplaced = ⟨(term :: terms).map Term.unplaced, [], false⟩ := by
  obtain ⟨m, vs, hm, hreads, halike⟩ := hread
  have hcount := h.length_lt
  obtain ⟨behind, more, rfl, hbehind⟩ := h.exists_cons
  have hends : endsExpression behind.kind := by
    rcases hbehind with hbehind | hbehind <;> rw [hbehind] <;> rfl
  obtain ⟨found, last', hfound, hsame⟩ :=
    hreads.exists_expression hm halike hends (Nat.lt_of_le_of_lt (Nat.le_add_right _ _) hdepth)
      (more ++ rest) last
  have hstray (k : LexemeKind) := not_stray_of_expression (k := k) hfound
  have hstarred := unstarred_expression _ _ _ _ _ hfound
  have hargument := argument_of_expression hends hfound {} rfl
  have hnext : Next (some behind.kind) ⟨behind :: (more ++ rest), last'⟩ := rfl
  have hclauses : (grammarAt (readField n) depth).1.clauses primary
      ⟨behind :: (more ++ rest), last'⟩ = some ([], ⟨behind :: (more ++ rest), last'⟩) :=
    clauses_stop hnext (by rcases hbehind with hbehind | hbehind <;> rw [hbehind] <;> nofun)
      (by rcases hbehind with hbehind | hbehind <;> rw [hbehind] <;> nofun)
  have hrounds : terms.length < (behind :: (more ++ rest)).length + 1 := by
    simp at hcount ⊢
    omega
  obtain ⟨final, t, last'', hrounds, ht, hfinal⟩ := exists_rounds_of_behind h
    (Nat.lt_of_le_of_lt (Nat.le_add_left _ _) hdepth) rest last' { plain := [found] } rfl hrounds
  have hrepeating : repeating (nextArgument (grammarAt (readField n) depth).1) { plain := [found] }
      ⟨behind :: (more ++ rest), last'⟩ = some (final, ⟨t :: rest, last''⟩) := hrounds
  unfold Grammar.arguments
  rw [List.cons_append, bind_eq (accept_of_not fun hi => hstray _ hi rfl), if_neg nofun,
    bind_eq hargument]
  dsimp only
  rw [hstarred, if_neg nofun, bind_eq hclauses]
  refine ⟨_, _, (bind_eq hrepeating).trans (bind_eq (symbol_eq ht _ _)), ?_⟩
  obtain ⟨hplain, hkeywords, hspread⟩ := Grammar.Arguments.mk.inj hfinal
  simp [Grammar.Arguments.unplaced, hplain, hkeywords, hspread, hsame]

end Embedded

/-- What stands behind an argument, with more of them. -/
def behindArgument : List String → List Char
  | [] => [')']
  | code :: codes => ',' :: ' ' :: (code.toList ++ behindArgument codes)

theorem toList_argumentList (code : String) (codes : List String) :
    (argumentList (code :: codes)).toList = '(' :: (code.toList ++ behindArgument codes) := by
  have hjoin : (", ".intercalate (code :: codes)).toList ++ [')'] =
      code.toList ++ behindArgument codes := by
    rw [String.toList_intercalate]
    induction codes generalizing code with
    | nil => simp [behindArgument]
    | cons next codes ih =>
      rw [List.map_cons, List.map_cons, List.intercalate_cons_cons, List.append_assoc,
        List.append_assoc, ← List.map_cons, ih]
      simp [behindArgument]
  rw [argumentList, String.toList_append, String.toList_append]
  exact congrArg ('(' :: ·) hjoin

theorem stops_behindArgument (codes : List String) : Stops (behindArgument codes) := by
  cases codes with
  | nil => exact stops_cons (by decide) []
  | cons code codes => exact stops_cons (c := ',') (by decide) _

theorem Expr.arguments_eq_code {e : Expr} (h : e.isTuple = false) : e.arguments = e.code := by
  have hnone : elementTexts? e.text e.term = none := by simpa [Expr.isTuple] using h
  unfold Expr.arguments argumentsText
  rw [hnone]
  rfl

/-- An expression that may be one of several arguments. -/
structure Expr.IsArgument (e : Expr) : Prop where
  inline : IsInline e.text e.term
  fits : Fits e.text

theorem exists_passes_behind {n : Nat} {es : List Expr} (h : ∀ e ∈ es, e.IsArgument)
    (hn : ∀ e ∈ es, (grouped e.text).length ≤ n) (offset : Nat) (fresh : Bool) :
    ∃ ts stop, Passes ⟨offset, [")"], fresh⟩ (behindArgument (es.map Expr.code)) ts
      ⟨stop, [], false⟩ [] ∧ Behind n (es.map (·.term)) ts := by
  induction es generalizing offset fresh with
  | nil =>
    have hclosing : lexeme? offset [')'] = some (.symbol ")", 1) := rfl
    exact ⟨_, offset + 1, .lexeme (by decide) hclosing rfl (.done _ _), .closing rfl⟩
  | cons e es ih =>
    obtain ⟨he, hes⟩ := List.forall_mem_cons.mp h
    obtain ⟨hne, hnes⟩ := List.forall_mem_cons.mp hn
    obtain ⟨us, hreads, -, hpasses⟩ := he.inline.exists_passesAs
    obtain ⟨vs, ⟨o, p, f⟩, hvs, hp, hf, halike⟩ := hpasses he.fits (offset + 2) false
    obtain rfl : p = [")"] := hp
    obtain ⟨ts, stop, hts, hbehind⟩ := ih hes hnes o f
    have hcode := (hvs.append (stops_behindArgument (es.map Expr.code))).trans hts
    have hcomma : lexeme? offset (behindArgument ((e :: es).map Expr.code)) =
        some (.symbol ",", 1) := rfl
    exact ⟨_, stop, .lexeme (by decide) hcomma rfl (.blank (.inl (.inl rfl)) hcode),
      .comma rfl ⟨_, us, hne, hreads, halike⟩ hbehind⟩

theorem length_lt_behindArgument {code : String} {codes : List String} (h : code ∈ codes) :
    code.length < (behindArgument codes).length := by
  induction codes with
  | nil => nomatch h
  | cons next codes ih =>
    rw [behindArgument, List.length_cons, List.length_cons, List.length_append, String.length_toList]
    rcases List.mem_cons.mp h with rfl | h
    · omega
    · have := ih h
      omega

theorem length_grouped_le {e first : Expr} {es : List Expr} (h : e ∈ first :: es) :
    (grouped e.text).length ≤ (argumentList ((first :: es).map Expr.code)).toList.length := by
  have hcode : e.text.length ≤ e.code.length := length_le_inlineText e.text
  have hgrouped : (grouped e.text).length = e.text.length + 2 := by
    simp [grouped, String.length_toList]
  rw [hgrouped, List.map_cons, toList_argumentList, List.length_cons, List.length_append,
    String.length_toList]
  rcases List.mem_cons.mp h with rfl | h
  · have : 0 < (behindArgument (es.map Expr.code)).length := by
      cases es <;> simp [behindArgument]
    omega
  · have := length_lt_behindArgument (List.mem_map_of_mem (f := Expr.code) h)
    omega

theorem getLast?_behindArgument (codes : List String) : (behindArgument codes).getLast? = some ')' := by
  induction codes with
  | nil => rfl
  | cons code codes ih =>
    rw [behindArgument, List.getLast?_cons, List.getLast?_cons, List.getLast?_append, ih]
    rfl

/-- Arguments that stand alone are read one by one, as the trees that they are between parentheses. -/
theorem exists_readArguments? {first : Expr} {es : List Expr} (h : ∀ e ∈ first :: es, e.IsArgument) :
    ∃ found, readArguments? (argumentList ((first :: es).map Expr.code)) = some found ∧
      found.unplaced = ⟨(first :: es).map (·.term.unplaced), [], false⟩ := by
  obtain ⟨hfirst, hes⟩ := List.forall_mem_cons.mp h
  have hlength : ∀ e ∈ first :: es, _ := fun e he => length_grouped_le (e := e) he
  obtain ⟨us, hreads, -, hpasses⟩ := hfirst.inline.exists_passesAs
  obtain ⟨vs, ⟨o, p, f⟩, hvs, hp, hf, halike⟩ := hpasses hfirst.fits 1 false
  obtain rfl : p = [")"] := hp
  obtain ⟨ts, stop, hts, hbehind⟩ := exists_passes_behind hes
    (fun e he => hlength e (List.mem_cons_of_mem _ he)) o f
  have hcodes := (hvs.append (stops_behindArgument (es.map Expr.code))).trans hts
  have hall : Passes ⟨0, [], true⟩ (argumentList ((first :: es).map Expr.code)).toList
      (⟨.symbol "(", 0, 1⟩ :: (vs ++ ts)) ⟨stop, [], false⟩ [] := by
    rw [List.map_cons, toList_argumentList]
    have hopening : lexeme? 0 ('(' :: (first.code.toList ++ behindArgument (es.map Expr.code))) =
        some (.symbol "(", 1) := rfl
    exact .lexeme (by decide) hopening rfl hcodes
  have hscan : scan (argumentList ((first :: es).map Expr.code)).toList =
      some (⟨.symbol "(", 0, 1⟩ :: (vs ++ (ts ++ [⟨.lineEnd, stop, stop⟩]))) := by
    have hline : '\n' ∉ (argumentList ((first :: es).map Expr.code)).toList.getLast? := by
      rw [List.map_cons, toList_argumentList, List.getLast?_cons, List.getLast?_append,
        getLast?_behindArgument]
      exact nofun
    rw [hall.scan_line hline, List.cons_append, List.append_assoc]
  unfold readArguments? readText?
  generalize (argumentList ((first :: es).map Expr.code)).toList = cs at hlength hscan hbehind
  generalize hlexemes : (⟨.symbol "(", 0, 1⟩ :: (vs ++ (ts ++ [⟨.lineEnd, stop, stop⟩])) : List Lexeme) =
    lexemes at hscan
  have hdepth : vs.length + ts.length < lexemes.length + 1 := by
    rw [← hlexemes]
    simp
    omega
  obtain ⟨final, last, hread, hfinal⟩ := exists_arguments_of_behind
    ⟨_, us, hlength first List.mem_cons_self, hreads, halike⟩ hbehind hdepth
    (grammarAt (readField cs.length) (lexemes.length + 1)).2 0 [⟨.lineEnd, stop, stop⟩] 1
  have hall : readAll? (readField cs.length) (fun g primary => do
      let start ← here
      symbol "("
      g.arguments primary start) lexemes = some (final, ⟨[⟨.lineEnd, stop, stop⟩], last⟩) := by
    have hhere : here ⟨lexemes, 0⟩ = some (0, ⟨lexemes, 0⟩) := by
      rw [← hlexemes]
      rfl
    unfold readAll?
    dsimp only
    rw [bind_eq hhere, ← hlexemes, bind_eq (symbol_eq rfl _ _), hlexemes]
    exact hread
  refine ⟨final, ?_, by simpa [Function.comp_def] using hfinal⟩
  rw [hscan, Option.bind_eq_bind, Option.bind_some, hall, Option.bind_eq_bind, Option.bind_some]
  rfl

end ViewTree
