import ViewTree.Proofs.Pasting.Chaining
import ViewTree.Proofs.Pasting.Lines

/-!
Lines that call a method and chain more calls to it. Main statements: a value that stands alone makes
up the arguments of a call (`Property.exists_isArguments`); chained calls that stand on one line each
are read as one call on the other, and one of several lines gets parentheses behind its dot, where
nothing can be read (`exists_readLine?_of_readSource`); the checks let such a call pass
(`readLine?_eq_none_spreadView`).
-/
namespace ViewTree
open Embedded Reader Text

def readLine? (line : String) : Option Term := readText? (fun g _ => g.expression) line.toList

/-- What stands behind the name of the target, in front of the method. -/
def Handle.behind (target : Handle) : List String := if target.viaRoot then ["root"] else []

def Handle.term (target : Handle) : Term :=
  if target.viaRoot then .mk 0 0 (.attribute (nameTerm target.name) "root") else nameTerm target.name

def callTerm (target : Handle) (method : String) (read : Grammar.Arguments) : Term :=
  .mk 0 0 (.call (.mk 0 0 (.attribute target.term (compatible method))) read.unplaced.plain
    read.unplaced.keywords)

theorem Handle.foldl_behind (target : Handle) (method : String) :
    ((target.behind ++ [method]).map nameTerm).foldl Term.withPath (nameTerm target.name) =
      .mk 0 0 (.attribute target.term (compatible method)) := by
  have hroot : compatible "root" = "root" := by decide
  obtain ⟨name, viaRoot⟩ := target
  cases viaRoot with
  | false => rfl
  | true =>
    show Term.mk 0 0 (.attribute (.mk 0 0 (.attribute (nameTerm name) (compatible "root"))) _) = _
    rw [hroot]
    rfl

theorem Handle.isVariable_behind {target : Handle} {method : String} (hmethod : IsVariable method) :
    ∀ w ∈ target.behind ++ [method], IsVariable w := by
  have hroot : IsVariable "root" := ⟨by decide, by decide⟩
  intro w hw
  rcases List.mem_append.mp hw with hw | hw
  · unfold behind at hw
    split at hw
    · exact List.mem_singleton.mp hw ▸ hroot
    · nomatch hw
  · exact List.mem_singleton.mp hw ▸ hmethod

theorem toList_methodCall (target : Handle) (method arguments : String) (chain : List Expr) :
    (methodCall target method arguments chain).toList =
      target.name.toList ++ ((target.behind ++ [method]).flatMap (fun w => '.' :: w.toList) ++
        (grouped arguments ++ chainChars chain)) := by
  have hchain : (String.join (chain.map fun e => "." ++ e.code)).toList = chainChars chain := by
    rw [String.toList_join, List.flatMap_map]
    exact List.flatMap_congr fun e _ => by simp
  obtain ⟨name, viaRoot⟩ := target
  cases viaRoot <;> simp [methodCall, Handle.code, Handle.behind, grouped, hchain]

theorem getLast?_grouped (text : String) : (grouped text).getLast? = some ')' := by
  rw [grouped, List.getLast?_append]
  rfl

theorem getLast?_chainChars_ne {es : List Expr} (hlines : ∀ e ∈ es, ¬isMultiline e.text)
    {cs : List Char} (hcs : cs.getLast? ≠ some '\n') :
    (cs ++ chainChars es).getLast? ≠ some '\n' := by
  induction es generalizing cs with
  | nil =>
    rw [chainChars, List.flatMap_nil, List.append_nil]
    exact hcs
  | cons e es ih =>
    obtain ⟨hline, hlines⟩ := List.forall_mem_cons.mp hlines
    have hcode : e.code = e.text := if_neg hline
    rw [chainChars, List.flatMap_cons, ← List.append_assoc]
    refine ih hlines fun hlast => ?_
    rw [List.getLast?_append, List.getLast?_cons, hcode, Option.some_or] at hlast
    cases hends : e.text.toList.getLast? with
    | none =>
      rw [hends] at hlast
      cases hlast
    | some c =>
      rw [hends] at hlast
      obtain rfl : c = '\n' := Option.some.inj hlast
      exact hline (List.contains_iff_mem.mpr (List.mem_of_getLast? hends))

/-- All texts of the line have room in it with parentheses around. -/
theorem length_grouped_le_methodCall (target : Handle) (method arguments : String) (chain : List Expr) :
    (grouped arguments).length ≤ (methodCall target method arguments chain).toList.length ∧
      ∀ e ∈ chain, (grouped e.text).length ≤ (methodCall target method arguments chain).toList.length := by
  rw [toList_methodCall]
  have hgrouped (text : String) : (grouped text).length = text.length + 2 := by
    simp [grouped, String.length_toList]
  refine ⟨by simp only [List.length_append]; omega, fun e he => ?_⟩
  have hcode : e.text.length ≤ e.code.length := length_le_inlineText e.text
  have hchain : e.code.length < (chainChars chain).length := by
    obtain ⟨before, behind, rfl⟩ := List.append_of_mem he
    simp only [chainChars, List.flatMap_append, List.flatMap_cons, List.length_append, List.length_cons,
      String.length_toList]
    omega
  simp only [List.length_append, hgrouped]
  omega

/-- The lexemes of a call with others chained to it: a name, and suffixes of it that make up the
call and then what is chained to it. -/
theorem exists_passes_methodCall {target : Handle} {method arguments : String}
    {read : Grammar.Arguments} {chain : List Expr} (hname : IsVariable target.name)
    (hmethod : IsVariable method) (harguments : IsArguments arguments read)
    (hchain : ∀ e ∈ chain, e.IsPath ∧ e.Reads) (hlines : ∀ e ∈ chain, ¬isMultiline e.text)
    {rest : List Char} (hrest : StartsDot rest) {n : Nat} (hn : (grouped arguments).length ≤ n)
    (hns : ∀ e ∈ chain, (grouped e.text).length ≤ n) :
    ∃ first ts stop, first.kind = .name (compatible target.name) ∧
      Passes ⟨0, [], true⟩ ((methodCall target method arguments chain).toList ++ rest) (first :: ts)
        ⟨stop, [], false⟩ rest ∧
      ∀ depth tail, ts.length ≤ depth →
        ∃ x last, Suffixes (grammarAt (readField n) depth).1 (grammarAt (readField n) depth).2
            first.start (.mk first.start first.stop (.name (compatible target.name)))
            ⟨ts ++ tail, first.stop⟩ x ⟨tail, last⟩ ∧
          x.unplaced =
            (chain.map (·.term.unplaced)).foldl Term.withPath (callTerm target method read) := by
  obtain ⟨opening, used, hopening, harguments, htrails, hread⟩ := harguments.exists_passesAs
  -- the words in front of the arguments
  have hwords := target.isVariable_behind hmethod
  obtain ⟨ts, terms, o, hts, hwords, hterms⟩ := exists_passes_words hwords n target.name.length
    (arguments.toList ++ [')'] ++ (chainChars chain ++ rest))
  obtain ⟨us, ⟨o', p, f⟩, hus, hp, hf, halike⟩ := harguments o false
  obtain rfl : p = [] := hp
  obtain rfl : f = false := hf
  have hcall := hus.before (htrails.of_alike halike) (startsDot_chainChars chain hrest)
  obtain ⟨opening', used', rfl, hkind, halike⟩ := List.map_eq_cons_iff.mp halike
  have hopening' : opening'.kind = .symbol "(" :=
    (eq_of_unplaced (by rw [hopening]; rfl) hkind.symm).symm.trans hopening
  obtain ⟨vs, stop, hvs, hcalls⟩ := exists_passes_chain hchain hlines hrest hns o'
  have hbehind := hts.trans (hcall.trans hvs)
  let first : Lexeme := ⟨.name (compatible target.name), 0, target.name.length⟩
  refine ⟨first, ts ++ (opening' :: used' ++ vs), stop, rfl, ?_, fun depth tail hdepth => ?_⟩
  · have hname (text : List Char) (htext : text.head? = some '.') :
        Passes ⟨0, [], true⟩ (target.name.toList ++ text) [first] ⟨target.name.length, [], false⟩ text := by
      obtain ⟨more, rfl⟩ := List.head?_eq_some_iff.mp htext
      have hpasses := hname.passes (c := '.') (by decide) (by decide) 0 [] true more
      rwa [Nat.zero_add] at hpasses
    rw [toList_methodCall, List.append_assoc, List.append_assoc, List.append_assoc]
    refine (hname _ ?_).trans hbehind
    obtain ⟨word, words, hsome⟩ := List.exists_cons_of_ne_nil (l := target.behind ++ [method]) (by simp)
    rw [hsome]
    rfl
  · simp only [List.length_append, List.length_cons] at hdepth
    have hfits : ts.length ≤ depth ∧ used'.length ≤ depth ∧ vs.length ≤ depth := by omega
    obtain ⟨x₁, last₁, hx₁, hfold₁⟩ := exists_suffixes_of_chained hwords hfits.1 first.start
      (.mk first.start first.stop (.name (compatible target.name)))
      (opening' :: (used' ++ (vs ++ tail))) first.stop
    obtain ⟨found, last₂, hfound, hsame⟩ := hread n depth opening'.start opening'.stop used' (vs ++ tail)
      hn hfits.2.1 halike
    obtain ⟨x₂, last₃, hx₂, hfold₂⟩ := exists_suffixes_of_chained hcalls hfits.2.2 first.start
      (.mk first.start last₂ (.call x₁ found.plain found.keywords)) tail last₂
    refine ⟨x₂, last₃, ?_, ?_⟩
    · have hcall := Suffixes.trans (.single (suffix_call hopening' hfound last₁)) hx₂
      simpa using hx₁.trans hcall
    · obtain ⟨hplain, hkeywords, -⟩ := Grammar.Arguments.mk.inj hsame
      have hcallee : x₁.unplaced = .mk 0 0 (.attribute target.term (compatible method)) := by
        rw [hfold₁, foldl_withPath_unplaced, hterms, ← target.foldl_behind]
        rfl
      rw [hfold₂, foldl_withPath_unplaced, List.map_map]
      simp [callTerm, Term.unplaced, Form.unplaced, Grammar.Arguments.unplaced, hcallee, hplain,
        hkeywords, Function.comp_def]

section
variable {target : Handle} {method arguments : String} {read : Grammar.Arguments} {chain : List Expr}
  (hname : IsVariable target.name) (hmethod : IsVariable method)
  (harguments : IsArguments arguments read) (hchain : ∀ e ∈ chain, e.IsPath ∧ e.Reads)
  (hlines : ∀ e ∈ chain, ¬isMultiline e.text)
include hname hmethod harguments hchain hlines

theorem exists_readLine?_methodCall :
    ∃ found, readLine? (methodCall target method arguments chain) = some found ∧
      found.unplaced =
        (chain.map (·.term.unplaced)).foldl Term.withPath (callTerm target method read) := by
  obtain ⟨hlength, hlengths⟩ := length_grouped_le_methodCall target method arguments chain
  obtain ⟨first, ts, stop, hfirst, hpasses, hread⟩ := exists_passes_methodCall hname hmethod harguments
    hchain hlines startsDot_nil hlength hlengths
  have hends : (methodCall target method arguments chain).toList.getLast? ≠ some '\n' := by
    rw [toList_methodCall, ← List.append_assoc, ← List.append_assoc]
    refine getLast?_chainChars_ne hlines ?_
    rw [List.getLast?_append, getLast?_grouped]
    exact nofun
  unfold readLine?
  generalize (methodCall target method arguments chain).toList = cs at hpasses hread hends
  rw [List.append_nil] at hpasses
  have hscan : scan cs = some (first :: (ts ++ [⟨.lineEnd, stop, stop⟩])) := hpasses.scan_line hends
  obtain ⟨x, last, hsuffixes, hsame⟩ :=
    hread (ts.length + 1) [⟨.lineEnd, stop, stop⟩] (Nat.le_succ _)
  have hexpression :=
    expression_of_suffixes (fieldsAlike_readField (Nat.le_refl _)) hfirst hsuffixes 0 rfl
  refine ⟨x, ?_, hsame⟩
  have hall : readAll? (readField cs.length) (fun g _ => g.expression)
      (first :: (ts ++ [⟨.lineEnd, stop, stop⟩])) = some (x, ⟨[⟨.lineEnd, stop, stop⟩], last⟩) := by
    unfold readAll?
    rw [List.length_cons, List.length_append]
    exact hexpression
  unfold readText?
  rw [hscan, Option.bind_eq_bind, Option.bind_some, hall]
  rfl

/-- A call of several lines behind them is not read. -/
theorem readLine?_methodCall_eq_none {e : Expr} (he : isMultiline e.text) (more : List Expr) :
    readLine? (methodCall target method arguments (chain ++ e :: more)) = none := by
  obtain ⟨hlength, hlengths⟩ :=
    length_grouped_le_methodCall target method arguments (chain ++ e :: more)
  have hdots : StartsDot (chainChars (e :: more)) := startsDot_cons _
  obtain ⟨first, ts, stop, hfirst, hpasses, hread⟩ := exists_passes_methodCall hname hmethod harguments
    hchain hlines hdots hlength
    (fun a ha => hlengths a (List.mem_append_left _ ha))
  have hchars : (methodCall target method arguments (chain ++ e :: more)).toList =
      (methodCall target method arguments chain).toList ++ chainChars (e :: more) := by
    simp [toList_methodCall, chainChars]
  have hcode : e.code.toList = grouped e.text := by
    rw [Expr.code, inlineText, if_pos he, String.toList_ofList]
  have hbehind : chainChars (e :: more) =
      '.' :: '(' :: (e.text.toList ++ [')'] ++ chainChars more) := by
    rw [chainChars, List.flatMap_cons, hcode]
    rfl
  unfold readLine?
  rw [← hchars] at hpasses
  generalize (methodCall target method arguments (chain ++ e :: more)).toList = cs at hpasses hread
  rw [hbehind] at hpasses
  generalize e.text.toList ++ [')'] ++ chainChars more = rest at hpasses
  -- the dot and the parenthesis behind it are lexemes, whatever stands behind them
  have hdot : lexeme? stop ('.' :: '(' :: rest) = some (.symbol ".", 1) := rfl
  have hopening : lexeme? (stop + 1) ('(' :: rest) = some (.symbol "(", 1) := rfl
  have hnest : nest? [] (.symbol "(") = some [")"] := rfl
  have hscan : scan cs = (scanFrom (stop + 2) [")"] false rest).map fun later =>
      first :: (ts ++ ⟨.symbol ".", stop, stop + 1⟩ :: ⟨.symbol "(", stop + 1, stop + 2⟩ :: later) := by
    refine (hpasses.scan_eq fun _ => List.cons_ne_nil _ _).trans ?_
    show (scanFrom stop [] false ('.' :: '(' :: rest)).map _ = _
    rw [scanFrom_lexeme (by decide) hdot rfl, Nat.sub_self, List.drop_zero, Nat.max_self,
      scanFrom_lexeme (by decide) hopening hnest, Option.map_map, Option.map_map]
    rfl
  unfold readText?
  rw [hscan, Option.bind_eq_bind]
  cases scanFrom (stop + 2) [")"] false rest with
  | none => rfl
  | some later =>
    let behind : List Lexeme :=
      ⟨.symbol ".", stop, stop + 1⟩ :: ⟨.symbol "(", stop + 1, stop + 2⟩ :: later
    obtain ⟨x, last, hsuffixes, -⟩ := hread (ts.length + later.length + 2) behind (by omega)
    have hexpression := expression_eq_none_of_suffixes (fieldsAlike_readField (Nat.le_refl _)) hfirst
      hsuffixes 0 rfl
    have hall : readAll? (readField cs.length) (fun g _ => g.expression) (first :: (ts ++ behind)) =
        none := by
      unfold readAll?
      rw [List.length_cons, List.length_append]
      exact hexpression
    rw [Option.map_some, Option.bind_some, hall]
    rfl

end

/-- A method call, with what is chained to it. -/
structure Invocation where
  target : Handle
  method : String
  arguments : String
  chain : List Expr

def Invocation.line (i : Invocation) : String := methodCall i.target i.method i.arguments i.chain

/-- What the method is given on the line that calls it. -/
def Application.passed (a : Application) : String :=
  if a.iterate then itemLocal
  else if a.optional then if a.value.isTuple then "*" ++ valueLocal else valueLocal
  else a.value.arguments

def Application.invocation (a : Application) : Invocation := ⟨a.target, a.method, a.passed, a.chain⟩

/-- The call that a statement makes of a method that a property names. -/
def Statement.invocation? : Statement → Option Invocation
  | apply a | refresh _ _ a => some a.invocation
  | bind target method value chain => some ⟨target, method, value.arguments, chain⟩
  | _ => none

/-- The call of a method property or a binding. -/
def Property.invocation? (target : Handle) (p : Property) : Option Invocation :=
  match p.payload with
  | .binding value => some ⟨target, p.name, value.arguments, p.modifiers.chain⟩
  | _ => (p.application? target).map Application.invocation

theorem Application.holds_invocation (a : Application) : a.code.Holds a.invocation.line := by
  have hcall (arguments : String) (h : a.passed = arguments) :
      (a.call arguments).Holds a.invocation.line := h ▸ Code.holds_line _
  have heach (items : String) (h : a.passed = itemLocal) :
      (a.callEach items).Holds a.invocation.line := (hcall itemLocal h).inBlock _
  unfold code
  by_cases hoptional : a.optional <;> by_cases hiterate : a.iterate
  · simp only [if_pos hoptional, if_pos hiterate]
    exact ((heach _ (if_pos hiterate)).inBlock _).behind _
  · simp only [if_pos hoptional, if_neg hiterate]
    exact ((hcall _ ((if_neg hiterate).trans (if_pos hoptional))).inBlock _).behind _
  · simp only [if_neg hoptional, if_pos hiterate]
    exact heach _ (if_pos hiterate)
  · simp only [if_neg hoptional, if_neg hiterate]
    exact hcall _ ((if_neg hiterate).trans (if_neg hoptional))

/-- The call is a line of the statement. -/
theorem Statement.holds_invocation {st : Statement} {i : Invocation} (settings : Settings)
    (h : st.invocation? = some i) : (st.code settings).Holds i.line := by
  cases st with
  | apply a =>
    obtain rfl := Option.some.inj h
    exact a.holds_invocation
  | refresh trigger blocked a =>
    obtain rfl := Option.some.inj h
    have hbody : (refreshCode settings blocked a).Holds a.invocation.line :=
      (a.holds_invocation.behind _).append _
    cases trigger with
    | none => exact hbody
    | some trigger => exact hbody.inBlock _
  | bind target method value chain =>
    obtain rfl := Option.some.inj h
    exact Code.holds_line _
  | _ => nomatch h

theorem Property.fields_of_invocation? {p : Property} {target : Handle} {i : Invocation}
    (h : p.invocation? target = some i) :
    i.target = target ∧ i.method = p.name ∧ i.chain = p.modifiers.chain := by
  obtain ⟨name, modifiers, place, payload⟩ := p
  cases payload with
  | method value | binding value =>
    obtain rfl := Option.some.inj h
    exact ⟨rfl, rfl, rfl⟩
  | _ => nomatch h

/-- What may be one of several arguments may be the only one. -/
theorem Expr.IsArgument.exists_isArguments {e : Expr} (h : e.IsArgument) (htuple : e.isTuple = false) :
    ∃ read, IsArguments e.arguments read ∧ read.unplaced = ⟨[e.term.unplaced], [], false⟩ := by
  have honly : ∀ a ∈ [e], a.IsArgument := List.forall_mem_singleton.mpr h
  obtain ⟨read, hread, hsame⟩ := exists_readArguments? honly
  have hgroup : IsGroup e.code := h.inline.isGroup_inlineText h.fits
  have hreturn : '\r' ∉ e.code.toList := by
    unfold Expr.code inlineText
    split
    · simpa [grouped] using h.inline.noReturn
    · exact h.inline.noReturn
  rw [e.arguments_eq_code htuple]
  exact ⟨read, ⟨hgroup, hreturn, hread⟩, hsame⟩

theorem exists_isArguments_valueLocal : ∃ read, IsArguments valueLocal read := by
  obtain ⟨read, hread⟩ : ∃ read, readArguments? "(_value)" = some read :=
    Option.isSome_iff_exists.mp (by decide +kernel)
  exact ⟨read, ⟨[⟨.name "_value", 1, 7⟩], by decide +kernel, by decide⟩, by decide, hread⟩

theorem exists_isArguments_itemLocal : ∃ read, IsArguments itemLocal read := by
  obtain ⟨read, hread⟩ : ∃ read, readArguments? "(_item)" = some read :=
    Option.isSome_iff_exists.mp (by decide +kernel)
  exact ⟨read, ⟨[⟨.name "_item", 1, 6⟩], by decide +kernel, by decide⟩, by decide, hread⟩

/-- A value that is no tuple and stands alone makes up the arguments of its property's call. -/
theorem Property.exists_isArguments {settings : Settings} {source : String} {outcomes : List Outcome}
    (h : readSource? settings source = some outcomes) {o : Outcome} (ho : o ∈ outcomes)
    {c : Component} (hc : o.result = .ok c) {w : Widget} (hw : .widget w ∈ c.walk) {p : Property}
    (hp : p ∈ w.properties) {target : Handle} {i : Invocation} (hi : p.invocation? target = some i)
    (hvalue : ∀ e ∈ p.value?, e.isTuple = false ∧ CutsAlike e.text ∧ StandsAlone e.text e.term ∧
      Fits e.text) : ∃ read, IsArguments i.arguments read := by
  have hargument (e : Expr) (he : e ∈ p.value?) (hexprs : e ∈ p.payload.exprs) :
      e.isTuple = false ∧ ∃ read, IsArguments e.arguments read := by
    obtain ⟨htuple, halike, halone, hfits⟩ := hvalue e he
    have hmem : e ∈ (Node.widget w).exprs :=
      List.mem_append_right _ (List.mem_flatMap.mpr ⟨p, hp, hexprs⟩)
    have hcaptured := ((Component.sound_of_readSource h ho hc).nodes _ hw).captured e hmem
    have hgroup := hcaptured.nested.isGroup hcaptured.reads halike
    obtain ⟨read, hread, -⟩ := Expr.IsArgument.exists_isArguments
      ⟨⟨hgroup, halike.noReturn, hcaptured.reads.term, halone⟩, hfits⟩ htuple
    exact ⟨htuple, read, hread⟩
  obtain ⟨name, modifiers, place, payload⟩ := p
  cases payload with
  | binding value =>
    obtain rfl := Option.some.inj hi
    exact (hargument value rfl List.mem_cons_self).2
  | method value =>
    obtain rfl := Option.some.inj hi
    obtain ⟨htuple, hread⟩ := hargument value rfl List.mem_cons_self
    show ∃ read, IsArguments (Application.passed _) read
    unfold Application.passed
    rw [htuple]
    split
    · exact exists_isArguments_itemLocal
    · split
      · exact exists_isArguments_valueLocal
      · exact hread
  | _ => nomatch hi

/-- Calls that are chained to the call of a property are read as one call on the other, in their
order, if each stands on one line; the line cannot be read if one of them has several. -/
theorem exists_readLine?_of_readSource {settings : Settings} {source : String}
    {outcomes : List Outcome} (h : readSource? settings source = some outcomes) {o : Outcome}
    (ho : o ∈ outcomes) {c : Component} (hc : o.result = .ok c) {w : Widget} (hw : .widget w ∈ c.walk)
    {p : Property} (hp : p ∈ w.properties) {target : Handle} {i : Invocation}
    (hi : p.invocation? target = some i) (hname : IsVariable target.name) (hmethod : IsVariable p.name)
    {read : Grammar.Arguments} (harguments : IsArguments i.arguments read)
    (hchain : ∀ e ∈ p.modifiers.chain, e.IsPath) :
    (∀ st : Statement, st.invocation? = some i → (st.code settings).Holds i.line) ∧
      ((∀ e ∈ p.modifiers.chain, ¬isMultiline e.text) → ∃ found, readLine? i.line = some found ∧
        found.unplaced =
          (p.modifiers.chain.map (·.term.unplaced)).foldl Term.withPath (callTerm target p.name read)) ∧
      ((∃ e ∈ p.modifiers.chain, isMultiline e.text) → readLine? i.line = none) := by
  have hsound := (Component.sound_of_readSource h ho hc).nodes _ hw
  have hcalls : ∀ e ∈ p.modifiers.chain, e.IsPath ∧ e.Reads := by
    intro e he
    have hmodifier : e ∈ (Node.widget w).modifierExprs :=
      List.mem_flatMap.mpr ⟨p, hp, List.mem_append_right _ he⟩
    exact ⟨hchain e he, (hsound.modifiers e hmodifier).reads⟩
  obtain ⟨target', method, arguments, chain⟩ := i
  obtain ⟨rfl, rfl, rfl⟩ := Property.fields_of_invocation? hi
  refine ⟨fun st => st.holds_invocation settings, fun hlines => ?_, ?_⟩
  · exact exists_readLine?_methodCall hname hmethod harguments hcalls hlines
  · rintro ⟨e, he, hlines⟩
    obtain ⟨first, hfirst⟩ : ∃ first, p.modifiers.chain.find? (isMultiline ·.text) = some first :=
      Option.isSome_iff_exists.mp (List.find?_isSome.mpr ⟨e, he, hlines⟩)
    obtain ⟨hfirst, before, behind, hsplit, hbefore⟩ := List.find?_eq_some_iff_append.mp hfirst
    rw [hsplit] at hcalls ⊢
    refine readLine?_methodCall_eq_none hname hmethod harguments
      (fun a ha => hcalls a (List.mem_append_left _ ha)) (fun a ha => ?_) hfirst behind
    simpa using hbefore a ha

def Component.holdsCall (c : Component) (line : String) (test : Property → Invocation → Bool) : Bool :=
  c.walk.any fun n => n.widget?.any fun w => w.properties.any fun p =>
    (p.invocation? ⟨"label_0", false⟩).any fun i => i.line = line && test p i

theorem Component.exists_of_holdsCall {c : Component} {line : String}
    {test : Property → Invocation → Bool} (h : c.holdsCall line test) :
    ∃ w p i, .widget w ∈ c.walk ∧ p ∈ w.properties ∧
      p.invocation? ⟨"label_0", false⟩ = some i ∧ i.line = line ∧ test p i := by
  obtain ⟨n, hn, hany⟩ := List.any_eq_true.mp h
  obtain ⟨w, hw, hany⟩ := (Option.any_eq_true _ _).mp hany
  obtain ⟨p, hp, hany⟩ := List.any_eq_true.mp hany
  obtain ⟨i, hi, htest⟩ := (Option.any_eq_true _ _).mp hany
  obtain ⟨hline, htest⟩ := Bool.and_eq_true_iff.mp htest
  obtain rfl : n = .widget w := by
    cases n with
    | widget w' => rw [Option.some.inj hw]
    | choice => nomatch hw
  exact ⟨w, p, i, hn, hp, hi, of_decide_eq_true hline, htest⟩

/-- A view with a property whose call has another one, a name and a subscript chained to it. -/
def chainedView : String :=
  "view Gauge(model) \x7b\n  Gtk.Label \x7b\n    #[chain(flags(A, B))]\n    #[chain(style)]\n" ++
    "    #[chain(rows[0])]\n    set_label: model.name,\n  \x7d,\n\x7d\n"

instance : Spelled chainedView := .append .literal .literal

theorem readLine?_chainedView : ∃ outcomes o c w p i read found,
    readSource? {} chainedView = some outcomes ∧ o ∈ outcomes ∧ o.result = .ok c ∧
      .widget w ∈ c.walk ∧ p ∈ w.properties ∧ p.invocation? ⟨"label_0", false⟩ = some i ∧
        i.line = "label_0.set_label(model.name).flags(A, B).style.rows[0]" ∧
          IsArguments "model.name" read ∧ readLine? i.line = some found ∧
            found.unplaced = (p.modifiers.chain.map (·.term.unplaced)).foldl Term.withPath
              (callTerm ⟨"label_0", false⟩ "set_label" read) := by
  have hheld : holdsComponent {} chainedView fun c =>
      c.holdsCall "label_0.set_label(model.name).flags(A, B).style.rows[0]" fun p i =>
        i.arguments = "model.name" && p.name = "set_label" &&
          (p.modifiers.chain.map (·.text) = ["flags(A, B)", "style", "rows[0]"] &&
            p.modifiers.chain.all (·.term.isPath)) := by
    decide +kernel
  obtain ⟨outcomes, o, c, houtcomes, ho, hc, hheld⟩ := exists_of_holdsComponent hheld
  obtain ⟨w, p, i, hw, hp, hi, hline, htest⟩ := Component.exists_of_holdsCall hheld
  simp only [Bool.and_eq_true, decide_eq_true_eq, List.all_eq_true] at htest
  obtain ⟨⟨harguments, hmethod⟩, htexts, hpaths⟩ := htest
  have hvalue : IsGroup "model.name" :=
    ⟨[⟨.name "model", 1, 6⟩, ⟨.symbol ".", 6, 7⟩, ⟨.name "name", 7, 11⟩], by decide +kernel, by decide⟩
  have hflags : IsGroup "flags(A, B)" :=
    ⟨[⟨.name "flags", 1, 6⟩, ⟨.symbol "(", 6, 7⟩, ⟨.name "A", 7, 8⟩, ⟨.symbol ",", 8, 9⟩,
      ⟨.name "B", 10, 11⟩, ⟨.symbol ")", 11, 12⟩], by decide +kernel, by decide⟩
  have hstyle : IsGroup "style" := ⟨[⟨.name "style", 1, 6⟩], by decide +kernel, by decide⟩
  have hrows : IsGroup "rows[0]" :=
    ⟨[⟨.name "rows", 1, 5⟩, ⟨.symbol "[", 5, 6⟩, ⟨.number (.int 0), 6, 7⟩, ⟨.symbol "]", 7, 8⟩],
      by decide +kernel, by decide⟩
  obtain ⟨read, hread⟩ : ∃ read, readArguments? "(model.name)" = some read :=
    Option.isSome_iff_exists.mp (by decide +kernel)
  have hread : IsArguments i.arguments read := harguments ▸ ⟨hvalue, by decide, hread⟩
  have htext : ∀ e ∈ p.modifiers.chain, e.text = "flags(A, B)" ∨ e.text = "style" ∨ e.text = "rows[0]" := by
    intro e he
    have hmem : e.text ∈ p.modifiers.chain.map (·.text) := List.mem_map_of_mem he
    rw [htexts] at hmem
    simpa using hmem
  have hcalls : ∀ e ∈ p.modifiers.chain, e.IsPath := by
    intro e he
    have hpath := hpaths e he
    rcases htext e he with h | h | h
    · exact ⟨h ▸ hflags, h ▸ by decide, h ▸ ⟨'f', by decide⟩, hpath⟩
    · exact ⟨h ▸ hstyle, h ▸ by decide, h ▸ ⟨'s', by decide⟩, hpath⟩
    · exact ⟨h ▸ hrows, h ▸ by decide, h ▸ ⟨'r', by decide⟩, hpath⟩
  have hlines : ∀ e ∈ p.modifiers.chain, ¬isMultiline e.text := by
    intro e he
    rcases htext e he with h | h | h <;> exact h ▸ by decide
  have hname : IsVariable "label_0" := ⟨by decide, by decide⟩
  have hmethod' : IsVariable p.name := hmethod ▸ ⟨by decide, by decide⟩
  obtain ⟨found, hfound, hsame⟩ := (exists_readLine?_of_readSource houtcomes ho hc hw hp hi hname hmethod'
    hread hcalls).2.1 hlines
  exact ⟨outcomes, o, c, w, p, i, read, found, houtcomes, ho, hc, hw, hp, hi, hline, harguments ▸ hread,
    hfound, hmethod ▸ hsame⟩

/-- A view whose chained call has several lines. -/
def spreadView : String :=
  "view Gauge(model) \x7b\n    Gtk.Label \x7b\n        #[chain(flags(\n            A,\n            B,\n" ++
    "        ))]\n        set_label: model.name,\n    \x7d,\n\x7d\n"

instance : Spelled spreadView := .append .literal .literal

/-- The checks find no error in it, and the line of the call cannot be read. -/
theorem readLine?_eq_none_spreadView : ∃ outcomes o c w p i,
    readSource? {} spreadView = some outcomes ∧ o ∈ outcomes ∧ o.result = .ok c ∧
      ((c.assignNames {}).check {}).errors = [] ∧ .widget w ∈ (c.assignNames {}).walk ∧
        p ∈ w.properties ∧ p.invocation? ⟨"label_0", false⟩ = some i ∧
          i.line = "label_0.set_label(model.name).(flags(\n            A,\n            B,\n        ))" ∧
            readLine? i.line = none := by
  have hheld : holdsComponent {} spreadView fun c => ((c.assignNames {}).check {}).errors.isEmpty &&
      (c.assignNames {}).holdsCall
        "label_0.set_label(model.name).(flags(\n            A,\n            B,\n        ))"
        fun _ i => (readLine? i.line).isNone := by
    decide +kernel
  obtain ⟨outcomes, o, c, houtcomes, ho, hc, hheld⟩ := exists_of_holdsComponent hheld
  obtain ⟨herrors, hheld⟩ := Bool.and_eq_true_iff.mp hheld
  obtain ⟨w, p, i, hw, hp, hi, hline, hnone⟩ := Component.exists_of_holdsCall hheld
  exact ⟨outcomes, o, c, w, p, i, houtcomes, ho, hc, List.isEmpty_iff.mp herrors, hw, hp, hi, hline,
    Option.isNone_iff_eq_none.mp hnone⟩

end ViewTree
