import ViewTree.Proofs.Progress.Readers

/-!
Productions below nodes that move on: attributes, and parts of nodes and properties. Each loop of a
production is named by its round, which takes a token or is the last one. Main statements: an
attribute and what stands at the start of a node take a token (`Attribute.consumes_read`,
`consumes_construction`); groups that are read twice leave the cursor where it was (`goes_captures`).
-/
namespace ViewTree
open TreeReader

variable {context : Context} {tokens : Tokens} {n : Nat} {P : Cursor → Prop}

namespace Attribute

/-- The round of the names of an attribute: a name, and the comma behind it if there is one. -/
def nameRound : Attribute × Bool → TreeReader (Option (Attribute × Bool)) := fun (a, more) => do
  if !more then pure none
  else
    let marked := a.kind = .name && (← isNext .mutWord) && (← ahead).kind = .identifier
    if marked then
      let _ ← advance
    let a := { a with
      names := a.names ++ [← TreeReader.name], isMutable := a.isMutable || marked }
    if ← accept .comma then pure (some (a, !(← isNext .rparen)))
    else pure (some (a, false))

theorem nameArguments_eq (a : Attribute) : a.nameArguments = (do
    let (a, _) ← repeating nameRound (a, true)
    pure a) := rfl

theorem advances_nameRound : Advances context tokens n nameRound nameRound := by
  rintro ⟨a, more⟩ c hc
  refine Steady.ite (fun _ => steady_pure hc) fun _ => steady_isNext (steady_ahead ?_)
  extract_lets marked rest
  have hrest (c : Cursor) (hc : c.Within tokens (n + 1)) : Steady context tokens c
      (fun s' => Cursor.Within tokens (if s'.isSome then n else n + 1)) (rest ()) (rest ()) := by
    refine (consumes_name c hc).bind fun word c hc => (stays_accept .comma c hc).bind fun _ c hc => ?_
    exact Steady.ite (fun _ => steady_isNext (steady_pure hc)) fun _ => steady_pure hc
  exact Steady.ite (fun _ => steady_advance (hrest _ hc.advance_same)) fun _ => hrest c hc

theorem stays_nameArguments (a : Attribute) :
    Stays context tokens n a.nameArguments a.nameArguments := by
  rw [nameArguments_eq]
  exact (goes_repeating (fun m _ => advances_nameRound) _).bind fun s => goes_pure s.1

/-- Where an expression is asked for, what the string literal stands for can be one. -/
def Legible (context : Context) (items : List Token) (a : Attribute) (t : Token) : Prop :=
  t.kind = .string → a.kind.takesExpression → context.Legible items →
    ∀ text ∈ literalText? t.text.toList, text.toList.any endsTexts = false

theorem steady_stringArgument {a : Attribute} {c : Cursor} (hc : c.Within tokens n)
    (hlegible : a.Legible context tokens.items c.token) :
    Steady context tokens c (fun _ => Cursor.Within tokens n) a.stringArgument a.stringArgument := by
  refine (steady_expect (T := fun t c' => (t = c.token ∧ t.kind = .string) ∧ c' = c.advance)
    fun hkind => ⟨⟨rfl, hkind⟩, rfl⟩).bind ?_
  rintro _ _ ⟨⟨rfl, hkind⟩, rfl⟩
  refine steady_stringValue c.token fun value hvalue => ?_
  cases value with
  | none => exact steady_failAt c.token nofun
  | some value =>
    refine Steady.ite (fun hexpression => ?_) fun _ => ?_
    · have hwhole (h : context.Legible tokens.items) :=
        hlegible hkind hexpression h value (hvalue value rfl)
      exact (goes_expression hwhole c.token none _ hc.advance_same).bind fun e c hc => steady_pure hc
    · dsimp only
      split
      · exact steady_failAt c.token nofun
      · exact steady_pure hc.advance_same

theorem steady_arguments {a : Attribute} {c : Cursor} (hc : c.Within tokens n)
    (hlegible : c.token.kind = .equals → a.Legible context tokens.items c.advance.token) :
    Steady context tokens c (fun _ => Cursor.Within tokens n) a.arguments a.arguments := by
  unfold arguments
  refine steady_accept (fun _ => ?_) fun _ => ?_
  · refine steady_isNext ?_
    extract_lets finish rest
    have hfinish (b : Attribute) : Stays context tokens n (finish b) (finish b) :=
      (stays_expect (by decide)).bind fun _ => goes_pure b
    have hrest : Stays context tokens n (rest ()) (rest ()) := by
      refine Goes.ite (fun _ => (stays_nameArguments a).bind hfinish) fun _ => ?_
      refine Goes.ite (fun _ => ?_) fun _ => goes_failAt_bind a.token nofun
      exact (stays_of_consumes fun _ _ => consumes_captureExpression [] _ none).bind fun e => hfinish _
    exact Steady.ite (fun _ => steady_fail_bind nofun) fun _ => hrest _ hc.advance_same
  · refine steady_accept (fun hsign => ?_) fun _ => ?_
    · refine Steady.ite (fun _ => ?_) fun hnot => absurd rfl hnot
      refine Steady.ite (fun _ => ?_) fun _ => steady_failAt a.token nofun
      exact steady_stringArgument hc.advance_same (hlegible hsign)
    · refine Steady.ite nofun fun _ => ?_
      exact Steady.ite (fun _ => steady_failAt a.token nofun) fun _ => steady_pure hc

theorem consumes_read : Consumes context tokens n Attribute.read Attribute.read := by
  intro c hc
  refine (steady_expect (T := fun _ c' => c.token.kind = .attrOpen ∧ c' = c.advance)
    fun hopening => ⟨hopening, rfl⟩).bind ?_
  rintro _ _ ⟨hopening, rfl⟩
  refine steady_current ((steady_name (S := fun word c' => (c.advance.token.kind.isName ∧
    word = c.advance.token.text) ∧ c' = c.advance.advance) fun hname => ⟨⟨hname, rfl⟩, rfl⟩).bind ?_)
  rintro _ _ ⟨⟨hname, rfl⟩, rfl⟩
  have hc₁ := hc.advance (by rw [hopening]; nofun)
  have hc₂ := hc₁.advance_same
  have hc₃ := hc₂.advance_same
  cases hword : AttributeKind.ofWord? c.advance.token.text with
  | none => exact steady_failAt _ nofun
  | some kind =>
    dsimp only
    have hargument (hsign : c.advance.advance.token.kind = .equals) : Legible context tokens.items
        { kind, token := c.advance.token } c.advance.advance.advance.token := by
      intro hstring hexpression hlegible
      -- what is left to read starts with the whole attribute
      have hrest := Cursor.rest_eq_cons hc.ends (by rw [hopening]; nofun)
      rw [Cursor.rest_eq_cons hc₁.ends (ne_eof_of_isName hname),
        Cursor.rest_eq_cons hc₂.ends (by rw [hsign]; nofun),
        Cursor.rest_eq_cons hc₃.ends (by rw [hstring]; nofun)] at hrest
      refine hlegible.arguments c.rest hc.suffix _ ?_
      rw [hrest, argument?, hopening, hword, hsign]
      exact if_pos (by simpa using hexpression)
    refine (steady_arguments hc₂ hargument).bind fun a c hc => ?_
    refine (stays_expect (by decide) c hc).bind fun _ c hc => ?_
    exact Steady.ite (fun _ => steady_failAt_bind _ nofun) fun _ => steady_pure hc

/-- The round of what stands in front of an item. -/
def leadRound : List Attribute × List (List Char) →
    TreeReader (Option (List Attribute × List (List Char))) := fun (found, docs) => do
  if ← isNext .docComment then pure (some (found, docText (← advance) :: docs))
  else if ← isNext .attrOpen then pure (some ((← read) :: found, docs))
  else pure none

theorem lead_eq : Attribute.lead = (do
    let (found, docs) ← repeating leadRound ([], [])
    let found := found.reverse
    pure
      { node := found.filter (·.kind.describesNode)
        property := found.filter (!·.kind.describesNode)
        doc := joinDocs docs.reverse }) := rfl

theorem advances_leadRound : Advances context tokens n leadRound leadRound := by
  rintro ⟨found, docs⟩ c hc
  refine steady_isNext (Steady.ite (fun hdoc => ?_) fun _ => ?_)
  · have hkind : c.token.kind = .docComment := of_decide_eq_true hdoc
    exact steady_advance (steady_pure (hc.advance (by rw [hkind]; nofun)))
  · refine steady_isNext (Steady.ite (fun _ => ?_) fun _ => steady_pure hc)
    exact (consumes_read c hc).bind fun a c hc => steady_pure hc

theorem stays_lead : Stays context tokens n Attribute.lead Attribute.lead := by
  rw [lead_eq]
  exact (goes_repeating (fun m _ => advances_leadRound) _).bind fun s => goes_pure _

theorem goes_find? (kind : AttributeKind) (as : List Attribute) :
    Goes context tokens P P (Attribute.find? kind as) (Attribute.find? kind as) := by
  unfold Attribute.find?
  split
  · exact goes_pure _
  · exact goes_pure _
  · exact goes_failAt _ nofun

theorem goes_modifiers (as : List Attribute) (optional : Bool) :
    Goes context tokens P P (Attribute.modifiers as optional) (Attribute.modifiers as optional) := by
  unfold Attribute.modifiers
  refine (goes_foldlM (fun s a => ?_) as _).bind fun s => goes_pure s.1
  exact Goes.ite (fun _ => goes_failAt_bind a.token nofun) fun _ => goes_pure _

end Attribute

namespace NodeReaders

def pathRound (found : List String) : TreeReader (Option (List String)) := do
  if (← isNext .dot) && (← ahead).kind.isName then
    let _ ← advance
    pure (some ((← advance).text :: found))
  else pure none

theorem dottedPath_eq : dottedPath = (do
    let first ← name
    let found ← repeating pathRound [first]
    pure (".".intercalate found.reverse)) := rfl

theorem advances_pathRound : Advances context tokens n pathRound pathRound := by
  intro found c hc
  refine steady_isNext (steady_ahead (Steady.ite (fun hnext => ?_) fun _ => steady_pure hc))
  have hdot : c.token.kind = .dot := of_decide_eq_true (Bool.and_eq_true_iff.mp hnext).1
  have hc := hc.advance (by rw [hdot]; nofun)
  exact steady_advance (steady_advance (steady_pure hc.advance_same))

theorem consumes_dottedPath : Consumes context tokens n dottedPath dottedPath := by
  rw [dottedPath_eq]
  exact consumes_name.bind fun first =>
    (goes_repeating (fun m _ => advances_pathRound) _).bind fun found => goes_pure _

/-- The round of a chain of calls: a dot, a name and a group. -/
def callRound (_ : Token × Bool) : TreeReader (Option (Token × Bool)) := do
  if (← isNext .dot) && (← ahead).kind.isName && (← ahead 2).kind = .lparen then
    let _ ← advance
    let _ ← advance
    pure (some (← balanced, true))
  else pure none

theorem construction_eq : construction = (do
    let start ← current
    if !start.kind.isName then fail (.expected "a widget" start.describe)
    let path ← dottedPath
    if !(← isNext .lparen) then pure (.block path)
    else
      let last ← balanced
      let (last, chained) ← repeating callRound (last, false)
      pure (.call path (← expression (← textBetween start last) start) chained)) := rfl

theorem advances_callRound : Advances context tokens n callRound callRound := by
  intro found c hc
  refine steady_isNext (steady_ahead (steady_ahead
    (Steady.ite (fun hnext => ?_) fun _ => steady_pure hc)))
  have hdot : c.token.kind = .dot :=
    of_decide_eq_true (Bool.and_eq_true_iff.mp (Bool.and_eq_true_iff.mp hnext).1).1
  have hc := hc.advance (by rw [hdot]; nofun)
  refine steady_advance (steady_advance ?_)
  refine (stays_of_consumes (fun _ _ => consumes_balanced) _ hc.advance_same).bind fun last c hc => ?_
  exact steady_pure hc

theorem consumes_construction : Consumes context tokens n construction construction := by
  rw [construction_eq]
  refine goes_current.bind fun start => Goes.ite (fun _ => goes_fail_bind nofun) fun _ => ?_
  refine consumes_dottedPath.bind fun path => (goes_isNext .lparen).bind fun _ => ?_
  refine Goes.ite (fun _ => goes_pure _) fun _ => ?_
  refine (stays_of_consumes fun _ _ => consumes_balanced).bind fun last => ?_
  refine (goes_repeating (fun m _ => advances_callRound) _).bind fun s => ?_
  refine fun c hc => steady_read ?_
  exact (goes_expression (fun h => h.whole_slice _ _) start none c hc).bind fun e c hc => steady_pure hc

theorem goes_nodeName (isChoice : Bool) (named : Option Attribute) (written : Option WrittenName) :
    Goes context tokens P P (nodeName isChoice named written) (nodeName isChoice named written) := by
  unfold nodeName
  split
  · exact goes_failAt _ nofun
  · exact goes_pure _
  · exact goes_pure _
  · exact goes_pure _

theorem goes_rejectNodeAttributes (lead : Lead) (property : String) :
    Goes context tokens P P (rejectNodeAttributes lead property)
      (rejectNodeAttributes lead property) := by
  unfold rejectNodeAttributes
  split
  · exact goes_failAt _ nofun
  · exact goes_pure _

/-- A name that is bound from outside is taken. -/
theorem steady_prebound {c : Cursor} (hc : c.Within tokens (n + 1)) (hname : c.token.kind.isName)
    (start : Token) (bound template named : Option Attribute) (written : Option WrittenName) :
    Steady context tokens c (fun _ => Cursor.Within tokens n)
      (prebound start bound template named written) (prebound start bound template named written) := by
  unfold prebound
  cases bound with
  | none => exact steady_failAt start nofun
  | some a =>
    refine Steady.ite (fun _ => steady_failAt_bind start nofun) fun _ => ?_
    cases template with
    | some t => exact steady_failAt t.token nofun
    | none =>
      refine steady_advance ?_
      refine (stays_expect (by decide) _ (hc.advance (ne_eof_of_isName hname))).bind fun _ c hc => ?_
      refine (stays_of_consumes (fun _ _ => consumes_dottedPath) c hc).bind fun path c hc => ?_
      exact steady_pure hc

theorem consumes_constructed (bound template named : Option Attribute)
    (written : Option WrittenName) :
    Consumes context tokens n (constructed bound template named written)
      (constructed bound template named written) := by
  unfold constructed
  cases bound with
  | some a => exact goes_failAt a.token nofun
  | none =>
    refine consumes_construction.bind fun built => ?_
    extract_lets finish
    have hfinish (built : Construction) : Stays context tokens n (finish built) (finish built) :=
      (goes_nodeName false named written).bind fun name => goes_pure _
    split
    · exact hfinish _
    · exact hfinish _
    · exact goes_failAt_bind _ nofun

theorem goes_choiceProperty (name : String) (arguments : Option Expr) (choice : Choice)
    (lead : Lead) (start : Token) :
    Goes context tokens P P (choiceProperty name arguments choice lead start)
      (choiceProperty name arguments choice lead start) :=
  (Attribute.goes_modifiers lead.property false).bind fun _ => goes_pure _

theorem goes_bracketArguments {group : Option Cursor} (h : ∀ c ∈ group, c.Within tokens n) :
    Goes context tokens P P (bracketArguments group) (bracketArguments group) := by
  cases group with
  | none => exact goes_pure none
  | some c =>
    refine goes_rereading (n := n) ?_ (h c rfl).advance_same
    refine (goes_isNext .rbracket).bind fun _ => Goes.ite (fun _ => goes_pure none) fun _ => ?_
    refine (stays_of_consumes fun _ _ => consumes_captureExpression [] _ none).bind fun arguments => ?_
    exact (stays_expect (by decide)).bind fun _ => goes_pure _

/-- The round of captures: a name, its value if there is one, and the comma behind it. -/
def captureRound (found : List Capture) : TreeReader (Option (List Capture)) := do
  if ← isNext .rbracket then pure none
  else
    let id ← name
    let value ←
      if ← accept .equals then
        pure (some (← captureExpression [.comma] ("value captured as '" ++ id ++ "'")))
      else pure none
    if !(← accept .comma) && !(← isNext .rbracket) then
      fail (.expected "',' or ']'" (← current).describe)
    pure (some (⟨id, value⟩ :: found))

theorem captures_some_eq (c : Cursor) : captures (some c) = rereading c.advance (do
    let found ← repeating captureRound []
    pure found.reverse) := rfl

theorem advances_captureRound : Advances context tokens n captureRound captureRound := by
  intro found c hc
  refine steady_isNext (Steady.ite (fun _ => steady_pure hc) fun _ => ?_)
  refine (consumes_name c hc).bind fun id c hc => (stays_accept .equals c hc).bind fun valued c hc => ?_
  extract_lets finish
  have hfinish (value : Option Expr) (c : Cursor) (hc : c.Within tokens n) : Steady context tokens c
      (fun s' => Cursor.Within tokens (if s'.isSome then n else n + 1)) (finish value)
      (finish value) := by
    refine (stays_accept .comma c hc).bind fun _ c hc => steady_isNext ?_
    exact Steady.ite (fun _ => steady_current (steady_fail_bind nofun)) fun _ => steady_pure hc
  refine Steady.ite (fun _ => ?_) fun _ => hfinish none c hc
  exact (stays_of_consumes (fun _ _ => consumes_captureExpression [.comma] _ none) c hc).bind
    fun value => hfinish (some value)

theorem goes_captures {group : Option Cursor} (h : ∀ c ∈ group, c.Within tokens n) :
    Goes context tokens P P (captures group) (captures group) := by
  cases group with
  | none => exact goes_pure []
  | some c =>
    rw [captures_some_eq]
    refine goes_rereading (n := n) ?_ (h c rfl).advance_same
    exact (goes_repeating (fun _ _ => advances_captureRound) _).bind fun found => goes_pure _

theorem stays_connection (start : Token) {group : Option Cursor}
    (hgroup : ∀ c ∈ group, c.Within tokens n) (lead : Lead) :
    Stays context tokens n (connection start group lead) (connection start group lead) := by
  unfold connection
  refine (goes_rejectNodeAttributes lead start.text).bind fun _ => ?_
  refine Goes.ite (fun _ => goes_failAt_bind start nofun) fun _ => ?_
  refine (goes_captures hgroup).bind fun taken => ?_
  refine (stays_expect (by decide)).bind fun _ => ?_
  refine (stays_of_consumes fun _ _ => consumes_captureExpression _ _ none).bind fun value => ?_
  refine (stays_accept .atSign).bind fun _ => ?_
  extract_lets finish
  have hfinish (guard : Option String) : Stays context tokens n (finish guard) (finish guard) :=
    (Attribute.goes_modifiers lead.property false).bind fun _ => goes_pure _
  exact Goes.ite (fun _ => stays_name.bind fun guard => hfinish (some guard)) fun _ => hfinish none

theorem stays_valueProperty (start : Token) (lead : Lead) (optional : Bool) :
    Stays context tokens n (valueProperty start lead optional) (valueProperty start lead optional) := by
  unfold valueProperty
  refine (goes_rejectNodeAttributes lead start.text).bind fun _ => goes_read.bind fun _ => ?_
  refine Goes.ite (fun _ => goes_failAt_bind start nofun) fun _ => ?_
  refine (stays_of_consumes fun _ _ => consumes_captureExpression _ _ none).bind fun value => ?_
  exact (Attribute.goes_modifiers lead.property optional).bind fun m => goes_pure _

theorem stays_writtenName? : Stays context tokens n writtenName? writtenName? := by
  intro c hc
  have hwritten (isMutable : Bool) : Stays context tokens n _ _ :=
    stays_name.bind fun id => (stays_expect (by decide : TokenKind.equals ≠ .eof)).bind fun _ =>
      goes_pure (some (⟨id, isMutable⟩ : WrittenName))
  refine steady_isNext (steady_ahead (steady_ahead (Steady.ite (fun _ => ?_) fun _ => ?_)))
  · exact steady_advance (hwritten true _ hc.advance_same)
  · refine steady_current (steady_ahead (Steady.ite (fun _ => ?_) fun _ => steady_pure hc))
    exact hwritten false c hc

end NodeReaders
end ViewTree
