import ViewTree.Tree.Attribute

/-!
Widgets, properties and choices from tokens. Productions are written over the readers that
recursion goes through (`NodeReaders`) and closed by `nodeReaders`, which allows as many nested
nodes as there are tokens: every node takes a token before another one starts inside it.
-/
namespace ViewTree
open TreeReader

/-- A name that is written in front of a node. -/
structure WrittenName where
  name : String
  isMutable : Bool

/-- The readers that recursion goes through. -/
structure NodeReaders where
  widget : Lead → Option WrittenName → TreeReader Widget
  choice : Lead → Option WrittenName → TreeReader Choice

namespace NodeReaders

/-- Segments with dots between them. -/
def dottedPath : TreeReader String := do
  let first ← name
  let found ← repeating (fun found => do
    if (← isNext .dot) && (← ahead).kind.isName then
      let _ ← advance
      pure (some ((← advance).text :: found))
    else pure none) [first]
  pure (".".intercalate found.reverse)

/-- A path, and the calls behind it if there are any: a single one, or a chain. -/
def construction : TreeReader Construction := do
  let start ← current
  if !start.kind.isName then fail (.expected "a widget" start.describe)
  let path ← dottedPath
  if !(← isNext .lparen) then pure (.block path)
  else
    let last ← balanced
    let (last, chained) ← repeating (fun _ => do
      if (← isNext .dot) && (← ahead).kind.isName && (← ahead 2).kind = .lparen then
        let _ ← advance
        let _ ← advance
        pure (some (← balanced, true))
      else pure none) (last, false)
    pure (.call path (← expression (← textBetween start last) start) chained)

/-- The name of a node that is not bound from outside: the one in front of it or the one of its
attribute, not both. -/
def nodeName (isChoice : Bool) (named : Option Attribute) (written : Option WrittenName) :
    TreeReader NodeName := do
  match named, written with
  | some a, some w => failAt (.namedTwice isChoice w.name) a.token
  | some a, none => pure ((a.names.head?).elim .absent (.given · a.isMutable))
  | none, some w => pure (.given w.name w.isMutable)
  | none, none => pure .absent

def rejectNodeAttributes (lead : Lead) (property : String) : TreeReader Unit :=
  match lead.node with
  | a :: _ => failAt (.attributeOnProperty a.kind property) a.token
  | [] => pure ()

/-- A widget where nothing attaches it: a tree, or a branch. -/
def tree (r : NodeReaders) : TreeReader Widget := do
  let lead ← Attribute.lead
  match lead.property with
  | a :: _ => failAt (.attributeWithoutProperty a.kind) a.token
  | [] =>
    if (← isNext .ifWord) || (← isNext .matchWord) then fail .chainInPlaceOfWidget
    r.widget lead none

/-- The widget of a branch between braces, with a comma or none behind it; where `bare` says so the
braces may be left out. -/
def branchBody (r : NodeReaders) (bare : Bool) : TreeReader Widget := do
  let opening ← current
  if ← accept .lbrace then
    let widget ← r.tree
    let _ ← accept .comma
    let t ← current
    if t.kind ≠ .rbrace then failAt .branchNotSingle (if t.kind = .eof then opening else t)
    let _ ← advance
    pure widget
  else if bare then r.tree
  else fail (.expected "'\x7b' to open the branch" opening.describe)

/-- Advice for expressions that a brace ends. -/
def braceHint : String :=
  "it ends at the first '\x7b'; wrap set or dict literals in parentheses"

/-- A condition and its branch, behind the word at `start`. -/
def branch (r : NodeReaders) (start : Token) : TreeReader Branch := do
  let condition ← captureExpression [.lbrace] "condition" (some braceHint)
  let widget ← r.branchBody false
  pure ⟨condition, widget, start.place⟩

/-- An `if` with any number of `elif`, which may be written `else if`, and an `else`. -/
def chain (r : NodeReaders) : TreeReader Branches := do
  let first ← r.branch (← expect .ifWord)
  let others ← repeating (fun others => do
    let start ← current
    if start.kind = .elifWord || (start.kind = .elseWord && (← ahead).kind = .ifWord) then
      let _ ← accept .elseWord
      let _ ← advance
      pure (some ((← r.branch start) :: others))
    else pure none) []
  let start ← current
  if ← accept .elseWord then
    let last ← r.branchBody false
    pure (.chain first others.reverse last start.place)
  else failAt (.unfinishedChain start.describe) start

def caseArm (r : NodeReaders) : TreeReader (CaseArm × Token) := do
  let start ← current
  let pattern ← capturePattern
  let _ ← expect .fatArrow
  let widget ← r.branchBody true
  pure (⟨pattern, widget⟩, start)

def cases (r : NodeReaders) : TreeReader Branches := do
  let start ← expect .matchWord
  let subject ← captureExpression [.lbrace] "match subject" (some braceHint)
  let opening ← expect .lbrace
  let arms ← block opening r.caseArm
  match arms with
  | [] => failAt .noArms start
  | _ =>
    match Embedded.armsProblem? (arms.map (·.1.pattern.arm)) with
    | some (i, problem) => failAt (.invalidArms problem) ((arms[i]?.map (·.2)).getD start)
    | none => pure (.cases subject (arms.map (·.1)))

def choiceOf (r : NodeReaders) (lead : Lead) (written : Option WrittenName) :
    TreeReader Choice := do
  let start ← current
  match lead.node.find? (·.kind ≠ .name) with
  | some a => failAt (.attributeOnChoice a.kind) a.token
  | none =>
    let name ← nodeName true (← Attribute.find? .name lead.node) written
    let branches ←
      if ← isNext .ifWord then r.chain
      else if ← isNext .matchWord then r.cases
      else fail (.expected "'if' or 'match'" start.describe)
    pure ⟨name, none, lead.doc, start.place, branches⟩

/-- The choice with the transition of the property it hangs on. -/
def choiceProperty (name : String) (arguments : Option Expr) (choice : Choice) (lead : Lead)
    (start : Token) : TreeReader Property := do
  let modifiers ← Attribute.modifiers lead.property
  let choice := { choice with transition := modifiers.transition }
  pure ⟨name, modifiers, start.place, .choice arguments choice⟩

/-- A node behind the `=` of a property. -/
def childProperty (r : NodeReaders) (start : Token) (arguments : Option Expr)
    (written : Option WrittenName) (lead : Lead) : TreeReader Property := do
  if (← isNext .ifWord) || (← isNext .matchWord) then
    choiceProperty start.text arguments (← r.choice lead written) lead start
  else
    let widget ← r.widget lead written
    let modifiers ← Attribute.modifiers lead.property
    pure ⟨start.text, modifiers, start.place, .child arguments widget⟩

/-- The bracketed group that `group` starts at, read as arguments. -/
def bracketArguments (group : Option Cursor) : TreeReader (Option Expr) :=
  match group with
  | none => pure none
  | some cursor => rereading cursor.advance do
    if ← isNext .rbracket then pure none
    else
      let arguments ← captureExpression [] "arguments"
      let _ ← expect .rbracket
      pure (some arguments)

/-- The bracketed group that `group` starts at, read as captures. -/
def captures (group : Option Cursor) : TreeReader (List Capture) :=
  match group with
  | none => pure []
  | some cursor => rereading cursor.advance do
    let found ← repeating (fun found => do
      if ← isNext .rbracket then pure none
      else
        let id ← name
        let value ←
          if ← accept .equals then
            pure (some (← captureExpression [.comma] ("value captured as '" ++ id ++ "'")))
          else pure none
        if !(← accept .comma) && !(← isNext .rbracket) then
          fail (.expected "',' or ']'" (← current).describe)
        pure (some (⟨id, value⟩ :: found))) []
    pure found.reverse

/-- How the names of connections start. -/
def isConnectionName (word : String) : Bool :=
  Text.connectionMark.toList.isPrefixOf word.toList && word ≠ Text.connectionMark

def connection (start : Token) (group : Option Cursor) (lead : Lead) : TreeReader Property := do
  rejectNodeAttributes lead start.text
  if !isConnectionName start.text then failAt (.misnamedConnection start.text) start
  let taken ← captures group
  let _ ← expect .fatArrow
  let value ← captureExpression [.comma, .atSign]
    ("callback or message of '" ++ start.text ++ "'")
  let guard ← if ← accept .atSign then pure (some (← name)) else pure none
  let modifiers ← Attribute.modifiers lead.property
  pure ⟨start.text, modifiers, start.place, .connection value taken guard⟩

def valueProperty (start : Token) (lead : Lead) (optional : Bool) : TreeReader Property := do
  rejectNodeAttributes lead start.text
  let isBinding := start.text = (← read).settings.bindingMethod
  if optional && isBinding then failAt .optionalBinding start
  let value ← captureExpression [.comma] ("value of '" ++ start.text ++ "'")
  let modifiers ← Attribute.modifiers lead.property optional
  pure ⟨start.text, modifiers, start.place, if isBinding then .binding value else .method value⟩

/-- The name of a node behind the colon of a property, with the `=` behind it. -/
def writtenName? : TreeReader (Option WrittenName) := do
  let isNamed (first second : Token) : Bool := first.kind.isName && second.kind = .equals
  if (← isNext .mutWord) && isNamed (← ahead) (← ahead 2) then
    let _ ← advance
    let id ← name
    let _ ← expect .equals
    pure (some ⟨id, true⟩)
  else if isNamed (← current) (← ahead) then
    let id ← name
    let _ ← expect .equals
    pure (some ⟨id, false⟩)
  else pure none

def namedProperty (r : NodeReaders) (lead : Lead) : TreeReader Property := do
  let start ← advance
  if ← accept .question then
    let _ ← expect .colon
    valueProperty start lead true
  else
    let here ← get
    let group ← if ← isNext .lbracket then do
        let _ ← balanced
        pure (some here)
      else pure none
    if ← isNext .fatArrow then connection start group lead
    else if ← accept .equals then
      r.childProperty start (← bracketArguments group) none lead
    else if ← accept .colon then
      match ← writtenName? with
      | some written => r.childProperty start (← bracketArguments group) (some written) lead
      | none =>
        match group with
        | some cursor => failAt .misplacedArguments cursor.token
        | none => valueProperty start lead false
    else
      fail (.expected ("':', '=' or '=>' after '" ++ start.text ++ "'") (← current).describe)

/-- Tokens that make the name in front of them a property. -/
def marksProperty : TokenKind → Bool
  | .colon | .question | .lbracket | .equals | .fatArrow => true
  | _ => false

def item (r : NodeReaders) : TreeReader Property := do
  let lead ← Attribute.lead
  let start ← current
  if start.kind = .ifWord || start.kind = .matchWord then
    choiceProperty "" none (← r.choice lead none) lead start
  else if start.kind.isName && marksProperty (← ahead).kind then r.namedProperty lead
  else
    let widget ← r.widget lead none
    let modifiers ← Attribute.modifiers lead.property
    pure ⟨"", modifiers, start.place, .child none widget⟩

def prebound (start : Token) (bound template named : Option Attribute)
    (written : Option WrittenName) : TreeReader (NodeName × Construction) := do
  match bound with
  | none => failAt (.unmarkedBinding start.text) start
  | some a =>
    if written.isSome || named.isSome then failAt .renamedBinding start
    match template with
    | some t => failAt .bindingAsTemplate t.token
    | none =>
      let _ ← advance
      let _ ← expect .arrow
      let path ← dottedPath
      pure (.given start.text false, .prebound path (a.kind = .localReference))

def constructed (bound template named : Option Attribute) (written : Option WrittenName) :
    TreeReader (NodeName × Construction) := do
  match bound with
  | some a => failAt (.misplacedBinding a.kind) a.token
  | none =>
    let built ← construction
    let built ← match template, built with
      | none, _ => pure built
      | some _, .block path => pure (.template path)
      | some t, _ => failAt .calledTemplate t.token
    pure (← nodeName false named written, built)

def widgetOf (r : NodeReaders) (lead : Lead) (written : Option WrittenName) :
    TreeReader Widget := do
  let start ← current
  let find (kind : AttributeKind) : TreeReader (Option Attribute) := Attribute.find? kind lead.node
  let localValue ← find .localValue
  let localReference ← find .localReference
  let template ← find .template
  let root ← find .root
  let named ← find .name
  match localValue, localReference with
  | some _, some b => failAt .bothLocal b.token
  | _, _ =>
    let bound := localValue.or localReference
    let (name, construction) ←
      if start.kind.isName && (← ahead).kind = .arrow then
        prebound start bound template named written
      else constructed bound template named written
    let opening ← current
    let properties ← if ← accept .lbrace then block opening r.item else pure []
    pure ⟨name, construction, root.isSome, lead.doc, start.place, properties⟩

end NodeReaders

/-- The readers for at most `depth` nested nodes. -/
def nodeReaders : (depth : Nat) → NodeReaders
  | 0 => ⟨fun _ _ => fail .nested, fun _ _ => fail .nested⟩
  | depth + 1 => ⟨(nodeReaders depth).widgetOf, (nodeReaders depth).choiceOf⟩

namespace Component
open NodeReaders

/-- No widget but the first one of the first tree may be marked as the root; where it is. -/
def misplacedRoot? (trees : List Widget) : Option Place :=
  let marked := (trees.flatMap Widget.walk).drop 1
  (marked.findSome? fun n => n.widget?.filter (·.isRoot)).map (·.place)

def markRoot (w : Widget) : Widget := { w with isRoot := true }

def checkRoot (trees : List Widget) : TreeReader Unit :=
  match misplacedRoot? trees with
  | some place => throw (.problem (.found .misplacedRoot place none))
  | none => pure ()

/-- Parameters behind their opening parenthesis. -/
def parameters : TreeReader (List String) := do
  let found ← repeating (fun found => do
    if ← isNext .rparen then pure none
    else
      let id ← TreeReader.name
      if !(← accept .comma) && !(← isNext .rparen) then
        fail (.expected "',' or ')'" (← current).describe)
      pure (some (id :: found))) []
  let _ ← expect .rparen
  pure found.reverse

def readView (r : NodeReaders) : TreeReader View := do
  let start ← expect .view
  let id ← TreeReader.name
  let _ ← expect .lparen
  match ← parameters with
  | [] => failAt (.noModel id) start
  | model :: others =>
    let tracked ← accept .tracked
    let opening ← expect .lbrace
    match ← block opening r.tree with
    | [] => failAt (.noWidgets id) start
    | root :: trees =>
      checkRoot (root :: trees)
      pure ⟨id, model, others, tracked, markRoot root, trees, start.place⟩

def readTemplate (r : NodeReaders) : TreeReader Template := do
  let start ← expect .template
  let id ← TreeReader.name
  let _ ← expect .lbrace
  let tree ← r.tree
  let _ ← accept .comma
  if !(← isNext .rbrace) then fail (.excessTree id (← current).describe)
  let _ ← advance
  checkRoot [tree]
  pure ⟨id, markRoot tree, start.place⟩

def readOne (r : NodeReaders) : TreeReader Component := do
  if ← isNext .view then pure (.view (← readView r))
  else if ← isNext .template then pure (.template (← readTemplate r))
  else fail (.expected "'view' or 'template'" (← current).describe)

def read : TreeReader Component := do
  let r := nodeReaders ((← get).rest.length + 1)
  let component ← readOne r
  if !(← isNext .eof) then
    fail (.trailing (← current).describe component.kind component.name)
  pure component

def ofTokens (context : Context) (tokens : Tokens) : Except Failure Component :=
  match (read.run context).run ⟨none, tokens.items, tokens.eof⟩ with
  | .ok (component, _) => .ok component
  | .error failure => .error failure

end Component
end ViewTree
