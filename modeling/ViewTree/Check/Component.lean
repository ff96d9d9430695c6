import ViewTree.Check.Finding
import ViewTree.Settings

/-!
The checks on a named component. A component without errors can be turned into code.
-/
namespace ViewTree
open Embedded

namespace Component

def error (place : Place) (finding : Finding) : Diagnostic := ⟨place, finding⟩

/-- The table of names so far with the errors so far, and for each parent the names below it. -/
structure Collection where
  symbols : Symbols := {}
  errors : List Diagnostic := []
  scopes : List (Option String × String) := []

def collectNode (component : String) (t : Collection) (v : Visit) : Collection :=
  match v.entry? with
  | none => { t with errors := t.errors ++ [⟨v.node.place, .unnamedWidget⟩] }
  | some e =>
    let scopes := (v.parent, e.name) :: t.scopes
    match t.symbols.addNode e with
    | .ok symbols => { t with symbols, scopes }
    | .error problem =>
      let finding : Finding :=
        if t.scopes.contains (v.parent, e.name) then
          .duplicateSibling e.name (v.parent.getD component)
        else .symbol component problem
      { t with errors := t.errors ++ [⟨v.node.place, finding⟩], scopes }

def collectGuard (component : String) (t : Collection) (v : Visit) (p : Property) : Collection :=
  match v.guardEntry? p with
  | none => t
  | some e =>
    match t.symbols.addGuard e with
    | .ok symbols => { t with symbols }
    | .error problem =>
      { t with errors := t.errors ++ [⟨p.place, .symbol component problem⟩] }

/-- The table that holds the first node or guard of each name, and an error for each further one. -/
def collectSymbols (c : Component) : Symbols × List Diagnostic :=
  let t := c.visits.foldl (collectNode c.name) {}
  let t := c.propertyVisits.foldl (fun t (v, p) => collectGuard c.name t v p) t
  (t.symbols, t.errors)

/-- Names that the generated routines use themselves. -/
def reservedNames : List String := ["widgets"]

def nameProblem? (settings : Settings) (name : String) : Option NameProblem :=
  if !Text.isIdentifier name then some .notIdentifier
  else if isKeyword name then some .keyword
  else if name.toList.head? = some '_' then some .leadingUnderscore
  else if reservedNames.contains name then some .reserved
  else if name = settings.toolkitModule then some .toolkitModule
  else none

def checkNodeName (settings : Settings) (c : Component) (n : Node) : List Diagnostic :=
  match n.nodeName with
  | .given name _ =>
    ((nameProblem? settings name).map (Finding.nodeName name)).toList.map (error n.place) ++
    (if c.params.contains name && !n.isPrebound then
      [⟨n.place, .nodeShadowsParameter name c.name⟩] else []) ++
    (if c.kind = .template && name = "root" then [⟨n.place, .rootName⟩] else [])
  | _ => []

def checkGuardName (settings : Settings) (c : Component) (p : Property) : List Diagnostic :=
  match p.guard? with
  | some guard =>
    ((nameProblem? settings guard).map (Finding.guardName guard)).toList.map (error p.place) ++
    (if c.params.contains guard then [⟨p.place, .guardShadowsParameter guard⟩] else [])
  | none => []

/-- Written names are identifiers that mean nothing else in the generated code. -/
def checkNames (settings : Settings) (c : Component) : Findings where
  errors := c.visits.flatMap (fun v => checkNodeName settings c v.node) ++
    c.propertyVisits.flatMap fun (_, p) => checkGuardName settings c p

def checkPropertyModifiers (p : Property) : Findings :=
  let illegal := p.modifiers.names.filter (!p.kind.allowed.contains ·)
  if !illegal.isEmpty then
    { errors := [⟨p.place, .illegalModifiers illegal p.kind p.label⟩] }
  else
    { warnings :=
        (if p.modifiers.watch && p.modifiers.tracks then [⟨p.place, .watchWins p.label⟩] else []) ++
        (if !p.modifiers.blockSignals.isEmpty && !p.modifiers.refreshes then
          [⟨p.place, .idleBlock p.label⟩] else []) }

/-- Each property carries only modifiers that its kind allows. -/
def checkModifiers (c : Component) : Findings :=
  c.propertyVisits.foldl (fun found (_, p) => found ++ checkPropertyModifiers p) {}

/-- The problem of a property that is to be applied again. -/
def trackingProblem? (c : Component) (p : Property) : Option Finding :=
  let m := p.modifiers
  if !m.refreshes then none
  else match c with
    | template t => some (.refreshInTemplate t.name p.label)
    | view v =>
      if !m.tracks || m.watch then none
      else if !v.tracked then some (.untrackedView p.label v.name)
      else match m.predicate?, p.value? with
        | none, some value =>
          if (value.term.fieldsOf v.model).isEmpty then some (.noPredicate p.label v.model)
          else none
        | _, _ => none

/-- Refreshing needs an update routine, and tracking a model that knows what changed. -/
def checkTracking (c : Component) : Findings where
  errors := c.propertyVisits.filterMap fun (_, p) =>
    (c.trackingProblem? p).map (error p.place)

def guardProblem? (symbols : Symbols) (tree : Nat) (guard : String) : Option Finding :=
  match symbols.guard? guard with
  | none => some (.unknownGuard guard)
  | some e => if e.tree ≠ tree then some (.foreignGuard guard) else none

/-- Each name of a signal to block is a guard of the same tree. -/
def checkGuards (symbols : Symbols) (c : Component) : Findings where
  errors := c.propertyVisits.flatMap fun (v, p) =>
    (p.modifiers.blockSignals.filterMap (guardProblem? symbols v.tree)).map (error p.place)

/-- The names that come more than once, in alphabetical order. -/
def repeatedNames (names : List String) : List String :=
  sortNames (names.filter fun name => 1 < names.count name)

def checkConnection (c : Component) (p : Property) : List Diagnostic :=
  match p.payload with
  | .connection value captures guard =>
    let dispatch : List Finding :=
      if value.term.isLambda then []
      else match c with
        | template t => [.messageInTemplate t.name p.name]
        | view v => if v.others.isEmpty then [.noSender p.name v.name] else []
    let guarded : List Finding := match c, guard with
      | template t, some guard => [.guardInTemplate t.name guard]
      | _, _ => []
    let twice := repeatedNames (captures.map (·.name))
    let captured : List Finding := if twice.isEmpty then [] else [.repeatedCaptures p.name twice]
    (dispatch ++ guarded ++ captured).map (error p.place)
  | _ => []

/-- Messages need a sender, guards an update routine, and captures different names. -/
def checkConnections (c : Component) : Findings where
  errors := c.propertyVisits.flatMap fun (_, p) => c.checkConnection p

/-- The fewest elements of a property binding. -/
def bindingArity : Nat := 3

def bindingProblem? (settings : Settings) (symbols : Symbols) (c : Component) (value : Expr) :
    Option Finding :=
  match elementTexts? value.text value.term with
  | some (first :: target :: third :: more) =>
    if (first :: target :: third :: more).length < bindingArity then
      some (.malformedBinding settings.bindingMethod)
    else match Text.plainName? target with
      | some name =>
        if (symbols.node? name).isSome || c.params.contains name then none
        else some (.unknownTarget name c.name)
      | none => none
  | _ => some (.malformedBinding settings.bindingMethod)

/-- A binding names its target, and a target that is a bare name is known. -/
def checkBindings (settings : Settings) (symbols : Symbols) (c : Component) : Findings where
  errors := c.propertyVisits.filterMap fun (_, p) =>
    match p.payload with
    | .binding value => (bindingProblem? settings symbols c value).map (error p.place)
    | _ => none

/-- Templates take no parameters, so nothing in them is bound from outside. -/
def checkPrebound (c : Component) : Findings where
  errors := c.visits.filterMap fun v =>
    if !v.node.isPrebound then none
    else match v.node.name?, c with
      | none, _ => some ⟨v.node.place, .unnamedBinding⟩
      | some name, template t => some ⟨v.node.place, .bindingInTemplate t.name name⟩
      | some _, view _ => none

def selectionNames : Branches → List String
  | .chain first others _ _ => (first :: others).flatMap fun b => b.condition.term.names
  | .cases subject arms => subject.term.names ++ arms.flatMap fun a => a.pattern.arm.names

/-- The expressions of a property that is applied again. -/
def refreshedExprs (p : Property) : List Expr :=
  p.value?.toList ++ p.modifiers.predicate?.toList ++ p.modifiers.chain

/-- Parameters behind the sender that no widget bound from outside is named after. -/
def initOnly (c : Component) : List String :=
  let bound := (c.walk.filter Node.isPrebound).filterMap Node.name?
  (c.params.drop 2).filter (!bound.contains ·)

/-- The names that are both read and known only while the widgets are built. -/
def readsOf (initOnly names : List String) : List String :=
  sortNames (names.filter initOnly.contains)

def checkNodeScope (initOnly : List String) (n : Node) : List Diagnostic :=
  match n with
  | .choice choice =>
    (readsOf initOnly (selectionNames choice.branches)).map fun name =>
      ⟨choice.place, .choiceReads choice.name.text name⟩
  | .widget w => w.properties.flatMap fun p =>
    if p.modifiers.refreshes then
      (readsOf initOnly ((refreshedExprs p).flatMap (·.term.names))).map fun name =>
        ⟨p.place, .refreshReads p.label name⟩
    else []

/-- What is evaluated again reads only what the update routine receives. -/
def checkUpdateScope (c : Component) : Findings where
  errors := c.visits.flatMap fun v => checkNodeScope c.initOnly v.node

def check (settings : Settings) (c : Component) : Findings :=
  let (symbols, errors) := c.collectSymbols
  ({ errors } : Findings) ++ c.checkNames settings ++ c.checkModifiers ++ c.checkTracking ++
    c.checkGuards symbols ++ c.checkConnections ++ c.checkBindings settings symbols ++
    c.checkPrebound ++ c.checkUpdateScope

def lintNode (extended : Bool) (c : Component) (n : Node) : List Diagnostic :=
  match n with
  | .choice ⟨name, _, _, place, .cases _ [_]⟩ => [⟨place, .singleArm name.text⟩]
  | .choice _ => []
  | .widget w =>
    let name := w.name.text
    if extended && w.construction.isPrebound && !c.params.contains name then
      [⟨w.place, .looseBinding name c.name⟩]
    else []

def lintProperty (c : Component) (p : Property) : List Diagnostic :=
  match p.value? with
  | some value =>
    if p.modifiers.watch && !value.term.names.any c.params.contains then
      [⟨p.place, .idleWatch p.label⟩]
    else []
  | none => []

/-- Warnings about what is probably a mistake; `extended` adds what often is none. -/
def lint (extended : Bool) (c : Component) : List Diagnostic :=
  c.visits.flatMap (fun v => c.lintNode extended v.node) ++
    if extended then c.propertyVisits.flatMap fun (_, p) => c.lintProperty p else []

end Component
end ViewTree
