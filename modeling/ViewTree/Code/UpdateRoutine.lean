import ViewTree.Code.InitRoutine

/-!
The statements of the update routine: what was applied first and is to be applied again, and the
choice of every page, in the order in which the init routine has them.
-/
namespace ViewTree

/-- What the update routine of a view looks names up in. -/
structure UpdateScope where
  model : String
  symbols : Symbols

namespace UpdateScope

/-- The signal that a guard stands for, on the widget that declares it. -/
def blocked (s : UpdateScope) (guard : String) : Except CodeProblem BlockedSignal :=
  match s.symbols.guard? guard with
  | none => throw (.unknownGuard guard)
  | some e => pure ⟨guard, ((s.symbols.node? e.owner).map (·.node.handle)).getD ⟨e.owner, false⟩⟩

/-- When a property with the value is applied again: always if it is watched. -/
def trigger (s : UpdateScope) (property : String) (m : Modifiers) (value : Expr) :
    Except CodeProblem (Option Trigger) :=
  if m.watch then pure none
  else match m.predicate? with
    | some condition => pure (some (.written condition))
    | none =>
      let fields := value.term.fieldsOf s.model
      if fields.isEmpty then throw (.noPredicate property s.model)
      else pure (some (.changed s.model fields))

def refresh (s : UpdateScope) (target : Handle) (p : Property) :
    Except CodeProblem (List Statement) :=
  match p.application? target with
  | some application =>
    if p.modifiers.refreshes then do
      let trigger ← s.trigger p.name p.modifiers application.value
      let blocked ← p.modifiers.blockSignals.mapM s.blocked
      pure [.refresh trigger blocked application]
    else pure []
  | none => pure []

end UpdateScope

mutual

def Widget.refresh (s : UpdateScope) : Widget → Except CodeProblem (List Statement)
  | ⟨name, construction, _, _, _, properties⟩ =>
    Property.refreshEach s ⟨name.text, construction.isTemplate⟩ properties

def Property.refreshEach (s : UpdateScope) (target : Handle) :
    List Property → Except CodeProblem (List Statement)
  | [] => pure []
  | ⟨name, modifiers, place, payload⟩ :: more => do
    let own ← s.refresh target ⟨name, modifiers, place, payload⟩
    let below ← payload.refresh s
    return own ++ below ++ (← Property.refreshEach s target more)

def Payload.refresh (s : UpdateScope) : Payload → Except CodeProblem (List Statement)
  | .method _ | .binding _ | .connection _ _ _ => pure []
  | .child _ widget => widget.refresh s
  | .choice _ choice => choice.refresh s

def Choice.refresh (s : UpdateScope) : Choice → Except CodeProblem (List Statement)
  | ⟨name, transition, _, _, branches⟩ => do
    return .switchPage name.text transition branches :: (← branches.refresh s)

def Branches.refresh (s : UpdateScope) : Branches → Except CodeProblem (List Statement)
  | .chain ⟨_, widget, _⟩ others last _ => do
    let first ← widget.refresh s
    let middle ← Branch.refreshEach s others
    return first ++ middle ++ (← last.refresh s)
  | .cases _ arms => CaseArm.refreshEach s arms

def Branch.refreshEach (s : UpdateScope) : List Branch → Except CodeProblem (List Statement)
  | [] => pure []
  | ⟨_, widget, _⟩ :: more => do
    let own ← widget.refresh s
    return own ++ (← Branch.refreshEach s more)

def CaseArm.refreshEach (s : UpdateScope) : List CaseArm → Except CodeProblem (List Statement)
  | [] => pure []
  | ⟨_, widget⟩ :: more => do
    let own ← widget.refresh s
    return own ++ (← CaseArm.refreshEach s more)

end

namespace View

/-- What is applied again, in the order of the trees. -/
def refreshes (v : View) (symbols : Symbols) : Except CodeProblem (List Statement) := do
  return (← (v.root :: v.trees).mapM (Widget.refresh ⟨v.model, symbols⟩)).flatten

/-- The body of the update routine: it takes the names of the record out first, if it does
anything at all. -/
def updates (v : View) (symbols : Symbols) (names : List String) :
    Except CodeProblem (List Statement) := do
  let body ← v.refreshes symbols
  return if body.isEmpty then [.nothing] else names.map .load ++ body

end View
end ViewTree
