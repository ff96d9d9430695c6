import ViewTree.Embedded.Names
import ViewTree.Text.Quoted

/-!
What keeps arms that are patterns one by one from standing in one match. Scopes are looked at
first, over all arms: names bound by comprehensions and by `:=`. Then come the arms in order, each
its pattern before its guard: unreachable arms, names bound twice, and constructs that need a
function around them.
-/
namespace ViewTree.Embedded
open Text

inductive ComprehensionKind where
  | list | set | dict | generator
deriving DecidableEq, Repr

inductive ArmProblem where
  | duplicateParameter (name : String)
  | bindingInSource
  | bindsLoopName (name : String)
  | loopsOverBound (name : String)
  | yieldInComprehension (kind : ComprehensionKind)
  | wildcardBeforeLast
  | captureBeforeLast (name : String)
  | boundTwice (name : String)
  | severalStars
  | tooManyBeforeStar
  | alternativesDiffer
  | repeatedAttribute (name : String)
  | duplicateKey (text : String)
  | valueNotLiteral
  | keyNotLiteral
  | assignsDebug
  | yieldOutsideFunction
  | awaitOutsideFunction
  | awaitInLambda
  | asyncComprehension
  | repeatedKeyword (name : String)
  | starredValue
  | starredTarget
  | severalStarredTargets
  | tooManyBeforeStarredTarget
deriving DecidableEq, Repr

namespace ArmProblem

def message : ArmProblem → String
  | duplicateParameter name => "duplicate argument '" ++ name ++ "' in function definition"
  | bindingInSource =>
    "assignment expression cannot be used in a comprehension iterable expression"
  | bindsLoopName name =>
    "assignment expression cannot rebind comprehension iteration variable '" ++ name ++ "'"
  | loopsOverBound name =>
    "comprehension inner loop cannot rebind assignment expression target '" ++ name ++ "'"
  | yieldInComprehension .list => "'yield' inside list comprehension"
  | yieldInComprehension .set => "'yield' inside set comprehension"
  | yieldInComprehension .dict => "'yield' inside dict comprehension"
  | yieldInComprehension .generator => "'yield' inside generator expression"
  | wildcardBeforeLast => "wildcard makes remaining patterns unreachable"
  | captureBeforeLast name => "name capture '" ++ name ++ "' makes remaining patterns unreachable"
  | boundTwice name => "multiple assignments to name '" ++ name ++ "' in pattern"
  | severalStars => "multiple starred names in sequence pattern"
  | tooManyBeforeStar => "too many expressions in star-unpacking sequence pattern"
  | alternativesDiffer => "alternative patterns bind different names"
  | repeatedAttribute name => "attribute name repeated in class pattern: " ++ name
  | duplicateKey text => "mapping pattern checks duplicate key (" ++ text ++ ")"
  | valueNotLiteral => "patterns may only match literals and attribute lookups"
  | keyNotLiteral => "mapping pattern keys may only match literals and attribute lookups"
  | assignsDebug => "cannot assign to __debug__"
  | yieldOutsideFunction => "'yield' outside function"
  | awaitOutsideFunction => "'await' outside function"
  | awaitInLambda => "'await' outside async function"
  | asyncComprehension => "asynchronous comprehension outside of an asynchronous function"
  | repeatedKeyword name => "keyword argument repeated: " ++ name
  | starredValue => "can't use starred expression here"
  | starredTarget => "starred assignment target must be in a list or tuple"
  | severalStarredTargets => "multiple starred expressions in assignment"
  | tooManyBeforeStarredTarget => "too many expressions in star-unpacking assignment"

end ArmProblem

abbrev Verdict := Except ArmProblem

/-- The element that stands a second time behind an equal one, for the first that has one. -/
def firstRepeated? : List String → Option String
  | [] => none
  | x :: xs => if xs.contains x then some x else firstRepeated? xs

/-- What is known of the innermost scope. `enclosing` holds the loop names of the comprehensions
around it, up to the next function; `inSource` says whether the place is inside the source of some
comprehension, `inTarget` whether it is inside a loop target of this scope. -/
structure Scope where
  comprehension : Option ComprehensionKind := none
  enclosing : List (List String) := []
  loopNames : List String := []
  bound : List String := []
  inSource : Bool := false
  inTarget : Bool := false

namespace Scope

/-- The scope after one of its names was met. -/
def meet (s : Scope) (name : String) : Verdict Scope :=
  if !s.inTarget then pure s
  else if s.bound.contains name then throw (.loopsOverBound name)
  else pure { s with loopNames := name :: s.loopNames }

/-- The scope after `:=` bound a name in it. -/
def bind (s : Scope) (name : String) : Verdict Scope :=
  if s.inSource then throw .bindingInSource
  else if s.comprehension.isNone then pure s
  else if (s.loopNames :: s.enclosing).any (·.contains name) then throw (.bindsLoopName name)
  else if s.inTarget then throw (.loopsOverBound name)
  else pure { s with bound := name :: s.bound }

def forLambda (s : Scope) : Scope := { inSource := s.inSource }

def forComprehension (s : Scope) (kind : ComprehensionKind) : Scope where
  comprehension := some kind
  enclosing := if s.comprehension.isSome then s.loopNames :: s.enclosing else []
  inSource := s.inSource

end Scope

def paramOrder : List ParamKind := [.positionalOnly, .ordinary, .keywordOnly, .rest, .keywords]

/-- The first parameter that repeats the name of one before it. -/
def checkParams (params : List Param) : Verdict Unit :=
  let names := paramOrder.flatMap fun kind => (params.filter (·.kind = kind)).map (·.name)
  match (names.zipIdx.find? fun (name, i) => (names.take i).contains name) with
  | some (name, _) => throw (.duplicateParameter name)
  | none => pure ()

mutual

def Term.scope (s : Scope) : Term → Verdict Scope
  | .mk _ _ form => form.scope s

def Form.scope (s : Scope) : Form → Verdict Scope
  | .name id | .binder id => s.meet id
  | .literal _ => pure s
  | .format pieces => Piece.scopeAll s pieces
  | .attribute value _ | .await value | .starred value | .unary _ value => value.scope s
  | .subscript value index => do index.scope (← value.scope s)
  | .call function plain keywords => do
    Keyword.scopeAll (← Term.scopeAll (← function.scope s) plain) keywords
  | .binary _ left right => do right.scope (← left.scope s)
  | .bool _ operands => Term.scopeAll s operands
  | .compare first _ others => do Term.scopeAll (← first.scope s) others
  | .lambda params body => do
    let s ← Param.scopeAll s params
    checkParams params
    let _ ← body.scope s.forLambda
    pure s
  | .choice test body other => do other.scope (← body.scope (← test.scope s))
  | .tuple items | .list items | .set items => Term.scopeAll s items
  | .dict entries => do Entry.scopeValues (← Entry.scopeKeys s entries) entries
  | .listOf element clauses => do
    let s ← Clause.scopeSource s clauses
    let inner ← Clause.scopeBody (s.forComprehension .list) clauses
    let _ ← element.scope inner
    pure s
  | .setOf element clauses => do
    let s ← Clause.scopeSource s clauses
    let inner ← Clause.scopeBody (s.forComprehension .set) clauses
    let _ ← element.scope inner
    pure s
  | .generator element clauses => do
    let s ← Clause.scopeSource s clauses
    let inner ← Clause.scopeBody (s.forComprehension .generator) clauses
    let _ ← element.scope inner
    pure s
  | .dictOf key value clauses => do
    let s ← Clause.scopeSource s clauses
    let inner ← Clause.scopeBody (s.forComprehension .dict) clauses
    let _ ← key.scope (← value.scope inner)
    pure s
  | .yield value => do Form.yielding (← Term.scopeOption s value)
  | .yieldFrom value => do Form.yielding (← value.scope s)
  | .named target value => do
    let s ← s.bind target
    (← value.scope s).meet target
  | .slice lower upper step => do
    Term.scopeOption (← Term.scopeOption (← Term.scopeOption s lower) upper) step

def Form.yielding (s : Scope) : Verdict Scope :=
  match s.comprehension with
  | some kind => throw (.yieldInComprehension kind)
  | none => pure s

def Term.scopeOption (s : Scope) : Option Term → Verdict Scope
  | none => pure s
  | some t => t.scope s

def Term.scopeAll (s : Scope) : List Term → Verdict Scope
  | [] => pure s
  | t :: ts => do Term.scopeAll (← t.scope s) ts

def Piece.scopeAll (s : Scope) : List Piece → Verdict Scope
  | [] => pure s
  | .text _ :: more => Piece.scopeAll s more
  | .field value _ none :: more => do Piece.scopeAll (← value.scope s) more
  | .field value _ (some spec) :: more => do
    Piece.scopeAll (← Piece.scopeAll (← value.scope s) spec) more

def Keyword.scopeAll (s : Scope) : List Keyword → Verdict Scope
  | [] => pure s
  | .mk _ value :: more => do Keyword.scopeAll (← value.scope s) more

def Param.scopeAll (s : Scope) : List Param → Verdict Scope
  | [] => pure s
  | .mk _ _ default :: more => do Param.scopeAll (← Term.scopeOption s default) more

def Entry.scopeKeys (s : Scope) : List Entry → Verdict Scope
  | [] => pure s
  | .mk key _ :: more => do Entry.scopeKeys (← Term.scopeOption s key) more

def Entry.scopeValues (s : Scope) : List Entry → Verdict Scope
  | [] => pure s
  | .mk _ value :: more => do Entry.scopeValues (← value.scope s) more

/-- The source of the first clause belongs to the scope around the comprehension. -/
def Clause.scopeSource (s : Scope) : List Clause → Verdict Scope
  | [] => pure s
  | .mk _ _ source _ :: _ => do
    pure { ← source.scope { s with inSource := true } with inSource := s.inSource }

/-- Everything else belongs to the scope of the comprehension. -/
def Clause.scopeBody (s : Scope) : List Clause → Verdict Scope
  | [] => pure s
  | .mk _ target _ conditions :: more => do
    let s ← target.scope { s with inTarget := true }
    Clause.scopeRest (← Term.scopeAll { s with inTarget := false } conditions) more

def Clause.scopeRest (s : Scope) : List Clause → Verdict Scope
  | [] => pure s
  | .mk _ target source conditions :: more => do
    let s ← target.scope { s with inTarget := true }
    let after ← source.scope { s with inTarget := false, inSource := true }
    Clause.scopeRest (← Term.scopeAll { after with inSource := s.inSource } conditions) more

end

mutual

/-- Whether evaluating the term in its own scope has to wait. -/
def Term.waits : Term → Bool
  | .mk _ _ form => form.waits

def Form.waits : Form → Bool
  | .await _ => true
  | .name _ | .binder _ | .literal _ => false
  | .format pieces => Piece.anyWaits pieces
  | .attribute value _ | .starred value | .unary _ value | .yieldFrom value | .named _ value =>
    value.waits
  | .subscript value index => value.waits || index.waits
  | .call function plain keywords =>
    function.waits || Term.anyWaits plain || Keyword.anyWaits keywords
  | .binary _ left right => left.waits || right.waits
  | .bool _ operands => Term.anyWaits operands
  | .compare first _ others => first.waits || Term.anyWaits others
  | .lambda params _ => Param.anyWaits params
  | .choice test body other => test.waits || body.waits || other.waits
  | .tuple items | .list items | .set items => Term.anyWaits items
  | .dict entries => Entry.anyWaits entries
  | .listOf element clauses | .setOf element clauses =>
    Clause.sourceWaits clauses || Clause.bodyWaits clauses || element.waits
  | .dictOf key value clauses =>
    Clause.sourceWaits clauses || Clause.bodyWaits clauses || key.waits || value.waits
  | .generator _ clauses => Clause.sourceWaits clauses
  | .yield value => Term.optionWaits value
  | .slice lower upper step =>
    Term.optionWaits lower || Term.optionWaits upper || Term.optionWaits step

def Term.optionWaits : Option Term → Bool
  | none => false
  | some t => t.waits

def Term.anyWaits : List Term → Bool
  | [] => false
  | t :: ts => t.waits || Term.anyWaits ts

def Piece.anyWaits : List Piece → Bool
  | [] => false
  | .text _ :: more => Piece.anyWaits more
  | .field value _ none :: more => value.waits || Piece.anyWaits more
  | .field value _ (some spec) :: more =>
    value.waits || Piece.anyWaits spec || Piece.anyWaits more

def Keyword.anyWaits : List Keyword → Bool
  | [] => false
  | .mk _ value :: more => value.waits || Keyword.anyWaits more

def Param.anyWaits : List Param → Bool
  | [] => false
  | .mk _ _ default :: more => Term.optionWaits default || Param.anyWaits more

def Entry.anyWaits : List Entry → Bool
  | [] => false
  | .mk key value :: more => Term.optionWaits key || value.waits || Entry.anyWaits more

def Clause.sourceWaits : List Clause → Bool
  | [] => false
  | .mk _ _ source _ :: _ => source.waits

/-- Whether anything but the first source waits in a comprehension's own scope. -/
def Clause.bodyWaits : List Clause → Bool
  | [] => false
  | .mk isAsync target _ conditions :: more =>
    isAsync || target.waits || Term.anyWaits conditions || Clause.restWaits more

def Clause.restWaits : List Clause → Bool
  | [] => false
  | .mk isAsync target source conditions :: more =>
    isAsync || target.waits || source.waits || Term.anyWaits conditions || Clause.restWaits more

end

/-- What an expression stands in directly. -/
inductive Surrounding where
  | none | lambda | comprehension
deriving DecidableEq, Repr

/-- No name may be bound to the one that is fixed when a program starts. -/
def checkBinding (name : String) : Verdict Unit :=
  if name = "__debug__" then throw .assignsDebug else pure ()

def keywordNames (keywords : List Keyword) : List String :=
  keywords.filterMap fun (.mk name _) => name

def checkKeywordNames : List String → Verdict Unit
  | [] => pure ()
  | name :: more => do
    checkBinding name
    if more.contains name then throw (.repeatedKeyword name)
    checkKeywordNames more

/-- A list of items may hold one starred one, with fewer than 256 in front of it. -/
def checkStars (starred : List Bool) (several tooMany : ArmProblem) : Verdict Unit := do
  if 1 < starred.count true then throw several
  if starred.contains true && 256 ≤ starred.idxOf true then throw tooMany

def checkComprehension (around : Surrounding) (waits : Bool) : Verdict Unit :=
  if waits && around ≠ .comprehension then throw .asyncComprehension else pure ()

mutual

def Term.check (around : Surrounding) : Term → Verdict Unit
  | .mk _ _ form => form.check around

def Form.check (around : Surrounding) : Form → Verdict Unit
  | .name _ | .literal _ => pure ()
  | .binder id => checkBinding id
  | .format pieces => Piece.checkAll around pieces
  | .attribute value _ | .unary _ value => value.check around
  | .subscript value index => do
    value.check around
    index.check around
  | .call function plain keywords => do
    checkKeywordNames (keywordNames keywords)
    function.check around
    Term.checkItems around plain
    Keyword.checkAll around keywords
  | .binary _ left right => do
    left.check around
    right.check around
  | .bool _ operands => Term.checkItems around operands
  | .compare first _ others => do
    first.check around
    Term.checkItems around others
  | .lambda params body => do
    params.forM fun p => checkBinding p.name
    Param.checkAll around params
    body.check .lambda
  | .choice test body other => do
    test.check around
    body.check around
    other.check around
  | .tuple items | .list items | .set items => Term.checkItems around items
  | .dict entries => Entry.checkAll around entries
  | .listOf element clauses | .setOf element clauses => do
    checkComprehension around (Clause.bodyWaits clauses || element.waits)
    Clause.checkBody clauses
    element.check .comprehension
    Clause.checkSource around clauses
  | .generator element clauses => do
    Clause.checkBody clauses
    element.check .comprehension
    Clause.checkSource around clauses
  | .dictOf key value clauses => do
    checkComprehension around (Clause.bodyWaits clauses || key.waits || value.waits)
    Clause.checkBody clauses
    key.check .comprehension
    value.check .comprehension
    Clause.checkSource around clauses
  | .await value =>
    match around with
    | .none => throw .awaitOutsideFunction
    | .lambda => throw .awaitInLambda
    | .comprehension => value.check around
  | .yield value => do
    if around = .none then throw .yieldOutsideFunction
    Term.checkOption around value
  | .yieldFrom value => do
    if around = .none then throw .yieldOutsideFunction
    value.check around
  | .starred _ => throw .starredValue
  | .named target value => do
    value.check around
    checkBinding target
  | .slice lower upper step => do
    Term.checkOption around lower
    Term.checkOption around upper
    Term.checkOption around step

def Term.checkOption (around : Surrounding) : Option Term → Verdict Unit
  | Option.none => pure ()
  | some t => t.check around

/-- Items of a display or a call, where a star may stand. -/
def Term.checkItems (around : Surrounding) : List Term → Verdict Unit
  | [] => pure ()
  | .mk _ _ (.starred value) :: ts => do
    value.check around
    Term.checkItems around ts
  | t :: ts => do
    t.check around
    Term.checkItems around ts

def Piece.checkAll (around : Surrounding) : List Piece → Verdict Unit
  | [] => pure ()
  | .text _ :: more => Piece.checkAll around more
  | .field value _ Option.none :: more => do
    value.check around
    Piece.checkAll around more
  | .field value _ (some spec) :: more => do
    value.check around
    Piece.checkAll around spec
    Piece.checkAll around more

def Keyword.checkAll (around : Surrounding) : List Keyword → Verdict Unit
  | [] => pure ()
  | .mk _ value :: more => do
    value.check around
    Keyword.checkAll around more

def Param.checkAll (around : Surrounding) : List Param → Verdict Unit
  | [] => pure ()
  | .mk _ _ default :: more => do
    Term.checkOption around default
    Param.checkAll around more

def Entry.checkAll (around : Surrounding) : List Entry → Verdict Unit
  | [] => pure ()
  | .mk key value :: more => do
    Term.checkOption around key
    value.check around
    Entry.checkAll around more

def Clause.checkSource (around : Surrounding) : List Clause → Verdict Unit
  | [] => pure ()
  | .mk _ _ source _ :: _ => source.check around

def Clause.checkBody : List Clause → Verdict Unit
  | [] => pure ()
  | .mk _ target _ conditions :: more => do
    target.checkTarget
    Term.checkItems .comprehension conditions
    Clause.checkRest more

def Clause.checkRest : List Clause → Verdict Unit
  | [] => pure ()
  | .mk _ target source conditions :: more => do
    source.check .comprehension
    target.checkTarget
    Term.checkItems .comprehension conditions
    Clause.checkRest more

/-- A loop target of a comprehension. -/
def Term.checkTarget : Term → Verdict Unit
  | .mk _ _ form => form.checkTarget

def Form.checkTarget : Form → Verdict Unit
  | .binder id => checkBinding id
  | .attribute value attr => do
    value.check .comprehension
    checkBinding attr
  | .subscript value index => do
    value.check .comprehension
    index.check .comprehension
  | .tuple items | .list items => do
    checkStars (items.map (·.isStarred)) .severalStarredTargets .tooManyBeforeStarredTarget
    Term.checkTargets items
  | .starred _ => throw .starredTarget
  | _ => pure ()

def Term.checkTargets : List Term → Verdict Unit
  | [] => pure ()
  | .mk _ _ (.starred value) :: ts => do
    value.checkTarget
    Term.checkTargets ts
  | t :: ts => do
    t.checkTarget
    Term.checkTargets ts

end

/-- A real number of some sign. -/
structure Real where
  negative : Bool
  size : Double
deriving DecidableEq

namespace Real

def zero : Real := ⟨false, .finite 0 0⟩

def isZero (r : Real) : Bool := r.size.wholeUnits? = some 0

/-- The value in units so small that it is whole; none is infinite. -/
def units (r : Real) : Option Int × Bool :=
  match r.size.wholeUnits? with
  | some n => (some (if r.negative then -(n : Int) else n), false)
  | none => (none, r.negative)

def negate (r : Real) : Real := { r with negative := !r.negative }

def render (r : Real) (pointed : Bool) : String :=
  (if r.negative then "-" else "") ++ r.size.render pointed

end Real

/-- A constant that a mapping can be asked for. -/
inductive Key where
  | whole (value : Int)
  | real (value : Real)
  | complex (re im : Real)
  | truth (value : Bool)
  | other (value : Literal)
deriving DecidableEq

namespace Key

def ofLiteral : Literal → Key
  | .int n => whole n
  | .float x => real ⟨false, x⟩
  | .imaginary x => complex .zero ⟨false, x⟩
  | .bool b => truth b
  | .text codes _ => other (.text codes false)
  | value => other value

def toReal : Key → Real
  | whole n => ⟨n < 0, .ofNat n.natAbs⟩
  | real r => r
  | _ => .zero

/-- The constant that a literal key is; none for a key that is an attribute or no constant. -/
def ofTerm? : Term → Option Key
  | .mk _ _ (.literal value) => some (ofLiteral value)
  | .mk _ _ (.unary .negative (.mk _ _ (.literal value))) =>
    match ofLiteral value with
    | whole n => some (whole (-n))
    | real r => some (real r.negate)
    | complex re im => some (complex re.negate im.negate)
    | _ => none
  | .mk _ _ (.binary op left (.mk _ _ (.literal (.imaginary x)))) =>
    (ofTerm? left).map fun key =>
      let re := key.toReal
      let im : Real := ⟨false, x⟩
      match op with
      | .sub => complex re (if im.isZero then im else im.negate)
      | _ => complex (if re.isZero then .zero else re) im
  | _ => none

/-- A number as what it is compared by; texts and the like have none. -/
def number? : Key → Option ((Option Int × Bool) × (Option Int × Bool))
  | whole n => some ((some (n * Double.twoTo 1074), false), Real.zero.units)
  | real r => some (r.units, Real.zero.units)
  | complex re im => some (re.units, im.units)
  | truth b => some ((some (if b then Double.twoTo 1074 else 0), false), Real.zero.units)
  | other _ => none

def equal (a b : Key) : Bool :=
  match a.number?, b.number? with
  | some x, some y => x = y
  | none, none => a = b
  | _, _ => false

def render : Key → String
  | whole n => toString n
  | real r => r.render true
  | complex re im =>
    if re.isZero && !re.negative then im.render false ++ "j"
    else "(" ++ re.render false ++ (if im.negative then "" else "+") ++ im.render false ++ "j)"
  | truth b => if b then "True" else "False"
  | other (.text codes _) => quoted codes
  | other (.bytes values) => quotedBytes values
  | other .ellipsis => "Ellipsis"
  | other _ => "None"

end Key

namespace Pattern

def isWildcard : Pattern → Bool
  | capture none => true
  | _ => false

/-- Whether a value pattern holds a text with fields. -/
def isFormat : Term → Bool
  | .mk _ _ (.format _) => true
  | _ => false

/-- The names bound so far with one more. -/
def store (names : List String) (name : String) : Verdict (List String) := do
  checkBinding name
  if names.contains name then throw (.boundTwice name)
  pure (names ++ [name])

def isStarred : Pattern → Bool
  | star _ => true
  | _ => false

/-- Keys of a mapping must be constants or attributes, and no constant may come twice. -/
def checkKeys (seen : List Key) : List Term → Verdict Unit
  | [] => pure ()
  | t :: ts =>
    match Key.ofTerm? t with
    | some key =>
      if seen.any key.equal then throw (.duplicateKey key.render) else checkKeys (key :: seen) ts
    | none =>
      if isFormat t then throw .keyNotLiteral else checkKeys seen ts

/-- Attributes of a class pattern in turn: the name, then whether a later one repeats it. -/
def checkAttributes : List String → Verdict Unit
  | [] => pure ()
  | name :: more => do
    checkBinding name
    if more.contains name then throw (.repeatedAttribute name)
    checkAttributes more

/-- The stars of a sequence pattern; only one that binds a name counts what stands in front. -/
def checkSequence (items : List Pattern) : Verdict Unit := do
  let starred := items.map isStarred
  if 1 < starred.count true then throw .severalStars
  let named := items.map fun
    | star (some _) => true
    | _ => false
  checkStars named .severalStars .tooManyBeforeStar

def sameNames (xs ys : List String) : Bool := xs.length = ys.length && xs.all ys.contains

mutual

/-- The names bound so far and those of the pattern. A pattern that everything matches must be
`last`. -/
def check (last : Bool) (names : List String) : Pattern → Verdict (List String)
  | value term => if isFormat term then throw .valueNotLiteral else pure names
  | singleton _ => pure names
  | capture none => if last then pure names else throw .wildcardBeforeLast
  | capture (some name) => if last then store names name else throw (.captureBeforeLast name)
  | bound pattern name => do store (← pattern.check last names) name
  | star none => pure names
  | star (some name) => store names name
  | sequence items => do
    checkSequence items
    checkItems names items
  | mapping keys values others => do
    checkKeys [] keys
    let names ← checkItems names values
    match others with
    | some name => store names name
    | none => pure names
  | object _ positional attributes named => do
    checkAttributes attributes
    checkItems (← checkItems names positional) named
  | alternatives options => do
    let new ← checkOptions last none options
    new.foldlM (fun names name =>
      if names.contains name then throw (.boundTwice name) else pure (names ++ [name])) names

/-- Parts of a pattern, of which every one may match everything. -/
def checkItems (names : List String) : List Pattern → Verdict (List String)
  | [] => pure names
  | p :: ps => do checkItems (← p.check true names) ps

/-- Alternatives: each binds what the first one binds. -/
def checkOptions (last : Bool) (first : Option (List String)) :
    List Pattern → Verdict (List String)
  | [] => pure (first.getD [])
  | p :: ps => do
    let new ← p.check (last && ps.isEmpty) []
    match first with
    | none => checkOptions last (some new) ps
    | some expected =>
      if sameNames expected new then checkOptions last first ps else throw .alternativesDiffer

end

def scope (s : Scope) (p : Pattern) : Verdict Scope := Term.scopeAll s p.terms

end Pattern

namespace Arm

/-- Scopes of the arm's expressions, at the level where nothing surrounds them. -/
def checkScope (arm : Arm) : Verdict Unit := do
  let s ← arm.pattern.scope {}
  let _ ← Term.scopeOption s arm.guard

/-- An arm alone: it may match everything if it is the last one or has a guard. A wildcard after
other arms needs no look. -/
def check (arm : Arm) (first last : Bool) : Verdict Unit := do
  if !(arm.pattern.isWildcard && last && !first) then
    let _ ← arm.pattern.check (last || arm.guard.isSome) []
  Term.checkOption .none arm.guard

end Arm

/-- The first problem of the arms of a match, with the number of its arm. -/
def armsProblem? (arms : List Arm) : Option (Nat × ArmProblem) :=
  let problem? (i : Nat) : Verdict Unit → Option (Nat × ArmProblem)
    | .error problem => some (i, problem)
    | .ok _ => none
  let numbered := arms.zipIdx
  (numbered.findSome? fun (arm, i) => problem? i arm.checkScope).or
    (numbered.findSome? fun (arm, i) => problem? i (arm.check (i = 0) (i + 1 = arms.length)))

end ViewTree.Embedded
