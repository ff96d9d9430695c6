import ViewTree.Embedded.Format
import ViewTree.Embedded.Input

/-!
The grammar of embedded expressions. Productions are written over the few readers that recursion
goes through (`Grammar`), and closed by `grammarAt`, which allows as many nested productions as
there are lexemes: every production takes a lexeme before it comes back to itself.
-/
namespace ViewTree.Embedded
open Reader

/-- The readers that recursion goes through. -/
structure Grammar where
  expression : Reader Term
  inversion : Reader Term
  factor : Reader Term

namespace Grammar

/-- Whether a name with `:=` behind it comes next. -/
def namesNext : Reader Bool := do
  match ← peek, ← peekSecond with
  | some (.name _), some (.symbol ":=") => pure true
  | _, _ => pure false

/-- An expression, or a name bound to one by `:=`. -/
def named (g : Grammar) : Reader Term := do
  if ← namesNext then
    let start ← here
    let target ← name
    symbol ":="
    let value ← g.expression
    close start (.named target value)
  else g.expression

def binaryLoop (operand : Reader Term) (op? : LexemeKind → Option BinaryOp) : Reader Term := do
  let start ← here
  let first ← operand
  repeating (fun left => do
    match (← peek).bind op? with
    | some op =>
      let _ ← next
      let right ← operand
      pure (some (← close start (.binary op left right)))
    | none => pure none) first

def termOp? : LexemeKind → Option BinaryOp
  | .symbol "*" => some .mul | .symbol "/" => some .div | .symbol "//" => some .floorDiv
  | .symbol "%" => some .mod | .symbol "@" => some .matMul
  | _ => none

def sumOp? : LexemeKind → Option BinaryOp
  | .symbol "+" => some .add | .symbol "-" => some .sub
  | _ => none

def shiftOp? : LexemeKind → Option BinaryOp
  | .symbol "<<" => some .shiftLeft | .symbol ">>" => some .shiftRight
  | _ => none

def only (text : String) (op : BinaryOp) (k : LexemeKind) : Option BinaryOp :=
  if k = .symbol text then some op else none

def bitOr (g : Grammar) : Reader Term :=
  binaryLoop (binaryLoop (binaryLoop (binaryLoop (binaryLoop (binaryLoop g.factor termOp?) sumOp?)
    shiftOp?) (only "&" .bitAnd)) (only "^" .bitXor)) (only "|" .bitOr)

/-- The comparison operator that comes next, if one does. -/
def compareOp : Reader (Option CompareOp) := do
  let take (op : CompareOp) : Reader (Option CompareOp) := do
    let _ ← next
    pure (some op)
  match ← peek with
  | some (.symbol "==") => take .eq
  | some (.symbol "!=") => take .ne
  | some (.symbol "<") => take .lt
  | some (.symbol "<=") => take .le
  | some (.symbol ">") => take .gt
  | some (.symbol ">=") => take .ge
  | some (.keyword "in") => take .isIn
  | some (.keyword "not") =>
    let _ ← next
    keyword "in"
    pure (some .notIn)
  | some (.keyword "is") =>
    let _ ← next
    pure (some (if ← accept (.keyword "not") then .isNot else .is))
  | _ => pure none

def comparison (g : Grammar) : Reader Term := do
  let start ← here
  let first ← g.bitOr
  let more ← many do
    match ← compareOp with
    | some op => pure (some (op, ← g.bitOr))
    | none => pure none
  if more.isEmpty then pure first
  else close start (.compare first (more.map (·.1)) (more.map (·.2)))

def inversionOf (g : Grammar) : Reader Term := do
  let start ← here
  if ← accept (.keyword "not") then
    let operand ← g.inversion
    close start (.unary .not operand)
  else g.comparison

def boolLoop (operand : Reader Term) (word : String) (op : BoolOp) : Reader Term := do
  let start ← here
  let first ← operand
  let more ← many do
    if ← accept (.keyword word) then pure (some (← operand)) else pure none
  if more.isEmpty then pure first else close start (.bool op (first :: more))

def disjunction (g : Grammar) : Reader Term :=
  boolLoop (boolLoop g.inversionOf "and" .and) "or" .or

/-- An item of a list, tuple or set: a starred operand, or an expression that may bind a name. -/
def item (g : Grammar) : Reader Term := do
  let start ← here
  if ← accept (.symbol "*") then
    let value ← g.bitOr
    close start (.starred value)
  else g.named

/-- An item where no name may be bound. -/
def plainItem (g : Grammar) : Reader Term := do
  let start ← here
  if ← accept (.symbol "*") then
    let value ← g.bitOr
    close start (.starred value)
  else g.expression

/-- One or more items as a term: several, or one with a comma, are a tuple. -/
def itemsTerm (item : Reader Term) : Reader Term := do
  let start ← here
  let (found, commas) ← items item
  match found, commas with
  | [one], false => pure one
  | _, _ => close start (.tuple found)

/-- What a `yield` takes. -/
def yieldTerm (g : Grammar) : Reader Term := do
  let start ← here
  keyword "yield"
  if ← accept (.keyword "from") then
    let value ← g.expression
    close start (.yieldFrom value)
  else if (← peek).all endsItems then close start (.yield none)
  else
    let value ← itemsTerm g.plainItem
    close start (.yield (some value))

mutual

/-- A term read as something to assign to. -/
def target? : Term → Option Term
  | .mk s e form => (targetForm? form).map (.mk s e)

def targetForm? : Form → Option Form
  | .name id => some (.binder id)
  | .attribute value attr => some (.attribute value attr)
  | .subscript value index => some (.subscript value index)
  | .tuple items => (targets? items).map .tuple
  | .list items => (targets? items).map .list
  | .starred (.mk _ _ (.starred _)) => none
  | .starred value => (target? value).map .starred
  | _ => none

def targets? : List Term → Option (List Term)
  | [] => some []
  | t :: ts => match target? t, targets? ts with
    | some t', some ts' => some (t' :: ts')
    | _, _ => none

end

def target (primary : Reader Term) : Reader Term := do
  let start ← here
  let starred ← accept (.symbol "*")
  match target? (← primary) with
  | some found => if starred then close start (.starred found) else pure found
  | none => failure

def clause (g : Grammar) (primary : Reader Term) : Reader (Option Clause) := do
  let isAsync ← accept (.keyword "async")
  if isAsync || (← peek) = some (.keyword "for") then
    keyword "for"
    let found ← itemsTerm (target primary)
    keyword "in"
    let source ← g.disjunction
    let conditions ← many do
      if ← accept (.keyword "if") then pure (some (← g.disjunction)) else pure none
    pure (some (.mk isAsync found source conditions))
  else pure none

/-- The clauses of a comprehension; none if what is read is no comprehension. -/
def clauses (g : Grammar) (primary : Reader Term) : Reader (List Clause) := many (g.clause primary)

/-- What stands behind an opening parenthesis. -/
def parenthesized (g : Grammar) (primary : Reader Term) (start : Nat) : Reader Term := do
  if ← accept (.symbol ")") then close start (.tuple [])
  else if (← peek) = some (.keyword "yield") then
    let value ← g.yieldTerm
    symbol ")"
    pure value
  else
    let first ← g.item
    let loops ← if first.isStarred then pure [] else g.clauses primary
    if !loops.isEmpty then
      symbol ")"
      close start (.generator first loops)
    else
      let (found, commas) ← itemsAfter first g.item
      symbol ")"
      if commas then close start (.tuple found)
      else if first.isStarred then failure
      else pure first

def bracketed (g : Grammar) (primary : Reader Term) (start : Nat) : Reader Term := do
  if ← accept (.symbol "]") then close start (.list [])
  else
    let first ← g.item
    let loops ← if first.isStarred then pure [] else g.clauses primary
    if !loops.isEmpty then
      symbol "]"
      close start (.listOf first loops)
    else
      let (found, _) ← itemsAfter first g.item
      symbol "]"
      close start (.list found)

def entry (g : Grammar) : Reader Entry := do
  if ← accept (.symbol "**") then pure (.mk none (← g.bitOr))
  else
    let key ← g.expression
    symbol ":"
    pure (.mk (some key) (← g.expression))

def dictAfter (g : Grammar) (start : Nat) (first : Entry) : Reader Term := do
  let (found, _) ← itemsAfter first g.entry
  symbol "\x7d"
  close start (.dict found)

/-- What stands behind an opening brace: a dictionary or a set. -/
def braced (g : Grammar) (primary : Reader Term) (start : Nat) : Reader Term := do
  if ← accept (.symbol "\x7d") then close start (.dict [])
  else if (← peek) = some (.symbol "**") then g.dictAfter start (← g.entry)
  else
    let binds ← namesNext
    let first ← g.item
    if !binds && !first.isStarred && (← accept (.symbol ":")) then
      let value ← g.expression
      let loops ← g.clauses primary
      if !loops.isEmpty then
        symbol "\x7d"
        close start (.dictOf first value loops)
      else g.dictAfter start (.mk (some first) value)
    else
      let loops ← if first.isStarred then pure [] else g.clauses primary
      if !loops.isEmpty then
        symbol "\x7d"
        close start (.setOf first loops)
      else
        let (found, _) ← itemsAfter first g.item
        symbol "\x7d"
        close start (.set found)

/-- One index: an expression, a starred one or a slice. -/
def index (g : Grammar) : Reader Term := do
  let start ← here
  let bound : Reader (Option Term) := do
    match ← peek with
    | some (.symbol ":") | some (.symbol ",") | some (.symbol "]") => pure none
    | _ => pure (some (← g.expression))
  if ← accept (.symbol "*") then
    let value ← g.expression
    close start (.starred value)
  else if ← namesNext then g.named
  else
    let lower ← bound
    if ← accept (.symbol ":") then
      let upper ← bound
      let step ← if ← accept (.symbol ":") then bound else pure none
      close start (.slice lower upper step)
    else
      match lower with
      | some value => pure value
      | none => failure

/-- The indices of a subscript. A single starred one is a tuple too. -/
def indices (g : Grammar) : Reader Term := do
  let start ← here
  let (found, commas) ← items g.index
  match found, commas with
  | [one], false => if one.isStarred then close start (.tuple [one]) else pure one
  | _, _ => close start (.tuple found)

/-- The arguments read so far, the last first; once a keyword has come no plain argument may, and
once a mapping is spread no sequence may. -/
structure Arguments where
  plain : List Term := []
  keywords : List Keyword := []
  spread : Bool := false

def argument (g : Grammar) (read : Arguments) : Reader Arguments := do
  let start ← here
  if ← accept (.symbol "**") then
    pure { read with keywords := .mk none (← g.expression) :: read.keywords, spread := true }
  else if ← accept (.symbol "*") then
    if read.spread then failure
    let value ← g.expression
    pure { read with plain := (← close start (.starred value)) :: read.plain }
  else
    match ← peek, ← peekSecond with
    | some (.name id), some (.symbol "=") =>
      let _ ← next
      let _ ← next
      pure { read with keywords := .mk (some id) (← g.expression) :: read.keywords }
    | _, _ =>
      if !read.keywords.isEmpty then failure
      pure { read with plain := (← g.named) :: read.plain }

/-- The arguments behind the opening parenthesis at `start`; a generator may stand there alone,
without parentheses of its own. -/
def arguments (g : Grammar) (primary : Reader Term) (start : Nat) : Reader Arguments := do
  if ← accept (.symbol ")") then pure {}
  else
    let first ← g.argument {}
    let loops ← match first.plain with
      | [one] => if one.isStarred then pure [] else g.clauses primary
      | _ => pure []
    match first.plain, loops with
    | [one], _ :: _ =>
      symbol ")"
      pure { plain := [← close start (.generator one loops)] }
    | _, _ =>
      let read ← repeating (fun read => do
        if !(← accept (.symbol ",")) then pure none
        else if (← peek) = some (.symbol ")") then pure (some read)
        else pure (some (← g.argument read))) first
      symbol ")"
      pure ⟨read.plain.reverse, read.keywords.reverse, read.spread⟩

/-- The parameters read so far, the last first. `optional` says whether one had a default, `star`
whether a star has come, `waiting` whether a bare one still lacks a parameter, `last` whether
nothing may follow. -/
structure Parameters where
  found : List Param := []
  optional : Bool := false
  slash : Bool := false
  star : Bool := false
  waiting : Bool := false
  last : Bool := false

def positionalOnly : Param → Param
  | .mk _ name default => .mk .positionalOnly name default

def parameter (g : Grammar) (read : Parameters) : Reader Parameters := do
  if read.last then failure
  if ← accept (.symbol "/") then
    if read.slash || read.star || read.found.isEmpty then failure
    pure { read with slash := true, found := read.found.map positionalOnly }
  else if ← accept (.symbol "**") then
    if read.waiting then failure
    pure { read with found := .mk .keywords (← name) none :: read.found, last := true }
  else if ← accept (.symbol "*") then
    if read.star then failure
    match ← peek with
    | some (.symbol ",") => pure { read with star := true, waiting := true }
    | _ => pure { read with found := .mk .rest (← name) none :: read.found, star := true }
  else
    let id ← name
    let default ← if ← accept (.symbol "=") then pure (some (← g.expression)) else pure none
    if !read.star && read.optional && default.isNone then failure
    pure { read with
      found := .mk (if read.star then .keywordOnly else .ordinary) id default :: read.found
      optional := read.optional || default.isSome
      waiting := false }

def parameters (g : Grammar) : Reader (List Param) := do
  let (read, _) ← repeating (fun (read, more) => do
    if !more || (← peek) = some (.symbol ":") then pure none
    else
      let read ← g.parameter read
      pure (some (read, ← accept (.symbol ",")))) (({} : Parameters), true)
  if read.waiting then failure
  pure read.found.reverse

def lambda (g : Grammar) : Reader Term := do
  let start ← here
  keyword "lambda"
  let params ← g.parameters
  symbol ":"
  let body ← g.expression
  close start (.lambda params body)

def stringLiterals : Reader (List StringLiteral) := many do
  match ← peek with
  | some (.string s) =>
    let _ ← next
    pure (some s)
  | _ => pure none

def atom (g : Grammar) (inner : FieldReader) (primary : Reader Term) : Reader Term := do
  let start ← here
  match ← peek with
  | some (.string _) =>
    match stringsForm? inner (← stringLiterals) with
    | some form => close start form
    | none => failure
  | _ =>
    match ← next with
    | .name id => close start (.name id)
    | .number value => close start (.literal value)
    | .keyword "None" => close start (.literal .none)
    | .keyword "True" => close start (.literal (.bool true))
    | .keyword "False" => close start (.literal (.bool false))
    | .symbol "..." => close start (.literal .ellipsis)
    | .symbol "(" => g.parenthesized primary start
    | .symbol "[" => g.bracketed primary start
    | .symbol "\x7b" => g.braced primary start
    | _ => failure

/-- An atom with the attributes, calls and subscripts behind it. `primary` reads the same thing
inside the brackets. -/
def primaryOf (g : Grammar) (inner : FieldReader) (primary : Reader Term) : Reader Term := do
  let start ← here
  let first ← g.atom inner primary
  repeating (fun value => do
    match ← peek with
    | some (.symbol ".") =>
      let _ ← next
      let attr ← name
      pure (some (← close start (.attribute value attr)))
    | some (.symbol "(") =>
      let opening ← here
      let _ ← next
      let read ← g.arguments primary opening
      pure (some (← close start (.call value read.plain read.keywords)))
    | some (.symbol "[") =>
      let _ ← next
      let found ← g.indices
      symbol "]"
      pure (some (← close start (.subscript value found)))
    | _ => pure none) first

def power (g : Grammar) (primary : Reader Term) : Reader Term := do
  let start ← here
  let base ← if ← accept (.keyword "await") then do
      let value ← primary
      close start (.await value)
    else primary
  if ← accept (.symbol "**") then
    let exponent ← g.factor
    close start (.binary .power base exponent)
  else pure base

def factorOf (g : Grammar) (primary : Reader Term) : Reader Term := do
  let start ← here
  let signed (op : UnaryOp) : Reader Term := do
    let _ ← next
    let operand ← g.factor
    close start (.unary op operand)
  match ← peek with
  | some (.symbol "+") => signed .positive
  | some (.symbol "-") => signed .negative
  | some (.symbol "~") => signed .invert
  | _ => g.power primary

def expressionOf (g : Grammar) : Reader Term := do
  if (← peek) = some (.keyword "lambda") then g.lambda
  else
    let start ← here
    let body ← g.disjunction
    if ← accept (.keyword "if") then
      let test ← g.disjunction
      keyword "else"
      let other ← g.expression
      close start (.choice test body other)
    else pure body

end Grammar

/-- The grammar with at most `depth` nested productions, and its reader of primaries. -/
def grammarAt (inner : FieldReader) : Nat → Grammar × Reader Term
  | 0 => (⟨failure, failure, failure⟩, failure)
  | depth + 1 =>
    let (g, primary) := grammarAt inner depth
    let here := g.primaryOf inner primary
    (⟨g.expressionOf, g.inversionOf, g.factorOf here⟩, here)

end ViewTree.Embedded
