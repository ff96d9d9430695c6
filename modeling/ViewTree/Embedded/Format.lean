import ViewTree.Embedded.Term
import ViewTree.Text.CharacterName

/-!
Texts with replacement fields. A field ends where its own brackets and quotes say so, before any of
its contents is read; what it holds is then read as an expression of its own. Fields nest in
formats, two levels deep.
-/
namespace ViewTree.Embedded
open Text

/-- How a field's contents are read: from an offset, as a parenthesized group. -/
abbrev FieldReader := Nat → List Char → Option Term

/-- The bracket that closes the one that the character opens. -/
def closingChar? : Char → Option Char
  | '(' => some ')'
  | '[' => some ']'
  | '\x7b' => some '\x7d'
  | _ => none

/-- The length of a field's expression, up to the character that ends it. `quote` is the quote of
the string being passed, with whether it is a triple one; `pending` are the closing brackets still
to come. -/
def fieldLength? (quote : Option (Char × Bool)) (pending : List Char) : List Char → Option Nat
  | [] => none
  | c :: cs =>
    if c = '\\' then none
    else match quote with
      | some (q, long) =>
        if c = q then
          if long then
            match cs with
            | d :: e :: more =>
              if d = q && e = q then (fieldLength? none pending more).map (· + 3)
              else (fieldLength? quote pending (d :: e :: more)).map (· + 1)
            | short => (fieldLength? quote pending short).map (· + 1)
          else (fieldLength? none pending cs).map (· + 1)
        else (fieldLength? quote pending cs).map (· + 1)
      | none =>
        if c = '"' || c = '\'' then
          match cs with
          | d :: e :: more =>
            if d = c && e = c then (fieldLength? (some (c, true)) pending more).map (· + 3)
            else (fieldLength? (some (c, false)) pending (d :: e :: more)).map (· + 1)
          | short => (fieldLength? (some (c, false)) pending short).map (· + 1)
        else if let some closer := closingChar? c then
          if pending.length < 200 then (fieldLength? none (closer :: pending) cs).map (· + 1)
          else none
        else if c = '#' then none
        else if pending.isEmpty && "!:\x7d=<>".toList.contains c then
          match cs with
          | d :: more =>
            if d = '=' && "!=<>".toList.contains c then
              (fieldLength? none pending more).map (· + 2)
            else if c = '<' || c = '>' then (fieldLength? none pending (d :: more)).map (· + 1)
            else some 0
          | [] => if c = '<' || c = '>' then none else some 0
        else if c = ')' || c = ']' || c = '\x7d' then
          match pending with
          | p :: more => if p = c then (fieldLength? none more cs).map (· + 1) else none
          | [] => none
        else (fieldLength? none pending cs).map (· + 1)

/-- The characters before the next field or the end: `top` is the outermost level, where a doubled
brace stands for one and a lone closing brace is refused. -/
def literalRun? (raw top : Bool) : List Char → Option (List Char × List Char)
  | [] => some ([], [])
  | '\\' :: 'N' :: '\x7b' :: cs =>
    if raw then
      (literalRun? raw top ('N' :: '\x7b' :: cs)).map fun (l, r) => ('\\' :: l, r)
    else
      let name := cs.takeWhile (· ≠ '\x7d')
      let taken := name.length + 1
      (literalRun? raw top (cs.drop taken)).map fun (l, r) =>
        ('\\' :: 'N' :: '\x7b' :: cs.take taken ++ l, r)
  | c :: cs =>
    if c = '\x7b' || c = '\x7d' then
      if top then
        match cs with
        | d :: more =>
          if d = c then (literalRun? raw top more).map fun (l, r) => (c :: l, r)
          else if c = '\x7d' then none else some ([], c :: d :: more)
        | [] => if c = '\x7d' then none else some ([], [c])
      else some ([], c :: cs)
    else if c = '\\' && !raw then
      match cs with
      | d :: more =>
        if d = '\x7b' || d = '\x7d' then
          (literalRun? raw top (d :: more)).map fun (l, r) => (c :: l, r)
        else (literalRun? raw top more).map fun (l, r) => (c :: d :: l, r)
      | [] => some ([c], [])
    else (literalRun? raw top cs).map fun (l, r) => (c :: l, r)
termination_by cs => cs.length
decreasing_by all_goals (simp only [List.length_cons, List.length_drop]; omega)

def textPiece? (raw : Bool) (cs : List Char) : Option (List Piece) :=
  if cs.isEmpty then some []
  else if raw then some [.text (cs.map Char.toNat)]
  else (decodeText? characterNamed? cs).map fun codes => [.text codes]

def isFieldBlank (c : Char) : Bool := c = ' ' || c = '\t' || c = '\n' || c = '\x0c'

def isAsciiBlank (c : Char) : Bool := c = ' ' || ('\t' ≤ c && c ≤ '\r')

/-- One field behind its opening brace, and what follows its closing one. `spec` reads the format
behind a colon, up to a closing brace. -/
def field? (inner : FieldReader) (spec : Nat → List Char → Option (List Piece × List Char))
    (offset : Nat) (cs : List Char) : Option (List Piece × List Char) := do
  let n ← fieldLength? none [] cs
  let body := cs.take n
  if body.all isFieldBlank then none
  let value ← inner offset body
  let rest := cs.drop n
  let (shown, rest) := match rest with
    | '=' :: more =>
      let blanks := more.takeWhile isAsciiBlank
      (body ++ '=' :: blanks, more.drop blanks.length)
    | _ => ([], rest)
  let (conversion, rest) ← match rest with
    | '!' :: c :: more =>
      if (c = 's' || c = 'r' || c = 'a') && more.head?.any (fun d => d = ':' || d = '\x7d') then
        pure (some c, more)
      else none
    | '!' :: [] => none
    | _ => pure (none, rest)
  let (format, rest) ← match rest with
    | ':' :: more => do
      if more.isEmpty then none
      let (pieces, rest) ← spec (offset + (cs.length - more.length)) more
      pure (some pieces, rest)
    | _ => pure (none, rest)
  match rest with
  | '\x7d' :: more =>
    let conversion :=
      if conversion.isNone && format.isNone && !shown.isEmpty then some 'r' else conversion
    let label := if shown.isEmpty then [] else [Piece.text (shown.map Char.toNat)]
    pure (label ++ [.field value conversion format], more)
  | _ => none

/-- Pieces up to the end of the text, or on inner levels up to a closing brace; `count` bounds the
number of fields and is never short when it is the length of the text. -/
def piecesLoop (inner : FieldReader) (spec : Nat → List Char → Option (List Piece × List Char))
    (raw top deep : Bool) : (count offset : Nat) → List Char → Option (List Piece × List Char)
  | 0, _, _ => none
  | count + 1, offset, cs => do
    let (literal, rest) ← literalRun? raw top cs
    let before ← textPiece? raw literal
    match rest with
    | [] => if top then pure (before, []) else none
    | '\x7b' :: more => do
      if deep then none
      let here := offset + (cs.length - more.length)
      let (pieces, rest) ← field? inner spec here more
      let (later, rest') ← piecesLoop inner spec raw top deep count
        (here + (more.length - rest.length)) rest
      pure (before ++ pieces ++ later, rest')
    | _ => if top then none else pure (before, rest)

/-- The pieces of a format inside a field; `levels` more levels may hold fields. -/
def specPieces? (inner : FieldReader) (raw : Bool) :
    (levels : Nat) → Nat → List Char → Option (List Piece × List Char)
  | 0 => fun offset cs =>
    piecesLoop inner (fun _ _ => none) raw false true (cs.length + 1) offset cs
  | levels + 1 => fun offset cs =>
    piecesLoop inner (specPieces? inner raw levels) raw false false (cs.length + 1) offset cs

def formatPieces? (inner : FieldReader) (literal : StringLiteral) : Option (List Piece) := do
  let (pieces, _) ← piecesLoop inner (specPieces? inner literal.marks.raw 1) literal.marks.raw
    true false (literal.body.length + 1) literal.offset literal.body
  pure pieces

/-- Neighbouring texts made one. -/
def joinTexts : List Piece → List Piece
  | [] => []
  | .text codes :: more =>
    match joinTexts more with
    | .text others :: later => .text (codes ++ others) :: later
    | later => if codes.isEmpty then later else .text codes :: later
  | piece :: more => piece :: joinTexts more

/-- The pieces of one literal of several that stand side by side. -/
def literalPieces? (inner : FieldReader) (s : StringLiteral) : Option (List Piece) :=
  if s.marks.format then formatPieces? inner s else textPiece? s.marks.raw s.body

def literalBytes? (s : StringLiteral) : Option (List Nat) :=
  if s.body.all (·.toNat < 128) then
    if s.marks.raw then some (s.body.map Char.toNat) else decodeBytes? s.body
  else none

/-- The value of string literals that stand side by side: bytes only with bytes. -/
def stringsForm? (inner : FieldReader) (literals : List StringLiteral) : Option Form := do
  if literals.all (·.marks.bytes) then
    let values ← literals.mapM literalBytes?
    pure (.literal (.bytes values.flatten))
  else if literals.any (·.marks.bytes) then none
  else
    let pieces ← literals.mapM (literalPieces? inner)
    let joined := joinTexts pieces.flatten
    if literals.any (·.marks.format) then pure (.format joined)
    else
      let codes := joined.flatMap fun
        | .text codes => codes
        | .field .. => []
      pure (.literal (.text codes (literals.head?.any (·.marks.unicode))))

end ViewTree.Embedded
