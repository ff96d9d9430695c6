import ViewTree.Token.Lexer
import ViewTree.Tree.Reader

/-!
View files. Each component is read on its own: one with an error is reported in its place, and the
others are read all the same.
-/
namespace ViewTree

/-- Why a component could not be read. -/
inductive SourceError where
  | lexical (error : LexicalError)
  | grammar (error : ParseError)
deriving Repr

namespace SourceError

def report (file source : String) (e : SourceError) (faults : Faults := .plain) : Report :=
  match e with
  | lexical e => e.report file source
  | grammar e => e.report file source faults

end SourceError

/-- What became of one component: its name and kind as far as they are known, and the component
or the reason why there is none. -/
structure Outcome where
  name : Option String
  kind : Option ComponentKind
  result : Except SourceError Component

namespace Outcome

/-- The component of a chunk; none if one of its embedded texts is unusable. -/
def ofChunk? (context : Context) (chunk : Chunk) : Option Outcome :=
  match Component.ofTokens context chunk.tokens with
  | .ok component => some ⟨some component.name, some component.kind, .ok component⟩
  | .error (.problem e) => some ⟨chunk.name?, chunk.kind?, .error (.grammar e)⟩
  | .error .unusable => none

def ofSection? (context : Context) (s : Section) : Option (List Outcome) :=
  match lex context.text s.start s.stop with
  | .error e => some [⟨s.header.map (·.name), s.header.map (·.kind), .error (.lexical e)⟩]
  | .ok tokens => (Chunk.split tokens).mapM (ofChunk? context)

end Outcome

/-- The components of a view file in order; none if an embedded text is unusable. -/
def readSource? (settings : Settings) (source : String) : Option (List Outcome) :=
  let text := source.toList
  ((Section.ofText text).mapM (Outcome.ofSection? ⟨text, settings⟩)).map List.flatten

end ViewTree
