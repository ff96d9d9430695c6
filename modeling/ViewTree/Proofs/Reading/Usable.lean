import Mathlib.Data.List.Infix
import ViewTree.Proofs.Reading.Texts

/-!
Sources whose embedded texts all have a meaning. Reading a component ends for good at an expression
that holds the character which ends texts, and at a pattern over several lines that cannot be written
on one; a source is usable if neither is in it (`Context.Usable`). Where the tokens of a component are
read, what is left of them is one of finitely many lists (`Context.remainders`), so whether a source
is usable can be decided.
-/
namespace ViewTree
open Embedded TreeReader

/-- What may be left of the tokens of a component on the way to its end. -/
def Context.remainders (context : Context) : List (List Token) :=
  (Section.ofText context.text).flatMap fun s =>
    match lex context.text s.start s.stop with
    | .ok tokens => (Chunk.split tokens).flatMap (·.tokens.items.tails)
    | .error _ => []

/-- The text that the characters of a string literal stand for; none if they stand for bytes or for a
text with fields. -/
def literalText? (written : List Char) : Option String :=
  match readText? (fun g _ => g.expression) written with
  | some (.mk _ _ (.literal (.text codes _))) => some (textOf codes)
  | _ => none

def argument? : List Token → Option Token
  | opening :: word :: sign :: t :: _ =>
    if opening.kind = .attrOpen && (AttributeKind.ofWord? word.text).any (·.takesExpression) &&
        sign.kind = .equals then some t
    else none
  | _ => none

def Context.patternText? (context : Context) (ts : List Token) : Option String :=
  match ts.head?, (patternEnd 0 none ts).1 with
  | some first, some last =>
    some (String.ofList (Text.slice context.text first.offset last.stop))
  | _, _ => none

/-- No expression of the source holds the character that ends texts, as it stands or as the text of a
string literal, and all its patterns over several lines have a printed form. -/
structure Context.Usable (context : Context) : Prop where
  whole : context.text.any endsTexts = false
  arguments : ∀ ts ∈ context.remainders, ∀ t ∈ argument? ts, ∀ text ∈ literalText? t.text.toList,
    text.toList.any endsTexts = false
  patterns : ∀ ts ∈ context.remainders, ∀ text ∈ context.patternText? ts, Text.isMultiline text →
    ∀ arm ∈ readArm? (flatten text), arm.render?.isSome

namespace Context
variable {context : Context} {ts us : List Token}

theorem mem_remainders_iff : ts ∈ context.remainders ↔ ∃ s ∈ Section.ofText context.text,
    ∃ tokens, lex context.text s.start s.stop = .ok tokens ∧
      ∃ chunk ∈ Chunk.split tokens, ts <:+ chunk.tokens.items := by
  rw [remainders, List.mem_flatMap]
  refine exists_congr fun s => and_congr_right fun _ => ?_
  cases lex context.text s.start s.stop with
  | error e => simp
  | ok tokens => simp [List.mem_flatMap, List.mem_tails]

theorem holds_of_mem_remainders (h : ts ∈ context.remainders) : context.Holds ts := by
  obtain ⟨s, -, tokens, hlex, chunk, hchunk, hts⟩ := mem_remainders_iff.mp h
  obtain ⟨before, behind, hitems⟩ := Chunk.exists_items_of_mem_split hchunk
  have hpart : chunk.tokens.items <:+: tokens.items :=
    ⟨before, behind, by rw [hitems, List.append_assoc]⟩
  exact ⟨s.start, s.stop, tokens, hlex, hts.isInfix.trans hpart⟩

theorem mem_remainders_of_suffix (h : ts ∈ context.remainders) (hus : us <:+ ts) :
    us ∈ context.remainders := by
  obtain ⟨s, hs, tokens, hlex, chunk, hchunk, hts⟩ := mem_remainders_iff.mp h
  exact mem_remainders_iff.mpr ⟨s, hs, tokens, hlex, chunk, hchunk, hus.trans hts⟩

theorem whole_slice_of_whole (h : context.text.any endsTexts = false) (start stop : Nat) :
    (String.ofList (Text.slice context.text start stop)).toList.any endsTexts = false := by
  rw [String.toList_ofList]
  exact List.any_eq_false.mpr fun c hc =>
    List.any_eq_false.mp h c (List.mem_of_mem_drop (List.mem_of_mem_take hc))

/-- What a usable source holds can be part of an expression. -/
theorem Usable.whole_slice (h : context.Usable) (start stop : Nat) :
    (String.ofList (Text.slice context.text start stop)).toList.any endsTexts = false :=
  whole_slice_of_whole h.whole start stop

end Context
end ViewTree
