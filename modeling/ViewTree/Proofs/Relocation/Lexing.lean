import ViewTree.Proofs.Collecting
import ViewTree.Proofs.Lexing
import ViewTree.Proofs.Relocation.Components
import ViewTree.Proofs.Relocation.Sections
import ViewTree.ViewFile

/-!
Sections at two places. Main statement: what a section of a text gives, it gives where the text
stands in another one (`Placement.ofSection?_shift`).
-/
namespace ViewTree

def LexicalError.mapPlaces (f : Place → Place) (e : LexicalError) : LexicalError :=
  { e with place := f e.place }

def SourceError.mapPlaces (f : Place → Place) : SourceError → SourceError
  | .lexical e => .lexical (e.mapPlaces f)
  | .grammar e => .grammar (e.mapPlaces f)

def Outcome.mapPlaces (f : Place → Place) (o : Outcome) : Outcome where
  name := o.name
  kind := o.kind
  result := (o.result.map (Component.mapPlaces f)).mapError (SourceError.mapPlaces f)

namespace Chunk

/-- Cutting invents no token. -/
theorem mem_of_mem_split {ts : Tokens} {c : Chunk} (hc : c ∈ split ts) {t : Token}
    (ht : t ∈ c.tokens.items) : t ∈ ts.items := by
  have hfold (items : List Token) (cut : Cut) {group : List Token}
      (hgroup : group ∈ (items.foldl Cut.push cut).current ::
        (items.foldl Cut.push cut).done) (ht : t ∈ group) :
      t ∈ items ∨ ∃ group ∈ cut.current :: cut.done, t ∈ group := by
    induction items generalizing cut with
    | nil => exact .inr ⟨group, hgroup, ht⟩
    | cons u items ih =>
      rcases ih (cut.push u) hgroup with h | ⟨other, hother, hin⟩
      · exact .inl (List.mem_cons_of_mem u h)
      · unfold Cut.push at hother
        dsimp only at hother
        split at hother
        · grind
        · grind
  have hgroup : c.tokens.items.reverse ∈ (ts.items.foldl Cut.push {}).current ::
      (ts.items.foldl Cut.push {}).done ∨ c.tokens.items ∈
        (ts.items.foldl Cut.push {}).done := by
    unfold split at hc
    dsimp only at hc
    split at hc
    · obtain ⟨group, hmem, rfl⟩ := List.mem_map.mp hc
      exact .inr (List.mem_reverse.mp hmem)
    · obtain ⟨group, hmem, rfl⟩ := List.mem_map.mp hc
      rcases List.mem_cons.mp (List.mem_reverse.mp hmem) with rfl | hmem
      · exact .inl (by simp)
      · exact .inr hmem
  have hfound : t ∈ ts.items ∨ ∃ group ∈ [[]], t ∈ (group : List Token) := by
    rcases hgroup with h | h
    · exact hfold ts.items {} h (List.mem_reverse.mpr ht)
    · exact hfold ts.items {} (List.mem_cons_of_mem _ h) ht
  simpa using hfound

end Chunk

namespace Placement
variable {m : Placement}

def position (m : Placement) (p : Position) : Position :=
  { p with offset := p.offset + m.offset, line := p.line + m.lines }

theorem after_position (p : Position) (cs : List Char) :
    (m.position p).after cs = m.position (p.after cs) := by
  induction cs generalizing p with
  | nil => rfl
  | cons c cs ih =>
    have hnext : (m.position p).next c = m.position (p.next c) := by
      unfold Position.next position
      split
      · exact Position.mk.injEq .. ▸ ⟨by dsimp only; omega, by dsimp only; omega, rfl⟩
      · exact Position.mk.injEq .. ▸ ⟨by dsimp only; omega, rfl, rfl⟩
    rw [Position.after_cons, hnext, ih, Position.after_cons]

theorem run_position (p : Position) (cs : List Char) :
    Lexer.run (m.position p) cs =
      ((Lexer.run p cs).map m.tokens).mapError (LexicalError.mapPlaces m.place) := by
  induction cs using Lexer.induction generalizing p with
  | nil =>
    rw [Lexer.run_nil, Lexer.run_nil]
    rfl
  | step c rest ih =>
    cases hstep : Lexer.step c rest with
    | error problem =>
      rw [Lexer.run_error hstep, Lexer.run_error hstep]
      rfl
    | ok found =>
      obtain ⟨kind?, n⟩ := found
      rw [Lexer.run_ok hstep, Lexer.run_ok hstep, after_position, ih]
      cases Lexer.run (p.after (c :: rest.take n)) (rest.drop n) with
      | error e => rfl
      | ok ts =>
        have hafter := after_position (m := m) p (c :: rest.take n)
        cases kind? with
        | none => rfl
        | some kind =>
          have htoken : Lexer.stepToken (m.position p) (c :: rest.take n) kind =
              m.token (Lexer.stepToken p (c :: rest.take n) kind) := by
            rw [Lexer.stepToken, hafter]
            rfl
          show Except.ok (Tokens.mk (_ :: ts.items.map m.token) _) = _
          rw [htoken]
          rfl

def chunk (m : Placement) (c : Chunk) : Chunk := ⟨m.tokens c.tokens⟩

def cut (m : Placement) (cut : Chunk.Cut) : Chunk.Cut :=
  ⟨cut.done.map (List.map m.token), cut.current.map m.token, cut.depth⟩

theorem push_cut (cut : Chunk.Cut) (t : Token) :
    (m.cut cut).push (m.token t) = m.cut (cut.push t) := by
  have hkind : (m.token t).kind = t.kind := rfl
  have hempty : (m.cut cut).current.isEmpty = cut.current.isEmpty := List.isEmpty_map
  have hdepth : (m.cut cut).depth = cut.depth := rfl
  unfold Chunk.Cut.push
  rw [hkind, hempty, hdepth]
  dsimp only
  split
  · simp [Placement.cut, List.map_reverse]
  · simp [Placement.cut]

theorem split_tokens (ts : Tokens) :
    Chunk.split (m.tokens ts) = (Chunk.split ts).map m.chunk := by
  have hfold (items : List Token) (cut : Chunk.Cut) :
      (items.map m.token).foldl Chunk.Cut.push (m.cut cut) =
        m.cut (items.foldl Chunk.Cut.push cut) := by
    induction items generalizing cut with
    | nil => rfl
    | cons t items ih => rw [List.map_cons, List.foldl_cons, push_cut, ih, List.foldl_cons]
  have hstart : (m.tokens ts).items.foldl Chunk.Cut.push {} =
      m.cut (ts.items.foldl Chunk.Cut.push {}) := hfold ts.items {}
  unfold Chunk.split
  rw [hstart]
  generalize ts.items.foldl Chunk.Cut.push {} = cut
  have hempty : (m.cut cut).current.isEmpty = cut.current.isEmpty := List.isEmpty_map
  dsimp only
  rw [hempty]
  split
  · simp [Placement.cut, ← List.map_reverse, Function.comp_def, chunk, tokens]
  · simp [Placement.cut, ← List.map_reverse, Function.comp_def, chunk, tokens]

theorem kind?_chunk (c : Chunk) : (m.chunk c).kind? = c.kind? := by
  obtain ⟨⟨items, eof⟩⟩ := c
  cases items with
  | nil => rfl
  | cons t items => rfl

theorem name?_chunk (c : Chunk) : (m.chunk c).name? = c.name? := by
  have hkind := kind?_chunk (m := m) c
  obtain ⟨⟨items, eof⟩⟩ := c
  unfold Chunk.name?
  rw [hkind]
  generalize Chunk.kind? _ = kind
  match kind, items with
  | none, _ => rfl
  | some _, [] => rfl
  | some _, [t] => rfl
  | some _, t :: u :: items => rfl

theorem ofChunk?_chunk (m : Placement) (c : Chunk) (h : ∀ t ∈ c.tokens.items, t.stop ≤ m.bound) :
    Outcome.ofChunk? m.target (m.chunk c) =
      (Outcome.ofChunk? m.source c).map (Outcome.mapPlaces m.place) := by
  have hread : Component.ofTokens m.target (m.chunk c).tokens =
      ((Component.ofTokens m.source c.tokens).map (Component.mapPlaces m.place)).mapError
        (Failure.mapPlaces m.place) := ofTokens_tokens m c.tokens h
  unfold Outcome.ofChunk?
  rw [hread, kind?_chunk, name?_chunk]
  cases Component.ofTokens m.source c.tokens with
  | ok component =>
    show some (Outcome.mk (some (component.mapPlaces m.place).name)
      (some (component.mapPlaces m.place).kind) _) = _
    rw [Component.name_mapPlaces, Component.kind_mapPlaces]
    rfl
  | error failure =>
    cases failure with
    | problem e => rfl
    | unusable => rfl

theorem ofOffset_position (m : Placement) (start : Nat) (h : start ≤ m.bound) :
    Position.ofOffset m.target.text (start + m.offset) =
      m.position (.ofOffset m.source.text start) := by
  unfold Position.ofOffset position
  rw [m.lines_eq start h, Nat.add_right_comm]

theorem lex_shift (m : Placement) (s : Section) (hstart : s.start ≤ m.bound)
    (hstop : s.stop ≤ m.bound) :
    lex m.target.text (s.shift m.offset).start (s.shift m.offset).stop =
      ((lex m.source.text s.start s.stop).map m.tokens).mapError
        (LexicalError.mapPlaces m.place) := by
  show Lexer.run (.ofOffset m.target.text (s.start + m.offset))
    (Text.slice m.target.text (s.start + m.offset) (s.stop + m.offset)) = _
  rw [ofOffset_position m s.start hstart, m.slice_eq s.start s.stop hstop, run_position]
  rfl

/-- What a section gives, it gives where its text stands in another one. -/
theorem ofSection?_shift (m : Placement) (s : Section) (hstart : s.start ≤ m.bound)
    (hstop : s.stop ≤ m.bound) :
    Outcome.ofSection? m.target (s.shift m.offset) =
      (Outcome.ofSection? m.source s).map (List.map (Outcome.mapPlaces m.place)) := by
  unfold Outcome.ofSection?
  rw [lex_shift m s hstart hstop]
  cases hlex : lex m.source.text s.start s.stop with
  | error e => rfl
  | ok ts =>
    show (Chunk.split (m.tokens ts)).mapM _ = _
    rw [split_tokens]
    refine mapM_map fun c hc => ofChunk?_chunk m c fun t ht => ?_
    have hle := Lexer.stop_le_of_run hlex t (Chunk.mem_of_mem_split hc ht)
    have hlength : (Text.slice m.source.text s.start s.stop).length ≤ s.stop - s.start :=
      List.length_take_le ..
    dsimp only [Position.ofOffset] at hle
    omega

end Placement
end ViewTree
