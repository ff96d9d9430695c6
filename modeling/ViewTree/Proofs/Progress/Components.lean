import ViewTree.Proofs.Progress.Groups
import ViewTree.Proofs.Progress.Nodes

/-!
Reading a component ends. Main statement: for every list of tokens with its mark of the end, reading
gives a component, or a problem that is none of its bounds, or meets an embedded text without a
meaning; each round of each loop takes a token or is the last one, each node takes a token before
another one starts inside of it, and groups that are read twice end the same both times
(`Component.progresses`). Texts without a meaning do occur (`Component.ofTokens_panelTokens`).
-/
namespace ViewTree
open TreeReader NodeReaders

variable {context : Context} {tokens : Tokens} {n : Nat} {α : Type}

/-- The reader where fewer than `count` tokens are left; elsewhere it is nested too deeply. -/
def TreeReader.below (reader : TreeReader α) (count : Nat) : TreeReader α := do
  if (← get).rest.length < count then reader else fail .nested

theorem TreeReader.below_eq {reader : TreeReader α} {count : Nat} {c : Cursor}
    (h : c.rest.length < count) : reader.below count context c = reader context c := by
  show (if c.rest.length < count then reader else fail .nested) context c = reader context c
  rw [if_pos h]

namespace NodeReaders

/-- The readers where fewer than `count` tokens are left. -/
def below (r : NodeReaders) (count : Nat) : NodeReaders where
  widget lead written := (r.widget lead written).below count
  choice lead written := (r.choice lead written).below count

/-- A bound on the tokens that are left does not matter where no more of them are. -/
theorem consumes_below {r : TreeReader α} {m : Nat} (h : Consumes context tokens m r r) (hm : m < n) :
    Consumes context tokens m r (r.below n) := fun c hc =>
  (h c hc).of_eq rfl (below_eq (Nat.lt_of_lt_of_le hc.length_lt hm))

theorem Agree.below {r : NodeReaders} (h : Agree context tokens n r r) :
    Agree context tokens n r (r.below n) where
  widget m hm lead written := consumes_below (h.widget m hm lead written) hm
  choice m hm lead written := consumes_below (h.choice m hm lead written) hm

/-- A node at the cursor takes a token, and fewer tokens are left than at the cursor wherever a node
inside of it starts, and wherever an item of a widget does. -/
structure Descends (context : Context) (tokens : Tokens) (r : NodeReaders) (c : Cursor) : Prop where
  widget : ∀ lead written, Steady context tokens c (fun _ => Cursor.Within tokens c.rest.length)
    (r.widgetOf lead written) ((r.below c.rest.length).widgetOf lead written)
  choice : ∀ lead written, Steady context tokens c (fun _ => Cursor.Within tokens c.rest.length)
    (r.choiceOf lead written) ((r.below c.rest.length).choiceOf lead written)
  items : ∀ lead written, Steady context tokens c (fun _ => Cursor.Within tokens c.rest.length)
    (r.widgetOf lead written)
    (do widgetBody (r.item.below c.rest.length) (← widgetHead lead written))

theorem descends_nodeReaders {depth : Nat} {c : Cursor} (hc : c.Within tokens (c.rest.length + 1))
    (h : c.rest.length ≤ depth) : Descends context tokens (nodeReaders depth) c := by
  have hagree : Agree context tokens c.rest.length (nodeReaders depth) (nodeReaders depth) :=
    agree_nodeReaders h h
  refine ⟨fun lead written => hagree.below.widgetOf (Nat.le_refl _) lead written c hc,
    fun lead written => hagree.below.choiceOf (Nat.le_refl _) lead written c hc, fun lead written => ?_⟩
  rw [widgetOf_eq]
  refine (consumes_widgetHead lead written c hc).bind fun head c' hc' => ?_
  exact stays_widgetBody (fun m hm => consumes_below (hagree.item hm) hm) head c' hc'

/-- Each round of a loop takes a token, or is the last one. -/
structure Loops (context : Context) (tokens : Tokens) (r : NodeReaders) (n : Nat) : Prop where
  trees : ∀ opening, Advances context tokens n (blockRound opening r.tree) (blockRound opening r.tree)
  items : ∀ opening, Advances context tokens n (blockRound opening r.item) (blockRound opening r.item)
  arms : ∀ opening,
    Advances context tokens n (blockRound opening r.caseArm) (blockRound opening r.caseArm)
  branches : Advances context tokens n r.chainRound r.chainRound
  leads : Advances context tokens n Attribute.leadRound Attribute.leadRound
  names : Advances context tokens n Attribute.nameRound Attribute.nameRound
  captures : Advances context tokens n captureRound captureRound
  parameters : Advances context tokens n Component.parameterRound Component.parameterRound
  paths : Advances context tokens n pathRound pathRound
  calls : Advances context tokens n callRound callRound

theorem loops_nodeReaders {depth : Nat} (h : n < depth) :
    Loops context tokens (nodeReaders depth) n :=
  have hagree : Agree context tokens depth (nodeReaders depth) (nodeReaders depth) :=
    agree_nodeReaders (Nat.le_refl depth) (Nat.le_refl depth)
  { trees := advances_blockRound (hagree.tree h)
    items := advances_blockRound (hagree.item h)
    arms := advances_blockRound (hagree.caseArm h)
    branches := hagree.advances_chainRound (Nat.le_of_lt h)
    leads := Attribute.advances_leadRound
    names := Attribute.advances_nameRound
    captures := advances_captureRound
    parameters := Component.advances_parameterRound
    paths := advances_pathRound
    calls := advances_callRound }

end NodeReaders

/-- Looking for the end of an expression stops in front of a token or takes it. -/
theorem TreeReader.expressionEnd_stops_or_takes (stops : TokenKind → Bool) (depth lambdas : Nat)
    (last : Option Token) (t : Token) (ts : List Token) :
    expressionEnd stops depth lambdas last (t :: ts) = (last, t :: ts) ∨ ∃ depth' lambdas',
      expressionEnd stops depth lambdas last (t :: ts) =
        expressionEnd stops depth' lambdas' (some t) ts := by
  rw [expressionEnd]
  dsimp only
  split
  · exact .inl rfl
  · exact .inr ⟨_, _, rfl⟩

/-- Looking for the end of a pattern stops in front of a token or takes it. -/
theorem TreeReader.patternEnd_stops_or_takes (depth : Nat) (last : Option Token) (t : Token)
    (ts : List Token) : patternEnd depth last (t :: ts) = (last, t :: ts) ∨ ∃ depth',
      patternEnd depth last (t :: ts) = patternEnd depth' (some t) ts := by
  rw [patternEnd]
  split
  · exact .inl rfl
  · exact .inr ⟨_, rfl⟩

/-- What is embedded takes a token; the scan for its end takes them one by one. -/
structure TreeReader.Scans (context : Context) (tokens : Tokens) (n : Nat) : Prop where
  expression : ∀ stops what hint, Consumes context tokens n (captureExpression stops what hint)
    (captureExpression stops what hint)
  pattern : Consumes context tokens n capturePattern capturePattern
  expressionStep : ∀ stops depth lambdas last t ts,
    expressionEnd stops depth lambdas last (t :: ts) = (last, t :: ts) ∨ ∃ depth' lambdas',
      expressionEnd stops depth lambdas last (t :: ts) =
        expressionEnd stops depth' lambdas' (some t) ts
  patternStep : ∀ depth last t ts, patternEnd depth last (t :: ts) = (last, t :: ts) ∨ ∃ depth',
    patternEnd depth last (t :: ts) = patternEnd depth' (some t) ts

def Tokens.start (tokens : Tokens) : Cursor := ⟨none, tokens.items, tokens.eof⟩

namespace Component

/-- A component with at most `depth` nested nodes, and nothing behind it. -/
def readWithin (depth : Nat) : TreeReader Component := do
  let component ← readOne (nodeReaders depth)
  if !(← isNext .eof) then
    fail (.trailing (← current).describe component.kind component.name)
  pure component

theorem steady_readWithin {depth depth' : Nat} (h : n ≤ depth) (h' : n ≤ depth') {c : Cursor}
    (hc : c.Within tokens n) : Steady context tokens c
      (fun _ c' => c'.Within tokens n ∧ c'.token.kind = .eof)
      (readWithin depth) (readWithin depth') := by
  refine (stays_readOne (agree_nodeReaders h h') c hc).bind fun component c hc => steady_isNext ?_
  refine Steady.ite (fun _ => steady_current (steady_fail_bind nofun)) fun hends => steady_pure ⟨hc, ?_⟩
  simpa using hends

/-- Reading the tokens comes to an end, each part of it by taking tokens. -/
structure Progresses (context : Context) (tokens : Tokens) : Prop where
  outcome : (∃ component, ofTokens context tokens = .ok component) ∨
    (∃ error, ofTokens context tokens = .error (.problem error) ∧ error.problem ≠ .nested) ∨
    ofTokens context tokens = .error .unusable ∧ ¬context.Legible tokens.items
  /-- No bound on nested nodes matters that exceeds the number of tokens. -/
  unbounded : ∀ depth, tokens.items.length < depth →
    readWithin depth context tokens.start = Component.read context tokens.start
  ends : ∀ component c, Component.read context tokens.start = .ok (component, c) →
    c.eof = tokens.eof ∧ c.rest <:+ tokens.items ∧ c.token.kind = .eof
  nodes : ∀ c depth, c.Within tokens (c.rest.length + 1) → c.rest.length ≤ depth →
    (nodeReaders depth).Descends context tokens c
  loops : ∀ n depth, n < depth → (nodeReaders depth).Loops context tokens n
  scans : ∀ n, Scans context tokens n
  arguments : ∀ c, c.token.kind = .lbracket →
    RereadsGroup context c groupedArguments (bracketArguments (some c))
  captures : ∀ c, c.token.kind = .lbracket →
    RereadsGroup context c groupedCaptures (NodeReaders.captures (some c))

theorem ofTokens_eq_of_read {result : Except Failure (Component × Cursor)}
    (h : Component.read context tokens.start = result) :
    ofTokens context tokens = result.map (·.1) := by
  have hrun : (Component.read.run context).run ⟨none, tokens.items, tokens.eof⟩ = result := h
  rw [ofTokens, hrun]
  cases result <;> rfl

/-- Reading progresses on all tokens with the mark of the end behind them. -/
theorem progresses (context : Context) (tokens : Tokens) (hends : tokens.eof.kind = .eof) :
    Progresses context tokens := by
  have hstart : tokens.start.Within tokens (tokens.items.length + 1) :=
    ⟨hends, rfl, List.suffix_refl _, Nat.lt_succ_self _⟩
  have hsteady {depth : Nat} (h : tokens.items.length < depth) : Steady context tokens tokens.start
      (fun _ c' => c'.Within tokens (tokens.items.length + 1) ∧ c'.token.kind = .eof)
      (readWithin depth) Component.read :=
    (steady_readWithin h (Nat.le_refl _) hstart).of_eq rfl rfl
  have hread := hsteady (Nat.lt_succ_self _)
  refine
    { outcome := ?_
      unbounded := fun depth h => (hsteady h).same
      ends := fun component c h => ?_
      nodes := fun c depth => descends_nodeReaders
      loops := fun n depth => loops_nodeReaders
      scans := fun n => ⟨fun stops what hint => consumes_captureExpression stops what hint,
        consumes_capturePattern, expressionEnd_stops_or_takes, patternEnd_stops_or_takes⟩
      arguments := fun c => rereads_bracketArguments
      captures := fun c => rereads_captures }
  · cases hresult : Component.read context tokens.start with
    | ok found => exact .inl ⟨found.1, ofTokens_eq_of_read hresult⟩
    | error failure =>
      have hof := ofTokens_eq_of_read hresult
      have hfounded := hread.fails failure hresult
      cases failure with
      | problem error => exact .inr (.inl ⟨error, hof, hfounded⟩)
      | unusable => exact .inr (.inr ⟨hof, hfounded⟩)
  · obtain ⟨hc, hkind⟩ := hread.gives component c h
    exact ⟨hc.eof, hc.suffix, hkind⟩

/-- A view of a match with a pattern on two lines, a field of which holds a control character. -/
def panelText : List Char :=
  ("view Panel(model) \x7b Gtk.Box \x7b match model \x7b\n  1 |\n" ++
    "  2 if f\"\x7b'\x7f'\x7d\" => Gtk.Label,\n  _ => Gtk.Spinner \x7d \x7d \x7d\n").toList

def panelTokens : Tokens :=
  match lex panelText 0 panelText.length with
  | .ok tokens => tokens
  | .error _ => ⟨[], default⟩

theorem progresses_panelTokens :
    panelTokens.eof.kind = .eof ∧ Progresses ⟨panelText, {}⟩ panelTokens := by
  have hends : panelTokens.eof.kind = .eof := by decide +kernel
  exact ⟨hends, progresses _ _ hends⟩

/-- Its tokens give neither a component nor a problem. -/
theorem ofTokens_panelTokens : panelTokens.eof.kind = .eof ∧ (∀ t ∈ panelTokens.items, t.kind ≠ .eof) ∧
    ofTokens ⟨panelText, {}⟩ panelTokens = .error .unusable := by
  have hread : (match ofTokens ⟨panelText, {}⟩ panelTokens with
    | .error .unusable => true
    | _ => false) = true := by decide +kernel
  refine ⟨by decide +kernel, by decide +kernel, ?_⟩
  split at hread
  · assumption
  · nomatch hread

end Component
end ViewTree
