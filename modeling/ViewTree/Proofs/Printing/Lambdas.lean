import ViewTree.Proofs.Pasting.Productions
import ViewTree.Proofs.Printing.Atoms

/-!
Lambdas on lexemes whose kinds are known. Main statement: parameters that may follow each other are read one
after the other (`readsAt_lambda`).
-/
namespace ViewTree.Embedded
open Reader Grammar

/-- What stands between the commas of a lambda's parameters. -/
inductive ParameterItem where
  | plain (name : String) (default : Option Term)
  | slash
  /-- One star, with a name or alone. -/
  | star (name : Option String)
  | keywords (name : String)

/-- The item with all places forgotten. -/
def ParameterItem.unplaced : ParameterItem → ParameterItem
  | plain name default => plain name (default.map Term.unplaced)
  | item => item

namespace Grammar.Parameters

/-- Whether the item may come next. -/
def Allows (read : Parameters) : ParameterItem → Prop
  | .plain _ default => (!read.star && read.optional && default.isNone) = false
  | .slash => (read.slash || read.star || read.found.isEmpty) = false
  | .star _ => read.star = false
  | .keywords _ => read.waiting = false

def push (read : Parameters) : ParameterItem → Parameters
  | .plain id default => { read with
      found := .mk (if read.star then .keywordOnly else .ordinary) id default :: read.found
      optional := read.optional || default.isSome
      waiting := false }
  | .slash => { read with slash := true, found := read.found.map positionalOnly }
  | .star none => { read with star := true, waiting := true }
  | .star (some id) => { read with found := .mk .rest id none :: read.found, star := true }
  | .keywords id => { read with found := .mk .keywords id none :: read.found, last := true }

/-- Items that may come one after the other. -/
def Follow (read : Parameters) : List ParameterItem → Prop
  | [] => True
  | item :: items => read.last = false ∧ read.Allows item ∧ Follow (read.push item) items

end Grammar.Parameters

/-- The lexemes are read as an item of a parameter list. -/
inductive ParameterAt : List LexemeKind → ParameterItem → Prop where
  | bare {id} : ParameterAt [.name id] (.plain id none)
  | default {id ks y} (h : ReadsAt 4 ks y) :
    ParameterAt (.name id :: .symbol "=" :: ks) (.plain id (some y))
  | slash : ParameterAt [.symbol "/"] .slash
  | star : ParameterAt [.symbol "*"] (.star none)
  | rest {id} : ParameterAt [.symbol "*", .name id] (.star (some id))
  | keywords {id} : ParameterAt [.symbol "**", .name id] (.keywords id)

section
variable {inner : FieldReader} {depth : Nat} {kinds ls : List LexemeKind} {item : ParameterItem} {y : Term}

theorem ParameterAt.consumes_parameter (h : ParameterAt kinds item) (hdepth : kinds.length < depth)
    {p : Parameters} (hlast : p.last = false) (hallows : p.unplaced.Allows item)
    {B : LexemeKind → Prop} (hB : ∀ k, B k → k = .symbol "," ∨ k = .symbol ":")
    (hstar : item = .star none → ∀ k, B k → k = .symbol ",") :
    Consumes Parameters.unplaced B ((grammarAt inner depth).1.parameter p) kinds
      (p.unplaced.push item) := by
  unfold parameter
  dsimp only
  rw [if_neg (by simp [hlast])]
  have hother {ks : List LexemeKind} {k l : LexemeKind} (hk : isPlain k) (hkl : k ≠ l) :
      Begins B (k :: ks) (· ≠ l) := begins_plain hk hkl
  cases h with
  | slash =>
    have hnone : (p.slash || p.star || p.found.isEmpty) = false := by
      simpa [Parameters.Allows, Parameters.unplaced] using hallows
    refine consumes_when rfl (consumes_ite_neg (by simp [hnone]) (consumes_pure ?_))
    simp [Parameters.unplaced, Parameters.push, positionalOnly_unplaced]
  | @keywords id =>
    have hnone : p.waiting = false := hallows
    refine consumes_unless (hother rfl (by simp)) ?_
    refine consumes_when rfl (consumes_ite_neg (by simp [hnone]) ?_)
    refine consumes_name (consumes_pure ?_)
    simp [Parameters.unplaced, Parameters.push, Param.unplaced]
  | star =>
    have hnone : p.star = false := hallows
    refine consumes_unless (hother rfl (by simp)) ?_
    refine consumes_unless (hother rfl (by simp)) ?_
    refine consumes_when rfl (consumes_ite_neg (by simp [hnone]) ?_)
    refine consumes_peek (P := (· = .symbol ",")) (hstar rfl) ?_
    rintro _ rfl
    exact consumes_pure rfl
  | @rest id =>
    have hnone : p.star = false := hallows
    refine consumes_unless (hother rfl (by simp)) ?_
    refine consumes_unless (hother rfl (by simp)) ?_
    refine consumes_when rfl (consumes_ite_neg (by simp [hnone]) ?_)
    refine consumes_peek_plain rfl (consumes_name (consumes_pure ?_))
    simp [Parameters.unplaced, Parameters.push, Param.unplaced]
  | @bare id =>
    have hnone : (!p.star && p.optional && true) = false := hallows
    refine consumes_unless (hother rfl (by simp)) ?_
    refine consumes_unless (hother rfl (by simp)) ?_
    refine consumes_unless (hother rfl (by simp)) ?_
    refine consumes_name (consumes_unless (fun k hk => ?_) ?_)
    · rcases hB k hk with rfl | rfl <;> decide
    · exact consumes_ite_neg (by simpa using hnone) (consumes_pure rfl)
  | @default id ks y h =>
    simp only [List.length_cons] at hdepth
    refine consumes_unless (hother rfl (by simp)) ?_
    refine consumes_unless (hother rfl (by simp)) ?_
    refine consumes_unless (hother rfl (by simp)) ?_
    refine consumes_name (consumes_when rfl ?_)
    refine ((h.expression (by omega)).mono fun k hk => ?_).bind_nil fun x hx => ?_
    · rcases hB k hk with rfl | rfl <;> decide
    · subst hx
      exact consumes_ite_neg (by simp) (consumes_pure rfl)

def nextParameter (g : Grammar) (s : Parameters × Bool) : Reader (Option (Parameters × Bool)) := do
  if !s.2 || (← peek) = some (.symbol ":") then pure none
  else
    let read ← g.parameter s.1
    pure (some (read, ← accept (.symbol ",")))

/-- The parameters read so far and whether more may come, without places. -/
def unplacedParameters (s : Parameters × Bool) : Parameters × Bool := (s.1.unplaced, s.2)

theorem parameters_eq (g : Grammar) : g.parameters = (do
    let (read, _) ← repeating (nextParameter g) (({} : Parameters), true)
    if read.waiting then failure
    pure read.found.reverse) := rfl

theorem ParameterAt.begins (h : ParameterAt kinds item) {B : LexemeKind → Prop} :
    Begins B kinds (· ≠ .symbol ":") := by
  cases h <;> exact begins_plain rfl nofun

theorem ParameterAt.ne_nil (h : ParameterAt kinds item) : kinds ≠ [] := by
  cases h <;> exact List.cons_ne_nil _ _

theorem consumes_nextParameter_none {s : Parameters × Bool} {read : Parameters}
    (hs : unplacedParameters s = (read, false)) {B : LexemeKind → Prop} {g : Grammar} :
    Consumes (Option.map unplacedParameters) B (nextParameter g s) [] none := by
  obtain ⟨found, more⟩ := s
  obtain rfl : more = false := (Prod.mk.inj hs).2
  exact consumes_peek (P := Any) (fun _ _ => trivial) fun _ _ => consumes_ite_pos rfl (consumes_pure rfl)

theorem ParameterAt.consumes_nextParameter_comma (h : ParameterAt kinds item) (hdepth : kinds.length < depth)
    {s : Parameters × Bool} {read : Parameters} (hs : unplacedParameters s = (read, true))
    (hlast : read.last = false) (hallows : read.Allows item) :
    Consumes (Option.map unplacedParameters) Any (nextParameter (grammarAt inner depth).1 s)
      (kinds ++ [.symbol ","]) (some (read.push item, true)) := by
  obtain ⟨found, more⟩ := s
  obtain ⟨rfl, rfl⟩ := Prod.mk.inj hs
  refine consumes_peek (h.begins.append h.ne_nil) fun k hk => consumes_ite_neg (by simpa using hk) ?_
  refine (h.consumes_parameter (p := found) hdepth hlast hallows (B := (· = .symbol ",")) (fun _ => .inl)
    fun _ _ hk => hk).bind (begins_plain rfl rfl) fun after hafter => ?_
  exact consumes_accept rfl (consumes_pure (by simp [unplacedParameters, hafter]))

theorem ParameterAt.consumes_nextParameter (h : ParameterAt kinds item) (hdepth : kinds.length < depth)
    {s : Parameters × Bool} {read : Parameters} (hs : unplacedParameters s = (read, true))
    (hlast : read.last = false) (hallows : read.Allows item) (hwaiting : (read.push item).waiting = false) :
    Consumes (Option.map unplacedParameters) (· = .symbol ":") (nextParameter (grammarAt inner depth).1 s)
      kinds (some (read.push item, false)) := by
  obtain ⟨found, more⟩ := s
  obtain ⟨rfl, rfl⟩ := Prod.mk.inj hs
  refine consumes_peek h.begins fun k hk => consumes_ite_neg (by simpa using hk) ?_
  refine (h.consumes_parameter (p := found) hdepth hlast hallows (fun _ => .inr) ?_).bind_nil
    fun after hafter => ?_
  · rintro rfl
    cases hwaiting
  · refine consumes_accept_other ?_ (consumes_pure (by simp [unplacedParameters, hafter]))
    rintro _ rfl
    decide

theorem rounds_parameters {i : FieldReader} {d : Nat} {kss : List (List LexemeKind)}
    {items : List ParameterItem}
    (h : List.Forall₂ ParameterAt kss items) (hdepth : (commas kss).length < d) {read : Parameters}
    (hfollow : read.Follow items) (hend : (items.foldl Parameters.push read).waiting = false) :
    ∃ more, Rounds unplacedParameters (· = .symbol ":") (nextParameter (grammarAt i d).1) (commas kss)
      (read, true) (items.foldl Parameters.push read, more) := by
  induction h generalizing read with
  | nil =>
    refine ⟨true, .done fun s _ => consumes_peek (fun _ hk => hk) ?_⟩
    rintro _ rfl
    exact consumes_ite_pos (by simp) (consumes_pure rfl)
  | @cons ks item kss items hitem hitems ih =>
    obtain ⟨hlast, hallows, hfollow⟩ := hfollow
    rw [commas, List.length_append] at hdepth
    cases hitems with
    | nil =>
      rw [commas_singleton]
      refine ⟨false, .last hitem.ne_nil (fun s hs => ?_) fun s hs => consumes_nextParameter_none hs⟩
      exact hitem.consumes_nextParameter (by omega) hs hlast hallows hend
    | @cons ls next kss items hnext hitems =>
      rw [led_cons, List.length_cons] at hdepth
      obtain ⟨more, hrounds⟩ := ih (by rw [commas]; omega) hfollow hend
      have hkinds : commas (ks :: ls :: kss) = (ks ++ [.symbol ","]) ++ commas (ls :: kss) := by
        simp [commas, led_cons]
      rw [hkinds]
      refine ⟨more, .more (by simp) (fun s hs => ?_) begins_any hrounds⟩
      exact hitem.consumes_nextParameter_comma (by omega) hs hlast hallows

theorem readsAt_lambda {kss : List (List LexemeKind)} {items : List ParameterItem}
    (h : List.Forall₂ ParameterAt kss items) (hfollow : Parameters.Follow {} items)
    (hend : (items.foldl Parameters.push {}).waiting = false) (hbody : ReadsAt 4 ls y) :
    ReadsAt 4 (.keyword "lambda" :: (commas kss ++ .symbol ":" :: ls))
      (.mk 0 0 (.lambda (items.foldl Parameters.push {}).found.reverse y)) := by
  refine ⟨⟨_, _, rfl, by decide⟩, nofun, rfl, fun inner depth hdepth => (readIn_of_none rfl).mpr ?_⟩
  simp only [List.length_cons, List.length_append] at hdepth
  refine consumes_peek_plain rfl (consumes_ite_pos rfl ?_)
  refine consumes_here fun start => consumes_keyword ?_
  obtain ⟨more, hrounds⟩ := rounds_parameters (i := inner) h (d := depth + 1) (by omega) hfollow hend
  have hread : Consumes (List.map Param.unplaced) (· = .symbol ":") (grammarAt inner (depth + 1)).1.parameters
      (commas kss) (items.foldl Parameters.push {}).found.reverse := by
    rw [parameters_eq]
    refine (hrounds.consumes_repeating (s := ({}, true)) rfl).bind_nil fun (read, flag) hread => ?_
    obtain ⟨hread, -⟩ := Prod.mk.inj hread
    have hwaiting : read.waiting = false := (congrArg Parameters.waiting hread).trans hend
    refine consumes_ite_neg (by simp [hwaiting]) (consumes_pure ?_)
    rw [List.map_reverse, ← hread]
    rfl
  refine hread.bind (begins_plain rfl rfl) fun params hparams => consumes_symbol ?_
  refine (hbody.expression (by omega)).bind_nil fun body hbody => consumes_close ?_ start
  rw [Form.unplaced, Param.allUnplaced_eq, hparams, hbody]

end
end ViewTree.Embedded
