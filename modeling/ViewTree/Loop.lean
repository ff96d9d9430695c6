/-!
Loops with a bound on their rounds.
-/
namespace ViewTree

/-- Rounds of `step` from a state on until it answers none; after `count` rounds `spent` takes
over. -/
def rounds {m : Type → Type} [Monad m] {σ : Type} (spent : m σ) (step : σ → m (Option σ)) :
    Nat → σ → m σ
  | 0, _ => spent
  | count + 1, s => do
    match ← step s with
    | some s' => rounds spent step count s'
    | none => pure s

end ViewTree
