import ViewTree.Embedded.Input

/-!
How far a scan for the end of an expression has come. A nesting counts open brackets and lambdas
whose colon is still to come. Main statement: what a reader may take is said by modes, one before
and one behind, and passages between modes compose (`Passage.trans`).
-/
namespace ViewTree.Embedded

/-- How many brackets are open, how many lambdas outside of them wait for their colon, and whether
the last lexeme is one that no lambda and no `=` follows. -/
structure Nesting where
  depth : Nat
  lambdas : Nat
  joined : Bool
deriving DecidableEq

namespace Nesting

/-- Lexemes that no lambda follows: what a number may run into, and a lambda itself. -/
def joins : LexemeKind → Bool
  | .keyword word => word = "lambda"
  | .symbol s => s = "." || s = "..." || s = "+" || s = "-"
  | _ => false

/-- The level behind a lexeme; none if no expression holds the lexeme there. -/
def step? (v : Nesting) (k : LexemeKind) : Option Nesting :=
  let stay := some { v with joined := joins k }
  match k with
  | .symbol s =>
    if (closerOf? s).isSome then some ⟨v.depth + 1, v.lambdas, false⟩
    else if isCloser s then if v.depth = 0 then none else some ⟨v.depth - 1, v.lambdas, false⟩
    else if s = "," then if v.depth = 0 && v.lambdas = 0 then none else stay
    else if s = ":" then
      some ⟨v.depth, if v.depth = 0 then v.lambdas - 1 else v.lambdas, false⟩
    else if s = ":=" then if v.depth = 0 then none else stay
    else if s = "=" then if v.joined || (v.depth = 0 && v.lambdas = 0) then none else stay
    else stay
  | .keyword word =>
    if word = "lambda" then
      if v.joined then none
      else some ⟨v.depth, if v.depth = 0 then v.lambdas + 1 else v.lambdas, true⟩
    else stay
  | _ => stay

def walk? (v : Nesting) (lexemes : List Lexeme) : Option Nesting :=
  lexemes.foldlM (fun v t => v.step? t.kind) v

theorem walk?_append (v : Nesting) (ts us : List Lexeme) :
    v.walk? (ts ++ us) = (v.walk? ts).bind (·.walk? us) := List.foldlM_append

theorem exists_step?_of_walk? {v w : Nesting} {t : Lexeme} {ts : List Lexeme}
    (h : v.walk? (t :: ts) = some w) : ∃ u, v.step? t.kind = some u ∧ u.walk? ts = some w :=
  Option.bind_eq_some_iff.mp h

end Nesting

/-- Where a reader stands in what it reads: before its first lexeme, behind it, among the
parameters of a lambda, or between brackets. -/
inductive Zone where
  | start | begun | listed | inside
deriving DecidableEq

namespace Zone

/-- The zone behind a lexeme that opens and closes nothing. -/
def behind : Zone → Zone
  | start => begun
  | z => z

/-- How many lexemes have been taken, at least. -/
def spent : Zone → Nat
  | start => 0
  | _ => 1

/-- How many lexemes are still to be taken, at least: a bracket wants its closing one. -/
def owed : Zone → Nat
  | inside => 1
  | _ => 0

/-- Open brackets and lambdas in the zone of a reader that started with `depth` and `lambdas`. -/
def counts (depth lambdas : Nat) : Zone → Nat × Nat
  | start | begun => (depth, lambdas)
  | listed => (depth, if depth = 0 then lambdas + 1 else lambdas)
  | inside => (depth + 1, lambdas)

end Zone

/-- A zone, and whether the last lexeme is known to let a lambda follow. -/
structure Mode where
  zone : Zone
  clear : Bool
deriving DecidableEq

namespace Mode

/-- The level is one of a reader in this mode that started with `depth` and `lambdas`. -/
def Holds (m : Mode) (depth lambdas : Nat) (v : Nesting) : Prop :=
  (v.depth, v.lambdas) = m.zone.counts depth lambdas ∧ (m.clear → v.joined = false)

/-- The mode behind a lexeme, for the lexemes that readers take by themselves. -/
def after? (m : Mode) (k : LexemeKind) : Option Mode :=
  let stay := some ⟨m.zone.behind, !Nesting.joins k⟩
  match k with
  | .symbol s =>
    if (closerOf? s).isSome then
      if m.zone = .start || m.zone = .begun then some ⟨.inside, true⟩ else none
    else if isCloser s then if m.zone = .inside then some ⟨.begun, true⟩ else none
    else if s = "," then if m.zone = .listed || m.zone = .inside then stay else none
    else if s = ":" then
      match m.zone with
      | .listed => some ⟨.begun, true⟩
      | .inside => stay
      | _ => none
    else if s = ":=" then if m.zone = .inside then stay else none
    else if s = "=" then
      if m.clear && (m.zone = .listed || m.zone = .inside) then stay else none
    else stay
  | .keyword word =>
    if word = "lambda" then
      if m.clear && m.zone = .start then some ⟨.listed, false⟩ else none
    else stay
  | .lineEnd => none
  | _ => stay

variable {m : Mode} {depth lambdas : Nat} {v : Nesting}

theorem Holds.counts_plain (h : m.Holds depth lambdas v) (hz : m.zone = .start ∨ m.zone = .begun) :
    v.depth = depth ∧ v.lambdas = lambdas := by
  have hcounts := h.1
  rcases hz with hz | hz <;> rw [hz] at hcounts <;> exact Prod.mk.inj hcounts

theorem Holds.counts_inside (h : m.Holds depth lambdas v) (hz : m.zone = .inside) :
    v.depth = depth + 1 ∧ v.lambdas = lambdas := by
  have hcounts := h.1
  rw [hz] at hcounts
  exact Prod.mk.inj hcounts

theorem Holds.counts_listed (h : m.Holds depth lambdas v) (hz : m.zone = .listed) :
    v.depth = depth ∧ v.lambdas = if depth = 0 then lambdas + 1 else lambdas := by
  have hcounts := h.1
  rw [hz] at hcounts
  exact Prod.mk.inj hcounts

/-- Among parameters and between brackets something is open. -/
theorem Holds.not_closed (h : m.Holds depth lambdas v) (hz : m.zone = .listed ∨ m.zone = .inside) :
    ¬(v.depth = 0 && v.lambdas = 0) = true := by
  intro hclosed
  obtain ⟨hdepth, hlambdas⟩ : v.depth = 0 ∧ v.lambdas = 0 := by simpa using hclosed
  rcases hz with hz | hz
  · obtain ⟨hsame, hlisted⟩ := h.counts_listed hz
    rw [if_pos (hsame.symm.trans hdepth)] at hlisted
    omega
  · have := h.counts_inside hz
    omega

/-- A lexeme that opens and closes nothing. -/
theorem Holds.stay (h : m.Holds depth lambdas v) (k : LexemeKind) :
    (⟨m.zone.behind, !Nesting.joins k⟩ : Mode).Holds depth lambdas
      ⟨v.depth, v.lambdas, Nesting.joins k⟩ := by
  have hbehind : m.zone.behind.counts depth lambdas = m.zone.counts depth lambdas := by
    cases m.zone <;> rfl
  exact ⟨h.1.trans hbehind.symm, fun hjoins => by simpa using hjoins⟩

end Mode

/-- Lexemes of one line lead from one mode to another, whatever the level was at the start. -/
structure Passage (m m' : Mode) (used : List Lexeme) : Prop where
  walks : ∀ depth lambdas v, m.Holds depth lambdas v →
    ∃ w, v.walk? used = some w ∧ m'.Holds depth lambdas w
  spent_le : m'.zone.spent ≤ m.zone.spent + used.length
  owed_le : m.zone.owed ≤ used.length + m'.zone.owed
  inLine : ∀ t ∈ used, t.kind ≠ .lineEnd

namespace Passage
variable {m m' m'' : Mode} {a b : List Lexeme}

theorem refl (m : Mode) : Passage m m [] where
  walks := fun _ _ v hv => ⟨v, rfl, hv⟩
  spent_le := Nat.le_refl _
  owed_le := by simp
  inLine := nofun

theorem trans (h : Passage m m' a) (h' : Passage m' m'' b) : Passage m m'' (a ++ b) where
  walks := by
    intro depth lambdas v hv
    obtain ⟨u, hu, hmu⟩ := h.walks depth lambdas v hv
    obtain ⟨w, hw, hmw⟩ := h'.walks depth lambdas u hmu
    exact ⟨w, by rw [Nesting.walk?_append, hu]; exact hw, hmw⟩
  spent_le := by
    have := h.spent_le
    have := h'.spent_le
    rw [List.length_append]
    omega
  owed_le := by
    have := h.owed_le
    have := h'.owed_le
    rw [List.length_append]
    omega
  inLine := List.forall_mem_append.mpr ⟨h.inLine, h'.inLine⟩

/-- Less may be known of the last lexeme behind a passage. -/
theorem unclear (h : Passage m m' a) : Passage m ⟨m'.zone, false⟩ a where
  walks := by
    intro depth lambdas v hv
    obtain ⟨w, hw, hcounts, -⟩ := h.walks depth lambdas v hv
    exact ⟨w, hw, hcounts, nofun⟩
  spent_le := h.spent_le
  owed_le := h.owed_le
  inLine := h.inLine

/-- More may be known of the last lexeme before a passage. -/
theorem cleared {z : Zone} {c : Bool} (h : Passage ⟨z, false⟩ m' a) : Passage ⟨z, c⟩ m' a where
  walks := fun depth lambdas v hv => h.walks depth lambdas v ⟨hv.1, nofun⟩
  spent_le := h.spent_le
  owed_le := h.owed_le
  inLine := h.inLine

/-- A passage of a whole reader is one in every zone. -/
theorem lift {c c' : Bool} (h : Passage ⟨.start, c⟩ ⟨.begun, c'⟩ a) (z : Zone) :
    Passage ⟨z, c⟩ ⟨z.behind, c'⟩ a where
  walks := by
    intro depth lambdas v ⟨hcounts, hclear⟩
    obtain ⟨w, hw, hwcounts, hwclear⟩ := h.walks v.depth v.lambdas v ⟨rfl, hclear⟩
    refine ⟨w, hw, ?_, hwclear⟩
    have hsame : z.behind.counts depth lambdas = z.counts depth lambdas := by cases z <;> rfl
    exact hwcounts.trans (hcounts.trans hsame.symm)
  spent_le := by
    have : 1 ≤ 0 + a.length := h.spent_le
    cases z <;> simp only [Zone.behind, Zone.spent] <;> omega
  owed_le := by
    have hsame : z.behind.owed = z.owed := by cases z <;> rfl
    simp only [hsame]
    omega
  inLine := h.inLine

/-- The modes say of one lexeme what the levels do. -/
theorem exists_step? {k : LexemeKind} (h : m.after? k = some m') {depth lambdas : Nat} {v : Nesting}
    (hv : m.Holds depth lambdas v) : ∃ w, v.step? k = some w ∧ m'.Holds depth lambdas w := by
  cases k with
  | symbol s =>
    unfold Mode.after? at h
    unfold Nesting.step?
    dsimp only at h ⊢
    by_cases hopens : (closerOf? s).isSome
    · rw [if_pos hopens] at h ⊢
      by_cases hz : m.zone = .start ∨ m.zone = .begun
      · rw [if_pos (by simpa using hz)] at h
        obtain rfl := Option.some.inj h
        obtain ⟨rfl, rfl⟩ := hv.counts_plain hz
        exact ⟨_, rfl, rfl, fun _ => rfl⟩
      · rw [if_neg (by simpa using hz)] at h
        nomatch h
    rw [if_neg hopens] at h ⊢
    by_cases hcloses : isCloser s
    · rw [if_pos hcloses] at h ⊢
      by_cases hz : m.zone = .inside
      · rw [if_pos hz] at h
        obtain rfl := Option.some.inj h
        obtain ⟨hdepth, rfl⟩ := hv.counts_inside hz
        rw [hdepth]
        exact ⟨_, rfl, rfl, fun _ => rfl⟩
      · rw [if_neg hz] at h
        nomatch h
    rw [if_neg hcloses] at h ⊢
    by_cases hcomma : s = ","
    · rw [if_pos hcomma] at h ⊢
      by_cases hz : m.zone = .listed ∨ m.zone = .inside
      · rw [if_pos (by simpa using hz)] at h
        obtain rfl := Option.some.inj h
        rw [if_neg (hv.not_closed hz)]
        exact ⟨_, rfl, hv.stay _⟩
      · rw [if_neg (by simpa using hz)] at h
        nomatch h
    rw [if_neg hcomma] at h ⊢
    by_cases hcolon : s = ":"
    · rw [if_pos hcolon] at h ⊢
      refine ⟨_, rfl, ?_⟩
      cases hz : m.zone with
      | start =>
        rw [hz] at h
        nomatch h
      | begun =>
        rw [hz] at h
        nomatch h
      | listed =>
        rw [hz] at h
        obtain rfl := Option.some.inj h
        obtain ⟨rfl, hlambdas⟩ := hv.counts_listed hz
        refine ⟨?_, fun _ => rfl⟩
        by_cases hdepth : v.depth = 0 <;> simp [hlambdas, hdepth, Zone.counts]
      | inside =>
        rw [hz] at h
        obtain rfl := Option.some.inj h
        obtain ⟨hdepth, rfl⟩ := hv.counts_inside hz
        rw [hdepth]
        exact ⟨rfl, fun _ => rfl⟩
    rw [if_neg hcolon] at h ⊢
    by_cases hbind : s = ":="
    · rw [if_pos hbind] at h ⊢
      by_cases hz : m.zone = .inside
      · rw [if_pos hz] at h
        obtain rfl := Option.some.inj h
        have hdepth : v.depth ≠ 0 := by
          have := hv.counts_inside hz
          omega
        rw [if_neg hdepth]
        exact ⟨_, rfl, hv.stay _⟩
      · rw [if_neg hz] at h
        nomatch h
    rw [if_neg hbind] at h ⊢
    by_cases hequals : s = "="
    · rw [if_pos hequals] at h ⊢
      by_cases hz : m.clear = true ∧ (m.zone = .listed ∨ m.zone = .inside)
      · rw [if_pos (by simpa using hz)] at h
        obtain rfl := Option.some.inj h
        have hnone : ¬(v.joined || (v.depth = 0 && v.lambdas = 0)) = true := by
          rw [hv.2 hz.1, Bool.false_or]
          exact hv.not_closed hz.2
        rw [if_neg hnone]
        exact ⟨_, rfl, hv.stay _⟩
      · rw [if_neg (by simpa using hz)] at h
        nomatch h
    rw [if_neg hequals] at h ⊢
    obtain rfl := Option.some.inj h
    exact ⟨_, rfl, hv.stay _⟩
  | keyword word =>
    unfold Mode.after? at h
    unfold Nesting.step?
    dsimp only at h ⊢
    by_cases hlambda : word = "lambda"
    · rw [if_pos hlambda] at h ⊢
      by_cases hz : m.clear = true ∧ m.zone = .start
      · rw [if_pos (by simpa using hz)] at h
        obtain rfl := Option.some.inj h
        obtain ⟨rfl, rfl⟩ := hv.counts_plain (.inl hz.2)
        rw [if_neg (by simp [hv.2 hz.1])]
        exact ⟨_, rfl, rfl, nofun⟩
      · rw [if_neg (by simpa using hz)] at h
        nomatch h
    · rw [if_neg hlambda] at h ⊢
      obtain rfl := Option.some.inj h
      exact ⟨_, rfl, hv.stay _⟩
  | lineEnd => nomatch h
  | _ =>
    obtain rfl := Option.some.inj h
    exact ⟨_, rfl, hv.stay _⟩

theorem single {t : Lexeme} (h : m.after? t.kind = some m') : Passage m m' [t] where
  walks := fun depth lambdas v hv => by
    obtain ⟨w, hw, hholds⟩ := exists_step? h hv
    exact ⟨w, by rw [Nesting.walk?, List.foldlM_cons, hw]; rfl, hholds⟩
  spent_le := by cases m'.zone <;> simp [Zone.spent]
  owed_le := by cases m.zone <;> simp [Zone.owed]
  inLine := by
    refine List.forall_mem_singleton.mpr fun hline => ?_
    rw [hline] at h
    nomatch h

end Passage
end ViewTree.Embedded
