import Mathlib.Data.List.Induction
import Mathlib.Tactic.Common
import ViewTree.Tracker

/-!
What a model knows after a run of requests. Main statement: a question for changes is answered by
the fields that were set since the last reset, whatever they were set to, and questions and resets
leave all values as they are (`Tracker.changed_run`).
-/
namespace ViewTree
namespace Tracker

variable {α : Type}

theorem held?_put (t : Tracker α) (name other : String) (held : Held α) :
    (t.put name held).held? other = if name = other then some held else t.held? other := by
  obtain ⟨fields⟩ := t
  unfold held? put
  dsimp only
  induction fields with
  | nil => by_cases hname : name = other <;> simp [putField, hname]
  | cons f more ih =>
    rw [putField]
    split
    · rename_i hf
      by_cases hname : name = other <;> simp [hf, hname]
    · rename_i hf
      rw [List.find?_cons, List.find?_cons]
      by_cases hother : f.1 = other
      · simp [hother, show name ≠ other from fun hname => hf (hother.trans hname.symm)]
      · simpa [hother] using ih

/-- No value stands where the names of changed fields belong. -/
def Unshadowed (t : Tracker α) : Prop := ∀ v, t.held? changesField ≠ some (.value v)

theorem held?_updateChanges {t : Tracker α} (h : t.Unshadowed) (update : List String → List String)
    (name : String) : (t.updateChanges update).held? name =
      if changesField = name then some (.names (update t.changes)) else t.held? name := by
  unfold updateChanges changes
  cases hheld : t.held? changesField with
  | none => exact held?_put ..
  | some held =>
    cases held with
    | names changed => exact held?_put ..
    | value v => exact absurd hheld (h v)

theorem changes_updateChanges {t : Tracker α} (h : t.Unshadowed)
    (update : List String → List String) :
    (t.updateChanges update).changes = update t.changes := by
  rw [changes, held?_updateChanges h, if_pos rfl]

theorem unshadowed_updateChanges {t : Tracker α} (h : t.Unshadowed)
    (update : List String → List String) : (t.updateChanges update).Unshadowed := by
  intro v
  rw [held?_updateChanges h, if_pos rfl]
  nofun

/-- The names of changed fields are no value, so that changing them changes none. -/
theorem get?_updateChanges {t : Tracker α} (h : t.Unshadowed) (update : List String → List String)
    (name : String) : (t.updateChanges update).get? name = t.get? name := by
  rw [get?, get?, held?_updateChanges h]
  by_cases hname : changesField = name
  · subst hname
    rw [if_pos rfl]
    cases hheld : t.held? changesField with
    | none => rfl
    | some held =>
      cases held with
      | names changed => rfl
      | value v => exact absurd hheld (h v)
  · rw [if_neg hname]

section Setting

variable {t : Tracker α} {name : String} (hname : name ≠ changesField) (v : α)
include hname

theorem changes_put : (t.put name (.value v)).changes = t.changes := by
  unfold changes
  rw [held?_put, if_neg hname]

variable (h : t.Unshadowed)
include h

theorem unshadowed_put : (t.put name (.value v)).Unshadowed := by
  intro w
  rw [held?_put, if_neg hname]
  exact h w

theorem unshadowed_set : (t.set name v).Unshadowed := by
  unfold set
  dsimp only
  split
  · exact unshadowed_put hname v h
  · exact unshadowed_updateChanges (unshadowed_put hname v h) _

theorem mem_changes_set {other : String} :
    other ∈ (t.set name v).changes ↔ other = name ∧ ¬isPrivate name ∨ other ∈ t.changes := by
  unfold set
  dsimp only
  split
  · rename_i hprivate
    simp [changes_put hname, hprivate]
  · rename_i hprivate
    rw [changes_updateChanges (unshadowed_put hname v h), changes_put hname, List.mem_insert_iff]
    simp [hprivate]

theorem get?_set (other : String) :
    (t.set name v).get? other = if name = other then some v else t.get? other := by
  have hput : (t.put name (.value v)).get? other = if name = other then some v else t.get? other := by
    rw [get?, get?, held?_put]
    by_cases hother : name = other <;> simp [hother, Held.value?]
  unfold set
  dsimp only
  split
  · exact hput
  · rw [get?_updateChanges (unshadowed_put hname v h), hput]

end Setting

/-- The field is set after the last reset. -/
def SetSinceReset (name : String) (requests : List (Request α)) : Prop :=
  ∃ before value after, requests = before ++ .set name value :: after ∧ .reset ∉ after

def LastSetTo (name : String) (value : α) (requests : List (Request α)) : Prop :=
  ∃ before after, requests = before ++ .set name value :: after ∧ ∀ other, .set name other ∉ after

/-- The request sets no field that has the name of the one for changed names. -/
def Request.IsPlain : Request α → Prop
  | .set name _ => name ≠ changesField
  | _ => True

/-- Where a list with one more element is split at an element, that is the last one, or the last one
is behind it. -/
theorem split_of_concat {β : Type} {xs before after : List β} {x last : β}
    (h : xs ++ [last] = before ++ x :: after) :
    (xs = before ∧ last = x ∧ after = []) ∨
      ∃ more, after = more ++ [last] ∧ xs = before ++ x :: more := by
  rcases List.eq_nil_or_concat after with rfl | ⟨more, y, rfl⟩
  · obtain ⟨hfront, hlast⟩ := List.append_inj' h rfl
    exact .inl ⟨hfront, List.head_eq_of_cons_eq hlast, rfl⟩
  · rw [List.concat_eq_append, ← List.cons_append, ← List.append_assoc] at h
    obtain ⟨hfront, hlast⟩ := List.append_inj' h rfl
    exact .inr ⟨more, by rw [List.concat_eq_append, hlast], hfront⟩

theorem setSinceReset_concat {name : String} {requests : List (Request α)} {r : Request α} :
    SetSinceReset name (requests ++ [r]) ↔
      (∃ value, r = .set name value) ∨ r ≠ .reset ∧ SetSinceReset name requests := by
  constructor
  · rintro ⟨before, value, after, heq, hafter⟩
    obtain ⟨-, hlast, -⟩ | ⟨more, rfl, hfront⟩ := split_of_concat heq
    · exact .inl ⟨value, hlast⟩
    · rw [List.mem_append, not_or, List.mem_singleton] at hafter
      exact .inr ⟨Ne.symm hafter.2, before, value, more, hfront, hafter.1⟩
  · rintro (⟨value, rfl⟩ | ⟨hr, before, value, after, rfl, hafter⟩)
    · exact ⟨requests, value, [], rfl, List.not_mem_nil⟩
    · refine ⟨before, value, after ++ [r], by simp, ?_⟩
      simpa using ⟨hafter, Ne.symm hr⟩

theorem lastSetTo_concat {name : String} {value : α} {requests : List (Request α)} {r : Request α} :
    LastSetTo name value (requests ++ [r]) ↔
      r = .set name value ∨ (∀ other, r ≠ .set name other) ∧ LastSetTo name value requests := by
  constructor
  · rintro ⟨before, after, heq, hafter⟩
    obtain ⟨-, hlast, -⟩ | ⟨more, rfl, hfront⟩ := split_of_concat heq
    · exact .inl hlast
    · simp only [List.mem_append, List.mem_singleton, not_or] at hafter
      exact .inr ⟨fun other => Ne.symm (hafter other).2, before, more, hfront,
        fun other => (hafter other).1⟩
  · rintro (rfl | ⟨hr, before, after, rfl, hafter⟩)
    · exact ⟨requests, [], rfl, fun _ => List.not_mem_nil⟩
    · refine ⟨before, after ++ [r], by simp, fun other => ?_⟩
      simpa using ⟨hafter other, Ne.symm (hr other)⟩

/-- The model knows what the requests say. -/
structure Reflects (t : Tracker α) (requests : List (Request α)) : Prop where
  unshadowed : t.Unshadowed
  changes : ∀ name, name ∈ t.changes ↔ ¬isPrivate name ∧ SetSinceReset name requests
  values : ∀ name value, t.get? name = some value ↔ LastSetTo name value requests

theorem Reflects.step {t : Tracker α} {requests : List (Request α)} (h : t.Reflects requests)
    {r : Request α} (hr : r.IsPlain) : (t.step r).Reflects (requests ++ [r]) := by
  cases r with
  | set name v =>
    have hname : name ≠ changesField := hr
    refine ⟨unshadowed_set hname v h.unshadowed, fun other => ?_, fun other w => ?_⟩
    · have hwritten : (∃ w, Request.set name v = .set other w) ↔ name = other := by simp
      rw [Tracker.step, mem_changes_set hname v h.unshadowed, h.changes, setSinceReset_concat,
        hwritten]
      constructor
      · rintro (⟨rfl, hprivate⟩ | ⟨hprivate, hset⟩)
        · exact ⟨hprivate, .inl rfl⟩
        · exact ⟨hprivate, .inr ⟨nofun, hset⟩⟩
      · rintro ⟨hprivate, rfl | ⟨-, hset⟩⟩
        · exact .inl ⟨rfl, hprivate⟩
        · exact .inr ⟨hprivate, hset⟩
    · rw [Tracker.step, get?_set hname v h.unshadowed, lastSetTo_concat, ← h.values]
      by_cases hsame : name = other <;> simp [hsame]
  | query names =>
    refine ⟨unshadowed_updateChanges h.unshadowed _, fun other => ?_, fun other w => ?_⟩
    · rw [Tracker.step, query, changes_updateChanges h.unshadowed, id, h.changes,
        setSinceReset_concat]
      simp
    · rw [Tracker.step, query, get?_updateChanges h.unshadowed, h.values, lastSetTo_concat]
      simp
  | reset =>
    refine ⟨unshadowed_updateChanges h.unshadowed _, fun other => ?_, fun other w => ?_⟩
    · rw [Tracker.step, reset, changes_updateChanges h.unshadowed, setSinceReset_concat]
      simp
    · rw [Tracker.step, reset, get?_updateChanges h.unshadowed, h.values, lastSetTo_concat]
      simp

theorem reflects_run {requests : List (Request α)} (h : ∀ r ∈ requests, r.IsPlain) :
    (run requests).Reflects requests := by
  induction requests using List.reverseRecOn with
  | nil =>
    refine ⟨fun v => nofun, fun name => ?_, fun name value => ?_⟩
    · simp [run, changes, held?, SetSinceReset]
    · simp [run, get?, held?, LastSetTo]
  | append_singleton requests r ih =>
    rw [run, List.foldl_append]
    exact (ih fun r hr => h r (List.mem_append_left _ hr)).step (h r (by simp))

theorem Reflects.changed_iff {t : Tracker α} {requests : List (Request α)} (h : t.Reflects requests)
    {names : List String} (hnames : names ≠ []) : t.changed names ↔
      ∃ name ∈ names, ¬isPrivate name ∧ SetSinceReset name requests := by
  rw [changed, if_neg (by simpa using hnames), List.any_eq_true]
  simp only [List.contains_iff_mem, h.changes]

theorem Reflects.changed_nil_iff {t : Tracker α} {requests : List (Request α)}
    (h : t.Reflects requests) :
    t.changed [] ↔ ∃ name, ¬isPrivate name ∧ SetSinceReset name requests := by
  simp only [← h.changes]
  cases hchanges : t.changes <;> simp [changed, hchanges]

/-- Nothing that can be asked tells the models apart. -/
def SameAnswers (t u : Tracker α) : Prop :=
  (∀ names, t.changed names = u.changed names) ∧ ∀ name, t.get? name = u.get? name

theorem Reflects.sameAnswers {t u : Tracker α} {first second : List (Request α)}
    (ht : t.Reflects first) (hu : u.Reflects second)
    (hset : ∀ name, SetSinceReset name first ↔ SetSinceReset name second)
    (hlast : ∀ name value, LastSetTo name value first ↔ LastSetTo name value second) :
    SameAnswers t u := by
  refine ⟨fun names => Bool.eq_iff_iff.mpr ?_, fun name => Option.ext fun value => ?_⟩
  · by_cases hnames : names = []
    · subst hnames
      rw [ht.changed_nil_iff, hu.changed_nil_iff]
      simp only [hset]
    · rw [ht.changed_iff hnames, hu.changed_iff hnames]
      simp only [hset]
  · rw [ht.values, hu.values, hlast]

section Question

variable {before after : List (Request α)} (names : List String)

theorem concat_after_query (r : Request α) : before ++ .query names :: (after ++ [r]) =
    (before ++ .query names :: after) ++ [r] := by simp

theorem setSinceReset_query {name : String} :
    SetSinceReset name (before ++ .query names :: after) ↔
      SetSinceReset name (before ++ after) := by
  induction after using List.reverseRecOn with
  | nil => simp [setSinceReset_concat]
  | append_singleton after r ih =>
    rw [concat_after_query, ← List.append_assoc before, setSinceReset_concat, setSinceReset_concat,
      ih]

theorem lastSetTo_query {name : String} {value : α} :
    LastSetTo name value (before ++ .query names :: after) ↔
      LastSetTo name value (before ++ after) := by
  induction after using List.reverseRecOn with
  | nil => simp [lastSetTo_concat]
  | append_singleton after r ih =>
    rw [concat_after_query, ← List.append_assoc before, lastSetTo_concat, lastSetTo_concat, ih]

end Question

/-- A question for changes is answered by the fields that were set since the last reset and are not
private, whatever they were set to. It makes no difference to later answers, and a reset leaves
every field at the value that it was last set to. -/
theorem changed_run {requests : List (Request α)} (h : ∀ r ∈ requests, r.IsPlain) :
    (∀ names ≠ [], (run requests).changed names ↔
      ∃ name ∈ names, ¬isPrivate name ∧ SetSinceReset name requests) ∧
    ((run requests).changed [] ↔ ∃ name, ¬isPrivate name ∧ SetSinceReset name requests) ∧
    (∀ name value, (run requests).get? name = some value ↔ LastSetTo name value requests) ∧
    (∀ names after, (∀ r ∈ after, r.IsPlain) →
      SameAnswers (run (requests ++ .query names :: after)) (run (requests ++ after))) ∧
    ∀ name, (run (requests ++ [.reset])).get? name = (run requests).get? name := by
  have hrun := reflects_run h
  refine ⟨fun names hnames => hrun.changed_iff hnames, hrun.changed_nil_iff, hrun.values,
    fun names after hafter => ?_, fun name => ?_⟩
  · have hasked : ∀ r ∈ requests ++ .query names :: after, r.IsPlain := by
      simpa [or_imp, forall_and, Request.IsPlain] using ⟨h, hafter⟩
    have hnot : ∀ r ∈ requests ++ after, r.IsPlain := by
      simpa [or_imp, forall_and] using ⟨h, hafter⟩
    exact (reflects_run hasked).sameAnswers (reflects_run hnot)
      (fun _ => setSinceReset_query names) fun _ _ => lastSetTo_query names
  · rw [run, List.foldl_append]
    exact get?_updateChanges hrun.unshadowed (fun _ => []) name

/-- A counter that is set, asked, reset and given the value that it has. -/
def counterRequests : List (Request Nat) :=
  [.query [], .set "value" 0, .set "_cache" 1, .reset, .query ["value"], .set "value" 0]

theorem changed_run_counter : (∀ r ∈ counterRequests, r.IsPlain) ∧
    (run counterRequests).changed ["step", "value"] ∧
    ¬(run (counterRequests ++ [.reset])).changed ["value"] ∧
    (run (counterRequests ++ [.reset])).get? "value" = some 0 := by
  have hplain : ∀ r ∈ counterRequests, r.IsPlain := by
    simp [counterRequests, Request.IsPlain, changesField]
  have hreset : ∀ r ∈ counterRequests ++ [.reset], r.IsPlain := by
    simpa [or_imp, forall_and, Request.IsPlain] using hplain
  obtain ⟨hchanged, -, -, -, hkept⟩ := changed_run hplain
  obtain ⟨hnone, -, hvalue, -, -⟩ := changed_run hreset
  refine ⟨hplain, (hchanged _ (by simp)).mpr ⟨"value", by simp, by decide, ?_⟩, fun hvalue => ?_,
    (hvalue _ _).mpr ⟨counterRequests.dropLast, [.reset], rfl, by simp⟩⟩
  · exact ⟨counterRequests.dropLast, 0, [], rfl, by simp⟩
  · obtain ⟨name, -, -, hset⟩ := (hnone _ (by simp)).mp hvalue
    rw [setSinceReset_concat] at hset
    simp at hset

end Tracker
end ViewTree
