import ViewTree.Proofs.Guards
import ViewTree.Proofs.UpdateScope

/-!
Conditions that are derived from values. A value reads a field of the model where an attribute of the
bare model name stands in it, at any depth, unless that attribute is called (`Term.Reads`). Main
statements: the fields of a value are these, each once (`Term.mem_fieldsOf_iff`); a property with
such a condition is applied again if the model says that one of them has changed, and the checks report
it exactly if there is none (`View.derives_conditions`). This holds of models in compatibility form, as
which embedded names are read; in another spelling a value seems to read nothing
(`View.reports_pressureView`).
-/
namespace ViewTree
namespace Embedded

/-- The values in a text with replacement fields, in formats too. -/
def Piece.values : List Piece → List Term
  | [] => []
  | .text _ :: more => Piece.values more
  | .field value _ none :: more => value :: Piece.values more
  | .field value _ (some spec) :: more => value :: (Piece.values spec ++ Piece.values more)

def Keyword.value : Keyword → Term
  | .mk _ value => value

def Entry.terms : Entry → List Term
  | .mk key value => key.toList ++ [value]

def Clause.terms : Clause → List Term
  | .mk _ target source conditions => target :: source :: conditions

namespace Form

/-- The terms right below a term, the function of a call apart. -/
def operands : Form → List Term
  | name _ | binder _ | literal _ => []
  | format pieces => Piece.values pieces
  | .attribute value _ | unary _ value | await value | yieldFrom value | starred value | named _ value =>
    [value]
  | subscript value index => [value, index]
  | call _ plain keywords => plain ++ keywords.map Keyword.value
  | binary _ left right => [left, right]
  | bool _ operands => operands
  | compare first _ others => first :: others
  | lambda params body => params.filterMap Param.default ++ [body]
  | choice test body other => [test, body, other]
  | tuple items | list items | set items => items
  | dict entries => entries.flatMap Entry.terms
  | listOf element clauses | setOf element clauses | generator element clauses =>
    element :: clauses.flatMap Clause.terms
  | dictOf key value clauses => key :: value :: clauses.flatMap Clause.terms
  | yield value => value.toList
  | slice lower upper step => lower.toList ++ upper.toList ++ step.toList

def function? : Form → Option Term
  | call function _ _ => some function
  | _ => none

def parts (f : Form) : List Occurrence :=
  (f.function?.toList.map fun t => ⟨t, true⟩) ++ f.operands.map fun t => ⟨t, false⟩

end Form

/-- The term stands somewhere in the whole, as the function of a call or not. -/
inductive Term.Has (whole : Term) : Occurrence → Prop
  | whole : Has whole ⟨whole, false⟩
  | part {o part : Occurrence} (h : Has whole o) (hpart : part ∈ o.term.form.parts) : Has whole part

section
open Term

theorem Term.allOccurrences_eq (ts : List Term) :
    allOccurrences ts = ts.flatMap (occurrences false) := by
  induction ts with
  | nil => rfl
  | cons t ts ih => rw [allOccurrences, List.flatMap_cons, ih]

theorem Term.optionOccurrences_eq (t : Option Term) :
    optionOccurrences t = t.toList.flatMap (occurrences false) := by
  cases t with
  | none => rfl
  | some t => exact (List.append_nil _).symm

theorem Piece.allOccurrences_eq (pieces : List Piece) :
    allOccurrences pieces = (values pieces).flatMap (occurrences false) := by
  fun_induction values pieces with
  | case1 => rfl
  | case2 codes more ih => rw [allOccurrences, ih]
  | case3 value conversion more ih => rw [allOccurrences, List.flatMap_cons, ih]
  | case4 value conversion spec more hspec hmore =>
    rw [allOccurrences, List.flatMap_cons, List.flatMap_append, hspec, hmore, List.append_assoc]

theorem Keyword.allOccurrences_eq (keywords : List Keyword) :
    allOccurrences keywords = (keywords.map value).flatMap (occurrences false) := by
  induction keywords with
  | nil => rfl
  | cons keyword more ih =>
    obtain ⟨name, value⟩ := keyword
    rw [allOccurrences, ih]
    rfl

theorem Param.allOccurrences_eq (params : List Param) :
    allOccurrences params = (params.filterMap default).flatMap (occurrences false) := by
  induction params with
  | nil => rfl
  | cons param more ih =>
    obtain ⟨kind, name, value⟩ := param
    rw [allOccurrences, ih, optionOccurrences_eq, ← List.flatMap_append, List.filterMap_cons]
    cases value <;> rfl

theorem Entry.allOccurrences_eq (entries : List Entry) :
    allOccurrences entries = (entries.flatMap terms).flatMap (occurrences false) := by
  induction entries with
  | nil => rfl
  | cons entry more ih =>
    obtain ⟨key, value⟩ := entry
    rw [allOccurrences, ih, optionOccurrences_eq, List.flatMap_cons, List.flatMap_append, terms,
      List.flatMap_append, List.flatMap_singleton]

theorem Clause.allOccurrences_eq (clauses : List Clause) :
    allOccurrences clauses = (clauses.flatMap terms).flatMap (occurrences false) := by
  induction clauses with
  | nil => rfl
  | cons clause more ih =>
    obtain ⟨isAsync, target, source, conditions⟩ := clause
    rw [allOccurrences, ih, Term.allOccurrences_eq, List.flatMap_cons, List.flatMap_append, terms,
      List.flatMap_cons, List.flatMap_cons, List.append_assoc (target.occurrences false)]

theorem Form.occurrences_eq (f : Form) :
    f.occurrences = f.parts.flatMap fun o => o.term.occurrences o.called := by
  have hparts : (f.parts.flatMap fun o => o.term.occurrences o.called) =
      f.function?.toList.flatMap (Term.occurrences true) ++ f.operands.flatMap (Term.occurrences false) := by
    rw [parts, List.flatMap_append, List.flatMap_map, List.flatMap_map]
  rw [hparts]
  cases f <;>
    simp only [Form.occurrences, function?, operands, Term.allOccurrences_eq, Term.optionOccurrences_eq,
      Piece.allOccurrences_eq, Keyword.allOccurrences_eq, Param.allOccurrences_eq,
      Entry.allOccurrences_eq, Clause.allOccurrences_eq, Option.toList_none, Option.toList_some,
      List.flatMap_nil, List.flatMap_cons, List.flatMap_append, List.nil_append, List.append_nil,
      List.append_assoc]

end

theorem Occurrence.occurrences_eq (o : Occurrence) :
    o.term.occurrences o.called = o :: o.term.form.parts.flatMap fun p => p.term.occurrences p.called := by
  obtain ⟨⟨start, stop, form⟩, called⟩ := o
  rw [Term.occurrences, Form.occurrences_eq]
  rfl

/-- What holds of a term if it holds of its parts holds of every term. -/
theorem Occurrence.induction {P : Occurrence → Prop} (h : ∀ o, (∀ p ∈ o.term.form.parts, P p) → P o)
    (o : Occurrence) : P o := by
  -- There are fewer terms in a part.
  induction hn : (o.term.occurrences o.called).length using Nat.strong_induction_on generalizing o with
  | _ n ih =>
    refine h o fun p hp => ih _ ?_ p rfl
    have hsub : (p.term.occurrences p.called).Sublist
        (o.term.form.parts.flatMap fun q => q.term.occurrences q.called) :=
      List.sublist_flatten_of_mem (List.mem_map_of_mem hp)
    rw [← hn, o.occurrences_eq, List.length_cons]
    exact Nat.lt_succ_of_le hsub.length_le

theorem Term.has_of_mem {whole : Term} {o : Occurrence} (h : whole.Has o) {p : Occurrence}
    (hp : p ∈ o.term.occurrences o.called) : whole.Has p := by
  induction o using Occurrence.induction with
  | h o ih =>
    rw [o.occurrences_eq] at hp
    obtain rfl | hp := List.mem_cons.mp hp
    · exact h
    · obtain ⟨q, hq, hp⟩ := List.mem_flatMap.mp hp
      exact ih q hq (h.part hq) hp

theorem Occurrence.part_mem {o p q : Occurrence} (hp : p ∈ o.term.occurrences o.called)
    (hq : q ∈ p.term.form.parts) : q ∈ o.term.occurrences o.called := by
  induction o using Occurrence.induction with
  | h o ih =>
    rw [o.occurrences_eq] at hp ⊢
    refine List.mem_cons_of_mem _ (List.mem_flatMap.mpr ?_)
    obtain rfl | hp := List.mem_cons.mp hp
    · exact ⟨q, hq, by rw [q.occurrences_eq]; exact List.mem_cons_self⟩
    · obtain ⟨r, hr, hp⟩ := List.mem_flatMap.mp hp
      exact ⟨r, hr, ih r hr hp⟩

/-- The list of all terms in a term is complete, and there is nothing else in it. -/
theorem Term.mem_occurrences_iff {t : Term} {o : Occurrence} : o ∈ t.occurrences false ↔ t.Has o := by
  constructor
  · exact has_of_mem (o := ⟨t, false⟩) .whole
  · intro h
    induction h with
    | whole =>
      have hself := Occurrence.occurrences_eq ⟨t, false⟩
      rw [hself]
      exact List.mem_cons_self
    | part _ hpart ih => exact Occurrence.part_mem (o := ⟨t, false⟩) ih hpart

section
variable {α : Type} [DecidableEq α]

theorem distinct_concat (xs : List α) (x : α) :
    distinct (xs ++ [x]) = if (distinct xs).contains x then distinct xs else distinct xs ++ [x] := by
  rw [distinct, List.foldl_append]
  rfl

theorem nodup_distinct (xs : List α) : (distinct xs).Nodup := by
  induction xs using List.reverseRecOn with
  | nil => exact List.nodup_nil
  | append_singleton xs x ih =>
    rw [distinct_concat]
    split
    · exact ih
    · next hnew =>
      have hnew : x ∉ distinct xs := fun h => hnew (List.contains_iff_mem.mpr h)
      simpa only [List.concat_eq_append] using ih.concat hnew

theorem mem_distinct {xs : List α} {a : α} : a ∈ distinct xs ↔ a ∈ xs := by
  induction xs using List.reverseRecOn with
  | nil => exact Iff.rfl
  | append_singleton xs x ih =>
    rw [distinct_concat, List.mem_append, List.mem_singleton]
    split
    · next hold =>
      have hold : x ∈ distinct xs := List.contains_iff_mem.mp hold
      refine ⟨fun h => .inl (ih.mp h), ?_⟩
      rintro (h | rfl)
      · exact ih.mpr h
      · exact hold
    · rw [List.mem_append, List.mem_singleton, ih]

end

namespace Term

theorem readName?_eq_some {t : Term} {id : String} :
    t.readName? = some id ↔ ∃ start stop, t = .mk start stop (.name id) := by
  constructor
  · intro h
    unfold readName? at h
    split at h
    · next start stop id' =>
      obtain rfl := Option.some.inj h
      exact ⟨start, stop, rfl⟩
    · cases h
  · rintro ⟨start, stop, rfl⟩
    rfl

theorem fieldOf?_eq_some {t : Term} {model field : String} {place : Nat} :
    t.fieldOf? model = some (place, field) ↔
      ∃ stop start' stop', t = .mk place stop (.attribute (.mk start' stop' (.name model)) field) := by
  constructor
  · intro h
    unfold fieldOf? at h
    split at h
    · next start stop value attr =>
      split at h
      · next hvalue =>
        obtain ⟨start', stop', rfl⟩ := readName?_eq_some.mp hvalue
        obtain ⟨rfl, rfl⟩ := Prod.mk.inj (Option.some.inj h)
        exact ⟨stop, start', stop', rfl⟩
      · cases h
    · cases h
  · rintro ⟨stop, start', stop', rfl⟩
    exact if_pos rfl

/-- The field is read: as an attribute of the bare name of the model, in whatever spelling, it stands
somewhere in the term and is not called. -/
def Reads (t : Term) (model field : String) : Prop :=
  ∃ start stop start' stop', t.Has
    ⟨.mk start stop (.attribute (.mk start' stop' (.name (Text.compatible model))) field), false⟩

theorem mem_fieldsOf_iff {t : Term} {model : String} (h : Text.compatible model = model) {field : String} :
    field ∈ t.fieldsOf model ↔ t.Reads model field := by
  rw [fieldsOf, mem_distinct, List.mem_map]
  unfold Reads
  rw [h]
  constructor
  · rintro ⟨⟨place, field⟩, hfound, rfl⟩
    rw [List.mem_mergeSort, List.mem_filterMap] at hfound
    obtain ⟨⟨term, called⟩, hmem, hfield⟩ := hfound
    cases called with
    | true => cases hfield
    | false =>
      obtain ⟨stop, start', stop', rfl⟩ := fieldOf?_eq_some.mp hfield
      exact ⟨place, stop, start', stop', mem_occurrences_iff.mp hmem⟩
  · rintro ⟨start, stop, start', stop', hhas⟩
    refine ⟨(start, field), ?_, rfl⟩
    rw [List.mem_mergeSort, List.mem_filterMap]
    exact ⟨_, mem_occurrences_iff.mpr hhas, fieldOf?_eq_some.mpr ⟨stop, start', stop', rfl⟩⟩

end Term
end Embedded
open Embedded

/-- Without any field there is no condition, and otherwise it asks about all of them. -/
theorem UpdateScope.trigger_derived (s : UpdateScope) (property : String) {m : Modifiers} (value : Expr)
    (hwatch : m.watch = false) (hderived : m.tracking = .derived) :
    s.trigger property m value =
      if (value.term.fieldsOf s.model).isEmpty then .error (.noPredicate property s.model)
      else .ok (some (.changed s.model (value.term.fieldsOf s.model))) := by
  have hpredicate : m.predicate? = none := by rw [Modifiers.predicate?, hderived]
  rw [trigger, if_neg (by simp [hwatch]), hpredicate]
  rfl

/-- Of a tracked view, the check reports a value without any field. -/
theorem View.trackingProblem?_derived {v : View} (htracked : v.tracked = true) {p : Property}
    (hwatch : p.modifiers.watch = false) (hderived : p.modifiers.tracking = .derived) :
    (Component.view v).trackingProblem? p =
      p.value?.bind fun value =>
        if (value.term.fieldsOf v.model).isEmpty then some (.noPredicate p.label v.model) else none := by
  have htracks : p.modifiers.tracks = true := by rw [Modifiers.tracks, hderived]
  have hrefreshes : p.modifiers.refreshes = true := by rw [Modifiers.refreshes, htracks, Bool.or_true]
  have hpredicate : p.modifiers.predicate? = none := by rw [Modifiers.predicate?, hderived]
  simp only [Component.trackingProblem?, hrefreshes, htracks, hwatch, htracked, hpredicate]
  cases p.value? <;> rfl

/-- In the update routine of a view that passes the checks, a property with such a condition stands under
the question for the fields of its value, and there are some. -/
theorem View.exists_refresh_of_derived {settings : Settings} {v : View}
    (h : ((Component.view v).check settings).errors = []) :
    ∃ updates, v.updateRoutine settings = .ok updates ∧
      ∀ owner p value, .widget owner ∈ (Component.view v).walk → p ∈ owner.properties →
        p.payload = .method value → p.modifiers.watch = false → p.modifiers.tracking = .derived →
        ∃ blocked a, p.application? owner.handle = some a ∧ value.term.fieldsOf v.model ≠ [] ∧
          Statement.refresh (some (.changed v.model (value.term.fieldsOf v.model))) blocked a ∈ updates := by
  obtain ⟨symbols, body, -, hroutine, hagain⟩ := exists_updateRoutine h
  refine ⟨_, hroutine, fun owner p value howner hp hpayload hwatch hderived => ?_⟩
  have hkind : p.kind = .method := by rw [Property.kind, hpayload]; rfl
  have hrefreshes : p.modifiers.refreshes = true := by
    simp [Modifiers.refreshes, Modifiers.tracks, hderived]
  obtain ⟨a, hstep, ha⟩ := exists_step_of_method howner hp hkind
  obtain ⟨t, ht, hstatement⟩ :=
    (exists_of_mem_forall₂ hagain).2 _ (List.mem_filter.mpr ⟨hstep, hrefreshes⟩)
  obtain ⟨trigger, blocked, htrigger, -, rfl⟩ := Step.again_apply_eq_ok hstatement
  obtain rfl : a.value = value :=
    Payload.method.inj ((payload_of_application? ha).symm.trans hpayload)
  rw [UpdateScope.trigger_derived _ _ _ hwatch hderived] at htrigger
  split at htrigger
  · cases htrigger
  · next hsome =>
    obtain rfl := Except.ok.inj htrigger
    refine ⟨blocked, a, ha, fun hempty => hsome (List.isEmpty_iff.mpr hempty), ?_⟩
    have hbody : body.isEmpty = false := List.isEmpty_eq_false_iff.mpr (List.ne_nil_of_mem ht)
    rw [hbody]
    exact List.mem_append_right _ ht

/-- What derived conditions of a view are, and when there is none. -/
structure View.DerivesConditions (settings : Settings) (v : View) : Prop where
  /-- The fields of a value are those that are read, each once. -/
  fields : ∀ t : Term, (t.fieldsOf v.model).Nodup ∧
    ∀ field, field ∈ t.fieldsOf v.model ↔ t.Reads v.model field
  /-- A property that passes the checks is applied again if the model says that one of the fields that
  its value reads has changed. -/
  emitted : ((Component.view v).check settings).errors = [] →
    ∃ updates, v.updateRoutine settings = .ok updates ∧
      ∀ owner p value, .widget owner ∈ (Component.view v).walk → p ∈ owner.properties →
        p.payload = .method value → p.modifiers.watch = false → p.modifiers.tracking = .derived →
        ∃ trigger blocked a fields, Statement.refresh (some trigger) blocked a ∈ updates ∧
          p.application? owner.handle = some a ∧
          trigger.code settings = v.model ++ "." ++ settings.trackerMethod ++ "(" ++
            ", ".intercalate (fields.map fun f => "\"" ++ f ++ "\"") ++ ")" ∧
          fields ≠ [] ∧ fields.Nodup ∧ ∀ field, field ∈ fields ↔ value.term.Reads v.model field
  /-- The check of a tracked view reports a value exactly if it gives no condition. -/
  reported : v.tracked = true → ∀ p value, p.value? = some value → p.modifiers.watch = false →
    p.modifiers.tracking = .derived → ∀ symbols,
      ((Component.view v).trackingProblem? p).isSome ↔
        ∃ problem, UpdateScope.trigger ⟨v.model, symbols⟩ p.name p.modifiers value = .error problem
  /-- Without a value there is nothing to report, and no condition is asked for. -/
  unasked : v.tracked = true → ∀ p, p.value? = none → p.modifiers.watch = false →
    p.modifiers.tracking = .derived →
      (Component.view v).trackingProblem? p = none ∧ ∀ target, p.application? target = none

namespace View

theorem derives_conditions (settings : Settings) (v : View) (h : Text.compatible v.model = v.model) :
    v.DerivesConditions settings := by
  have hfields (t : Term) : (t.fieldsOf v.model).Nodup ∧
      ∀ field, field ∈ t.fieldsOf v.model ↔ t.Reads v.model field :=
    ⟨nodup_distinct _, fun _ => Term.mem_fieldsOf_iff h⟩
  constructor
  case fields => exact hfields
  case emitted =>
    intro herrors
    obtain ⟨updates, hupdates, hall⟩ := exists_refresh_of_derived herrors
    refine ⟨updates, hupdates, fun owner p value howner hp hpayload hwatch hderived => ?_⟩
    obtain ⟨blocked, a, ha, hsome, hmem⟩ := hall owner p value howner hp hpayload hwatch hderived
    exact ⟨_, blocked, a, _, hmem, ha, rfl, hsome, hfields value.term⟩
  case reported =>
    intro htracked p value hvalue hwatch hderived symbols
    rw [trackingProblem?_derived htracked hwatch hderived, hvalue,
      UpdateScope.trigger_derived _ _ _ hwatch hderived]
    dsimp only [Option.bind_some]
    split
    · exact iff_of_true rfl ⟨_, rfl⟩
    · refine iff_of_false Bool.false_ne_true ?_
      rintro ⟨_, hproblem⟩
      cases hproblem
  case unasked =>
    intro htracked p hvalue hwatch hderived
    rw [trackingProblem?_derived htracked hwatch hderived, hvalue]
    refine ⟨rfl, fun target => Option.eq_none_iff_forall_ne_some.mpr fun a ha => ?_⟩
    rw [Property.value?, payload_of_application? ha] at hvalue
    cases hvalue

end View

/-- A view whose label reads a field in a function in a text, and calls a method. -/
def meterSource : String :=
  "view Meter(model, sender) tracked \x7b\n  Gtk.Label \x7b\n    #[track]\n" ++
    "    set_label: f\"\x7bmax(model.rows(lambda: model.low.high)):>8\x7d\",\n" ++
    "  \x7d,\n\x7d\n"

instance : Spelled meterSource := .append (.append .literal .literal) .literal

/-- The code of its update routine. -/
def meterCode : String :=
  "label_0 = widgets.label_0\nif model.changed(\"low\"):\n" ++
    "    label_0.set_label(f\"\x7bmax(model.rows(lambda: model.low.high)):>8\x7d\")"

theorem View.derives_conditions_meterSource : ∃ outcomes o v w, readSource? {} meterSource = some outcomes ∧
    o ∈ outcomes ∧ o.result = .ok (.view v) ∧ (Component.view v).assignNames {} = .view w ∧
      Text.compatible w.model = w.model ∧ ((Component.view w).check {}).errors = [] ∧
      w.DerivesConditions {} ∧ ∃ updates, w.updateRoutine {} = .ok updates ∧
        (statementsCode {} updates).render 4 0 = meterCode := by
  have hread : holdsView {} meterSource fun w =>
      Text.compatible w.model = w.model && ((Component.view w).check {}).errors.isEmpty &&
        (w.updateRoutine {}).toOption.any fun updates =>
          (statementsCode {} updates).render 4 0 = meterCode := by decide +kernel
  obtain ⟨outcomes, o, v, w, houtcomes, ho, hv, hw, htest⟩ := exists_of_holdsView hread
  obtain ⟨htest, hcode⟩ := Bool.and_eq_true_iff.mp htest
  obtain ⟨hmodel, herrors⟩ := Bool.and_eq_true_iff.mp htest
  have hmodel := of_decide_eq_true hmodel
  have hderives := View.derives_conditions {} w hmodel
  have herrors := List.isEmpty_iff.mp herrors
  obtain ⟨updates, hupdates, -⟩ := hderives.emitted herrors
  rw [hupdates] at hcode
  exact ⟨outcomes, o, v, w, houtcomes, ho, hv, hw, hmodel, herrors, hderives, updates, hupdates,
    of_decide_eq_true hcode⟩

/-- A label follows a field of the model. -/
def levelProperty (model : String) : Property :=
  ⟨"set_label", { tracking := .derived }, ⟨4, 9⟩, .method ⟨model ++ ".level", ⟨4, 20⟩,
    .mk 1 (model.length + 7)
      (.attribute (.mk 1 (model.length + 1) (.name (Text.compatible model))) "level")⟩⟩

def pressureView (model : String) : View :=
  ⟨"Pressure", model, [], true, ⟨.synthesized "label_0", .block "Gtk.Label", true, none, ⟨2, 5⟩,
    [levelProperty model]⟩, [], ⟨1, 1⟩⟩

/-- Where the model is not in compatibility form, its fields are not found, though the value reads one,
and the view is rejected. -/
theorem View.reports_of_compatible_ne (model : String) (h : Text.compatible model ≠ model) :
    ∃ value, (levelProperty model).value? = some value ∧ value.term.Reads model "level" ∧
      (Component.view (pressureView model)).checkTracking.errors =
        [⟨⟨4, 9⟩, .noPredicate (levelProperty model).label model⟩] := by
  refine ⟨_, rfl, ⟨_, _, _, _, .whole⟩, ?_⟩
  have hfields : Term.fieldsOf model (.mk 1 (model.length + 7)
      (.attribute (.mk 1 (model.length + 1) (.name (Text.compatible model))) "level")) = [] := by
    simp [Term.fieldsOf, Term.occurrences, Form.occurrences, Term.fieldOf?, Term.readName?, h, distinct]
  have hproblem : (Component.view (pressureView model)).trackingProblem? (levelProperty model) =
      some (.noPredicate (levelProperty model).label model) := by
    rw [trackingProblem?_derived rfl rfl rfl]
    show (if (Term.fieldsOf model _).isEmpty then _ else _) = _
    rw [hfields]
    rfl
  obtain ⟨visit, hvisits⟩ : ∃ visit, (Component.view (pressureView model)).propertyVisits =
      [(visit, levelProperty model)] := ⟨_, rfl⟩
  rw [Component.checkTracking]
  dsimp only
  rw [hvisits, List.filterMap_cons, hproblem]
  rfl

theorem View.reports_pressureView :
    ∃ value, (levelProperty "µ").value? = some value ∧ value.term.Reads "µ" "level" ∧
      (Component.view (pressureView "µ")).checkTracking.errors =
        [⟨⟨4, 9⟩, .noPredicate (levelProperty "µ").label "µ"⟩] :=
  reports_of_compatible_ne "µ" (by rw [Text.compatible_micro]; decide)

end ViewTree
