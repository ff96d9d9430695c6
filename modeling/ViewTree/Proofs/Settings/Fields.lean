import Mathlib.Data.List.Induction
import Mathlib.Data.List.Nodup
import ViewTree.Settings.Reading

/-!
Settings as tables of values. Main statement: the settings that a table describes hold, for each
entry, what its value stands for, and the default for every other key; and a table describes settings
exactly if each of its entries has a known key and a value of the right kind
(`Settings.ofEntries_eq_ok_iff`).
-/
namespace ViewTree
namespace Settings

def tableOf (entries : Entries) : Datum := .table (entries.map fun (k, v) => (k, .text v))

/-- What a field holds, by its key. -/
def value? (s : Settings) : String → Option Datum
  | "toolkit_module" => some (.text s.toolkitModule)
  | "toolkit_import" => some (s.toolkitImport.elim .null .text)
  | "switch_container" => some (.text s.switchContainer)
  | "transition_enum" => some (.text s.transitionEnum)
  | "default_child_method" => some (.text s.defaultChildMethod)
  | "container_methods" => some (tableOf s.containerMethods)
  | "sender_method" => some (.text s.senderMethod)
  | "tracker_method" => some (.text s.trackerMethod)
  | "binding_method" => some (.text s.bindingMethod)
  | "connect_method" => some (.text s.connectMethod)
  | "block_method" => some (.text s.blockMethod)
  | "unblock_method" => some (.text s.unblockMethod)
  | "add_page_method" => some (.text s.addPageMethod)
  | "get_page_method" => some (.text s.getPageMethod)
  | "set_page_method" => some (.text s.setPageMethod)
  | "set_page_full_method" => some (.text s.setPageFullMethod)
  | "transition_method" => some (.text s.transitionMethod)
  | "indent_width" => some (.whole s.indentWidth)
  | "emit_header" => some (.truth s.emitHeader)
  | "imports" => some (.list (s.imports.map .text))
  | _ => none

/-- What the field of a key holds for a value, if there is such a field and it can hold one. -/
def converted? (c : Conversions) (key : String) (d : Datum) : Option Datum :=
  match textField? key with
  | some _ => (c.text d).toOption.map .text
  | none =>
    match key with
    | "toolkit_import" => (c.textOrNone d).toOption.map fun text => text.elim .null .text
    | "container_methods" => (c.table [key] d).toOption.map tableOf
    | "indent_width" => (c.width d).toOption.map fun n : Nat => .whole n
    | "emit_header" => (c.truth d).toOption.map .truth
    | "imports" => (c.texts [key] d).toOption.map fun lines => .list (lines.map .text)
    | _ => none

/-- Storing a text under its key changes no other field. -/
theorem value?_of_textField {key : String} {store : Settings → String → Settings}
    (h : textField? key = some store) (s : Settings) (v : String) (other : String) :
    (store s v).value? other = if other = key then some (.text v) else s.value? other := by
  unfold textField? at h
  split at h
  case h_16 => nomatch h
  all_goals
    obtain rfl := Option.some.inj h
    unfold value?
    split <;> simp_all

/-- The second state has the value in the field of the key and is the first one otherwise. -/
structure Reading.Sets (key : String) (v : Datum) (r r' : Reading) : Prop where
  problems : r'.2 = r.2
  value : ∀ other, r'.1.value? other = if other = key then some v else r.1.value? other

theorem Reading.sets_of_ok {ε α : Type} {key : String} {v : Datum} {r r' : Reading}
    {found : Except ε α} (store : α → Settings) {put : α → Datum}
    (h : found.toOption.map put = some v) (hr : ∀ a, found = .ok a → r' = (store a, r.2))
    (hstore : ∀ a other,
      (store a).value? other = if other = key then some (put a) else r.1.value? other) :
    Sets key v r r' := by
  cases found with
  | error m => nomatch h
  | ok a =>
    obtain rfl := Option.some.inj h
    obtain rfl := hr a rfl
    exact ⟨rfl, hstore a⟩

section
variable {c : Conversions}

/-- An entry that converts sets its field and leaves the others. -/
theorem readEntry_of_converted {key : String} {d v : Datum} (h : converted? c key d = some v)
    (r : Reading) : r.Sets key v (readEntry c r key d) := by
  unfold converted? at h
  split at h
  · rename_i store hstore
    exact Reading.sets_of_ok _ h (fun a ha => by simp [readEntry, hstore, ha, Reading.note])
      (value?_of_textField hstore r.1)
  split at h
  case h_1 =>
    refine Reading.sets_of_ok (fun v => { r.1 with toolkitImport := v }) h
      (fun a ha => by simp [readEntry, textField?, ha, Reading.note]) fun t other => ?_
    unfold value?
    split <;> simp_all
  case h_2 =>
    refine Reading.sets_of_ok (fun v => { r.1 with containerMethods := v }) h
      (fun a ha => by simp [readEntry, textField?, ha, Reading.collect]) fun t other => ?_
    unfold value?
    split <;> simp_all
  case h_3 =>
    refine Reading.sets_of_ok (fun v => { r.1 with indentWidth := v }) h
      (fun a ha => by simp [readEntry, textField?, ha, Reading.note]) fun t other => ?_
    unfold value?
    split <;> simp_all
  case h_4 =>
    refine Reading.sets_of_ok (fun v => { r.1 with emitHeader := v }) h
      (fun a ha => by simp [readEntry, textField?, ha, Reading.note]) fun t other => ?_
    unfold value?
    split <;> simp_all
  case h_5 =>
    refine Reading.sets_of_ok (fun v => { r.1 with imports := v }) h
      (fun a ha => by simp [readEntry, textField?, ha, Reading.collect]) fun t other => ?_
    unfold value?
    split <;> simp_all
  case h_6 => cases h

theorem Conversions.Lawful.table_ne_error_nil (hc : c.Lawful) (path : List String) (d : Datum) :
    c.table path d ≠ .error [] := by
  unfold Conversions.table
  split
  · exact hc.entries_ne_error_nil path _
  · simp

theorem problems_of_converted (hc : c.Lawful) {key : String} {d : Datum}
    (h : converted? c key d = none) (r : Reading) :
    ∃ problems, problems ≠ [] ∧ (readEntry c r key d).2 = r.2 ++ problems := by
  have hof {ε α : Type} {found : Except ε α} {put : α → Datum} (h : found.toOption.map put = none) :
      ∃ m, found = .error m := by
    cases found with
    | error m => exact ⟨m, rfl⟩
    | ok a => exact absurd h (Option.some_ne_none _)
  unfold converted? at h
  split at h
  · rename_i store hstore
    obtain ⟨m, hm⟩ := hof h
    exact ⟨[⟨[key], m⟩], by simp, by simp [readEntry, hstore, hm, Reading.note]⟩
  rename_i hnone
  split at h
  case h_1 =>
    obtain ⟨m, hm⟩ := hof h
    exact ⟨[⟨["toolkit_import"], m⟩], by simp, by simp [readEntry, textField?, hm, Reading.note]⟩
  case h_2 =>
    obtain ⟨problems, hproblems⟩ := hof h
    exact ⟨problems, fun hnil => hc.table_ne_error_nil _ d (hnil ▸ hproblems),
      by simp [readEntry, textField?, hproblems, Reading.collect]⟩
  case h_3 =>
    obtain ⟨m, hm⟩ := hof h
    exact ⟨[⟨["indent_width"], m⟩], by simp, by simp [readEntry, textField?, hm, Reading.note]⟩
  case h_4 =>
    obtain ⟨m, hm⟩ := hof h
    exact ⟨[⟨["emit_header"], m⟩], by simp, by simp [readEntry, textField?, hm, Reading.note]⟩
  case h_5 =>
    obtain ⟨problems, hproblems⟩ := hof h
    exact ⟨problems, fun hnil => hc.texts_ne_error_nil _ d (hnil ▸ hproblems),
      by simp [readEntry, textField?, hproblems, Reading.collect]⟩
  case h_6 =>
    exact ⟨[⟨[key], .unknownKey⟩], by simp, by simp [readEntry, hnone]⟩

/-- Reading entries notes no problem exactly if all of them convert; then each field has the value
of its last entry. -/
theorem foldl_readEntry (hc : c.Lawful) (found : List (String × Datum)) (r : Reading) :
    ((found.foldl (fun r (key, d) => readEntry c r key d) r).2 = [] ↔
      r.2 = [] ∧ ∀ e ∈ found, (converted? c e.1 e.2).isSome) ∧
    ((∀ e ∈ found, (converted? c e.1 e.2).isSome) → ∀ key,
      (found.foldl (fun r (key, d) => readEntry c r key d) r).1.value? key =
        ((found.reverse.find? (·.1 = key)).bind fun e => converted? c e.1 e.2).or (r.1.value? key)) := by
  induction found using List.reverseRecOn with
  | nil => simp
  | append_singleton found e ih =>
    obtain ⟨hproblems, hvalue⟩ := ih
    obtain ⟨key, d⟩ := e
    rw [List.foldl_concat]
    simp only [List.forall_mem_append, List.forall_mem_singleton]
    generalize found.foldl (fun r (key, d) => readEntry c r key d) r = s at hproblems hvalue
    cases hconverted : converted? c key d with
    | none =>
      obtain ⟨problems, hne, hs⟩ := problems_of_converted hc hconverted s
      refine ⟨?_, fun h => nomatch h.2⟩
      simp [hs, hne]
    | some v =>
      obtain ⟨hsame, hset⟩ := readEntry_of_converted hconverted s
      refine ⟨by simp [hsame, hproblems], fun h other => ?_⟩
      rw [hset, hvalue h.1, List.reverse_concat, List.find?_cons]
      by_cases hkey : other = key
      · subst hkey
        simp [hconverted]
      · simp [hkey, Ne.symm hkey]

theorem tableOf_injective {a b : Entries} (h : tableOf a = tableOf b) : a = b := by
  refine List.map_injective_iff.mpr ?_ (Datum.table.inj h)
  rintro ⟨k, v⟩ ⟨k', v'⟩ hsame
  simpa using hsame

/-- Settings that hold the same in all fields are the same. -/
theorem ext_value? {s t : Settings} (h : ∀ key, s.value? key = t.value? key) : s = t := by
  have htext {a b : String} (h : some (Datum.text a) = some (Datum.text b)) : a = b := by
    simpa using h
  have himport : s.toolkitImport = t.toolkitImport := by
    have hsame : some _ = some _ := h "toolkit_import"
    generalize s.toolkitImport = a, t.toolkitImport = b at hsame
    cases a <;> cases b <;> simp_all
  have himports : s.imports = t.imports :=
    List.map_injective_iff.mpr (fun a b hab => Datum.text.inj hab)
      (Datum.list.inj (Option.some.inj (h "imports")))
  have hwidth : s.indentWidth = t.indentWidth :=
    Int.ofNat.inj (Datum.whole.inj (Option.some.inj (h "indent_width")))
  have hheader : s.emitHeader = t.emitHeader :=
    Datum.truth.inj (Option.some.inj (h "emit_header"))
  have hmethods : s.containerMethods = t.containerMethods :=
    tableOf_injective (Option.some.inj (h "container_methods"))
  cases s
  cases t
  rw [Settings.mk.injEq]
  exact ⟨htext (h "toolkit_module"), himport, htext (h "switch_container"),
    htext (h "transition_enum"), htext (h "default_child_method"), hmethods,
    htext (h "sender_method"), htext (h "tracker_method"), htext (h "binding_method"),
    htext (h "connect_method"), htext (h "block_method"), htext (h "unblock_method"),
    htext (h "add_page_method"), htext (h "get_page_method"), htext (h "set_page_method"),
    htext (h "set_page_full_method"), htext (h "transition_method"), hwidth, hheader, himports⟩

theorem ofEntries_ne_error_nil (found : List (String × Datum)) : ofEntries found c ≠ .error [] := by
  unfold ofEntries
  generalize found.foldl (fun r (key, d) => readEntry c r key d) ({}, []) = r
  obtain ⟨settings, problems⟩ := r
  cases problems <;> simp

/-- The settings hold, for each entry, what its value stands for, and the defaults otherwise. -/
structure IsDescribedBy (c : Conversions) (s : Settings) (found : List (String × Datum)) : Prop where
  given : ∀ e ∈ found, ∃ v, converted? c e.1 e.2 = some v ∧ s.value? e.1 = some v
  others : ∀ key, key ∉ found.map (·.1) → s.value? key = ({} : Settings).value? key

/-- A table describes settings exactly if all its keys are known and all its values can be converted,
and then describes one. -/
theorem ofEntries_eq_ok_iff (hc : c.Lawful) {found : List (String × Datum)}
    (hkeys : (found.map (·.1)).Nodup) {s : Settings} :
    ofEntries found c = .ok s ↔ s.IsDescribedBy c found := by
  obtain ⟨hproblems, hvalue⟩ := foldl_readEntry hc found ({}, [])
  have hlast {e : String × Datum} (he : e ∈ found) :
      found.reverse.find? (·.1 = e.1) = some e := by
    obtain ⟨e', he'⟩ : ∃ e', found.reverse.find? (·.1 = e.1) = some e' :=
      Option.isSome_iff_exists.mp (List.find?_isSome.mpr ⟨e, List.mem_reverse.mpr he, by simp⟩)
    have hkey : e'.1 = e.1 := by simpa using List.find?_some he'
    have hmem := List.mem_reverse.mp (List.mem_of_find?_eq_some he')
    rw [he', List.inj_on_of_nodup_map hkeys hmem he hkey]
  have hnone {key : String} (hkey : key ∉ found.map (·.1)) :
      found.reverse.find? (·.1 = key) = none := by
    refine List.find?_eq_none.mpr fun e he hsame => hkey ?_
    rw [decide_eq_true_eq] at hsame
    exact List.mem_map.mpr ⟨e, List.mem_reverse.mp he, hsame⟩
  have hresult : ofEntries found c = .ok s ↔
      (∀ e ∈ found, (converted? c e.1 e.2).isSome) ∧
        (found.foldl (fun r (key, d) => readEntry c r key d) ({}, [])).1 = s := by
    rw [← hproblems.trans (and_iff_right rfl), ofEntries]
    generalize found.foldl (fun r (key, d) => readEntry c r key d) ({}, []) = r
    obtain ⟨settings, problems⟩ := r
    cases problems <;> simp
  rw [hresult]
  constructor
  · rintro ⟨hall, rfl⟩
    refine ⟨fun e he => ?_, fun key hkey => ?_⟩
    · obtain ⟨v, hv⟩ := Option.isSome_iff_exists.mp (hall e he)
      exact ⟨v, hv, by rw [hvalue hall, hlast he, Option.bind_some, hv]; rfl⟩
    · rw [hvalue hall, hnone hkey]
      rfl
  · intro hs
    have hall : ∀ e ∈ found, (converted? c e.1 e.2).isSome := fun e he =>
      let ⟨_, hv, _⟩ := hs.given e he
      Option.isSome_of_eq_some hv
    refine ⟨hall, ext_value? fun key => ?_⟩
    rw [hvalue hall]
    by_cases hkey : key ∈ found.map (·.1)
    · obtain ⟨e, he, rfl⟩ := List.mem_map.mp hkey
      obtain ⟨v, hv, hheld⟩ := hs.given e he
      rw [hlast he, Option.bind_some, hv, hheld]
      rfl
    · rw [hnone hkey, hs.others key hkey]
      rfl

end

end Settings
end ViewTree
