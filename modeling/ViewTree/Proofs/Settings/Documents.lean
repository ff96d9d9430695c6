import Mathlib.Data.List.Nodup
import ViewTree.Toml.Document

/-!
Tables of TOML documents. Main statement: no table of a document that is read has a key twice
(`Toml.Document.distinct_of_read`).
-/
namespace ViewTree

/-- No table in the value has a key twice. -/
inductive Datum.Distinct : Datum → Prop
  | scalar {d : Datum} (h : Toml.isClosed d = false) : Distinct d
  | list {items : List Datum} (h : ∀ d ∈ items, Distinct d) : Distinct (.list items)
  | table {entries : List (String × Datum)} (hkeys : (entries.map (·.1)).Nodup)
      (h : ∀ e ∈ entries, Distinct e.2) : Distinct (.table entries)

namespace Toml

/-- No key comes twice, in the table or in its values. -/
structure Table.Distinct (t : Table) : Prop where
  keys : (t.map (·.1)).Nodup
  values : ∀ e ∈ t, e.2.Distinct

namespace Table

variable {t t' : Table} {k : String} {d : Datum}

theorem distinct_nil : Distinct [] := ⟨List.nodup_nil, by simp⟩

theorem distinct_of_table (h : (Datum.table t).Distinct) : t.Distinct := by
  cases h with
  | scalar h => nomatch h
  | table hkeys h => exact ⟨hkeys, h⟩

theorem Distinct.table (h : t.Distinct) : (Datum.table t).Distinct := .table h.keys h.values

theorem items_of_list {items : List Datum} (h : (Datum.list items).Distinct) :
    ∀ d ∈ items, d.Distinct := by
  cases h with
  | scalar h => nomatch h
  | list h => exact h

theorem Distinct.of_find? (h : t.Distinct) (hfind : Datum.find? k t = some d) : d.Distinct := by
  obtain ⟨e, he, rfl⟩ := Option.map_eq_some_iff.mp hfind
  exact h.values e (List.mem_of_find?_eq_some he)

theorem notMem_of_find? (h : Datum.find? k t = none) : k ∉ t.map (·.1) := by
  intro hk
  obtain ⟨e, he, rfl⟩ := List.mem_map.mp hk
  have hnone := List.find?_eq_none.mp (Option.map_eq_none_iff.mp h) e he
  simp at hnone

theorem Distinct.concat (h : t.Distinct) (hk : k ∉ t.map (·.1)) (hd : d.Distinct) :
    Distinct (t ++ [(k, d)]) := by
  refine ⟨?_, List.forall_mem_append.mpr ⟨h.values, by simpa using hd⟩⟩
  rw [List.map_append, List.nodup_append]
  refine ⟨h.keys, List.nodup_singleton _, fun a ha b hb hab => ?_⟩
  obtain rfl := List.mem_singleton.mp hb
  exact hk (hab ▸ ha)

theorem Distinct.replace (h : t.Distinct) (hd : d.Distinct) : (replace k d t).Distinct := by
  have hkeys : (Table.replace k d t).map (·.1) = t.map (·.1) := by
    rw [Table.replace, List.map_map]
    refine List.map_congr_left fun e _ => ?_
    by_cases he : e.1 = k <;> simp [he]
  refine ⟨hkeys ▸ h.keys, fun e he => ?_⟩
  obtain ⟨old, hold, rfl⟩ := List.mem_map.mp he
  split
  · exact hd
  · exact h.values old hold

theorem distinct_add (hd : d.Distinct) (ht : t.Distinct) (h : Table.add k d t = some t') :
    t'.Distinct := by
  unfold Table.add at h
  split at h
  · cases h
  · rename_i hk
    obtain rfl := Option.some.inj h
    refine ht.concat (fun hmem => hk ?_) hd
    simpa [List.mem_map] using hmem

theorem distinct_addItem (ht : t.Distinct) (h : Table.addItem k t = some t') : t'.Distinct := by
  have hempty : (Datum.table []).Distinct := distinct_nil.table
  unfold Table.addItem at h
  split at h
  · rename_i hnone
    obtain rfl := Option.some.inj h
    exact ht.concat (notMem_of_find? hnone) (.list (by simpa using hempty))
  · rename_i items hitems
    obtain rfl := Option.some.inj h
    refine ht.replace (.list fun d hd => ?_)
    rcases List.mem_append.mp hd with hd | hd
    · exact items_of_list (ht.of_find? hitems) d hd
    · exact List.mem_singleton.mp hd ▸ hempty
  · cases h

/-- A change that keeps keys distinct does so at every path. -/
theorem distinct_modifyAt {last : Bool} {change : Table → Option Table}
    (hchange : ∀ t t', t.Distinct → change t = some t' → t'.Distinct) (path : Key)
    (ht : t.Distinct) (h : modifyAt last change path t = some t') : t'.Distinct := by
  induction path generalizing t t' with
  | nil => exact hchange t t' ht h
  | cons k path ih =>
    rw [modifyAt] at h
    split at h
    · rename_i hnone
      obtain ⟨inner, hinner, h⟩ := Option.bind_eq_some_iff.mp h
      obtain rfl := Option.some.inj h
      exact ht.concat (notMem_of_find? hnone) (ih distinct_nil hinner).table
    · rename_i found hfound
      obtain ⟨inner, hinner, h⟩ := Option.bind_eq_some_iff.mp h
      obtain rfl := Option.some.inj h
      exact ht.replace (ih (distinct_of_table (ht.of_find? hfound)) hinner).table
    · rename_i items hitems
      have hall := items_of_list (ht.of_find? hitems)
      split at h
      · rename_i found hlast
        obtain ⟨inner, hinner, h⟩ := Option.bind_eq_some_iff.mp h
        obtain rfl := Option.some.inj h
        have hfound := hall _ (List.mem_of_getLast? hlast)
        refine ht.replace (.list fun d hd => ?_)
        rcases List.mem_append.mp hd with hd | hd
        · exact hall d (List.dropLast_subset _ hd)
        · exact List.mem_singleton.mp hd ▸ (ih (distinct_of_table hfound) hinner).table
      · cases h
    · cases h

end Table

namespace Reader

variable {α β : Type} {P : α → Prop} {Q : β → Prop}

def Gives (P : α → Prop) (r : Reader α) : Prop := ∀ cs x, r.run cs = .ok x → P x.1

theorem gives_pure {a : α} (h : P a) : Gives P (pure a) := by
  rintro cs x ⟨⟩
  exact h

theorem Gives.bind {r : Reader α} {f : α → Reader β} (hr : Gives P r)
    (hf : ∀ a, P a → Gives Q (f a)) : Gives Q (r >>= f) := by
  intro cs x hx
  rw [StateT.run_bind] at hx
  cases hfirst : r.run cs with
  | error problem =>
    rw [hfirst] at hx
    nomatch hx
  | ok found =>
    rw [hfirst] at hx
    exact hf found.1 (hr cs found hfirst) found.2 x hx

theorem gives_true (r : Reader α) : Gives (fun _ => True) r := fun _ _ _ => trivial

theorem gives_bind {r : Reader α} {f : α → Reader β} (hf : ∀ a, Gives Q (f a)) :
    Gives Q (r >>= f) :=
  (gives_true r).bind fun a _ => hf a

theorem gives_throw {problem : Problem} : Gives P (throw problem) := fun _ _ hx => nomatch hx

theorem gives_fail : Gives P fail := gives_throw

theorem Gives.map {f : α → β} {r : Reader α} (hr : Gives P r) (hf : ∀ a, P a → Q (f a)) :
    Gives Q (f <$> r) := by
  rw [map_eq_pure_bind]
  exact hr.bind fun a ha => gives_pure (hf a ha)

theorem gives_repeating {step : α → Reader (Option α)} {s : α} (hs : P s)
    (hstep : ∀ s, P s → Gives (fun s' => ∀ s'' ∈ s', P s'') (step s)) :
    Gives P (repeating step s) := by
  refine gives_bind fun cs => ?_
  generalize cs.length + 2 = count
  induction count generalizing s with
  | zero => exact gives_fail
  | succ count ih =>
    refine (hstep s hs).bind fun s' hs' => ?_
    cases s' with
    | none => exact gives_pure hs
    | some s' => exact ih (hs' s' rfl)

/-- A step that ends its rounds. -/
theorem gives_done : Gives (fun s' : Option α => ∀ s'' ∈ s', P s'') (pure none) :=
  gives_pure (by simp)

/-- A step that goes on. -/
theorem gives_more {s : α} (h : P s) :
    Gives (fun s' : Option α => ∀ s'' ∈ s', P s'') (pure (some s)) :=
  gives_pure (by simpa using h)

theorem gives_scanned {scan : List Char → Option (α × List Char)}
    (h : ∀ cs x, scan cs = some x → P x.1) :
    Gives (fun found : Option α => ∀ a ∈ found, P a) (scanned scan) := by
  refine gives_bind fun cs => ?_
  split
  · rename_i found rest hscan
    exact gives_bind fun _ => gives_more (h cs _ hscan)
  · exact gives_done

end Reader
open Reader

theorem distinct_basedNumber {cs : List Char} {x : Datum × List Char}
    (h : basedNumber? cs = some x) : x.1.Distinct := by
  unfold basedNumber? at h
  dsimp only at h
  split at h <;> first
    | (obtain ⟨digits, -, rfl⟩ := Option.map_eq_some_iff.mp h; exact .scalar rfl)
    | cases h

theorem Decimal.distinct_value {d : Decimal} {value : Datum} (h : d.value = .ok value) :
    value.Distinct := by
  unfold Decimal.value at h
  split at h
  · split at h
    · cases h
    · obtain rfl := Except.ok.inj h
      exact .scalar rfl
  · obtain rfl := Except.ok.inj h
    exact .scalar rfl

theorem gives_numberWord : Gives (fun found => ∀ d ∈ found, d.Distinct) numberWord? := by
  unfold numberWord?
  repeat' first
    | exact gives_done
    | exact gives_more (.scalar rfl)
    | refine gives_bind fun _ => ?_
    | split

theorem gives_measure : Gives Datum.Distinct measure := by
  unfold measure
  refine gives_bind fun day => ?_
  split
  · split
    · exact gives_pure (.scalar rfl)
    · exact gives_fail
  refine gives_bind fun time => ?_
  split
  · exact gives_pure (.scalar rfl)
  refine (gives_scanned fun _ _ => distinct_basedNumber).bind fun based hbased => ?_
  split
  · rename_i n
    exact gives_pure (hbased n rfl)
  refine gives_bind fun decimal => ?_
  split
  · split
    · rename_i value hvalue
      exact gives_pure (Decimal.distinct_value hvalue)
    · exact gives_throw
  refine gives_numberWord.bind fun word hword => ?_
  split
  · rename_i n
    exact gives_pure (hword n rfl)
  · exact gives_fail

theorem gives_items {value : Reader Datum} (hvalue : Gives Datum.Distinct value) :
    Gives (fun found => ∀ d ∈ found, d.Distinct) (items value) := by
  refine gives_bind fun _ => (gives_repeating (P := fun found => ∀ d ∈ found, d.Distinct)
    (by simp) fun found hfound => ?_).bind fun found hfound => gives_pure (by simpa using hfound)
  refine gives_bind fun closed => ?_
  split
  · exact gives_done
  refine hvalue.bind fun item hitem => gives_bind fun _ => gives_bind fun comma => ?_
  have hall : ∀ d ∈ item :: found, d.Distinct := List.forall_mem_cons.mpr ⟨hitem, hfound⟩
  split
  · exact gives_bind fun _ => gives_more hall
  refine gives_bind fun cs => ?_
  split
  · exact gives_bind fun _ => gives_more hall
  · exact gives_more hall

theorem gives_pair {value : Reader Datum} (hvalue : Gives Datum.Distinct value) :
    Gives (fun pair => pair.2.Distinct) (pair value) :=
  gives_bind fun _ => gives_bind fun _ => gives_bind fun _ => hvalue.bind fun _ hd => gives_pure hd

theorem InlineTable.distinct_add {t : InlineTable} {k : Key} {d : Datum} {entries : Table}
    (ht : t.entries.Distinct) (hd : d.Distinct) (h : t.add? k d = some entries) :
    entries.Distinct := by
  unfold InlineTable.add? at h
  dsimp only at h
  split at h
  · cases h
  · exact Table.distinct_modifyAt (fun _ _ => Table.distinct_add hd) _ ht h

theorem gives_entries {value : Reader Datum} (hvalue : Gives Datum.Distinct value) :
    Gives Table.Distinct (entries value) := by
  refine gives_bind fun _ => gives_bind fun closed => ?_
  split
  · exact gives_pure Table.distinct_nil
  refine (gives_repeating (P := fun t : InlineTable => t.entries.Distinct) Table.distinct_nil
    fun t ht => ?_).bind fun t ht => gives_pure ht
  split
  · exact gives_done
  refine (gives_pair hvalue).bind fun (k, d) hd => ?_
  dsimp only
  split
  · exact gives_fail
  rename_i added hadded
  have hentries := InlineTable.distinct_add ht hd hadded
  refine gives_bind fun _ => gives_bind fun closed => ?_
  split
  · exact gives_bind fun _ => gives_bind fun _ => gives_more hentries
  · exact gives_more hentries

theorem Reader.Gives.within {α : Type} {P : α → Prop} {found : Reader α} (h : Gives P found)
    (calls room : Nat) : Gives P (Toml.within calls room found) := by
  unfold Toml.within
  split
  · exact gives_throw
  · exact h

theorem gives_value (depth room : Nat) : Gives Datum.Distinct (value depth room) := by
  induction depth generalizing room with
  | zero => exact gives_fail
  | succ depth ih =>
    refine gives_bind fun text => ?_
    split
    · exact gives_pure (.scalar rfl)
    refine gives_bind fun isTrue => ?_
    split
    · exact gives_pure (.scalar rfl)
    refine gives_bind fun isFalse => ?_
    split
    · exact gives_pure (.scalar rfl)
    refine gives_bind fun isList => ?_
    split
    · exact ((gives_items (ih _)).within _ _).map fun _ hfound => .list hfound
    refine gives_bind fun isTable => ?_
    split
    · exact ((gives_entries (ih _)).within _ _).map fun _ hfound => hfound.table
    · exact gives_measure

namespace Document

variable {d d' : Document} {room : Nat}

theorem distinct_assign {k : Key} {value : Datum} (hd : d.root.Distinct) (hvalue : value.Distinct)
    (h : d.assign k value = some d') : d'.root.Distinct := by
  unfold assign at h
  dsimp only at h
  split at h
  · cases h
  · obtain ⟨root, hroot, h⟩ := Option.bind_eq_some_iff.mp h
    obtain rfl := Option.some.inj h
    exact Table.distinct_modifyAt (fun _ _ => Table.distinct_add hvalue) _ hd hroot

theorem distinct_openTable {k : Key} (hd : d.root.Distinct) (h : d.openTable k = some d') :
    d'.root.Distinct := by
  unfold openTable at h
  split at h
  · cases h
  · obtain ⟨root, hroot, h⟩ := Option.bind_eq_some_iff.mp h
    obtain rfl := Option.some.inj h
    refine Table.distinct_modifyAt (fun t t' ht hsame => ?_) _ hd hroot
    exact Option.some.inj hsame ▸ ht

theorem distinct_openItem {k : Key} (hd : d.root.Distinct) (h : d.openItem k = some d') :
    d'.root.Distinct := by
  unfold openItem at h
  dsimp only at h
  split at h
  · cases h
  · obtain ⟨root, hroot, h⟩ := Option.bind_eq_some_iff.mp h
    obtain rfl := Option.some.inj h
    exact Table.distinct_modifyAt (fun _ _ => Table.distinct_addItem) _ hd hroot

theorem gives_orFail {P : Document → Prop} {found : Option Document}
    (h : ∀ d, found = some d → P d) : Gives P (orFail found) := by
  cases found with
  | none => exact gives_fail
  | some d => exact gives_pure (h d rfl)

theorem gives_readHeader (hd : d.root.Distinct) : Gives (·.root.Distinct) d.readHeader := by
  have hmarked : d.markPending.root.Distinct := hd
  refine gives_bind fun isItem => ?_
  have hopen (k : Key) : Gives (·.root.Distinct)
      (orFail (if isItem then d.markPending.openItem k else d.markPending.openTable k)) := by
    refine gives_orFail fun d' hd' => ?_
    split at hd'
    · exact distinct_openItem hmarked hd'
    · exact distinct_openTable hmarked hd'
  have hrest : Gives (·.root.Distinct) (do
      skip isGap
      let k ← key
      let d ← orFail (if isItem then d.markPending.openItem k else d.markPending.openTable k)
      require (if isItem then "]]" else "]")
      pure d) :=
    gives_bind fun _ => gives_bind fun k => (hopen k).bind fun _ hd' =>
      gives_bind fun _ => gives_pure hd'
  cases isItem
  · exact gives_bind fun _ => hrest
  · exact hrest

theorem gives_readStatement (hd : d.root.Distinct) : Gives (·.root.Distinct) (d.readStatement room) := by
  refine gives_bind fun cs => ?_
  split
  · exact gives_readHeader hd
  · exact gives_pure hd
  · refine gives_bind fun rest => (gives_pair (gives_value _ _)).bind fun (k, value) hvalue => ?_
    exact gives_orFail fun d' => distinct_assign hd hvalue
  · exact gives_pure hd

theorem gives_readLine (hd : d.root.Distinct) :
    Gives (fun found => ∀ d' ∈ found, d'.root.Distinct) (d.readLine room) := by
  refine gives_bind fun _ => gives_bind fun cs => ?_
  split
  · exact gives_done
  refine gives_bind fun lineEnd => ?_
  split
  · exact gives_more hd
  refine (gives_readStatement hd).bind fun d' hd' => ?_
  refine gives_bind fun _ => gives_bind fun _ => gives_bind fun rest => ?_
  split
  · exact gives_bind fun _ => gives_more hd'
  · exact gives_more hd'

/-- No table of a document that is read has a key twice. -/
theorem distinct_of_read {text : String} {root : Table} (h : read text room = .ok root) :
    root.Distinct := by
  unfold read at h
  split at h
  · rename_i d rest hd
    obtain rfl := Except.ok.inj h
    exact gives_repeating (P := fun d : Document => d.root.Distinct) Table.distinct_nil
      (fun d hd => gives_readLine hd) _ _ hd
  · cases h

end Document
end Toml
end ViewTree
