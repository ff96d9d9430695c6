import Mathlib.Data.List.Nodup
import ViewTree.Check.Component
import ViewTree.Proofs.Nodes

/-!
The table of names of a component. Main statements: a table holds the nodes and guards of the
component in order, and no name twice (`Component.symbols_eq_ok`); where
collecting names reports nothing, building the table gives the same one
(`Component.symbols_of_collectSymbols`).
-/
namespace ViewTree

namespace Symbols

def names (t : Symbols) : List String := t.nodes.map (·.name) ++ t.guards.map (·.name)

theorem isSome_node?_iff {t : Symbols} {name : String} :
    (t.node? name).isSome ↔ name ∈ t.nodes.map (·.name) := by
  simp [node?, List.find?_isSome, List.mem_map]

theorem isSome_guard?_iff {t : Symbols} {name : String} :
    (t.guard? name).isSome ↔ name ∈ t.guards.map (·.name) := by
  simp [guard?, List.find?_isSome, List.mem_map]

theorem addNode_eq_ok_iff {t t' : Symbols} {e : NodeEntry} :
    t.addNode e = .ok t' ↔ e.name ∉ t.names ∧ t' = { t with nodes := t.nodes ++ [e] } := by
  have h : ((t.node? e.name).isSome || (t.guard? e.name).isSome) = true ↔ e.name ∈ t.names := by
    rw [Bool.or_eq_true, isSome_node?_iff, isSome_guard?_iff, names, List.mem_append]
  unfold addNode
  split
  · rename_i hin
    simp [h.mp hin]
  · rename_i hout
    have hfresh : e.name ∉ t.names := fun hin => hout (h.mpr hin)
    simp [hfresh, eq_comm]

theorem addNode_eq_error {t : Symbols} {e : NodeEntry} (h : e.name ∈ t.names) :
    t.addNode e = .error (.duplicateName e.name) := by
  unfold addNode
  rw [if_pos]
  rwa [Bool.or_eq_true, isSome_node?_iff, isSome_guard?_iff, ← List.mem_append]

theorem addGuard_eq_ok_iff {t t' : Symbols} {e : GuardEntry} :
    t.addGuard e = .ok t' ↔ e.name ∉ t.names ∧ t' = { t with guards := t.guards ++ [e] } := by
  have hnames : e.name ∈ t.names ↔ (t.node? e.name).isSome ∨ (t.guard? e.name).isSome := by
    rw [isSome_node?_iff, isSome_guard?_iff, names, List.mem_append]
  unfold addGuard
  split
  · rename_i other hother
    simp [hnames, hother]
  · rename_i hnone
    by_cases hnode : (t.node? e.name).isSome
    · simp [hnames, hnode]
    · simp [hnames, hnode, hnone, eq_comm]

theorem addGuard_eq_error {t : Symbols} {e : GuardEntry} (h : e.name ∈ t.names) :
    t.addGuard e = .error (match t.guard? e.name with
      | some other => .duplicateGuard e.name other.owner
      | none => .guardNamedAsNode e.name) := by
  unfold addGuard
  cases hguard : t.guard? e.name with
  | some other => rfl
  | none =>
    have hnode : (t.node? e.name).isSome := by
      rw [names, List.mem_append, ← isSome_node?_iff, ← isSome_guard?_iff, hguard] at h
      simpa using h
    dsimp only
    rw [if_pos hnode]

theorem names_addNode {t t' : Symbols} {e : NodeEntry} (h : t.addNode e = .ok t')
    (ht : t.names.Nodup) : t'.names.Nodup := by
  obtain ⟨hfresh, rfl⟩ := addNode_eq_ok_iff.mp h
  have hperm : List.Perm (names { t with nodes := t.nodes ++ [e] }) (e.name :: t.names) := by
    simp only [names, List.map_append, List.map_cons, List.map_nil, List.append_assoc]
    exact List.perm_middle
  exact hperm.nodup_iff.mpr (List.nodup_cons.mpr ⟨hfresh, ht⟩)

theorem names_addGuard {t t' : Symbols} {e : GuardEntry} (h : t.addGuard e = .ok t')
    (ht : t.names.Nodup) : t'.names.Nodup := by
  obtain ⟨hfresh, rfl⟩ := addGuard_eq_ok_iff.mp h
  have hperm : List.Perm (names { t with guards := t.guards ++ [e] }) (e.name :: t.names) := by
    simp only [names, List.map_append, List.map_cons, List.map_nil, ← List.append_assoc]
    exact List.perm_append_comm
  exact hperm.nodup_iff.mpr (List.nodup_cons.mpr ⟨hfresh, ht⟩)

theorem foldlM_addNode {es : List NodeEntry} {t t' : Symbols}
    (h : es.foldlM addNode t = .ok t') (ht : t.names.Nodup) :
    t' = { t with nodes := t.nodes ++ es } ∧ t'.names.Nodup := by
  induction es generalizing t with
  | nil =>
    obtain rfl : t = t' := by simpa [pure, Except.pure] using h
    simpa using ht
  | cons e es ih =>
    rw [List.foldlM_cons] at h
    cases hadd : t.addNode e with
    | error problem => simp [hadd, bind, Except.bind] at h
    | ok t₁ =>
      simp only [hadd, bind, Except.bind] at h
      obtain ⟨hshape, hnodup⟩ := ih h (names_addNode hadd ht)
      obtain ⟨-, rfl⟩ := addNode_eq_ok_iff.mp hadd
      exact ⟨by simp [hshape], hnodup⟩

theorem foldlM_addGuard {es : List GuardEntry} {t t' : Symbols}
    (h : es.foldlM addGuard t = .ok t') (ht : t.names.Nodup) :
    t' = { t with guards := t.guards ++ es } ∧ t'.names.Nodup := by
  induction es generalizing t with
  | nil =>
    obtain rfl : t = t' := by simpa [pure, Except.pure] using h
    simpa using ht
  | cons e es ih =>
    rw [List.foldlM_cons] at h
    cases hadd : t.addGuard e with
    | error problem => simp [hadd, bind, Except.bind] at h
    | ok t₁ =>
      simp only [hadd, bind, Except.bind] at h
      obtain ⟨hshape, hnodup⟩ := ih h (names_addGuard hadd ht)
      obtain ⟨-, rfl⟩ := addGuard_eq_ok_iff.mp hadd
      exact ⟨by simp [hshape], hnodup⟩

end Symbols

namespace Component

/-- A table holds the nodes and the guards in the order of the component, no name twice. -/
theorem symbols_eq_ok {c : Component} {t : Symbols} (h : c.symbols = .ok t) :
    t = ⟨c.nodeEntries, c.guardEntries⟩ ∧ t.names.Nodup := by
  unfold symbols at h
  cases hnodes : c.nodeEntries.foldlM Symbols.addNode {} with
  | error problem => simp [hnodes, bind, Except.bind] at h
  | ok t₁ =>
    simp only [hnodes, bind, Except.bind] at h
    obtain ⟨hshape₁, hnodup₁⟩ := Symbols.foldlM_addNode hnodes (by simp [Symbols.names])
    obtain ⟨hshape, hnodup⟩ := Symbols.foldlM_addGuard h hnodup₁
    exact ⟨by simp [hshape, hshape₁], hnodup⟩

theorem text_of_isSome_name? {n : Node} (h : n.name?.isSome) : n.name? = some n.nodeName.text := by
  obtain ⟨name, hname⟩ := Option.isSome_iff_exists.mp h
  rw [hname, NodeName.text]
  exact congrArg (fun name => some (name.getD "None")) hname.symm

theorem names_nodeEntries {c : Component} (h : ∀ n ∈ c.walk, n.name?.isSome) :
    c.nodeEntries.map (·.name) = c.walk.map (·.nodeName.text) := by
  have hentry (v : Visit) (hv : v ∈ c.visits) :
      (v.entry?.map (·.name)) = some v.node.nodeName.text := by
    simp [Visit.entry?, text_of_isSome_name? (h v.node (node_mem_walk hv))]
  rw [nodeEntries, List.map_filterMap, ← c.map_node_visits, List.map_map, ← List.filterMap_eq_map]
  exact List.filterMap_congr hentry

theorem names_guardEntries {c : Component} (h : ∀ n ∈ c.walk, n.name?.isSome) :
    c.guardEntries.map (·.name) = c.propertyVisits.filterMap fun (_, p) => p.guard? := by
  rw [guardEntries, List.map_filterMap]
  refine List.filterMap_congr fun (v, p) hp => ?_
  have hname := text_of_isSome_name? (h v.node (node_mem_walk (mem_propertyVisits.mp hp).1))
  cases hguard : p.guard? <;> simp [Visit.guardEntry?, hguard, hname]

theorem collectNode_errors {component : String} {t : Collection} {v : Visit}
    (h : (collectNode component t v).errors = []) :
    t.errors = [] ∧ ∃ e, v.entry? = some e ∧
      t.symbols.addNode e = .ok (collectNode component t v).symbols := by
  unfold collectNode at h ⊢
  split
  · simp_all
  · rename_i e he
    simp only [he] at h ⊢
    split
    · rename_i symbols hadd
      simp only [hadd] at h
      exact ⟨h, e, rfl, hadd⟩
    · rename_i problem hadd
      simp [hadd] at h

theorem collectGuard_errors {component : String} {t : Collection} {v : Visit} {p : Property}
    (h : (collectGuard component t v p).errors = []) :
    t.errors = [] ∧ (v.guardEntry? p).toList.foldlM Symbols.addGuard t.symbols =
      .ok (collectGuard component t v p).symbols := by
  unfold collectGuard at h ⊢
  split
  · rename_i hnone
    rw [hnone] at h
    exact ⟨h, by rw [hnone]; rfl⟩
  · rename_i e he
    simp only [he] at h ⊢
    split
    · rename_i symbols hadd
      simp only [hadd] at h
      refine ⟨h, ?_⟩
      simp [hadd, bind, Except.bind, pure, Except.pure]
    · rename_i problem hadd
      simp [hadd] at h

theorem foldl_collectNode {component : String} {vs : List Visit} {t : Collection}
    (h : (vs.foldl (collectNode component) t).errors = []) :
    t.errors = [] ∧ (vs.filterMap Visit.entry?).foldlM Symbols.addNode t.symbols =
      .ok (vs.foldl (collectNode component) t).symbols := by
  induction vs generalizing t with
  | nil => exact ⟨h, rfl⟩
  | cons v vs ih =>
    obtain ⟨herrors, hrest⟩ := ih h
    obtain ⟨ht, e, he, hadd⟩ := collectNode_errors herrors
    refine ⟨ht, ?_⟩
    rw [List.filterMap_cons_some he, List.foldlM_cons, hadd]
    exact hrest

theorem foldl_collectGuard {component : String} {vs : List (Visit × Property)} {t : Collection}
    (h : (vs.foldl (fun t (v, p) => collectGuard component t v p) t).errors = []) :
    t.errors = [] ∧
      (vs.filterMap fun (v, p) => v.guardEntry? p).foldlM Symbols.addGuard t.symbols =
        .ok (vs.foldl (fun t (v, p) => collectGuard component t v p) t).symbols := by
  induction vs generalizing t with
  | nil => exact ⟨h, rfl⟩
  | cons entry vs ih =>
    obtain ⟨v, p⟩ := entry
    obtain ⟨herrors, hrest⟩ := ih h
    obtain ⟨ht, hadd⟩ := collectGuard_errors herrors
    refine ⟨ht, ?_⟩
    have hsplit : (((v, p) :: vs).filterMap fun (v, p) => v.guardEntry? p) =
        (v.guardEntry? p).toList ++ vs.filterMap fun (v, p) => v.guardEntry? p := by
      cases hentry : v.guardEntry? p <;> simp [hentry]
    rw [hsplit, List.foldlM_append, hadd]
    exact hrest

/-- Where collecting reports nothing, the table can be built and is the collected one. -/
theorem symbols_of_collectSymbols {c : Component} (h : c.collectSymbols.2 = []) :
    c.symbols = .ok c.collectSymbols.1 := by
  obtain ⟨hnodes, hguards⟩ := foldl_collectGuard h
  obtain ⟨-, hnodes⟩ := foldl_collectNode hnodes
  unfold symbols
  rw [nodeEntries, hnodes]
  exact hguards

theorem isSome_entry?_of_foldl_collectNode {component : String} {vs : List Visit} {t : Collection}
    (h : (vs.foldl (collectNode component) t).errors = []) {v : Visit} (hv : v ∈ vs) :
    v.entry?.isSome := by
  induction vs generalizing t with
  | nil => simp at hv
  | cons w vs ih =>
    rw [List.foldl_cons] at h
    rcases List.mem_cons.mp hv with rfl | hv
    · obtain ⟨-, e, he, -⟩ := collectNode_errors (foldl_collectNode h).1
      exact Option.isSome_of_eq_some he
    · exact ih h hv

/-- Where collecting reports nothing, every node has a name. -/
theorem isNamed_of_collectSymbols {c : Component} (h : c.collectSymbols.2 = []) :
    ∀ n ∈ c.walk, n.name?.isSome := by
  intro n hn
  obtain ⟨v, hv, rfl⟩ := exists_visit hn
  have hentry := isSome_entry?_of_foldl_collectNode (foldl_collectGuard h).1 hv
  rw [Visit.entry?, Option.isSome_map] at hentry
  exact hentry

end Component
end ViewTree
