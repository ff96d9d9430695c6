import Mathlib.Data.List.Induction
import ViewTree.Proofs.Naming
import ViewTree.Proofs.Reading.Files
import ViewTree.Proofs.SymbolTable

/-!
Names that come more than once in a component. Main statements: collecting names reports each node
and guard whose name was given before, once, and keeps all others (`Component.collectSymbols_eq`);
so the table can be built exactly if nothing is reported, is the collected one then, and finds every
node and guard in its tree (`Component.symbols_agree`).
-/
namespace ViewTree

section
variable {α : Type} (name : α → String) (taken : List String)

/-- The name of `x` is taken, or one of the elements before place `i` has it. -/
def IsRepeated (xs : List α) (x : α) (i : Nat) : Prop :=
  name x ∈ taken ∨ name x ∈ (xs.take i).map name

instance (xs : List α) (x : α) (i : Nat) : Decidable (IsRepeated name taken xs x i) :=
  inferInstanceAs (Decidable (_ ∨ _))

/-- The elements whose names were given before, with their places. -/
def repeats (xs : List α) : List (α × Nat) :=
  xs.zipIdx.filter fun (x, i) => IsRepeated name taken xs x i

/-- What is said of each repetition and the elements before it. -/
def reports {β : Type} (report : List α → α → β) (xs : List α) : List β :=
  (repeats name taken xs).map fun r => report (xs.take r.2) r.1

/-- The first element with each name that is not taken. -/
def firsts (xs : List α) : List α :=
  (xs.zipIdx.filter fun (x, i) => ¬IsRepeated name taken xs x i).map (·.1)

variable {name taken} {xs : List α} {x : α}

theorem isRepeated_append_of_le {i : Nat} (hi : i ≤ xs.length) (ys : List α) :
    IsRepeated name taken (xs ++ ys) x i ↔ IsRepeated name taken xs x i := by
  rw [IsRepeated, IsRepeated, List.take_append_of_le_length hi]

theorem isRepeated_concat :
    IsRepeated name taken (xs ++ [x]) x xs.length ↔ name x ∈ taken ∨ name x ∈ xs.map name := by
  rw [IsRepeated, List.take_left']
  rfl

/-- Elements behind the others do not make these repetitions. -/
theorem filter_zipIdx_concat (p : List α → α → Nat → Bool)
    (hp : ∀ y i, i ≤ xs.length → p (xs ++ [x]) y i = p xs y i) :
    ((xs ++ [x]).zipIdx.filter fun (y, i) => p (xs ++ [x]) y i) =
      (xs.zipIdx.filter fun (y, i) => p xs y i) ++
        if p (xs ++ [x]) x xs.length then [(x, xs.length)] else [] := by
  have hfront : (xs.zipIdx.filter fun (y, i) => p (xs ++ [x]) y i) =
      xs.zipIdx.filter fun (y, i) => p xs y i := by
    refine List.filter_congr fun (y, i) hmem => hp y i ?_
    have hlt := (List.mem_zipIdx hmem).2.1
    omega
  rw [List.zipIdx_append, List.filter_append, hfront, Nat.zero_add]
  refine congrArg _ ?_
  rw [List.zipIdx_singleton, List.filter_cons, List.filter_nil]

theorem repeats_concat : repeats name taken (xs ++ [x]) =
    repeats name taken xs ++
      if name x ∈ taken ∨ name x ∈ xs.map name then [(x, xs.length)] else [] := by
  unfold repeats
  rw [filter_zipIdx_concat (fun xs y i => decide (IsRepeated name taken xs y i)) fun y i hi => by
    simp only [isRepeated_append_of_le hi]]
  simp only [decide_eq_true_eq, isRepeated_concat]

theorem firsts_concat : firsts name taken (xs ++ [x]) =
    firsts name taken xs ++ if name x ∈ taken ∨ name x ∈ xs.map name then [] else [x] := by
  unfold firsts
  rw [filter_zipIdx_concat (fun xs y i => decide ¬IsRepeated name taken xs y i) fun y i hi => by
    simp only [isRepeated_append_of_le hi]]
  simp only [decide_eq_true_eq, isRepeated_concat, List.map_append]
  split <;> simp_all

theorem mem_map_firsts {key : String} :
    key ∈ (firsts name taken xs).map name ↔ key ∈ xs.map name ∧ key ∉ taken := by
  induction xs using List.reverseRecOn with
  | nil => simp [firsts]
  | append_singleton xs x ih =>
    rw [firsts_concat, List.map_append, List.mem_append, ih, List.map_append, List.mem_append]
    split <;> simp <;> grind

/-- Nothing is a repetition if all names differ, also from those that are taken. -/
theorem repeats_eq_nil (hnodup : (xs.map name).Nodup) (hfresh : ∀ x ∈ xs, name x ∉ taken) :
    repeats name taken xs = [] := by
  induction xs using List.reverseRecOn with
  | nil => rfl
  | append_singleton xs x ih =>
    rw [List.map_append, List.nodup_append] at hnodup
    obtain ⟨hxs, -, hx⟩ := hnodup
    rw [List.forall_mem_append] at hfresh
    rw [repeats_concat, ih hxs hfresh.1, List.nil_append, if_neg]
    rintro (h | h)
    · exact hfresh.2 x (List.mem_singleton_self x) h
    · exact hx _ h _ (List.mem_singleton_self _) rfl

theorem reports_concat {β : Type} (report : List α → α → β) :
    reports name taken report (xs ++ [x]) = reports name taken report xs ++
      if name x ∈ taken ∨ name x ∈ xs.map name then [report xs x] else [] := by
  have hfront : ((repeats name taken xs).map fun r => report ((xs ++ [x]).take r.2) r.1) =
      reports name taken report xs := by
    refine List.map_congr_left fun r hr => ?_
    have hlt := (List.mem_zipIdx (List.mem_of_mem_filter hr)).2.1
    rw [List.take_append_of_le_length (by omega)]
  rw [reports, repeats_concat, List.map_append, hfront]
  split
  · rw [List.map_singleton, List.take_left' rfl]
  · rfl

/-- The first element with a name is found among the first ones, if the name is not taken. -/
theorem find?_firsts {key : String} : (firsts name taken xs).find? (name · = key) =
    if key ∈ taken then none else xs.find? (name · = key) := by
  split
  · rename_i hkey
    refine List.find?_eq_none.mpr fun x hx => ?_
    rw [decide_eq_true_eq]
    rintro rfl
    exact (mem_map_firsts.mp (List.mem_map_of_mem hx)).2 hkey
  rename_i hkey
  induction xs using List.reverseRecOn with
  | nil => rfl
  | append_singleton xs x ih =>
    rw [firsts_concat, List.find?_append, List.find?_append, ih]
    by_cases hx : name x = key
    · subst hx
      by_cases hmem : name x ∈ xs.map name
      · have hfound : (xs.find? (name · = name x)).isSome := by
          simpa [List.find?_isSome] using hmem
        obtain ⟨y, hy⟩ := Option.isSome_iff_exists.mp hfound
        rw [hy]
        rfl
      · rw [if_neg (by simp [hkey, hmem])]
    · congr 1
      split <;> simp [hx]

end

def Visit.name (v : Visit) : String := v.node.nodeName.text

def Visit.entry (v : Visit) : NodeEntry := ⟨v.name, v.tree, v.node⟩

theorem Visit.entry?_eq {v : Visit} (h : v.node.name?.isSome) : v.entry? = some v.entry := by
  rw [Visit.entry?, Component.text_of_isSome_name? h]
  rfl

theorem Visit.guardEntry?_eq_some {v : Visit} {p : Property} {e : GuardEntry} :
    v.guardEntry? p = some e ↔
      p.guard? = some e.name ∧ v.node.name? = some e.owner ∧ e.tree = v.tree := by
  obtain ⟨name, owner, tree⟩ := e
  rw [Visit.guardEntry?]
  split
  · rename_i hguard howner
    simp [hguard, howner, eq_comm]
  · rename_i hnone
    simp only [reduceCtorEq, false_iff]
    rintro ⟨hguard, howner, -⟩
    exact hnone _ _ hguard howner

namespace Component

/-- What is reported of a node behind others that have its name: whether one of them hangs in the
same node. -/
def repeatedNode (component : String) (before : List Visit) (v : Visit) : Diagnostic :=
  ⟨v.node.place,
    if ∃ u ∈ before, u.parent = v.parent ∧ u.name = v.name then
      .duplicateSibling v.name (v.parent.getD component)
    else .symbol component (.duplicateName v.name)⟩

theorem collectNode_of_mem {component : String} {t : Collection} {v : Visit} {e : NodeEntry}
    (he : v.entry? = some e) (h : e.name ∈ t.symbols.names) :
    collectNode component t v = { t with
      errors := t.errors ++ [⟨v.node.place, if (v.parent, e.name) ∈ t.scopes then
        .duplicateSibling e.name (v.parent.getD component)
        else .symbol component (.duplicateName e.name)⟩]
      scopes := (v.parent, e.name) :: t.scopes } := by
  unfold collectNode
  rw [he]
  dsimp only
  rw [Symbols.addNode_eq_error h]
  simp only [List.contains_iff_mem]

theorem collectNode_of_notMem {component : String} {t : Collection} {v : Visit} {e : NodeEntry}
    (he : v.entry? = some e) (h : e.name ∉ t.symbols.names) :
    collectNode component t v = { t with
      symbols := { t.symbols with nodes := t.symbols.nodes ++ [e] }
      scopes := (v.parent, e.name) :: t.scopes } := by
  unfold collectNode
  rw [he]
  dsimp only
  rw [Symbols.addNode_eq_ok_iff.mpr ⟨h, rfl⟩]

/-- Collecting nodes keeps the first one of each name and reports the others. -/
theorem foldl_collectNode_eq (component : String) {vs : List Visit}
    (h : ∀ v ∈ vs, v.node.name?.isSome) :
    (vs.foldl (collectNode component) {}).symbols = ⟨(firsts Visit.name [] vs).map Visit.entry, []⟩ ∧
      (vs.foldl (collectNode component) {}).errors =
        reports Visit.name [] (repeatedNode component) vs ∧
      ∀ parent name, (parent, name) ∈ (vs.foldl (collectNode component) {}).scopes ↔
        ∃ v ∈ vs, v.parent = parent ∧ v.name = name := by
  induction vs using List.reverseRecOn with
  | nil => exact ⟨rfl, rfl, by simp⟩
  | append_singleton vs v ih =>
    rw [List.forall_mem_append] at h
    obtain ⟨hsymbols, herrors, hscopes⟩ := ih h.1
    have hentry := Visit.entry?_eq (h.2 v (List.mem_singleton_self v))
    rw [List.foldl_concat]
    generalize vs.foldl (collectNode component) {} = t at hsymbols herrors hscopes
    have hnames : v.name ∈ t.symbols.names ↔ v.name ∈ vs.map Visit.name := by
      have hfirsts : v.name ∈ (firsts Visit.name [] vs).map Visit.name ↔
          v.name ∈ vs.map Visit.name ∧ v.name ∉ [] := mem_map_firsts
      have hmap : (firsts Visit.name [] vs).map (NodeEntry.name ∘ Visit.entry) =
          (firsts Visit.name [] vs).map Visit.name := rfl
      rw [hsymbols, Symbols.names, List.map_nil, List.append_nil, List.map_map, hmap, hfirsts]
      simp
    have hall (parent : Option String) (name : String) :
        (parent, name) ∈ (v.parent, v.name) :: t.scopes ↔
          ∃ u ∈ vs ++ [v], u.parent = parent ∧ u.name = name := by
      rw [List.mem_cons, hscopes]
      simp only [List.mem_append, List.mem_singleton, Prod.mk.injEq]
      grind
    rw [firsts_concat, reports_concat]
    by_cases hmem : v.name ∈ vs.map Visit.name
    · have hrepeated : v.name ∈ [] ∨ v.name ∈ vs.map Visit.name := .inr hmem
      rw [collectNode_of_mem hentry (hnames.mpr hmem), if_pos hrepeated, if_pos hrepeated,
        List.append_nil, repeatedNode, ← herrors]
      refine ⟨hsymbols, ?_, hall⟩
      simp only [← hscopes]
      rfl
    · have hfresh : ¬(v.name ∈ [] ∨ v.name ∈ vs.map Visit.name) := by simpa using hmem
      rw [collectNode_of_notMem hentry fun h => hmem (hnames.mp h), if_neg hfresh, if_neg hfresh,
        List.append_nil, List.map_append]
      refine ⟨?_, herrors, hall⟩
      rw [hsymbols]
      rfl

/-- The guards of a component in order, with the properties that declare them. -/
def declaredGuards (c : Component) : List (GuardEntry × Property) :=
  c.propertyVisits.filterMap fun (v, p) => (v.guardEntry? p).map (·, p)

def guardName (g : GuardEntry × Property) : String := g.1.name

def declare (component : String) (t : Collection) (g : GuardEntry × Property) : Collection :=
  match t.symbols.addGuard g.1 with
  | .ok symbols => { t with symbols }
  | .error problem => { t with errors := t.errors ++ [⟨g.2.place, .symbol component problem⟩] }

/-- What is reported of a guard with the name of a node or of a guard before it. -/
def repeatedGuard (component : String) (nodes : List String)
    (before : List (GuardEntry × Property)) (g : GuardEntry × Property) : Diagnostic :=
  ⟨g.2.place, .symbol component <|
    match if guardName g ∈ nodes then none else before.find? (guardName · = guardName g) with
    | some first => .duplicateGuard (guardName g) first.1.owner
    | none => .guardNamedAsNode (guardName g)⟩

theorem foldl_collectGuard_eq_declare (component : String) (vs : List (Visit × Property))
    (t : Collection) :
    vs.foldl (fun t (v, p) => collectGuard component t v p) t =
      (vs.filterMap fun (v, p) => (v.guardEntry? p).map (·, p)).foldl (declare component) t := by
  rw [List.foldl_filterMap]
  congr 1
  funext t (v, p)
  unfold collectGuard declare
  dsimp only
  cases v.guardEntry? p <;> rfl

/-- Collecting guards keeps the first one of each name that no node has and reports the others. -/
theorem foldl_declare_eq (component : String) {nodes : List NodeEntry} {taken : List String}
    (htaken : ∀ key, key ∈ taken ↔ key ∈ nodes.map (·.name)) {t : Collection}
    (ht : t.symbols = ⟨nodes, []⟩) (gs : List (GuardEntry × Property)) :
    (gs.foldl (declare component) t).symbols = ⟨nodes, (firsts guardName taken gs).map (·.1)⟩ ∧
      (gs.foldl (declare component) t).errors =
        t.errors ++ reports guardName taken (repeatedGuard component taken) gs := by
  induction gs using List.reverseRecOn with
  | nil => exact ⟨ht, (List.append_nil _).symm⟩
  | append_singleton gs g ih =>
    obtain ⟨hsymbols, herrors⟩ := ih
    rw [List.foldl_concat]
    generalize gs.foldl (declare component) t = u at hsymbols herrors
    have hguards : ((firsts guardName taken gs).map (·.1)).map (·.name) =
        (firsts guardName taken gs).map guardName := List.map_map
    have hnames : g.1.name ∈ u.symbols.names ↔
        guardName g ∈ taken ∨ guardName g ∈ gs.map guardName := by
      rw [hsymbols, Symbols.names, List.mem_append, hguards, ← htaken, mem_map_firsts, guardName]
      tauto
    rw [firsts_concat, reports_concat, declare]
    by_cases hrepeated : guardName g ∈ taken ∨ guardName g ∈ gs.map guardName
    · have hfirst : u.symbols.guard? g.1.name = (if guardName g ∈ taken then none
          else gs.find? (guardName · = guardName g)).map (·.1) := by
        rw [← find?_firsts, Symbols.guard?, hsymbols, List.find?_map]
        rfl
      rw [Symbols.addGuard_eq_error (hnames.mpr hrepeated), if_pos hrepeated, if_pos hrepeated,
        List.append_nil, hfirst]
      refine ⟨hsymbols, ?_⟩
      dsimp only
      rw [herrors, List.append_assoc, repeatedGuard]
      generalize (if guardName g ∈ taken then none
        else gs.find? (guardName · = guardName g)) = first
      cases first <;> rfl
    · have hfresh := mt hnames.mp hrepeated
      rw [Symbols.addGuard_eq_ok_iff.mpr ⟨hfresh, rfl⟩, if_neg hrepeated, if_neg hrepeated,
        List.append_nil, List.map_append]
      refine ⟨?_, herrors⟩
      rw [hsymbols]
      rfl

theorem map_name_visits (c : Component) :
    c.visits.map Visit.name = c.walk.map (·.nodeName.text) := by
  rw [← c.map_node_visits, List.map_map]
  rfl

/-- Collecting the names of a component keeps the first node or guard of each name, and reports
every further one, nodes first. -/
theorem collectSymbols_eq {c : Component} (h : ∀ n ∈ c.walk, n.name?.isSome) :
    c.collectSymbols =
      (⟨(firsts Visit.name [] c.visits).map Visit.entry,
        (firsts guardName (c.walk.map (·.nodeName.text)) c.declaredGuards).map (·.1)⟩,
      reports Visit.name [] (repeatedNode c.name) c.visits ++
        reports guardName (c.walk.map (·.nodeName.text))
          (repeatedGuard c.name (c.walk.map (·.nodeName.text))) c.declaredGuards) := by
  obtain ⟨hsymbols, herrors, -⟩ := foldl_collectNode_eq c.name
    fun (v : Visit) (hv : v ∈ c.visits) => h v.node (node_mem_walk hv)
  have htaken (key : String) : key ∈ c.walk.map (·.nodeName.text) ↔
      key ∈ ((firsts Visit.name [] c.visits).map Visit.entry).map (·.name) := by
    have hmap : ((firsts Visit.name [] c.visits).map Visit.entry).map (·.name) =
        (firsts Visit.name [] c.visits).map Visit.name := List.map_map
    rw [hmap, mem_map_firsts, map_name_visits]
    simp
  obtain ⟨hall, hreports⟩ := foldl_declare_eq c.name htaken hsymbols c.declaredGuards
  unfold collectSymbols
  dsimp only
  rw [foldl_collectGuard_eq_declare]
  exact Prod.ext hall (hreports.trans (congrArg (· ++ _) herrors))

theorem map_guardName_declaredGuards (c : Component) :
    c.declaredGuards.map guardName = c.guardEntries.map (·.name) := by
  rw [declaredGuards, guardEntries, List.map_filterMap, List.map_filterMap]
  refine List.filterMap_congr ?_
  rintro ⟨v, p⟩ -
  dsimp only
  cases v.guardEntry? p <;> rfl

/-- Where the table can be built, collecting reports nothing. -/
theorem collectSymbols_of_symbols {c : Component} (h : ∀ n ∈ c.walk, n.name?.isSome) {t : Symbols}
    (ht : c.symbols = .ok t) : c.collectSymbols.2 = [] := by
  obtain ⟨rfl, hnodup⟩ := symbols_eq_ok ht
  rw [Symbols.names, names_nodeEntries h, ← map_guardName_declaredGuards,
    List.nodup_append] at hnodup
  obtain ⟨hnodes, hguards, hdisjoint⟩ := hnodup
  have hvisits : repeats Visit.name [] c.visits = [] :=
    repeats_eq_nil (by rwa [map_name_visits]) fun _ _ => List.not_mem_nil
  have hdeclared : repeats guardName (c.walk.map (·.nodeName.text)) c.declaredGuards = [] :=
    repeats_eq_nil hguards fun g hg hin => hdisjoint _ hin _ (List.mem_map_of_mem hg) rfl
  rw [collectSymbols_eq h, reports, hvisits, reports, hdeclared]
  rfl

end Component

/-- The table holds the nodes and guards of a component: each under its name, with the number of the
tree that has it, and nothing else. -/
structure Symbols.IsTableOf (t : Symbols) (c : Component) : Prop where
  names_eq : t.names =
    c.walk.map (·.nodeName.text) ++ c.propertyVisits.filterMap fun (_, p) => p.guard?
  nodup : t.names.Nodup
  exists_node : ∀ n ∈ c.walk, ∀ name, n.name? = some name →
    ∃ i, t.node? name = some ⟨name, i, n⟩
  of_node : ∀ name e, t.node? name = some e →
    e.name = name ∧ e.node ∈ c.walk ∧ e.node.name? = some name ∧
      ∀ i, c.InTree i e.node ↔ i = e.tree
  exists_guard : ∀ n ∈ c.walk, ∀ p ∈ n.properties, ∀ name, p.guard? = some name →
    ∃ owner i, n.name? = some owner ∧ t.guard? name = some ⟨name, owner, i⟩
  of_guard : ∀ name e, t.guard? name = some e →
    e.name = name ∧ ∃ n ∈ c.walk, ∃ p ∈ n.properties, p.guard? = some name ∧
      n.name? = some e.owner ∧ ∀ i, c.InTree i n ↔ i = e.tree

namespace Component

theorem find?_eq_some_of_nodup {α : Type} {name : α → String} {xs : List α}
    (h : (xs.map name).Nodup) {x : α} (hx : x ∈ xs) {key : String} (hkey : name x = key) :
    xs.find? (name · = key) = some x := by
  subst hkey
  have hfound : (xs.find? (name · = name x)).isSome := by
    rw [List.find?_isSome]
    exact ⟨x, hx, by simp⟩
  obtain ⟨y, hy⟩ := Option.isSome_iff_exists.mp hfound
  have hname : name y = name x := by simpa using List.find?_some hy
  rw [hy, List.inj_on_of_nodup_map h (List.mem_of_find?_eq_some hy) hx hname]

theorem isTableOf_of_symbols {c : Component} (h : ∀ n ∈ c.walk, n.name?.isSome) {t : Symbols}
    (ht : c.symbols = .ok t) : t.IsTableOf c := by
  obtain ⟨rfl, hnodup⟩ := symbols_eq_ok ht
  have hsplit := hnodup
  rw [Symbols.names, List.nodup_append] at hsplit
  obtain ⟨hnodes, hguards, -⟩ := hsplit
  have hwalk : c.walk.Nodup := by
    rw [names_nodeEntries h] at hnodes
    exact hnodes.of_map
  have htree {v : Visit} (hv : v ∈ c.visits) (i : Nat) : c.InTree i v.node ↔ i = v.tree := by
    refine ⟨fun hi => eq_of_inTree hwalk hi (inTree_of_mem_visits hv), ?_⟩
    rintro rfl
    exact inTree_of_mem_visits hv
  refine ⟨?_, hnodup, ?_, ?_, ?_, ?_⟩
  · rw [Symbols.names, names_nodeEntries h, names_guardEntries h]
  · intro n hn name hname
    obtain ⟨v, hv, rfl⟩ := exists_visit hn
    refine ⟨v.tree, find?_eq_some_of_nodup hnodes ?_ rfl⟩
    exact List.mem_filterMap.mpr ⟨v, hv, by rw [Visit.entry?, hname]; rfl⟩
  · intro name e he
    obtain ⟨v, hv, hentry⟩ := List.mem_filterMap.mp (List.mem_of_find?_eq_some he)
    have hname : e.name = name := by simpa using List.find?_some he
    obtain ⟨written, hwritten, rfl⟩ := Option.map_eq_some_iff.mp hentry
    obtain rfl : written = name := hname
    exact ⟨rfl, node_mem_walk hv, hwritten, htree hv⟩
  · intro n hn p hp name hguard
    obtain ⟨v, hv, rfl⟩ := exists_visit hn
    obtain ⟨owner, howner⟩ := Option.isSome_iff_exists.mp (h v.node hn)
    refine ⟨owner, v.tree, howner, find?_eq_some_of_nodup hguards ?_ rfl⟩
    exact List.mem_filterMap.mpr ⟨(v, p), mem_propertyVisits.mpr ⟨hv, hp⟩,
      Visit.guardEntry?_eq_some.mpr ⟨hguard, howner, rfl⟩⟩
  · intro name e he
    obtain ⟨⟨v, p⟩, hvp, hentry⟩ := List.mem_filterMap.mp (List.mem_of_find?_eq_some he)
    obtain ⟨hv, hp⟩ := mem_propertyVisits.mp hvp
    have hname : e.name = name := by simpa using List.find?_some he
    obtain ⟨hguard, howner, htreeOf⟩ := Visit.guardEntry?_eq_some.mp hentry
    subst hname
    exact ⟨rfl, v.node, node_mem_walk hv, p, hp, hguard, howner, fun i => htreeOf ▸ htree hv i⟩

/-- The table of a named component can be built exactly if collecting its names reports nothing, and
both give the same table then. Each node and each guard whose name was given before is reported once,
and the collected table holds the others. -/
theorem symbols_agree {c : Component} (h : ∀ n ∈ c.walk, n.name?.isSome) :
    (∀ t, c.symbols = .ok t ↔ c.collectSymbols = (t, [])) ∧
      (∀ t, c.symbols = .ok t → t.IsTableOf c) ∧
      c.collectSymbols =
        (⟨(firsts Visit.name [] c.visits).map Visit.entry,
          (firsts guardName (c.walk.map (·.nodeName.text)) c.declaredGuards).map (·.1)⟩,
        reports Visit.name [] (repeatedNode c.name) c.visits ++
          reports guardName (c.walk.map (·.nodeName.text))
            (repeatedGuard c.name (c.walk.map (·.nodeName.text))) c.declaredGuards) := by
  refine ⟨fun t => ⟨fun ht => ?_, fun ht => ?_⟩, fun t ht => isTableOf_of_symbols h ht,
    collectSymbols_eq h⟩
  · have hnone := collectSymbols_of_symbols h ht
    have hsame := symbols_of_collectSymbols hnone
    exact Prod.ext (Except.ok.inj (hsame.symm.trans ht)) hnone
  · have hbuilt := symbols_of_collectSymbols (congrArg Prod.snd ht)
    rw [hbuilt, ht]

/-- A view with two buttons and their guards; the second button and guard have the given names. -/
def alarmSource (name guard : String) : String :=
  "view Alarm(model, sender) \x7b\n  Gtk.Box \x7b\n    #[name(bell)]\n" ++
    "    Gtk.Button \x7b connect_clicked => Ring @ring \x7d,\n    #[name(" ++ name ++ ")]\n" ++
    "    Gtk.Button \x7b connect_clicked => Stop @" ++ guard ++ " \x7d,\n  \x7d,\n\x7d\n"

instance (name guard : String) : Spelled (alarmSource name guard) :=
  .append (.append (.append (.append (.append (.append .literal .literal) inferInstance) .literal)
    .literal) inferInstance) .literal

/-- With names that differ there is a table. With two buttons of one name and a guard of that name,
a button and the guard are reported. -/
theorem symbols_agree_alarmSource :
    (∃ outcomes o c t, readSource? {} (alarmSource "lamp" "stop") = some outcomes ∧ o ∈ outcomes ∧
      o.result = .ok c ∧ (∀ n ∈ (c.assignNames {}).walk, n.name?.isSome) ∧
      (c.assignNames {}).symbols = .ok t ∧ t.IsTableOf (c.assignNames {})) ∧
    ∃ outcomes o c, readSource? {} (alarmSource "bell" "bell") = some outcomes ∧ o ∈ outcomes ∧
      o.result = .ok c ∧ (∀ n ∈ (c.assignNames {}).walk, n.name?.isSome) ∧
      (c.assignNames {}).collectSymbols.2.length = 2 ∧ ∀ t, (c.assignNames {}).symbols ≠ .ok t := by
  constructor
  · have hread : holdsComponent {} (alarmSource "lamp" "stop") fun c =>
        (c.assignNames {}).collectSymbols.2 = [] := by decide +kernel
    obtain ⟨outcomes, o, c, houtcomes, ho, hc, htest⟩ := exists_of_holdsComponent hread
    have hnamed := fun n hn => isNamed_assignNames {} c (n := n) hn
    have ht := ((symbols_agree hnamed).1 _).mpr (Prod.ext rfl (of_decide_eq_true htest))
    exact ⟨outcomes, o, c, _, houtcomes, ho, hc, hnamed, ht, (symbols_agree hnamed).2.1 _ ht⟩
  · have hread : holdsComponent {} (alarmSource "bell" "bell") fun c =>
        (c.assignNames {}).collectSymbols.2.length = 2 := by decide +kernel
    obtain ⟨outcomes, o, c, houtcomes, ho, hc, htest⟩ := exists_of_holdsComponent hread
    have hlength := of_decide_eq_true htest
    have hnamed := fun n hn => isNamed_assignNames {} c (n := n) hn
    refine ⟨outcomes, o, c, houtcomes, ho, hc, hnamed, hlength, fun t ht => ?_⟩
    have hclean := ((symbols_agree hnamed).1 t).mp ht
    rw [hclean] at hlength
    nomatch hlength

end Component
end ViewTree
