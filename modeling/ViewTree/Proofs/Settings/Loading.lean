import Mathlib.Data.Set.List
import ViewTree.Proofs.Settings.Documents
import ViewTree.Proofs.Settings.Fields
import ViewTree.Settings.Loading

/-!
Settings from the text of a file. Main statement: what a file gives settings for, which these are,
and which files end the run without a report (`Settings.load_cases`).
-/
namespace ViewTree

namespace Datum

theorem sameKey_text {d : Datum} {t : String} : d.sameKey (.text t) ↔ d = .text t := by
  cases d <;> simp [sameKey, keyNumber?]

theorem text_sameKey {d : Datum} {t : String} : (Datum.text t).sameKey d ↔ d = .text t := by
  cases d <;> simp [sameKey, keyNumber?, eq_comm]

/-- The value is a pair of a key and a value: two characters, a list of two that starts with
neither a list nor a table, or a table of two. -/
def isPair : Datum → Bool
  | .text s => match s.toList with
    | [_, _] => true
    | _ => false
  | .list [.table _, _] | .list [.list _, _] => false
  | .list [_, _] => true
  | .table [_, _] => true
  | _ => false

/-- The value is a table, or a list of pairs. The empty text passes for an empty list. -/
def holdsPairs : Datum → Bool
  | .table _ => true
  | .list items => items.all isPair
  | .text "" => true
  | _ => false

theorem exists_pair_iff {d : Datum} : (∃ entry, d.pair = .ok entry) ↔ d.isPair := by
  fun_cases pair d <;> simp_all [isPair]

theorem exists_pairs_iff {d : Datum} : (∃ own, d.pairs = .ok own) ↔ d.holdsPairs := by
  have hitems (items : List Datum) : (∃ own, items.mapM pair = .ok own) ↔ items.all isPair := by
    induction items with
    | nil => simp [pure, Except.pure]
    | cons d items ih =>
      rw [List.mapM_cons, List.all_cons, Bool.and_eq_true, ← ih, ← exists_pair_iff]
      cases d.pair <;> cases items.mapM pair <;> simp [bind, Except.bind, pure, Except.pure]
  fun_cases pairs d <;> simp_all [holdsPairs]

def valueOf? (key : String) (entries : List (Datum × Datum)) : Option Datum :=
  (entries.find? (·.1.sameKey (.text key))).map (·.2)

theorem valueOf?_putPair (key : String) (entries : List (Datum × Datum)) (e : Datum × Datum) :
    valueOf? key (putPair entries e) =
      if e.1.sameKey (.text key) then some e.2 else valueOf? key entries := by
  unfold valueOf? putPair
  by_cases hkey : e.1.sameKey (.text key)
  · rw [if_pos hkey]
    obtain ⟨k, v⟩ := e
    obtain rfl := sameKey_text.mp hkey
    split
    · rename_i hany
      have hfind : ((entries.map fun e => if e.1.sameKey (.text key) then (e.1, v) else e).find?
          (·.1.sameKey (.text key))).isSome := by
        obtain ⟨e, he, hsame⟩ := List.any_eq_true.mp hany
        rw [List.find?_isSome]
        exact ⟨_, List.mem_map_of_mem he, by simp [hsame]⟩
      obtain ⟨found, hfound⟩ := Option.isSome_iff_exists.mp hfind
      obtain ⟨e, -, rfl⟩ := List.mem_map.mp (List.mem_of_find?_eq_some hfound)
      have hsame := List.find?_some hfound
      rw [hfound]
      split at hsame
      · rename_i hpos
        simp [hpos]
      · contradiction
    · rename_i hnone
      have hfind : entries.find? (·.1.sameKey (.text key)) = none := by
        simpa using hnone
      rw [List.find?_append, hfind]
      simp [hkey]
  · rw [if_neg hkey]
    split
    · have hkeep : ((fun f : Datum × Datum => f.1.sameKey (.text key)) ∘
          fun f : Datum × Datum => if f.1.sameKey e.1 then (f.1, e.2) else f) =
          (·.1.sameKey (.text key)) := by
        funext f
        dsimp only [Function.comp_apply]
        split <;> rfl
      rw [List.find?_map, hkeep, Option.map_map]
      cases hfind : entries.find? (·.1.sameKey (.text key)) with
      | none => rfl
      | some f =>
        have hsame := List.find?_some hfind
        have hf := sameKey_text.mp hsame
        have hother : ¬f.1.sameKey e.1 := by
          rw [hf, text_sameKey]
          exact fun he => hkey (sameKey_text.mpr he)
        simp [hother]
    · rw [List.find?_append]
      simp [hkey]

/-- Entries put in one by one: the last one with a key counts. -/
theorem valueOf?_foldl_putPair (key : String) (entries own : List (Datum × Datum)) :
    valueOf? key (own.foldl putPair entries) =
      (valueOf? key own.reverse).or (valueOf? key entries) := by
  induction own using List.reverseRecOn with
  | nil => rfl
  | append_singleton own e ih =>
    rw [List.foldl_concat, valueOf?_putPair, ih, List.reverse_concat]
    unfold valueOf?
    rw [List.find?_cons]
    by_cases hkey : e.1.sameKey (.text key) <;> simp [hkey]

end Datum

namespace Settings

namespace Conversions

theorem orReport_eq_ok_iff {α : Type} {problems : List SettingsProblem} {found x : α} :
    orReport problems found = .ok x ↔ problems = [] ∧ found = x := by
  unfold orReport
  cases problems <;> simp

theorem orReport_ne_error_nil {α : Type} (problems : List SettingsProblem) (found : α) :
    orReport problems found ≠ .error [] := by
  unfold orReport
  cases problems <;> simp

theorem entryProblems_eq_nil {path : List String} {e : Datum × Datum} :
    entryProblems path e = [] ↔ ∃ own, pairOf own = e := by
  have htext (d : Datum) : d.isText = true ↔ ∃ t, .text t = d := by
    cases d <;> simp [Datum.isText]
  obtain ⟨k, v⟩ := e
  simp only [entryProblems, List.append_eq_nil_iff, ite_eq_left_iff, List.cons_ne_nil, imp_false,
    not_not, htext, pairOf, Prod.mk.injEq, Prod.exists, exists_and_left, exists_and_right]

theorem laxEntries_eq_ok_iff {path : List String} {found : List (Datum × Datum)} {own : Entries} :
    laxEntries path found = .ok own ↔ found = own.map pairOf := by
  rw [laxEntries, orReport_eq_ok_iff, List.flatMap_eq_nil_iff]
  simp only [entryProblems_eq_nil]
  have hback (own : Entries) : (own.map pairOf).filterMap entryOf? = own := by
    rw [List.filterMap_map]
    exact List.filterMap_some
  constructor
  · rintro ⟨htexts, rfl⟩
    obtain ⟨own, rfl⟩ : found ∈ Set.range (List.map pairOf) :=
      (Set.range_list_map pairOf).ge htexts
    rw [hback]
  · rintro rfl
    exact ⟨fun e he => (List.mem_map.mp he).imp fun _ h => h.2, hback own⟩

/-- Generous conversions make no text of anything else. -/
theorem lawful_lax : lax.Lawful where
  entries_eq_ok_iff _ _ _ := laxEntries_eq_ok_iff
  entries_ne_error_nil _ _ := orReport_ne_error_nil _ _
  texts_ne_error_nil path d := by
    show laxTexts path d ≠ .error []
    unfold laxTexts
    split
    · exact orReport_ne_error_nil _ _
    · simp

end Conversions

theorem valueOf?_map_pairOf (key : String) (own : Entries) :
    Datum.valueOf? key (own.map pairOf) = (own.get? key).map .text := by
  have hsame : ((·.1.sameKey (.text key)) ∘ pairOf) = fun e : String × String => e.1 = key := by
    funext e
    exact Bool.eq_iff_iff.mpr (by simp [pairOf, Datum.sameKey_text])
  rw [Datum.valueOf?, List.find?_map, hsame, Entries.get?, Option.map_map, Option.map_map]
  rfl

/-- The settings that the table of a file gives: the methods of containers are the default ones with
those of the file over them key by key, every other field holds what the file has for it or its
default. -/
structure IsReadFrom (c : Conversions) (s : Settings) (table : List (String × Datum)) : Prop where
  given : ∀ e ∈ table, e.1 ≠ "container_methods" →
    ∃ v, converted? c e.1 e.2 = some v ∧ s.value? e.1 = some v
  others : ∀ key, key ∉ table.map (·.1) → key ≠ "container_methods" →
    s.value? key = ({} : Settings).value? key
  methods : ∃ own, ((Datum.find? "container_methods" table).getD (.table [])).pairs = .ok own ∧
    overDefaults own = s.containerMethods.map pairOf ∧
    ∀ type, (s.containerMethods.get? type).map .text = (Datum.valueOf? type own.reverse).or
      ((({} : Settings).containerMethods.get? type).map .text)

theorem get?_of_overDefaults {s : Settings} {own : List (Datum × Datum)}
    (h : overDefaults own = s.containerMethods.map pairOf) (type : String) :
    (s.containerMethods.get? type).map .text = (Datum.valueOf? type own.reverse).or
      ((({} : Settings).containerMethods.get? type).map .text) := by
  rw [← valueOf?_map_pairOf, ← h, overDefaults, Datum.valueOf?_foldl_putPair]
  exact congrArg _ (valueOf?_map_pairOf type _)

/-- Methods of containers are held under their own key. -/
theorem value?_withMethods (s : Settings) (methods : Entries) {key : String}
    (h : key ≠ "container_methods") :
    ({ s with containerMethods := methods } : Settings).value? key = s.value? key := by
  unfold value?
  split <;> first | rfl | contradiction

section
variable {c : Conversions} {path : Path} {table : List (String × Datum)}

theorem ofTable_of_pairs_error {reason : Abort}
    (h : ((Datum.find? "container_methods" table).getD (.table [])).pairs = .error reason) :
    ofTable c path table = .error (.abort reason) := by
  unfold ofTable
  dsimp only
  rw [h]
  rfl

theorem ofTable_of_pairs_ok {own : List (Datum × Datum)}
    (h : ((Datum.find? "container_methods" table).getD (.table [])).pairs = .ok own) :
    ofTable c path table =
      match c.entries ["container_methods"] (overDefaults own),
        ofEntries (table.filter (·.1 ≠ "container_methods")) c with
      | .ok methods, .ok settings => .ok { settings with containerMethods := methods }
      | .ok _, .error problems => .error (.rejected path problems)
      | .error problems, .ok _ => .error (.rejected path problems)
      | .error problems, .error more => .error (.rejected path (problems ++ more)) := by
  unfold ofTable
  dsimp only
  rw [h]
  rfl

/-- The settings without methods of containers of their own are those of the other entries. -/
theorem isReadFrom_iff {s : Settings} {own : List (Datum × Datum)}
    (hpairs : ((Datum.find? "container_methods" table).getD (.table [])).pairs = .ok own) :
    s.IsReadFrom c table ↔ overDefaults own = s.containerMethods.map pairOf ∧
      ({ s with containerMethods := ({} : Settings).containerMethods } : Settings).IsDescribedBy c
        (table.filter (·.1 ≠ "container_methods")) := by
  constructor
  · rintro ⟨hgiven, hothers, own', hown', hmethods, -⟩
    obtain rfl := Except.ok.inj (hpairs.symm.trans hown')
    refine ⟨hmethods, fun e he => ?_, fun key hkey => ?_⟩
    · obtain ⟨he, hother⟩ := List.mem_filter.mp he
      have hother : e.1 ≠ "container_methods" := by simpa using hother
      rw [value?_withMethods s _ hother]
      exact hgiven e he hother
    · by_cases hother : key = "container_methods"
      · rw [hother]
        rfl
      · rw [value?_withMethods s _ hother]
        refine hothers key (fun hmem => hkey ?_) hother
        obtain ⟨e, he, rfl⟩ := List.mem_map.mp hmem
        exact List.mem_map_of_mem (List.mem_filter.mpr ⟨he, by simpa using hother⟩)
  · rintro ⟨hmethods, hgiven, hothers⟩
    refine ⟨fun e he hother => ?_, fun key hkey hother => ?_,
      own, hpairs, hmethods, get?_of_overDefaults hmethods⟩
    · have hheld := hgiven e (List.mem_filter.mpr ⟨he, by simpa using hother⟩)
      rwa [value?_withMethods s _ hother] at hheld
    · rw [← value?_withMethods s _ hother]
      refine hothers key fun hmem => hkey ?_
      obtain ⟨e, he, rfl⟩ := List.mem_map.mp hmem
      exact List.mem_map_of_mem (List.mem_of_mem_filter he)

/-- A table of a file gives settings exactly if each of its values is one for its key, and the
methods of containers are texts for texts. -/
theorem ofTable_eq_ok_iff (hc : c.Lawful) (h : (table.map (·.1)).Nodup) {s : Settings} :
    ofTable c path table = .ok s ↔ s.IsReadFrom c table := by
  cases hpairs : ((Datum.find? "container_methods" table).getD (.table [])).pairs with
  | error reason =>
    rw [ofTable_of_pairs_error hpairs]
    refine ⟨fun hok => (nomatch hok), fun hs => ?_⟩
    obtain ⟨own, hown, -, -⟩ := hs.methods
    rw [hpairs] at hown
    nomatch hown
  | ok own =>
    have hkeys : ((table.filter (·.1 ≠ "container_methods")).map (·.1)).Nodup :=
      (List.filter_sublist.map _).nodup h
    rw [isReadFrom_iff hpairs, ← hc.entries_eq_ok_iff ["container_methods"],
      ← ofEntries_eq_ok_iff hc hkeys, ofTable_of_pairs_ok hpairs]
    constructor
    · intro hok
      split at hok
      case h_1 methods settings hmethods hsettings =>
        obtain rfl := Except.ok.inj hok
        have hother : "container_methods" ∉ (table.filter (·.1 ≠ "container_methods")).map (·.1) :=
          fun hmem => by
            obtain ⟨e, he, hkey⟩ := List.mem_map.mp hmem
            simpa [hkey] using (List.mem_filter.mp he).2
        have hdefault : settings.containerMethods = ({} : Settings).containerMethods :=
          tableOf_injective <| Option.some.inj <|
            ((ofEntries_eq_ok_iff hc hkeys).mp hsettings).others "container_methods" hother
        refine ⟨hmethods, ?_⟩
        rw [hsettings, ← hdefault]
      all_goals nomatch hok
    · rintro ⟨hmethods, hothers⟩
      rw [hmethods, hothers]

/-- A table that gives no settings is reported with its problems, unless its methods of containers
hold no entries. -/
theorem ofTable_eq_error (hc : c.Lawful) {e : LoadError} (h : ofTable c path table = .error e) :
    if ((Datum.find? "container_methods" table).getD (.table [])).holdsPairs then
      ∃ problems, problems ≠ [] ∧ e = .rejected path problems
    else ∃ reason, e = .abort reason := by
  cases hpairs : ((Datum.find? "container_methods" table).getD (.table [])).pairs with
  | error reason =>
    rw [ofTable_of_pairs_error hpairs] at h
    rw [if_neg fun hholds => by
      obtain ⟨own, hown⟩ := Datum.exists_pairs_iff.mpr hholds
      rw [hpairs] at hown
      nomatch hown]
    exact ⟨reason, (Except.error.inj h).symm⟩
  | ok own =>
    rw [if_pos (Datum.exists_pairs_iff.mp ⟨own, hpairs⟩)]
    have hmethods := hc.entries_ne_error_nil ["container_methods"] (overDefaults own)
    have hothers := ofEntries_ne_error_nil (c := c) (table.filter (·.1 ≠ "container_methods"))
    rw [ofTable_of_pairs_ok hpairs] at h
    split at h
    · nomatch h
    all_goals
      obtain rfl := Except.error.inj h
      refine ⟨_, fun hnil => ?_, rfl⟩
      simp_all

end

section
variable {l : Loader}

theorem readDocument_eq {files : Files} {path : Path} {text : String}
    (h : files.readText path = .ok text) : readDocument l files path =
      match Toml.Document.read text l.room with
      | .ok root => .ok root
      | .error .malformed => .error (.malformed path)
      | .error (.oversized e) => .error (.abort (.oversized (e := e))) := by
  unfold readDocument
  exact h ▸ rfl

theorem distinct_settingsValue {path : Path} {root : List (String × Datum)} {d : Datum}
    (hroot : Toml.Table.Distinct root) (h : settingsValue path root = .ok d) : d.Distinct := by
  have hvalue {key : String} {t : List (String × Datum)} (ht : Toml.Table.Distinct t) :
      ((Datum.find? key t).getD (.table [])).Distinct := by
    cases hfind : Datum.find? key t with
    | none => exact Toml.Table.distinct_nil.table
    | some found => exact ht.of_find? hfind
  unfold settingsValue at h
  split at h
  · split at h
    · rename_i tools htools
      obtain rfl := Except.ok.inj h
      exact hvalue (Toml.Table.distinct_of_table (htools ▸ hvalue hroot))
    · nomatch h
  · obtain rfl := Except.ok.inj h
    exact hvalue hroot

/-- The project file has something else than a table of tools. -/
def LacksTools (path : Path) (root : List (String × Datum)) : Prop :=
  path.name = projectFile ∧ ∃ d, Datum.find? "tool" root = some d ∧ ∀ tools, d ≠ .table tools

theorem settingsValue_eq_error {path : Path} {root : List (String × Datum)} {e : LoadError} :
    settingsValue path root = .error e ↔ e = .abort .noTable ∧ LacksTools path root := by
  unfold settingsValue LacksTools
  split
  · rename_i hname
    cases hfind : Datum.find? "tool" root with
    | none => simp
    | some d => cases d <;> simp [hname, eq_comm]
  · rename_i hname
    simp [hname]

/-- The methods of containers in the table hold no entries. -/
def LacksMethods (table : List (String × Datum)) : Prop :=
  ∃ d, Datum.find? "container_methods" table = some d ∧ ¬d.holdsPairs

theorem lacksMethods_iff {table : List (String × Datum)} : LacksMethods table ↔
    ¬((Datum.find? "container_methods" table).getD (.table [])).holdsPairs := by
  unfold LacksMethods
  cases Datum.find? "container_methods" table <;> simp [Datum.holdsPairs]

theorem load_of_error {files : Files} {path : Path} {text : String} {root : List (String × Datum)}
    {e : LoadError} (h : files.readText path = .ok text) (hread : Toml.Document.read text l.room = .ok root)
    (hvalue : settingsValue path root = .error e) : load files path l = .error e := by
  unfold load
  rw [readDocument_eq h, hread]
  simp only [bind, Except.bind, hvalue]

theorem load_of_table {files : Files} {path : Path} {text : String}
    {root table : List (String × Datum)} (h : files.readText path = .ok text)
    (hread : Toml.Document.read text l.room = .ok root)
    (hvalue : settingsValue path root = .ok (.table table)) :
    load files path l = ofTable l.conversions path table := by
  unfold load
  rw [readDocument_eq h, hread]
  simp only [bind, Except.bind, hvalue]

theorem load_of_notTable {files : Files} {path : Path} {text : String}
    {root : List (String × Datum)} {d : Datum} (h : files.readText path = .ok text)
    (hread : Toml.Document.read text l.room = .ok root) (hvalue : settingsValue path root = .ok d)
    (hd : ∀ table, d ≠ .table table) : load files path l = .error (.notTable path) := by
  unfold load
  rw [readDocument_eq h, hread]
  simp only [bind, Except.bind, hvalue]

/-- A file gives settings exactly if it is a document whose table of settings describes them. A
document without settings is reported, unless it has too many digits or nested values, something else
than a table of tools, or methods of containers without entries. -/
theorem load_cases (hc : l.conversions.Lawful) {files : Files} {path : Path} {text : String}
    (h : files.readText path = .ok text) :
    (∀ s, load files path l = .ok s ↔ ∃ root table, Toml.Document.read text l.room = .ok root ∧
      settingsValue path root = .ok (.table table) ∧ s.IsReadFrom l.conversions table) ∧
    ((∃ reason, load files path l = .error (.abort reason)) ↔
      (∃ e, Toml.Document.read text l.room = .error (.oversized e)) ∨
      ∃ root, Toml.Document.read text l.room = .ok root ∧ (LacksTools path root ∨
        ∃ table, settingsValue path root = .ok (.table table) ∧ LacksMethods table)) ∧
    ∀ e, load files path l = .error e → (∃ reason, e = .abort reason) ∨ e = .malformed path ∨
      e = .notTable path ∨ ∃ problems, problems ≠ [] ∧ e = .rejected path problems := by
  cases hread : Toml.Document.read text l.room with
  | error problem =>
    unfold load
    rw [readDocument_eq h, hread]
    cases problem <;> simp [bind, Except.bind]
  | ok root =>
    cases hvalue : settingsValue path root with
    | error e =>
      rw [load_of_error h hread hvalue]
      obtain ⟨rfl, hlacks⟩ := settingsValue_eq_error.mp hvalue
      simp [hlacks, hvalue]
    | ok d =>
      have hlacks : ¬LacksTools path root := fun hlacks => by
        rw [settingsValue_eq_error.mpr ⟨rfl, hlacks⟩] at hvalue
        nomatch hvalue
      by_cases htable : ∃ table, d = .table table
      · obtain ⟨table, rfl⟩ := htable
        rw [load_of_table h hread hvalue]
        have hdistinct := distinct_settingsValue (Toml.Document.distinct_of_read hread) hvalue
        have hkeys := (Toml.Table.distinct_of_table hdistinct).keys
        simp only [Except.ok.injEq, exists_eq_left', hvalue, hlacks, Datum.table.injEq,
          reduceCtorEq, exists_false, false_or]
        refine ⟨fun s => ?_, ?_, fun e he => ?_⟩
        · rw [ofTable_eq_ok_iff hc hkeys]
          constructor
          · exact fun hs => ⟨root, table, rfl, hvalue, hs⟩
          · rintro ⟨_, _, rfl, hsame, hs⟩
            rw [hvalue] at hsame
            exact Datum.table.inj (Except.ok.inj hsame) ▸ hs
        · rw [lacksMethods_iff]
          constructor
          · rintro ⟨reason, hreason⟩ hholds
            have hreported := ofTable_eq_error hc hreason
            rw [if_pos hholds] at hreported
            obtain ⟨problems, -, hrejected⟩ := hreported
            nomatch hrejected
          · intro hlacks
            cases hresult : ofTable l.conversions path table with
            | error e =>
              have haborted := ofTable_eq_error hc hresult
              rw [if_neg hlacks] at haborted
              obtain ⟨reason, rfl⟩ := haborted
              exact ⟨reason, rfl⟩
            | ok s =>
              obtain ⟨own, hown, -⟩ := ((ofTable_eq_ok_iff hc hkeys).mp hresult).methods
              exact absurd (Datum.exists_pairs_iff.mp ⟨own, hown⟩) hlacks
        · have hreported := ofTable_eq_error hc he
          split at hreported
          · exact .inr (.inr (.inr hreported))
          · exact .inl hreported
      · have hnone (table : List (String × Datum)) : d ≠ .table table :=
          fun hd => htable ⟨table, hd⟩
        rw [load_of_notTable h hread hvalue hnone]
        simp [hvalue, hlacks, hnone]

end

def projectFiles (text : String) : Files := ⟨[], [([projectFile], .text text)]⟩

def projectPath : Path := ⟨"", [projectFile]⟩

def widthText : String :=
  "[tool.viewforge]\nindent_width = \"2\"\ncontainer_methods = \x7b Window = \"add\" \x7d\n"

theorem load_cases_widthText :
    ({} : Loader).conversions.Lawful ∧
      (projectFiles widthText).readText projectPath = .ok widthText ∧
      ∃ s root table, load (projectFiles widthText) projectPath = .ok s ∧ s.indentWidth = 2 ∧
        s.containerMethods.get? "Window" = some "add" ∧
        s.containerMethods.get? "Frame" = some "set_child" ∧
        Toml.Document.read widthText ({} : Loader).room = .ok root ∧
        settingsValue projectPath root = .ok (.table table) ∧ s.IsReadFrom .lax table := by
  have htext : (projectFiles widthText).readText projectPath = .ok widthText := by decide +kernel
  have htest : (load (projectFiles widthText) projectPath).toOption.any fun s =>
      s.indentWidth = 2 ∧ s.containerMethods.get? "Window" = some "add" ∧
        s.containerMethods.get? "Frame" = some "set_child" := by decide +kernel
  obtain ⟨s, hs, htest⟩ := (Option.any_eq_true _ _).mp htest
  obtain ⟨hwidth, hwindow, hframe⟩ := of_decide_eq_true htest
  cases hload : load (projectFiles widthText) projectPath with
  | error e => rw [hload] at hs; nomatch hs
  | ok found =>
    rw [hload] at hs
    obtain rfl := Option.some.inj hs
    have hlawful : ({} : Loader).conversions.Lawful := Conversions.lawful_lax
    obtain ⟨root, table, hread, hvalue, hfrom⟩ := ((load_cases hlawful htext).1 found).mp hload
    exact ⟨hlawful, htext, found, root, table, rfl, hwidth, hwindow, hframe, hread, hvalue, hfrom⟩

/-- With a number in place of the tools, looking up the settings is no error that is reported. -/
theorem load_toolText : (projectFiles "tool = 1\n").readText projectPath = .ok "tool = 1\n" ∧
    load (projectFiles "tool = 1\n") projectPath = .error (.abort .noTable) := by
  decide +kernel

end Settings
end ViewTree
