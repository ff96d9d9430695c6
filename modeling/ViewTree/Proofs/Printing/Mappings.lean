import ViewTree.Proofs.Printing.Patterns

/-!
Patterns of mappings and of objects on lexemes whose kinds are known. Main statements: `patternAt_mapping`
and `patternAt_object`.
-/
namespace ViewTree.Embedded
open Reader Cases

/-- The lexemes are read as the key of a mapping. -/
inductive KeyAt : List LexemeKind → Term → Prop where
  | number {ks t} (h : NumberAt ks t) : KeyAt ks t
  | string {s value} (h : ∀ inner offset,
      stringsForm? inner [⟨StringLiteral.marks s, s.body, offset⟩] = some (.literal value)) :
    KeyAt [.string ⟨s.marks, s.body, 0⟩] (.mk 0 0 (.literal value))
  | singleton {k value} (h : singleton? k = some value) : KeyAt [k] (.mk 0 0 (.literal value))
  | path {word attr attrs} : KeyAt (pathKinds word (attr :: attrs)) (pathTerm word (attr :: attrs))

/-- An entry of a mapping, or the name for what is left of it. -/
abbrev MappingEntry := (Term × Pattern) ⊕ String

def MappingEntry.unplaced : MappingEntry → MappingEntry :=
  Sum.map (Prod.map Term.unplaced Pattern.unplaced) id

/-- The lexemes are read as an entry of a mapping. -/
inductive MappingEntryAt : List LexemeKind → MappingEntry → Prop where
  | pair {ks ls t y} (hkey : KeyAt ks t) (h : PatternAt 8 ls y) :
    MappingEntryAt (ks ++ .symbol ":" :: ls) (.inl (t, y))
  | others {word} (hword : word ≠ "_") : MappingEntryAt [.symbol "**", .name word] (.inr word)

section
variable {kinds : List LexemeKind} {t : Term} {y : Pattern} {inner : FieldReader} {depth : Nat}

theorem isName_unplaced (t : Term) : isName t.unplaced = isName t := by
  obtain ⟨s, e, form⟩ := t
  cases form with
  | yield value => cases value <;> rfl
  | _ => rfl

theorem isName_pathTerm (word attr : String) (attrs : List String) :
    isName (pathTerm word (attr :: attrs)) = false := by
  have hfold (t : Term) (ht : isName t = false) (attrs : List String) :
      isName (attrs.foldl (fun value attr => .mk 0 0 (.attribute value attr)) t) = false := by
    induction attrs generalizing t with
    | nil => exact ht
    | cons attr attrs ih => exact ih _ rfl
  exact hfold _ rfl attrs

theorem KeyAt.consumes (h : KeyAt kinds t) : Consumes Term.unplaced (Under 10) (key inner) kinds t := by
  refine consumes_here fun start => ?_
  cases h with
  | number h =>
    obtain ⟨k, ks, rfl, hk⟩ := h.exists_first
    rcases hk with rfl | ⟨value, rfl⟩ <;> exact consumes_peek_plain rfl h.consumes
  | string h =>
    refine consumes_peek (fun _ => exists_string_of_unplaced) ?_
    rintro _ ⟨offset, rfl⟩
    exact (consumes_strings h).mono (under_of_le (by decide))
  | @singleton k value h =>
    unfold singleton? at h
    split at h
    case h_4 => cases h
    all_goals
      obtain rfl := Option.some.inj h
      exact consumes_peek_plain rfl (consumes_take rfl (consumes_close rfl start))
  | @path word attr attrs =>
    refine consumes_peek_plain rfl ?_
    refine ((consumes_dotted word (attr :: attrs)).mono fun k hk => ne_of_rank_lt hk (by decide)).bind_nil
      fun found hfound => ?_
    have hname : isName found = false := by rw [← isName_unplaced, hfound, isName_pathTerm]
    exact consumes_ite_neg (by simp [hname]) (consumes_pure hfound)

theorem KeyAt.exists_first (h : KeyAt kinds t) : ∃ k ks, kinds = k :: ks ∧ startsPattern k := by
  cases h with
  | number h =>
    obtain ⟨k, ks, rfl, hk⟩ := h.exists_first
    exact ⟨k, ks, rfl, by rcases hk with rfl | ⟨value, rfl⟩ <;> rfl⟩
  | string | path => exact ⟨_, _, rfl, rfl⟩
  | singleton h =>
    unfold singleton? at h
    split at h
    case h_4 => cases h
    all_goals exact ⟨_, _, rfl, rfl⟩

variable {e : MappingEntry}

theorem MappingEntryAt.begins (h : MappingEntryAt kinds e) {B P : LexemeKind → Prop}
    (hstars : P (.symbol "**"))
    (hP : ∀ k, startsPattern k → P k) : Begins B kinds P := by
  cases h with
  | pair hkey h =>
    obtain ⟨k, ks, rfl, hk⟩ := hkey.exists_first
    exact fun k' hk' => hP k' (by rw [← startsPattern_unplaced, hk']; exact hk)
  | others => exact begins_plain rfl hstars

theorem MappingEntryAt.ne_nil (h : MappingEntryAt kinds e) : kinds ≠ [] := by
  cases h <;> simp

theorem MappingEntryAt.consumes (h : MappingEntryAt kinds e) (hdepth : kinds.length < depth) :
    Consumes MappingEntry.unplaced (Under 8) (entry inner (patternAt inner depth)) kinds e := by
  cases h with
  | @pair ks ls t y hkey h =>
    simp only [List.length_append, List.length_cons] at hdepth
    obtain ⟨k, ks, rfl, hk⟩ := hkey.exists_first
    refine consumes_unless (fun k' hk' => ?_) ?_
    · rintro rfl
      rw [← hk'] at hk
      cases hk
    refine hkey.consumes.bind (begins_plain rfl (by decide)) fun found hfound => consumes_symbol ?_
    refine (h.pattern (by omega)).bind_nil fun value hvalue => consumes_pure ?_
    rw [← hfound, ← hvalue]
    rfl
  | @others word hword =>
    refine consumes_when rfl ?_
    exact ((consumes_bindingName hword).mono (under_of_le (by decide))).bind_nil fun found hfound =>
      consumes_pure (congrArg Sum.inr hfound)

/-- The entries of a mapping, with the name for what is left of it at the end. -/
def mappingEntries (entries : List (Term × Pattern)) (others : Option String) : List MappingEntry :=
  entries.map .inl ++ others.toList.map .inr

def mappingOf (found : List MappingEntry) : Reader Pattern :=
  let entries := found.filterMap fun
    | .inl entry => some entry
    | .inr _ => none
  match found.getLast? with
  | some (.inr rest) =>
    if entries.length + 1 ≠ found.length then failure
    else pure (.mapping (entries.map (·.1)) (entries.map (·.2)) (some rest))
  | _ =>
    if entries.length ≠ found.length then failure
    else pure (.mapping (entries.map (·.1)) (entries.map (·.2)) none)

theorem braced_eq (pattern : Reader Pattern) : braced inner pattern = (do
    if ← accept (.symbol "\x7d") then pure (.mapping [] [] none)
    else
      let (found, _) ← items (entry inner pattern) closes
      symbol "\x7d"
      mappingOf found) := rfl

theorem mappingOf_mappingEntries (entries : List (Term × Pattern)) (others : Option String) :
    mappingOf (mappingEntries entries others) =
      pure (.mapping (entries.map (·.1)) (entries.map (·.2)) others) := by
  have hpairs : ((entries.map .inl : List MappingEntry).filterMap fun
      | .inl entry => some entry
      | .inr _ => none) = entries := by
    induction entries with
    | nil => rfl
    | cons entry entries ih => exact congrArg (entry :: ·) ih
  cases others with
  | none =>
    have hall : mappingEntries entries none = entries.map .inl := List.append_nil _
    unfold mappingOf
    rw [hall, hpairs]
    cases hlast : (entries.map .inl : List MappingEntry).getLast? with
    | none => exact if_neg (by simp)
    | some last =>
      obtain ⟨entry, -, rfl⟩ := List.mem_map.mp (List.mem_of_getLast? hlast)
      exact if_neg (by simp)
  | some rest =>
    have hall : mappingEntries entries (some rest) = entries.map .inl ++ [.inr rest] := rfl
    unfold mappingOf
    rw [hall, List.filterMap_append, hpairs, List.getLast?_concat]
    simp

/-- Entries that are alike up to places. -/
theorem exists_mappingEntries {found : List MappingEntry} {entries : List (Term × Pattern)}
    {others : Option String}
    (h : found.map MappingEntry.unplaced = mappingEntries entries others) :
    ∃ entries', found = mappingEntries entries' others ∧
      entries'.map (Prod.map Term.unplaced Pattern.unplaced) = entries := by
  induction entries generalizing found with
  | nil =>
    refine ⟨[], ?_, rfl⟩
    cases others with
    | none => exact List.map_eq_nil_iff.mp h
    | some rest =>
      obtain ⟨one, rfl, hone⟩ := List.map_eq_singleton_iff.mp h
      cases one with
      | inl entry => cases hone
      | inr word => exact congrArg (fun word => [Sum.inr word]) (Sum.inr.inj hone)
  | cons entry entries ih =>
    obtain ⟨one, found, rfl, hone, hfound⟩ := List.map_eq_cons_iff.mp h
    obtain ⟨entries', rfl, hentries⟩ := ih hfound
    cases one with
    | inl entry' => exact ⟨entry' :: entries', rfl, congrArg₂ (· :: ·) (Sum.inl.inj hone) hentries⟩
    | inr word => cases hone

theorem patternAt_mapping {kss : List (List LexemeKind)} {entries : List (Term × Pattern)} {o : Option String}
    (h : List.Forall₂ MappingEntryAt kss (mappingEntries entries o)) :
    PatternAt 10 (.symbol "\x7b" :: commas kss ++ [.symbol "\x7d"])
      (.mapping (entries.map (·.1)) (entries.map (·.2)) o) := by
  refine ⟨⟨_, _, rfl, rfl⟩, by simp, rfl, fun inner depth hdepth => ?_⟩
  simp only [List.length_append, List.length_cons, List.length_nil] at hdepth
  refine consumes_peek_plain rfl (consumes_take rfl ?_)
  show Consumes _ _ (braced inner _) _ _
  rw [braced_eq]
  generalize hall : mappingEntries entries o = all at h
  cases h with
  | nil =>
    obtain ⟨hentries, hothers⟩ := List.append_eq_nil_iff.mp hall
    obtain rfl := List.map_eq_nil_iff.mp hentries
    obtain rfl : o = none := by simpa using hothers
    exact consumes_when rfl (consumes_pure rfl)
  | @cons ks e kss es hfirst h =>
    have hopening : Begins Any ks (· ≠ .symbol "\x7d") := hfirst.begins (by decide) fun k hk => by
      rintro rfl
      cases hk
    have hsome := hfirst.ne_nil
    refine consumes_unless (((hopening.elsewhere hsome).append hsome).append (by simp [hsome])) ?_
    rw [commas, List.length_append] at hdepth
    have hread : Consumes (unplacedItems MappingEntry.unplaced) (· = .symbol "\x7d")
        (items (entry inner (patternAt inner depth)) closes) (commas (ks :: kss)) (e :: es, !es.isEmpty) := by
      refine consumes_items (C := Under 8) ?_ ?_ (by decide) (hfirst.consumes (by omega)) ?_
      · rintro _ rfl
        decide
      · rintro _ rfl
        decide
      · exact forall₂_of_led (.symbol ",") h (d := depth) (by omega) fun ls z hlength hz =>
          ⟨hz.consumes hlength, hz.begins rfl fun k => closes_of_startsPattern⟩
    refine hread.bind (begins_plain rfl rfl) fun read hfound => consumes_symbol ?_
    obtain ⟨found, commas⟩ := read
    obtain ⟨entries', hfound, rfl⟩ := exists_mappingEntries ((Prod.mk.inj hfound).1.trans hall.symm)
    dsimp only at hfound
    rw [hfound, mappingOf_mappingEntries]
    refine consumes_pure ?_
    rw [Pattern.unplaced, Pattern.allUnplaced_eq, Term.allUnplaced_eq]
    simp

end

abbrev ObjectArgument := Option String × Pattern

def ObjectArgument.unplaced : ObjectArgument → ObjectArgument := Prod.map id Pattern.unplaced

/-- The lexemes are read as an argument. -/
inductive ObjectArgumentAt : List LexemeKind → ObjectArgument → Prop where
  | plain {ks y} (h : PatternAt 8 ks y) : ObjectArgumentAt ks (none, y)
  | named {ks word y} (h : PatternAt 8 ks y) :
      ObjectArgumentAt (.name word :: .symbol "=" :: ks) (some word, y)

/-- Whether the argument may come behind those read so far, the last one first. -/
def AllowsArgument (found : List ObjectArgument) (one : ObjectArgument) : Prop :=
  (one.1 = none → found.any (·.1.isSome) = false) ∧ (one.1 = some "_" → found.head?.any (·.1.isNone) = false)

/-- Arguments that may come one after the other. -/
def FollowArguments (found : List ObjectArgument) : List ObjectArgument → Prop
  | [] => True
  | one :: more => AllowsArgument found one ∧ FollowArguments (one :: found) more

section
variable {inner : FieldReader} {depth : Nat} {kinds : List LexemeKind} {one : ObjectArgument}
  {found : List ObjectArgument}

theorem ObjectArgumentAt.consumes (h : ObjectArgumentAt kinds one) (hdepth : kinds.length < depth)
    {plain : Bool}
    (hplain : one.1 = some "_" → plain = false) :
    Consumes ObjectArgument.unplaced (Under 8) (argument (patternAt inner depth) plain) kinds one := by
  cases h with
  | @plain ks y h =>
    have hread : Consumes ObjectArgument.unplaced (Under 8)
        (do pure (none, ← patternAt inner depth)) kinds (none, y) :=
      (h.pattern hdepth).bind_nil fun x hx => consumes_pure (congrArg (Prod.mk none) hx)
    obtain ⟨k, ks, rfl, hk⟩ := h.starts
    refine consumes_peekTwo (P := Under 20) (fun id hid => ?_) fun first second hsecond => ?_
    · subst hid
      cases ks with
      | nil => exact under_of_le (by decide)
      | cons l ks => exact begins_under (h.unnamed id l ks rfl)
    · split
      · next id heq =>
        obtain ⟨next, hnext, hunder⟩ := hsecond id (Option.some.inj heq)
        obtain rfl := Option.some.inj hnext
        exact absurd hunder (by decide)
      · exact hread
  | @named ks word y h =>
    simp only [List.length_cons] at hdepth
    refine consumes_peekTwo_plain rfl rfl ?_
    have hbinds : ¬(plain && !Cases.binds word) = true := by
      by_cases hword : word = "_"
      · simp [hplain (congrArg some hword)]
      · simp [Cases.binds, hword]
    refine consumes_ite_neg hbinds (consumes_take rfl (consumes_take rfl ?_))
    exact (h.pattern (by omega)).bind_nil fun x hx => consumes_pure (congrArg (Prod.mk (some word)) hx)

theorem ObjectArgumentAt.begins (h : ObjectArgumentAt kinds one) {B : LexemeKind → Prop} :
    Begins B kinds (· ≠ .symbol ")") := by
  cases h with
  | plain h => exact h.begins_ne rfl
  | named h => exact begins_plain rfl nofun

theorem ObjectArgumentAt.ne_nil (h : ObjectArgumentAt kinds one) : kinds ≠ [] := by
  cases h with
  | plain h => exact h.ne_nil
  | named h => exact List.cons_ne_nil _ _

def nextObjectArgument (pattern : Reader Pattern) (s : List ObjectArgument × Bool) :
    Reader (Option (List ObjectArgument × Bool)) := do
  if !s.2 || (← peek) = some (.symbol ")") then pure none
  else
    let one ← argument pattern (s.1.head?.any (·.1.isNone))
    if one.1.isNone && s.1.any (·.1.isSome) then failure
    pure (some (one :: s.1, ← accept (.symbol ",")))

def objectOf (type : Term) (found : List ObjectArgument) : Pattern :=
  let named := found.filter (·.1.isSome)
  .object type ((found.filter (·.1.isNone)).map (·.2)) (named.filterMap (·.1)) (named.map (·.2))

theorem object_eq (pattern : Reader Pattern) (type : Term) : object pattern type = (do
    if ← accept (.symbol ")") then pure (.object type [] [] [])
    else
      let found ← repeating (nextObjectArgument pattern) (([] : List ObjectArgument), true)
      symbol ")"
      if found.1.reverse.isEmpty then failure
      pure (objectOf type found.1.reverse)) := rfl

/-- The arguments read so far and whether more may come, without places. -/
abbrev unplacedObject : List ObjectArgument × Bool → List ObjectArgument × Bool :=
  unplacedItems ObjectArgument.unplaced

section
variable {s : List ObjectArgument × Bool} (hs : unplacedObject s = (found, true))
  (hallows : AllowsArgument found one)
  (h : ObjectArgumentAt kinds one) (hdepth : kinds.length < depth)
include hs hallows h hdepth

/-- An argument in front of what `after` says of the comma. -/
theorem consumes_nextObjectArgument_of {B : LexemeKind → Prop} {ks : List LexemeKind} {more : Bool}
    (hclosing : Begins B ks (Under 8))
    (hcomma : ∀ args, args.map ObjectArgument.unplaced = one :: found →
      Consumes (Option.map unplacedObject) B (do pure (some (args, ← accept (.symbol ",")))) ks
        (some (one :: found, more))) :
    Consumes (Option.map unplacedObject) B (nextObjectArgument (patternAt inner depth) s) (kinds ++ ks)
      (some (one :: found, more)) := by
  obtain ⟨args, flag⟩ := s
  obtain ⟨rfl, rfl⟩ := Prod.mk.inj hs
  have hhead : (args.map ObjectArgument.unplaced).head?.any (·.1.isNone) = args.head?.any (·.1.isNone) := by
    cases args <;> rfl
  have hany : (args.map ObjectArgument.unplaced).any (·.1.isSome) = args.any (·.1.isSome) := by
    rw [List.any_map]
    rfl
  refine consumes_peek (h.begins.append h.ne_nil) fun k hk => consumes_ite_neg (by simpa using hk) ?_
  refine (h.consumes hdepth fun hword => hhead ▸ hallows.2 hword).bind hclosing fun found hfound => ?_
  subst hfound
  refine consumes_ite_neg ?_ (hcomma _ rfl)
  intro hlate
  obtain ⟨hnone, hsome⟩ := Bool.and_eq_true_iff.mp hlate
  have hplain := hallows.1 (Option.isNone_iff_eq_none.mp hnone)
  rw [hany] at hplain
  exact Bool.false_ne_true (hplain.symm.trans hsome)

theorem consumes_nextObjectArgument_comma :
    Consumes (Option.map unplacedObject) Any (nextObjectArgument (patternAt inner depth) s)
      (kinds ++ [.symbol ","])
      (some (one :: found, true)) :=
  consumes_nextObjectArgument_of hs hallows h hdepth (begins_plain rfl (by decide)) fun args hargs =>
    consumes_accept rfl (consumes_pure (by simp [unplacedItems, hargs]))

theorem consumes_nextObjectArgument_last :
    Consumes (Option.map unplacedObject) (· = .symbol ")")
      (nextObjectArgument (patternAt inner depth) s) kinds
      (some (one :: found, false)) := by
  rw [← List.append_nil kinds]
  exact consumes_nextObjectArgument_of hs hallows h hdepth (by rintro _ rfl; decide) fun args hargs =>
    consumes_accept_other (by rintro _ rfl; decide) (consumes_pure (by simp [unplacedItems, hargs]))

end

theorem rounds_objectArguments {o : List ObjectArgument} {i : FieldReader} {d : Nat}
    {kss : List (List LexemeKind)} {args : List ObjectArgument}
    (h : List.Forall₂ ObjectArgumentAt kss args) (hdepth : (commas kss).length < d)
    (hfollow : FollowArguments o args) :
    ∃ more, Rounds unplacedObject (· = .symbol ")") (nextObjectArgument (patternAt i d)) (commas kss)
      (o, true)
      (args.reverse ++ o, more) := by
  induction h generalizing o with
  | nil =>
    refine ⟨true, .done fun s _ => consumes_peek (fun _ hk => hk) ?_⟩
    rintro _ rfl
    exact consumes_ite_pos (by simp) (consumes_pure rfl)
  | @cons ks one kss args hone hargs ih =>
    obtain ⟨hallows, hfollow⟩ := hfollow
    rw [commas, List.length_append] at hdepth
    have hreverse : (one :: args).reverse ++ o = args.reverse ++ one :: o := by simp
    rw [hreverse]
    cases hargs with
    | nil =>
      rw [commas_singleton]
      refine ⟨false, .last hone.ne_nil (fun s hs => ?_) fun s hs => consumes_peek (fun _ hk => hk) ?_⟩
      · exact consumes_nextObjectArgument_last hs hallows hone (by omega)
      · rintro _ rfl
        exact consumes_ite_pos (by simp) (consumes_pure rfl)
    | @cons ls next kss args hnext hargs =>
      rw [led_cons, List.length_cons] at hdepth
      obtain ⟨more, hrounds⟩ := ih (by rw [commas]; omega) hfollow
      have hkinds : commas (ks :: ls :: kss) = (ks ++ [.symbol ","]) ++ commas (ls :: kss) := by
        simp [commas, led_cons]
      rw [hkinds]
      refine ⟨more, .more (by simp) (fun s hs => ?_) begins_any hrounds⟩
      exact consumes_nextObjectArgument_comma hs hallows hone (by omega)

/-- The arguments of an object: patterns by position, then those for attributes. -/
def objectArguments (positional : List Pattern) (names : List String) (named : List Pattern) :
    List ObjectArgument :=
  positional.map (none, ·) ++ (names.zip named).map fun (name, p) => (some name, p)

theorem followArguments_named {names : List String} {named : List Pattern} {found : List ObjectArgument}
    (hfirst : found.head?.any (·.1.isNone) → names.head? ≠ some "_") :
    FollowArguments found ((names.zip named).map fun (name, p) => (some name, p)) := by
  induction names generalizing named found with
  | nil => trivial
  | cons name names ih =>
    cases named with
    | nil => trivial
    | cons p named =>
      refine ⟨⟨nofun, fun hname => ?_⟩, ih nofun⟩
      obtain rfl : name = "_" := Option.some.inj hname
      by_contra hplain
      exact hfirst (by simpa using hplain) rfl

theorem followArguments_objectArguments {positional named : List Pattern} {names : List String}
    {found : List ObjectArgument} (hfound : found.any (·.1.isSome) = false)
    (hfirst : found ≠ [] ∨ positional ≠ [] → names.head? ≠ some "_") :
    FollowArguments found (objectArguments positional names named) := by
  induction positional generalizing found with
  | nil =>
    refine followArguments_named fun hplain => hfirst (.inl ?_)
    rintro rfl
    cases hplain
  | cons p positional ih =>
    exact ⟨⟨fun _ => hfound, nofun⟩, ih hfound fun _ => hfirst (.inr (List.cons_ne_nil p positional))⟩

theorem objectOf_objectArguments {positional named : List Pattern} {names : List String}
    (hlength : names.length = named.length) (type : Term) :
    objectOf type (objectArguments positional names named) = .object type positional names named := by
  have hnames : (names.zip named).map Prod.fst = names := List.map_fst_zip (Nat.le_of_eq hlength)
  have hnamed : (names.zip named).map Prod.snd = named := List.map_snd_zip (Nat.le_of_eq hlength.symm)
  simp [objectOf, objectArguments, List.filter_map, Function.comp_def, List.filterMap_map, hnames, hnamed]

theorem objectOf_unplaced (type : Term) (found : List ObjectArgument) :
    (objectOf type found).unplaced = objectOf type.unplaced (found.map ObjectArgument.unplaced) := by
  simp [objectOf, Pattern.unplaced, Pattern.allUnplaced_eq, List.filter_map, Function.comp_def,
    List.filterMap_map,
    ObjectArgument.unplaced]

theorem eq_nil_of_objectArguments {positional named : List Pattern} {names : List String}
    (h : objectArguments positional names named = []) (hlength : names.length = named.length) :
    positional = [] ∧ names = [] ∧ named = [] := by
  obtain ⟨hpositional, hzip⟩ := List.append_eq_nil_iff.mp h
  refine ⟨List.map_eq_nil_iff.mp hpositional, ?_⟩
  cases names with
  | nil => exact ⟨rfl, List.length_eq_zero_iff.mp hlength.symm⟩
  | cons name names =>
    obtain ⟨p, named, rfl⟩ := List.exists_cons_of_length_eq_add_one hlength.symm
    cases hzip

theorem patternAt_object {word : String} (hword : word ≠ "_") (attrs : List String)
    {kss : List (List LexemeKind)}
    {positional named : List Pattern} {names : List String}
    (h : List.Forall₂ ObjectArgumentAt kss (objectArguments positional names named))
    (hlength : names.length = named.length) (hfirst : positional ≠ [] → names.head? ≠ some "_") :
    PatternAt 10 (pathKinds word attrs ++ (.symbol "(" :: commas kss ++ [.symbol ")"]))
      (.object (pathTerm word attrs) positional names named) := by
  refine ⟨⟨_, _, rfl, rfl⟩, fun id k ks heq => ?_, rfl, fun inner depth hdepth => ?_⟩
  · cases attrs with
    | nil =>
      obtain ⟨rfl, -⟩ := List.cons.inj (List.cons.inj heq).2
      decide
    | cons attr attrs =>
      obtain ⟨rfl, -⟩ := List.cons.inj (List.cons.inj heq).2
      decide
  simp only [List.length_append, List.length_cons, List.length_nil] at hdepth
  refine consumes_peek_plain rfl ?_
  show Consumes _ _ (Cases.named _) _ _
  rw [named_eq]
  refine consumes_peek_plain rfl (consumes_ite_neg (by simpa using hword) ?_)
  refine (consumes_dotted word attrs).bind (begins_plain rfl (by decide)) fun found hfound => ?_
  refine consumes_when rfl ?_
  rw [object_eq]
  -- the loop goes over the arguments of both kinds, and only they tell which pattern is meant
  generalize hall : objectArguments positional names named = args at h
  cases h with
  | nil =>
    obtain ⟨rfl, rfl, rfl⟩ := eq_nil_of_objectArguments hall hlength
    refine consumes_when rfl (consumes_pure ?_)
    rw [Pattern.unplaced, hfound]
    rfl
  | @cons ks one kss args hone hargs =>
    have hopening : Begins (Under 10) ks (· ≠ .symbol ")") := hone.begins
    refine consumes_unless ((hopening.append hone.ne_nil).append (by simp [hone.ne_nil])) ?_
    obtain ⟨more, hrounds⟩ := rounds_objectArguments (i := inner) (d := depth) (.cons hone hargs)
      (by omega) (o := []) (hall ▸ followArguments_objectArguments rfl fun h => hfirst (h.resolve_left (by simp)))
    refine (hrounds.consumes_repeating rfl).bind (begins_plain rfl rfl) fun read hread =>
      consumes_symbol ?_
    obtain ⟨found', flag⟩ := read
    obtain ⟨hread, -⟩ := Prod.mk.inj hread
    have hfinal : found'.reverse.map ObjectArgument.unplaced = one :: args := by
      rw [List.map_reverse, hread, List.append_nil, List.reverse_reverse]
    have hsome : found'.reverse ≠ [] := by
      intro hnil
      rw [hnil] at hfinal
      cases hfinal
    refine consumes_ite_neg (by simpa using hsome) (consumes_pure ?_)
    rw [objectOf_unplaced, hfound, hfinal, ← hall, objectOf_objectArguments hlength]

end
end ViewTree.Embedded
