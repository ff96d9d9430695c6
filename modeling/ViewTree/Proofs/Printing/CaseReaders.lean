import ViewTree.Proofs.Printing.Cases
import ViewTree.Proofs.Printing.Productions

/-!
What the grammar of patterns reads is printed as itself, as long as no string has replacement fields. Main
statement: `delivers_patternAt`.
-/
namespace ViewTree.Embedded
open Cases

namespace Cases
open Delivers

theorem delivers_bindingName : Delivers IsBindingName bindingName := by
  refine name.bind fun id hid => peek.bind fun _ _ => guarded fun hbinds => pure ⟨hid, ?_⟩
  rintro rfl
  exact hbinds rfl

theorem delivers_signedNumber : Delivers IsSigned signedNumber := by
  refine here.bind fun start _ => (accept _).bind fun minus _ => here.bind fun inner _ => ?_
  refine next.bind fun kind hkind => ?_
  split
  · refine (close (Q := fun t => ∃ s e value, t = .mk s e (.literal value) ∧ IsFigure value)
      fun stop => ⟨_, _, _, rfl, hkind⟩).bind ?_
    rintro _ ⟨s, e, value, rfl, hvalue⟩
    exact ite (fun _ => close fun stop => .negative hvalue) fun _ => pure (.plain hvalue)
  · exact failure

theorem delivers_number : Delivers IsNumeral number := by
  refine here.bind fun start _ => delivers_signedNumber.bind fun first hfirst => ?_
  extract_lets join
  have hjoin (op : BinaryOp) (hop : op = .add ∨ op = .sub) : Delivers IsNumeral (join op) := by
    refine next.bind fun _ _ => here.bind fun inner _ => next.bind fun kind hkind => ?_
    split
    · next x =>
      refine (close (Q := fun t => ∃ s e, t = .mk s e (.literal (.imaginary x))) fun stop =>
        ⟨_, _, rfl⟩).bind ?_
      rintro _ ⟨s, e, rfl⟩
      exact guarded fun hreal => close fun stop => .complex hfirst (by simpa using hreal) hop hkind
    · exact failure
  refine peek.bind fun _ _ => ?_
  split
  · exact hjoin .add (.inl rfl)
  · exact hjoin .sub (.inr rfl)
  · exact pure (.signed hfirst)

theorem delivers_strings (inner : FieldReader) :
    Delivers (fun t => ∃ s e value, t = .mk s e (.literal value) ∧ IsString value) (strings inner) := by
  refine here.bind fun start _ => delivers_stringLiterals.bind fun literals hliterals => ?_
  split
  · next form hform =>
    obtain ⟨value, rfl, hvalue⟩ := isString_of_stringsForm? hliterals hform
    exact close fun stop => ⟨_, _, value, rfl, hvalue⟩
  · exact failure

def attributesFrom (start : Nat) (word : String) : Reader Term := do
  let first ← Reader.close start (.name word)
  Reader.repeating (fun value => do
    if ← Reader.accept (.symbol ".") then
      let attr ← Reader.name
      Pure.pure (some (← Reader.close start (.attribute value attr)))
    else Pure.pure none) first

theorem delivers_attributesFrom {word : String} (hword : StandsForItself word) (start : Nat) :
    Delivers (fun t => ∃ attrs, IsPath t word attrs) (attributesFrom start word) := by
  refine (close (Q := fun t => ∃ attrs, IsPath t word attrs) fun stop => ⟨[], .name hword⟩).bind
    fun first hfirst => ?_
  refine repeating (fun value hvalue => ?_) hfirst
  obtain ⟨attrs, hvalue⟩ := hvalue
  refine (accept _).bind fun _ _ => ite (fun _ => name.bind fun attr hattr => ?_) fun _ => pure nofun
  refine (close (Q := fun t => ∃ attrs, IsPath t word attrs) fun stop =>
    ⟨attrs ++ [attr], hvalue.member hattr⟩).bind
    fun next hnext => pure fun _ hsome => Option.some.inj hsome ▸ hnext

theorem delivers_dotted : Delivers (fun t => ∃ word attrs, IsPath t word attrs) dotted :=
  here.bind fun start _ => name.bind fun word hword =>
    (delivers_attributesFrom hword start).imp fun _ hpath => ⟨word, hpath⟩

/-- Where no wildcard stands, a path starts with another name. -/
theorem delivers_path_of_peek {Q : Pattern → Prop} {wild : Reader Pattern} {k : Term → Reader Pattern}
    (hwild : Delivers Q wild) (hk : ∀ t word attrs, IsPath t word attrs → word ≠ "_" → Delivers Q (k t)) :
    Delivers Q (do if (← Reader.peek) = some (.name "_") then wild else k (← dotted)) := by
  intro i x i' hi hr
  by_cases hfirst : i.rest.head?.map (·.kind) = some (.name "_")
  · exact hwild i x i' hi ((congrFun (if_pos hfirst) i).symm.trans hr)
  · have hr : (dotted >>= k) i = some (x, i') := (congrFun (if_neg hfirst) i).symm.trans hr
    obtain ⟨⟨t, j⟩, hdotted, hr⟩ := Option.bind_eq_some_iff.mp hr
    obtain ⟨⟨word, i₁⟩, hname, hattributes⟩ := Option.bind_eq_some_iff.mp hdotted
    obtain ⟨hword, hi₁⟩ := name i word i₁ hi hname
    obtain ⟨⟨attrs, hpath⟩, hj⟩ := delivers_attributesFrom hword _ i₁ t j hi₁ hattributes
    refine hk t word attrs hpath ?_ j x i' hj hr
    rintro rfl
    obtain ⟨_ | ⟨⟨kind, start, stop⟩, rest⟩, last⟩ := i
    · cases hname
    · cases kind with
      | name id =>
        obtain ⟨rfl, -⟩ := Prod.mk.inj (Option.some.inj hname)
        exact hfirst rfl
      | _ => cases hname

section
variable {pattern : Reader Pattern} {inner : FieldReader}

/-- An item without a star is a pattern. -/
theorem rereads_of_listed {p : Pattern} (h : p.Listed) (hstar : isStar p = false) : p.Rereads := by
  cases h with
  | pattern h => exact h
  | wildcard | star => cases hstar

variable (h : Delivers Pattern.Rereads pattern)
include h

theorem delivers_maybeStar : Delivers Pattern.Listed (maybeStar pattern) := by
  refine (accept _).bind fun _ _ => ite (fun _ => peek.bind fun _ _ => ?_) fun _ => h.imp fun _ => .pattern
  split
  · exact next.bind fun _ _ => pure .wildcard
  · exact delivers_bindingName.bind fun id hid => pure (.star hid)

theorem delivers_openSequence : Delivers Pattern.Rereads (openSequence pattern) := by
  refine (items (delivers_maybeStar h)).bind fun (found, commas) ⟨_, hfound⟩ => ?_
  dsimp only at hfound ⊢
  split
  · have hone := hfound _ List.mem_cons_self
    exact ite (fun _ => failure) fun hstar => pure (rereads_of_listed hone (by simpa using hstar))
  · exact pure (rereads_sequence hfound)

theorem delivers_bracketed : Delivers Pattern.Rereads (bracketed pattern) := by
  refine (accept _).bind fun _ _ => ite (fun _ => pure (rereads_sequence nofun)) fun _ => ?_
  exact (items (delivers_maybeStar h)).bind fun (found, commas) ⟨_, hfound⟩ => (symbol _).bind fun _ _ =>
    pure (rereads_sequence hfound)

omit h in
theorem delivers_key : Delivers IsKey (key inner) := by
  refine here.bind fun start _ => peek.bind fun kind? _ => ?_
  split
  · refine (delivers_strings inner).imp ?_
    rintro _ ⟨s, e, value, rfl, hvalue⟩
    exact .string hvalue
  · refine delivers_dotted.bind ?_
    rintro found ⟨word, attrs, hpath⟩
    refine ite (fun _ => failure) fun hname => pure ?_
    cases attrs with
    | nil => exact absurd hpath.isName_eq hname
    | cons attr attrs => exact .path hpath
  · split
    · next hvalue => exact next.bind fun _ _ => close fun stop => .singleton hvalue
    · exact delivers_number.imp fun _ => .number
  · exact failure

/-- An entry whose key and pattern are printed as themselves. -/
def IsEntry : MappingEntry → Prop
  | .inl (t, p) => IsKey t ∧ p.Rereads
  | .inr word => IsBindingName word

theorem delivers_entry : Delivers IsEntry (entry inner pattern) := by
  refine (accept _).bind fun _ _ => ite (fun _ => ?_) fun _ => ?_
  · exact delivers_bindingName.bind fun id hid => pure hid
  · exact delivers_key.bind fun found hfound => (symbol _).bind fun _ _ => h.bind fun value hvalue =>
      pure ⟨hfound, hvalue⟩

omit h in
theorem delivers_mappingOf {found : List MappingEntry} (hfound : ∀ e ∈ found, IsEntry e) :
    Delivers Pattern.Rereads (mappingOf found) := by
  unfold mappingOf
  extract_lets entries
  have hentries : ∀ e ∈ entries, IsKey e.1 ∧ e.2.Rereads := by
    intro e he
    obtain ⟨one, hone, hsome⟩ := List.mem_filterMap.mp he
    cases one with
    | inl entry => exact Option.some.inj hsome ▸ hfound _ hone
    | inr word => cases hsome
  have hmapping (others : Option String) (hothers : ∀ word ∈ others, IsBindingName word) :
      (Pattern.mapping (entries.map (·.1)) (entries.map (·.2)) others).Rereads :=
    rereads_mapping (List.forall_mem_map.mpr fun e he => (hentries e he).1)
      (List.forall_mem_map.mpr fun e he => (hentries e he).2) (by simp) hothers
  split
  · next rest hlast =>
    refine ite (fun _ => failure) fun _ => pure (hmapping _ fun _ hsome => Option.some.inj hsome ▸ ?_)
    exact hfound _ (List.mem_of_getLast? hlast)
  · exact ite (fun _ => failure) fun _ => pure (hmapping _ nofun)

theorem delivers_braced : Delivers Pattern.Rereads (braced inner pattern) := by
  rw [braced_eq]
  refine (accept _).bind fun _ _ => ite (fun _ => pure (rereads_mapping nofun nofun rfl nofun)) fun _ => ?_
  exact (items (delivers_entry h)).bind fun (found, commas) ⟨_, hfound⟩ => (symbol _).bind fun _ _ =>
    delivers_mappingOf hfound

end

/-- Arguments of an object that are printed as themselves. -/
structure IsObject (ps : List Pattern) (names : List String) (qs : List Pattern) : Prop where
  plain : ∀ p ∈ ps, p.Rereads
  spelled : ∀ name ∈ names, StandsForItself name
  named : ∀ p ∈ qs, p.Rereads
  length_eq : names.length = qs.length
  first : ps ≠ [] → names.head? ≠ some "_"

/-- Arguments, the last one first, that make an object. -/
def MakesObject (found : List ObjectArgument) : Prop := ∃ ps names qs,
  found.reverse = objectArguments ps names qs ∧ IsObject ps names qs

section
variable {found : List ObjectArgument} {p : Pattern} {word : String}

theorem makesObject_nil : MakesObject [] := ⟨[], [], [], rfl, nofun, nofun, nofun, rfl, nofun⟩

theorem MakesObject.plain (h : MakesObject found) (hplain : found.any (·.1.isSome) = false) (hp : p.Rereads) :
    MakesObject ((none, p) :: found) := by
  obtain ⟨ps, names, qs, hfound, hobject⟩ := h
  have hnone : (objectArguments ps names qs).any (·.1.isSome) = false := by
    rw [← hfound, List.any_reverse, hplain]
  have hnames : names = [] := by
    cases names with
    | nil => rfl
    | cons name names =>
      obtain ⟨q, qs, rfl⟩ := List.exists_cons_of_length_eq_add_one hobject.length_eq.symm
      simp [objectArguments] at hnone
  subst hnames
  obtain rfl : qs = [] := List.length_eq_zero_iff.mp hobject.length_eq.symm
  refine ⟨ps ++ [p], [], [], ?_, ?_, List.forall_mem_nil _, List.forall_mem_nil _, rfl, by simp⟩
  · rw [List.reverse_cons, hfound]
    simp [objectArguments]
  · exact List.forall_mem_append.mpr ⟨hobject.plain, List.forall_mem_singleton.mpr hp⟩

theorem MakesObject.named (h : MakesObject found) (hplain : found.head?.any (·.1.isNone) → word ≠ "_")
    (hword : StandsForItself word) (hp : p.Rereads) : MakesObject ((some word, p) :: found) := by
  obtain ⟨ps, names, qs, hfound, hobject⟩ := h
  refine ⟨ps, names ++ [word], qs ++ [p], ?_, hobject.plain, ?_, ?_, by simp [hobject.length_eq],
    fun hsome => ?_⟩
  · rw [List.reverse_cons, hfound]
    simp [objectArguments, List.zip_append hobject.length_eq]
  · exact List.forall_mem_append.mpr ⟨hobject.spelled, List.forall_mem_singleton.mpr hword⟩
  · exact List.forall_mem_append.mpr ⟨hobject.named, List.forall_mem_singleton.mpr hp⟩
  · cases names with
    | cons name names => exact hobject.first hsome
    | nil =>
      have hlast : found.head? = (ps.map fun p => ((none, p) : ObjectArgument)).getLast? := by
        rw [← List.getLast?_reverse, hfound]
        simp [objectArguments]
      have hnone : found.head?.any (·.1.isNone) = true := by
        rw [hlast, List.getLast?_map, List.getLast?_eq_some_getLast hsome]
        rfl
      simpa using hplain hnone

end

section
variable {pattern : Reader Pattern} {inner : FieldReader} (h : Delivers Pattern.Rereads pattern)
include h

theorem delivers_argument (plain : Bool) : Delivers (fun (one : ObjectArgument) => one.2.Rereads ∧
    ∀ word ∈ one.1, StandsForItself word ∧ (plain → word ≠ "_")) (argument pattern plain) := by
  refine peek.bind fun kind? hkind => peekSecond.bind fun _ _ => ?_
  split
  · refine guarded fun hbinds => next.bind fun _ _ => next.bind fun _ _ => h.bind fun value hvalue =>
      pure ⟨hvalue, ?_⟩
    intro word hsome
    obtain rfl := Option.some.inj hsome
    refine ⟨hkind _ rfl, ?_⟩
    rintro hplain rfl
    exact hbinds (by simp [hplain, binds])
  · exact h.bind fun value hvalue => pure ⟨hvalue, by simp⟩

theorem delivers_object {type : Term} {word : String} {attrs : List String} (htype : IsPath type word attrs)
    (hword : word ≠ "_") : Delivers Pattern.Rereads (object pattern type) := by
  rw [object_eq]
  refine (accept _).bind fun _ _ => ite (fun _ => pure ?_) fun _ => ?_
  · exact rereads_object htype hword nofun nofun nofun rfl nofun
  refine (repeating (Q := fun (s : List ObjectArgument × Bool) => MakesObject s.1)
    (fun (found, more) hfound => ?_)
    makesObject_nil).bind fun (found, more) hfound => (symbol _).bind fun _ _ => guarded fun _ => pure ?_
  · refine peek.bind fun _ _ => ite (fun _ => pure nofun) fun _ => ?_
    refine (delivers_argument h _).bind fun (name, value) ⟨hvalue, hname⟩ => guarded fun hlate => ?_
    refine (accept _).bind fun _ _ => pure fun _ hsome => Option.some.inj hsome ▸ ?_
    cases name with
    | none => exact hfound.plain (by simpa using hlate) hvalue
    | some id => exact hfound.named (hname id rfl).2 (hname id rfl).1 hvalue
  · obtain ⟨ps, names, qs, hfound, hobject⟩ := hfound
    dsimp only at hfound
    rw [hfound, objectOf_objectArguments hobject.length_eq]
    exact rereads_object htype hword hobject.plain hobject.spelled hobject.named hobject.length_eq
      hobject.first

omit h in
theorem rereads_pathPattern {t : Term} {word : String} {attrs : List String} (hpath : IsPath t word attrs)
    (hword : word ≠ "_") : (pathPattern t).Rereads := by
  cases hpath with
  | name hname => exact rereads_capture ⟨hname, hword⟩
  | member hpath hattr => exact rereads_path (.member hpath hattr) hword (by simp)

theorem delivers_named : Delivers Pattern.Rereads (named pattern) := by
  rw [named_eq]
  refine delivers_path_of_peek (next.bind fun _ _ => pure rereads_wildcard) fun t word attrs hpath hword => ?_
  refine (accept _).bind fun _ _ => ite (fun _ => delivers_object h hpath hword) fun _ => ?_
  exact peek.bind fun _ _ => ite (fun _ => failure) fun _ => pure (rereads_pathPattern hpath hword)

theorem delivers_closed : Delivers Pattern.Rereads (closed inner pattern) := by
  refine peek.bind fun _ _ => ?_
  split
  · exact delivers_named h
  · refine (delivers_strings inner).bind ?_
    rintro _ ⟨s, e, value, rfl, hvalue⟩
    exact pure (rereads_string hvalue)
  · exact next.bind fun _ _ => delivers_bracketed h
  · exact next.bind fun _ _ => delivers_braced h
  · refine next.bind fun _ _ => (accept _).bind fun _ _ => ite (fun _ => pure (rereads_sequence nofun))
      fun _ => ?_
    exact (delivers_openSequence h).bind fun found hfound => (symbol _).bind fun _ _ => pure hfound
  · split
    · next hvalue => exact next.bind fun _ _ => pure (rereads_singleton hvalue)
    · exact delivers_number.bind fun t ht => pure (rereads_number ht)
  · exact failure

theorem delivers_options : Delivers Pattern.Rereads (options inner pattern) := by
  refine (delivers_closed h).bind fun first hfirst => (many (Q := Pattern.Rereads) ?_).bind
    fun more hmore => pure ?_
  · refine (accept _).bind fun _ _ => ite (fun _ => ?_) fun _ => pure nofun
    exact (delivers_closed h).bind fun other hother => pure fun _ hsome => Option.some.inj hsome ▸ hother
  · cases more with
    | nil => exact hfirst
    | cons other more => exact rereads_alternatives hfirst hmore (List.cons_ne_nil other more)

theorem delivers_patternOf : Delivers Pattern.Rereads (patternOf inner pattern) := by
  rw [patternOf_eq]
  refine (delivers_options h).bind fun found hfound => (accept _).bind fun _ _ => ite (fun _ => ?_) fun _ =>
    pure hfound
  exact delivers_bindingName.bind fun word hword => pure (rereads_bound hfound hword)

end

/-- Whatever pattern is read, at any depth, it is printed as itself. -/
theorem delivers_patternAt (inner : FieldReader) (depth : Nat) :
    Delivers Pattern.Rereads (patternAt inner depth) := by
  induction depth with
  | zero => exact failure
  | succ depth ih => exact delivers_patternOf ih

end Cases
end ViewTree.Embedded
