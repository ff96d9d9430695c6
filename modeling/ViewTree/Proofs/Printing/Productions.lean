import ViewTree.Proofs.Printing.Parameters
import ViewTree.Proofs.Printing.Literals
import ViewTree.Proofs.Printing.Targets

/-!
What the grammar reads is printed as itself, production by production, as long as no string has replacement
fields. Main statement: `sound_grammarAt`.
-/
namespace ViewTree.Embedded
open Grammar

variable {s e : Nat} {t u : Term} {ts : List Term}

/-- An item of a list; without a star it is any term. -/
structure IsItem (t : Term) : Prop where
  listed : Listed t
  sound : t.isStarred = false → Sound t

theorem sound_of_rereads (h : Rereads t) (hitems : t.elements? = none) : Sound t :=
  ⟨h, fun _ hsome => by cases hitems.symm.trans hsome⟩

theorem sound_tuple (h : ∀ t ∈ ts, IsItem t) : Sound (.mk s e (.tuple ts)) :=
  ⟨rereads_tuple fun t ht => (h t ht).listed, fun _ hsome t ht => by
    obtain rfl := Option.some.inj hsome
    exact (h t ht).listed⟩

theorem Sound.isItem (h : Sound t) : IsItem t := ⟨.term h.rereads, fun _ => h⟩

theorem isItem_starred (h : Rereads t) : IsItem (.mk s e (.starred t)) := ⟨.starred h, nofun⟩

/-- The readers that recursion goes through give terms that are printed as themselves. -/
structure Grammar.IsSound (g : Grammar) : Prop where
  expression : Delivers Sound g.expression
  inversion : Delivers Sound g.inversion
  factor : Delivers Sound g.factor

section
variable {g : Grammar} (hg : g.IsSound)
include hg

namespace Grammar.IsSound
open Delivers

omit hg in
theorem delivers_namesNext : Delivers (fun _ => True) namesNext := by
  refine peek.bind fun _ _ => peekSecond.bind fun _ _ => ?_
  split <;> exact pure trivial

theorem named : Delivers Sound g.named := by
  refine delivers_namesNext.bind fun _ _ => ite (fun _ => ?_) fun _ => hg.expression
  refine here.bind fun start _ => name.bind fun id hid => (symbol _).bind fun _ _ => ?_
  exact hg.expression.bind fun value hvalue => close fun stop =>
    sound_of_rereads (rereads_named hid hvalue.rereads) rfl

omit hg in
theorem delivers_binaryLoop {operand : Reader Term} (h : Delivers Sound operand)
    (op? : LexemeKind → Option BinaryOp) :
    Delivers Sound (binaryLoop operand op?) := by
  refine here.bind fun start _ => h.bind fun first hfirst => repeating (fun left hleft => ?_) hfirst
  refine peek.bind fun kind? _ => ?_
  cases kind?.bind op? with
  | none => exact pure nofun
  | some op =>
    refine next.bind fun _ _ => h.bind fun right hright => ?_
    refine (close (Q := Sound) fun stop => ?_).bind fun t ht => pure fun _ hsome => Option.some.inj hsome ▸ ht
    exact sound_of_rereads (rereads_binary hleft.rereads hright.rereads) rfl

theorem bitOr : Delivers Sound g.bitOr :=
  delivers_binaryLoop (delivers_binaryLoop (delivers_binaryLoop (delivers_binaryLoop (delivers_binaryLoop
    (delivers_binaryLoop hg.factor _) _) _) _) _) _

omit hg in
theorem delivers_compareOp : Delivers (fun _ => True) compareOp := by
  refine peek.bind fun _ _ => ?_
  split
  case h_8 => exact next.bind fun _ _ => (keyword _).bind fun _ _ => pure trivial
  case h_9 => exact next.bind fun _ _ => (accept _).bind fun _ _ => pure trivial
  case h_10 => exact pure trivial
  all_goals exact next.bind fun _ _ => pure trivial

theorem comparison : Delivers Sound g.comparison := by
  refine here.bind fun start _ => hg.bitOr.bind fun first hfirst => ?_
  refine (many (Q := fun compared => Sound compared.2) ?_).bind fun more hmore => ?_
  · refine delivers_compareOp.bind fun op? _ => ?_
    cases op? with
    | none => exact pure nofun
    | some op => exact hg.bitOr.bind fun other hother => pure fun _ hsome => Option.some.inj hsome ▸ hother
  · refine ite (fun _ => pure hfirst) fun hsome => close fun stop => sound_of_rereads ?_ rfl
    refine rereads_compare hfirst.rereads ?_ (by simp) (by simpa using hsome)
    exact List.forall_mem_map.mpr fun compared hcompared => (hmore compared hcompared).rereads

theorem inversionOf : Delivers Sound g.inversionOf := by
  refine here.bind fun start _ => (accept _).bind fun _ _ => ite (fun _ => ?_) fun _ => hg.comparison
  exact hg.inversion.bind fun operand h => close fun stop => sound_of_rereads (rereads_unary h.rereads) rfl

omit hg in
theorem delivers_boolLoop {operand : Reader Term} (h : Delivers Sound operand) (word : String) (op : BoolOp) :
    Delivers Sound (boolLoop operand word op) := by
  refine here.bind fun start _ => h.bind fun first hfirst => (many (Q := Sound) ?_).bind fun more hmore => ?_
  · refine (accept _).bind fun _ _ => ite (fun _ => ?_) fun _ => pure nofun
    exact h.bind fun other hother => pure fun _ hsome => Option.some.inj hsome ▸ hother
  · refine ite (fun _ => pure hfirst) fun hsome => close fun stop => sound_of_rereads ?_ rfl
    exact rereads_bool hfirst.rereads (fun other hother => (hmore other hother).rereads)
      (by simpa using hsome)

theorem disjunction : Delivers Sound g.disjunction :=
  delivers_boolLoop (delivers_boolLoop hg.inversionOf _ _) _ _

omit hg in
theorem delivers_starredOr {plain operand : Reader Term} (hplain : Delivers Sound plain)
    (h : Delivers Sound operand) :
    Delivers IsItem (do
      let start ← Reader.here
      if ← Reader.accept (.symbol "*") then
        let value ← operand
        Reader.close start (.starred value)
      else plain) := by
  refine here.bind fun start _ => (accept _).bind fun _ _ => ite (fun _ => ?_) fun _ => ?_
  · exact h.bind fun value hvalue => close fun stop => isItem_starred hvalue.rereads
  · exact hplain.imp fun _ => Sound.isItem

theorem item : Delivers IsItem g.item := delivers_starredOr hg.named hg.bitOr

theorem plainItem : Delivers IsItem g.plainItem := delivers_starredOr hg.expression hg.bitOr

omit hg in
theorem delivers_itemsTerm {item : Reader Term} (h : Delivers IsItem item) :
    Delivers IsItem (itemsTerm item) := by
  refine here.bind fun start _ => (items h).bind fun (found, commas) ⟨_, hfound⟩ => ?_
  dsimp only at hfound ⊢
  split
  · exact .pure (hfound _ List.mem_cons_self)
  · exact close fun stop => (sound_tuple hfound).isItem

theorem yieldTerm : Delivers Sound g.yieldTerm := by
  refine here.bind fun start _ => (keyword _).bind fun _ _ => (accept _).bind fun _ _ => ite (fun _ => ?_)
    fun _ => ?_
  · exact hg.expression.bind fun value h => close fun stop =>
      sound_of_rereads (rereads_yieldFrom h.rereads) rfl
  refine peek.bind fun _ _ => ite (fun _ => close fun stop => sound_of_rereads rereads_yield_none rfl)
    fun _ => ?_
  exact (delivers_itemsTerm hg.plainItem).bind fun value h => close fun stop =>
    sound_of_rereads (rereads_yield h.listed) rfl

end Grammar.IsSound
end

theorem Listed.assignableItem (h : Listed t) (htarget : target? t = some u) : AssignableItem u := by
  cases h with
  | term h => exact .plain h htarget
  | @starred s e value h =>
    obtain ⟨form, hform, rfl⟩ := Option.map_eq_some_iff.mp htarget
    obtain ⟨s', e', inside⟩ := value
    obtain ⟨u, hu, rfl⟩ := exists_of_starred hform
    exact .starred h hu

theorem assignableItem_of_targets? {us : List Term} (h : ∀ t ∈ ts, Listed t)
    (htargets : targets? ts = some us) :
    ∀ u ∈ us, AssignableItem u := by
  induction ts generalizing us with
  | nil =>
    obtain rfl := Option.some.inj htargets
    nofun
  | cons t ts ih =>
    obtain ⟨u, us, hu, hus, rfl⟩ := cases_of_targets? htargets
    obtain ⟨ht, hts⟩ := List.forall_mem_cons.mp h
    exact List.forall_mem_cons.mpr ⟨ht.assignableItem hu, ih hts hus⟩

theorem Sound.assignable (h : Sound t) (htarget : target? t = some u) : Assignable u := by
  have hitem : AssignableItem u := .plain h.rereads htarget
  obtain ⟨s, e, form⟩ := t
  obtain ⟨form', hform, rfl⟩ := Option.map_eq_some_iff.mp htarget
  cases form with
  | tuple items =>
    obtain ⟨us, hus, rfl⟩ := Option.map_eq_some_iff.mp hform
    cases us with
    | nil => exact .item hitem nofun
    | cons u us => exact .tuple (assignableItem_of_targets? (h.items items rfl) hus)
  | starred value =>
    obtain ⟨s', e', inside⟩ := value
    obtain ⟨u, -, rfl⟩ := exists_of_starred hform
    exact .item hitem nofun
  | list items =>
    obtain ⟨us, -, rfl⟩ := Option.map_eq_some_iff.mp hform
    exact .item hitem nofun
  | _ =>
    first
      | (obtain rfl := Option.some.inj hform; exact .item hitem nofun)
      | cases hform

/-- Something to assign to, by itself and among others. -/
structure IsTarget (t : Term) : Prop where
  item : AssignableItem t
  whole : Assignable t

section
variable {g : Grammar} {primary : Reader Term} {inner : FieldReader}
open Delivers

theorem delivers_target (h : Delivers Sound primary) : Delivers IsTarget (target primary) := by
  refine here.bind fun start _ => (accept _).bind fun starred _ => h.bind fun value hvalue => ?_
  cases htarget : target? value with
  | none => exact failure
  | some found =>
    refine ite (fun _ => close fun stop => ?_) fun _ =>
      pure ⟨.plain hvalue.rereads htarget, hvalue.assignable htarget⟩
    exact ⟨.starred hvalue.rereads htarget, .item (.starred hvalue.rereads htarget) nofun⟩

theorem delivers_targets (h : Delivers Sound primary) : Delivers Assignable (itemsTerm (target primary)) := by
  refine here.bind fun start _ => (items (delivers_target h)).bind fun (found, commas) ⟨hsome, hfound⟩ => ?_
  dsimp only at hsome hfound ⊢
  split
  · exact .pure (hfound _ List.mem_cons_self).whole
  · obtain ⟨first, others, rfl⟩ := List.exists_cons_of_ne_nil hsome
    exact close fun stop => .tuple fun t ht => (hfound t ht).item

namespace Grammar.IsSound

theorem clause (hg : g.IsSound) (h : Delivers Sound primary) :
    Delivers (fun found => ∀ c ∈ found, c.Rereads) (g.clause primary) := by
  refine (accept _).bind fun isAsync _ => peek.bind fun _ _ => ite (fun _ => ?_) fun _ => pure nofun
  refine (keyword _).bind fun _ _ => (delivers_targets h).bind fun found hfound => (keyword _).bind
    fun _ _ => ?_
  refine hg.disjunction.bind fun source hsource => (many (Q := Sound) ?_).bind
    fun conditions hconditions => ?_
  · refine (accept _).bind fun _ _ => ite (fun _ => ?_) fun _ => pure nofun
    exact hg.disjunction.bind fun test htest => pure fun _ hsome => Option.some.inj hsome ▸ htest
  · refine pure fun _ hsome => Option.some.inj hsome ▸ ?_
    exact .mk hfound hsource.rereads fun test htest => (hconditions test htest).rereads

theorem clauses (hg : g.IsSound) (h : Delivers Sound primary) :
    Delivers (fun found => ∀ c ∈ found, c.Rereads) (g.clauses primary) := many (hg.clause h)

variable (hg : g.IsSound) (h : Delivers Sound primary)
include hg h

/-- The clauses behind the first item of a display, which may have none. -/
theorem loops {β : Type} {Q : β → Prop} {first : Term} {k : List Clause → Reader β}
    (hk : ∀ loops, (loops ≠ [] → first.isStarred = false) → (∀ c ∈ loops, c.Rereads) → Delivers Q (k loops)) :
    Delivers Q (if first.isStarred then do
      let found ← Pure.pure []
      k found
    else do
      let found ← g.clauses primary
      k found) := by
  refine ite (fun _ => ?_) fun hstarred => ?_
  · exact hk [] (fun h => absurd rfl h) nofun
  · exact (hg.clauses h).bind fun loops => hk loops fun _ => by simpa using hstarred

theorem parenthesized (start : Nat) : Delivers Sound (g.parenthesized primary start) := by
  refine (accept _).bind fun _ _ => ite (fun _ => close fun stop => sound_tuple nofun) fun _ => ?_
  refine peek.bind fun _ _ => ite (fun _ => ?_) fun _ => ?_
  · exact hg.yieldTerm.bind fun value hvalue => (symbol _).bind fun _ _ => pure hvalue
  refine hg.item.bind fun first hfirst => hg.loops h fun loops hstar hloops => ?_
  refine ite (fun hsome => (symbol _).bind fun _ _ => close fun stop => ?_) fun _ => ?_
  · have hsome : loops ≠ [] := by simpa using hsome
    exact sound_of_rereads (rereads_generator (hfirst.sound (hstar hsome)).rereads hloops hsome) rfl
  refine (itemsAfter hfirst hg.item).bind fun (found, commas) hfound => (symbol _).bind fun _ _ => ?_
  refine ite (fun _ => close fun stop => sound_tuple hfound.2) fun _ => ite (fun _ => failure)
    fun hstarred => ?_
  exact pure (hfirst.sound (by simpa using hstarred))

theorem bracketed (start : Nat) : Delivers Sound (g.bracketed primary start) := by
  refine (accept _).bind fun _ _ => ite (fun _ => close fun stop => ?_) fun _ => ?_
  · exact sound_of_rereads (rereads_list nofun) rfl
  refine hg.item.bind fun first hfirst => hg.loops h fun loops hstar hloops => ?_
  refine ite (fun hsome => (symbol _).bind fun _ _ => close fun stop => ?_) fun _ => ?_
  · have hsome : loops ≠ [] := by simpa using hsome
    exact sound_of_rereads (rereads_listOf (hfirst.sound (hstar hsome)).rereads hloops hsome) rfl
  refine (itemsAfter hfirst hg.item).bind fun (found, commas) hfound => (symbol _).bind fun _ _ => close
    fun stop => ?_
  exact sound_of_rereads (rereads_list fun t ht => (hfound.2 t ht).listed) rfl

omit h in
theorem entry : Delivers Entry.Rereads g.entry := by
  refine (accept _).bind fun _ _ => ite (fun _ => ?_) fun _ => ?_
  · exact hg.bitOr.bind fun value hvalue => pure (.spread hvalue.rereads)
  · refine hg.expression.bind fun key hkey => (symbol _).bind fun _ _ => hg.expression.bind
      fun value hvalue => ?_
    exact pure (.pair hkey.rereads hvalue.rereads)

omit h in
theorem dictAfter {first : Entry} (hfirst : first.Rereads) (start : Nat) :
    Delivers Sound (g.dictAfter start first) :=
  (itemsAfter hfirst hg.entry).bind fun (_, _) hfound => (symbol _).bind fun _ _ => close fun _ =>
    sound_of_rereads (rereads_dict hfound.2) rfl

theorem braced (start : Nat) : Delivers Sound (g.braced primary start) := by
  refine (accept _).bind fun _ _ => ite (fun _ => close fun stop => ?_) fun _ => ?_
  · exact sound_of_rereads (rereads_dict nofun) rfl
  refine peek.bind fun _ _ => ite (fun _ => hg.entry.bind fun first hfirst => hg.dictAfter hfirst start)
    fun _ => ?_
  refine delivers_namesNext.bind fun binds _ => hg.item.bind fun first hfirst => (accept _).bind
    fun colon _ => ?_
  refine ite (fun hpair => ?_) fun _ => hg.loops h fun loops hstar hloops => ?_
  · have hplain : first.isStarred = false := by
      simp only [Bool.and_eq_true, Bool.not_eq_true'] at hpair
      exact hpair.1.2
    have hkey := (hfirst.sound hplain).rereads
    refine hg.expression.bind fun value hvalue => (hg.clauses h).bind fun loops hloops => ?_
    refine ite (fun hsome => (symbol _).bind fun _ _ => close fun stop => ?_) fun _ => ?_
    · exact sound_of_rereads (rereads_dictOf hkey hloops (by simpa using hsome) hvalue.rereads) rfl
    · exact hg.dictAfter (.pair hkey hvalue.rereads) start
  refine ite (fun hsome => (symbol _).bind fun _ _ => close fun stop => ?_) fun _ => ?_
  · have hsome : loops ≠ [] := by simpa using hsome
    exact sound_of_rereads (rereads_setOf (hfirst.sound (hstar hsome)).rereads hloops hsome) rfl
  refine (itemsAfter hfirst hg.item).bind fun (found, commas) hfound => (symbol _).bind fun _ _ => close
    fun stop => ?_
  exact sound_of_rereads (rereads_set (fun t ht => (hfound.2 t ht).listed) hfound.1) rfl

end Grammar.IsSound

theorem Sound.subscripts (h : Sound t) (hstar : t.isStarred = false) : Subscripts t := by
  cases hitems : t.elements? with
  | none => exact .one (.item (.term h.rereads)) hstar (by simp [hitems])
  | some ts =>
    cases ts with
    | nil => exact .one (.item (.term h.rereads)) hstar (by simp [hitems])
    | cons u us =>
      obtain ⟨s, e, form⟩ := t
      cases form with
      | tuple items =>
        obtain rfl := Option.some.inj hitems
        exact .tuple fun v hv => .item (h.items _ rfl v hv)
      | _ => cases hitems

/-- An index, by itself and among others. -/
structure IsIndex (t : Term) : Prop where
  item : Indexes t
  alone : t.isStarred = false → Subscripts t

theorem Sound.isIndex (h : Sound t) : IsIndex t := ⟨.item (.term h.rereads), h.subscripts⟩

namespace Grammar.IsSound
variable (hg : g.IsSound) (h : Delivers Sound primary)
include hg

theorem bound : Delivers (fun bound => ∀ t ∈ bound, Sound t) g.bound := by
  refine peek.bind fun _ _ => ?_
  split
  case h_4 => exact hg.expression.bind fun value hvalue => pure fun _ hsome => Option.some.inj hsome ▸ hvalue
  all_goals exact pure nofun

theorem sliced (start : Nat) : Delivers IsIndex (g.sliced start) := by
  refine hg.bound.bind fun lower hlower => (accept _).bind fun _ _ => ite (fun _ => ?_) fun _ => ?_
  · refine hg.bound.bind fun upper hupper => (accept _).bind fun _ _ => ?_
    have hslice (step : Option Term) (hstep : ∀ t ∈ step, Sound t) :
        Delivers IsIndex (Reader.close start (.slice lower upper step)) := close fun stop => by
      have hindexes : Indexes (.mk start stop (.slice lower upper step)) :=
        .slice (fun t ht => (hlower t ht).rereads) (fun t ht => (hupper t ht).rereads)
          fun t ht => (hstep t ht).rereads
      exact ⟨hindexes, fun _ => .one hindexes rfl nofun⟩
    exact ite (fun _ => hg.bound.bind hslice) fun _ => hslice none nofun
  · split
    · exact pure (hlower _ rfl).isIndex
    · exact failure

theorem index : Delivers IsIndex g.index := by
  rw [index_eq]
  refine here.bind fun start _ => (accept _).bind fun _ _ => ite (fun _ => ?_) fun _ => ?_
  · exact hg.expression.bind fun value hvalue => close fun stop => ⟨.item (.starred hvalue.rereads), nofun⟩
  refine delivers_namesNext.bind fun _ _ => ite (fun _ => hg.named.imp fun _ => Sound.isIndex) fun _ =>
    hg.sliced start

theorem indices : Delivers Subscripts g.indices := by
  refine here.bind fun start _ => (items hg.index).bind fun (found, commas) ⟨hsome, hfound⟩ => ?_
  dsimp only at hsome hfound ⊢
  split
  · have hone := hfound _ List.mem_cons_self
    refine ite (fun _ => close fun stop => .tuple ?_) fun hstarred =>
      pure (hone.alone (by simpa using hstarred))
    exact List.forall_mem_singleton.mpr hone.item
  · obtain ⟨first, others, rfl⟩ := List.exists_cons_of_ne_nil hsome
    exact close fun stop => .tuple fun t ht => (hfound t ht).item

end Grammar.IsSound

/-- Arguments that are printed as themselves. -/
structure Grammar.Arguments.IsSound (read : Arguments) : Prop where
  plain : ∀ t ∈ read.plain, IsItem t
  keywords : ∀ w ∈ read.keywords, w.Rereads

namespace Grammar.IsSound
variable (hg : g.IsSound) (h : Delivers Sound primary)
include hg

theorem argument {read : Arguments} (hread : read.IsSound) :
    Delivers Arguments.IsSound (g.argument read) := by
  obtain ⟨hplain, hkeywords⟩ := hread
  refine here.bind fun start _ => (accept _).bind fun _ _ => ite (fun _ => ?_) fun _ => ?_
  · refine hg.expression.bind fun value hvalue => pure ⟨hplain, ?_⟩
    exact List.forall_mem_cons.mpr ⟨.spread hvalue.rereads, hkeywords⟩
  refine (accept _).bind fun _ _ => ite (fun _ => ?_) fun _ => ?_
  · refine guarded fun _ => hg.expression.bind fun value hvalue => ?_
    refine (close (Q := IsItem) fun stop => isItem_starred hvalue.rereads).bind fun t ht =>
      pure ⟨?_, hkeywords⟩
    exact List.forall_mem_cons.mpr ⟨ht, hplain⟩
  · refine peek.bind fun kind? hkind => peekSecond.bind fun _ _ => ?_
    split
    · refine next.bind fun _ _ => next.bind fun _ _ => hg.expression.bind fun value hvalue =>
        pure ⟨hplain, ?_⟩
      exact List.forall_mem_cons.mpr ⟨.named (hkind _ rfl) hvalue.rereads, hkeywords⟩
    · refine guarded fun _ => hg.named.bind fun value hvalue => pure ⟨?_, hkeywords⟩
      exact List.forall_mem_cons.mpr ⟨hvalue.isItem, hplain⟩

theorem arguments (h : Delivers Sound primary) (start : Nat) :
    Delivers Arguments.IsSound (g.arguments primary start) := by
  have hnone : Arguments.IsSound {} := ⟨nofun, nofun⟩
  refine (accept _).bind fun _ _ => ite (fun _ => pure hnone) fun _ => ?_
  refine (hg.argument hnone).bind fun first hfirst => ?_
  extract_lets rest
  have hrest (loops : List Clause) (hstar : loops ≠ [] → ∀ t ∈ first.plain, t.isStarred = false)
      (hloops : ∀ c ∈ loops, c.Rereads) : Delivers Arguments.IsSound (rest loops) := by
    unfold rest
    split
    · next one c cs hone =>
      have hitem := hfirst.plain one (hone ▸ List.mem_cons_self)
      have hplain := hstar (List.cons_ne_nil c cs) one (hone ▸ List.mem_cons_self)
      refine (symbol _).bind fun _ _ => (close (Q := Sound) fun stop => ?_).bind fun t ht => pure ⟨?_, nofun⟩
      · exact sound_of_rereads (rereads_generator (hitem.sound hplain).rereads hloops
          (List.cons_ne_nil c cs)) rfl
      · exact List.forall_mem_singleton.mpr ht.isItem
    · refine (repeating (Q := Arguments.IsSound) (fun read hread => ?_) hfirst).bind fun read hread => ?_
      · refine (accept _).bind fun _ _ => ite (fun _ => pure nofun) fun _ => peek.bind fun _ _ => ?_
        refine ite (fun _ => pure fun _ hsome => Option.some.inj hsome ▸ hread) fun _ => ?_
        exact (hg.argument hread).bind fun read hread => pure fun _ hsome => Option.some.inj hsome ▸ hread
      · refine (symbol _).bind fun _ _ => pure ⟨?_, ?_⟩
        · exact fun t ht => hread.plain t (List.mem_reverse.mp ht)
        · exact fun w hw => hread.keywords w (List.mem_reverse.mp hw)
  split
  · next one hone =>
    refine hg.loops h fun loops hstar hloops => hrest loops (fun hsome t ht => ?_) hloops
    rw [hone, List.mem_singleton] at ht
    exact ht ▸ hstar hsome
  · exact hrest [] (fun hsome => absurd rfl hsome) nofun

end Grammar.IsSound

namespace Grammar.Parameters

theorem follow_concat {items : List ParameterItem} {item : ParameterItem} {read : Parameters}
    (h : read.Follow items) (hlast : (items.foldl push read).last = false)
    (hallows : (items.foldl push read).Allows item) : read.Follow (items ++ [item]) := by
  induction items generalizing read with
  | nil => exact ⟨hlast, hallows, trivial⟩
  | cons next items ih => exact ⟨h.1, h.2.1, ih h.2.2 hlast hallows⟩

/-- Parameters that have been read from items which are printed as themselves. -/
def IsSound (read : Parameters) : Prop := ∃ items, Parameters.Follow {} items ∧ read = items.foldl push {} ∧
  ∀ item ∈ items, item.Rereads

theorem IsSound.push {read : Parameters} (h : read.IsSound) (hlast : ¬read.last = true) {item : ParameterItem}
    (hallows : read.Allows item) (hitem : item.Rereads) : (read.push item).IsSound := by
  obtain ⟨items, hfollow, rfl, hitems⟩ := h
  refine ⟨items ++ [item], follow_concat hfollow (by simpa using hlast) hallows, ?_, ?_⟩
  · rw [List.foldl_append]
    rfl
  · exact List.forall_mem_append.mpr ⟨hitems, List.forall_mem_singleton.mpr hitem⟩

end Grammar.Parameters

namespace Grammar.IsSound
variable (hg : g.IsSound)
include hg

theorem parameter {read : Parameters} (hread : read.IsSound) :
    Delivers Parameters.IsSound (g.parameter read) := by
  unfold Grammar.parameter
  extract_lets
  refine guarded fun hlast => ?_
  have hpush (item : ParameterItem) (hallows : read.Allows item) (hitem : item.Rereads) :
      Delivers Parameters.IsSound (Pure.pure (read.push item)) := pure (hread.push hlast hallows hitem)
  refine (accept _).bind fun _ _ => ite (fun _ => ?_) fun _ => ?_
  · exact guarded fun hallows => hpush .slash (Bool.eq_false_of_not_eq_true hallows) .slash
  refine (accept _).bind fun _ _ => ite (fun _ => ?_) fun _ => ?_
  · exact guarded fun hallows => name.bind fun id hid =>
      hpush (.keywords id) (Bool.eq_false_of_not_eq_true hallows) (.keywords hid)
  refine (accept _).bind fun _ _ => ite (fun _ => ?_) fun _ => ?_
  · refine guarded fun hallows => peek.bind fun _ _ => ?_
    have hstar : read.star = false := Bool.eq_false_of_not_eq_true hallows
    split
    · exact hpush (.star none) hstar (.star nofun)
    · exact name.bind fun id hid => hpush (.star (some id)) hstar
        (.star fun _ hsome => Option.some.inj hsome ▸ hid)
  · refine name.bind fun id hid => (accept _).bind fun _ _ => ?_
    extract_lets rest
    have hrest (default : Option Term) (h : ∀ t ∈ default, Rereads t) :
        Delivers Parameters.IsSound (rest default) :=
      guarded fun hallows => hpush (.plain id default) (Bool.eq_false_of_not_eq_true hallows) (.plain hid h)
    refine ite (fun _ => hg.expression.bind fun value hvalue => hrest (some value) ?_) fun _ =>
      hrest none nofun
    exact fun _ hsome => Option.some.inj hsome ▸ hvalue.rereads

theorem parameters : Delivers (fun params => ∃ items, Parameters.Follow {} items ∧
    (items.foldl Parameters.push {}).waiting = false ∧
      params = (items.foldl Parameters.push {}).found.reverse ∧
      ∀ item ∈ items, item.Rereads) g.parameters := by
  have hnone : Parameters.IsSound {} := ⟨[], trivial, rfl, nofun⟩
  refine (repeating (Q := fun (s : Parameters × Bool) => s.1.IsSound)
    (fun (read, more) hread => ?_) hnone).bind
    fun (read, more) hread => ?_
  · refine peek.bind fun _ _ => ite (fun _ => pure nofun) fun _ => ?_
    refine (hg.parameter hread).bind fun next hnext => (accept _).bind fun _ _ => pure fun _ hsome => ?_
    obtain rfl := Option.some.inj hsome
    exact hnext
  · refine guarded fun hwaiting => pure ?_
    obtain ⟨items, hfollow, rfl, hitems⟩ := hread
    exact ⟨items, hfollow, by simpa using hwaiting, rfl, hitems⟩

theorem lambda : Delivers Sound g.lambda := by
  refine here.bind fun start _ => (keyword _).bind fun _ _ => hg.parameters.bind fun params hparams => ?_
  refine (symbol _).bind fun _ _ => hg.expression.bind fun body hbody => close fun stop => ?_
  obtain ⟨items, hfollow, hend, rfl, hitems⟩ := hparams
  exact sound_of_rereads (rereads_lambda hitems hfollow hend hbody.rereads) rfl

end Grammar.IsSound

theorem delivers_stringLiterals :
    Delivers (fun (found : List StringLiteral) => ∀ s ∈ found, s.marks.format = false)
    stringLiterals := by
  refine many (Q := fun (s : StringLiteral) => s.marks.format = false) (peek.bind fun kind? hkind => ?_)
  split
  · exact next.bind fun _ _ => pure fun _ hsome => Option.some.inj hsome ▸ hkind _ rfl
  · exact pure nofun

namespace Grammar.IsSound
variable (hg : g.IsSound) (h : Delivers Sound primary)
include hg h

theorem atom : Delivers Sound (g.atom inner primary) := by
  refine here.bind fun start _ => peek.bind fun _ _ => ?_
  have hliteral {value : Literal} (hvalue : value.IsSound) :
      Delivers Sound (Reader.close start (.literal value)) :=
    close fun stop => sound_of_rereads (rereads_literal hvalue) rfl
  split
  · refine delivers_stringLiterals.bind fun literals hliterals => ?_
    cases hform : stringsForm? inner literals with
    | none => exact failure
    | some form =>
      obtain ⟨value, rfl, hvalue⟩ := isString_of_stringsForm? hliterals hform
      exact hliteral hvalue.isSound
  · refine next.bind fun kind hkind => ?_
    split
    · exact close fun stop => sound_of_rereads (rereads_name hkind) rfl
    · exact hliteral (IsFigure.isSound hkind)
    · exact hliteral trivial
    · exact hliteral trivial
    · exact hliteral trivial
    · exact hliteral trivial
    · exact hg.parenthesized h start
    · exact hg.bracketed h start
    · exact hg.braced h start
    · exact failure

theorem primaryOf : Delivers Sound (g.primaryOf inner primary) := by
  have hclose {start : Nat} {form : Form} (h : ∀ stop, Sound (.mk start stop form)) :
      Delivers (fun t? => ∀ t ∈ t?, Sound t) (do Pure.pure (some (← Reader.close start form))) :=
    (close h).bind fun t ht => pure fun _ hsome => Option.some.inj hsome ▸ ht
  refine here.bind fun start _ => (hg.atom h).bind fun first hfirst => ?_
  refine repeating (fun value hvalue => ?_) hfirst
  refine peek.bind fun _ _ => ?_
  split
  · refine next.bind fun _ _ => name.bind fun attr hattr => hclose fun stop => ?_
    exact sound_of_rereads (rereads_attribute hvalue.rereads hattr) rfl
  · refine here.bind fun opening _ => next.bind fun _ _ => (hg.arguments h opening).bind fun read hread =>
      hclose fun stop => ?_
    exact sound_of_rereads (rereads_call hvalue.rereads (fun t ht => (hread.plain t ht).listed)
      hread.keywords) rfl
  · refine next.bind fun _ _ => hg.indices.bind fun found hfound => (symbol _).bind fun _ _ => hclose
      fun stop => ?_
    exact sound_of_rereads (rereads_subscript hvalue.rereads hfound) rfl
  · exact pure nofun

theorem power : Delivers Sound (g.power primary) := by
  refine here.bind fun start _ => (accept _).bind fun _ _ => ?_
  have hrest (base : Term) (hbase : Sound base) : Delivers Sound (do
      if ← Reader.accept (.symbol "**") then
        let exponent ← g.factor
        Reader.close start (.binary .power base exponent)
      else Pure.pure base) := by
    refine (accept _).bind fun _ _ => ite (fun _ => ?_) fun _ => pure hbase
    refine hg.factor.bind fun exponent hexponent => close fun stop => ?_
    exact sound_of_rereads (rereads_binary hbase.rereads hexponent.rereads) rfl
  refine ite (fun _ => h.bind fun value hvalue => ?_) fun _ => h.bind hrest
  refine (close (Q := Sound) fun stop => ?_).bind hrest
  exact sound_of_rereads (rereads_await hvalue.rereads) rfl

theorem factorOf : Delivers Sound (g.factorOf primary) := by
  have hsigned (op : UnaryOp) (start : Nat) : Delivers Sound (do
      let _ ← Reader.next
      let operand ← g.factor
      Reader.close start (.unary op operand)) :=
    next.bind fun _ _ => hg.factor.bind fun operand hoperand => close fun stop =>
      sound_of_rereads (rereads_unary hoperand.rereads) rfl
  refine here.bind fun start _ => peek.bind fun _ _ => ?_
  split
  · exact hsigned _ start
  · exact hsigned _ start
  · exact hsigned _ start
  · exact hg.power h

omit h in
theorem expressionOf : Delivers Sound g.expressionOf := by
  refine peek.bind fun _ _ => ite (fun _ => hg.lambda) fun _ => ?_
  refine here.bind fun start _ => hg.disjunction.bind fun body hbody => (accept _).bind fun _ _ => ?_
  refine ite (fun _ => ?_) fun _ => pure hbody
  refine hg.disjunction.bind fun test htest => (keyword _).bind fun _ _ => hg.expression.bind
    fun other hother => ?_
  exact close fun stop => sound_of_rereads (rereads_choice htest.rereads hbody.rereads hother.rereads) rfl

end Grammar.IsSound

/-- Whatever the grammar reads, at any depth, is printed as itself. -/
theorem sound_grammarAt (inner : FieldReader) (depth : Nat) :
    (grammarAt inner depth).1.IsSound ∧ Delivers Sound (grammarAt inner depth).2 := by
  induction depth with
  | zero => exact ⟨⟨failure, failure, failure⟩, failure⟩
  | succ depth ih =>
    obtain ⟨hg, hprimary⟩ := ih
    -- a deeper grammar reads its parts with the one below it
    have hhere : Delivers Sound (Grammar.primaryOf _ inner _) := hg.primaryOf hprimary
    exact ⟨⟨hg.expressionOf, hg.inversionOf, hg.factorOf hhere⟩, hhere⟩

end
end ViewTree.Embedded
