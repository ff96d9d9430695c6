import ViewTree.Proofs.Printing.Comprehensions
import ViewTree.Proofs.Printing.Terms

/-!
Comprehensions as they are printed. What is assigned to is printed like the term it was read as, a tuple
without parentheses.
-/
namespace ViewTree.Embedded
open Text Grammar

theorem cases_of_targets? {t : Term} {ts us : List Term} (h : targets? (t :: ts) = some us) :
    ∃ u vs, target? t = some u ∧ targets? ts = some vs ∧ us = u :: vs := by
  rw [targets?] at h
  split at h
  · next u vs hu hvs => exact ⟨u, vs, hu, hvs, (Option.some.inj h).symm⟩
  · cases h

theorem exists_of_starred {s e : Nat} {form form' : Form}
    (h : targetForm? (.starred (.mk s e form)) = some form') :
    ∃ u, target? (.mk s e form) = some u ∧ form' = .starred u := by
  have hvalue : targetForm? (.starred (.mk s e form)) = none ∨
      targetForm? (.starred (.mk s e form)) = (target? (.mk s e form)).map .starred := by
    cases form <;> first | exact .inr rfl | exact .inl rfl
  rcases hvalue with hnone | hvalue
  · cases hnone.symm.trans h
  · obtain ⟨u, hu, rfl⟩ := Option.map_eq_some_iff.mp (hvalue.symm.trans h)
    exact ⟨u, hu, rfl⟩

mutual

/-- What is assigned to is printed as the expression that it was read as. -/
theorem print_target {inField : Bool} {place : Level} : ∀ {t u : Term}, target? t = some u →
    u.print inField place = t.print inField place
  | .mk s e form, u, h => by
    obtain ⟨form', hform, rfl⟩ := Option.map_eq_some_iff.mp h
    exact print_targetForm hform

theorem print_targetForm {inField : Bool} {place : Level} : ∀ {form form' : Form},
    targetForm? form = some form' → form'.print inField place = form.print inField place
  | .name id, _, h => by
    obtain rfl := Option.some.inj h
    rfl
  | .attribute value attr, _, h => by
    obtain rfl := Option.some.inj h
    rfl
  | .subscript value index, _, h => by
    obtain rfl := Option.some.inj h
    rfl
  | .tuple items, _, h => by
    obtain ⟨items', hitems, rfl⟩ := Option.map_eq_some_iff.mp h
    have hempty : items'.isEmpty = items.isEmpty := by
      cases items with
      | nil =>
        obtain rfl := Option.some.inj hitems
        rfl
      | cons t ts =>
        obtain ⟨u, us, -, -, rfl⟩ := cases_of_targets? hitems
        rfl
    rw [Form.print, Form.print, print_targets hitems, hempty]
  | .list items, _, h => by
    obtain ⟨items', hitems, rfl⟩ := Option.map_eq_some_iff.mp h
    rw [Form.print, Form.print, print_targets hitems]
  | .starred (.mk s e form), _, h => by
    obtain ⟨value', hvalue, rfl⟩ := exists_of_starred h
    rw [Form.print, Form.print, print_target hvalue]

theorem print_targets {inField : Bool} {place : Level} : ∀ {ts us : List Term}, targets? ts = some us →
    Term.printAll inField place us = Term.printAll inField place ts
  | [], _, h => by
    obtain rfl := Option.some.inj h
    rfl
  | t :: ts, _, h => by
    obtain ⟨u, us, ht, hts, rfl⟩ := cases_of_targets? h
    rw [Term.printAll, Term.printAll, print_target ht, print_targets hts]

end

/-- Behind a star or none, the text is read as something to assign to. -/
inductive AssignableItem : Term → Prop where
  | plain {t u} (h : Rereads t) (htarget : target? t = some u) : AssignableItem u
  | starred {s e t u} (h : Rereads t) (htarget : target? t = some u) : AssignableItem (.mk s e (.starred u))

/-- A term that is printed as itself; so are the items of a tuple. -/
structure Sound (t : Term) : Prop where
  rereads : Rereads t
  items : ∀ ts, t.elements? = some ts → ∀ u ∈ ts, Listed u

/-- Something to assign to that is printed as itself. -/
inductive Assignable : Term → Prop where
  | item {t} (h : AssignableItem t) (hitems : ∀ u us, t.elements? ≠ some (u :: us)) : Assignable t
  | tuple {s e t ts} (h : ∀ u ∈ t :: ts, AssignableItem u) : Assignable (.mk s e (.tuple (t :: ts)))

section
variable {s e : Nat} {t u : Term} {ts us : List Term} {codes : Codes} {place : Level}

/-- A target is printed alike in all places but the one where tuples stand without parentheses. -/
theorem print_place (htarget : target? t = some u) {place place' : Level} (hplace : 2 < place)
    (hplace' : 2 < place') :
    t.print false place = t.print false place' := by
  obtain ⟨s, e, form⟩ := t
  obtain ⟨form', hform, -⟩ := Option.map_eq_some_iff.mp htarget
  cases form with
  | tuple items =>
    have htight {p : Level} (hp : 2 < p) : (items.isEmpty || decide (Level.tuple < p)) = true := by
      simp [show Level.tuple < p from hp]
    rw [Term.print, Form.print, Term.print, Form.print, htight hplace, htight hplace']
  | subscript value index => exact print_subscript_place value index
  | _ => first | rfl | cases hform

theorem AssignableItem.written (h : AssignableItem t) (hplace : 2 < place)
    (hprint : t.print false place = some codes) :
    ∃ kinds, PartOf codes kinds ∧ TargetItemAt kinds t.unplaced := by
  cases h with
  | @plain u _ h htarget =>
    rw [print_target htarget, print_place htarget hplace (by decide : 2 < Level.atom)] at hprint
    obtain ⟨ks, -, hks, hreads⟩ := h.part (by decide) (by decide) hprint
    exact ⟨ks, hks, .plain hreads (by rw [target?_unplaced, htarget, Option.map_some])⟩
  | @starred s e v w h htarget =>
    obtain ⟨inside, hinside, hcodes⟩ := Option.bind_eq_some_iff.mp hprint
    obtain rfl := Option.some.inj hcodes
    rw [print_target htarget, print_place htarget (by decide) (by decide : 2 < Level.atom)] at hinside
    obtain ⟨ks, hstart, hks, hreads⟩ := h.part (by decide) (by decide) hinside
    exact ⟨_, scans_star hstart hks, .starred hreads (by rw [target?_unplaced, htarget, Option.map_some])⟩

theorem Assignable.written (h : Assignable t) (hprint : t.print false .tuple = some codes) :
    ∃ kinds, PartOf codes kinds ∧ TargetAt kinds t.unplaced := by
  cases h with
  | item h hitems =>
    have hsame : t.print false .tuple = t.print false .yield := by
      obtain ⟨s, e, form⟩ := t
      cases form with
      | tuple items =>
        cases items with
        | nil => rfl
        | cons u us => exact absurd rfl (hitems u us)
      | unary op | binary op | bool op => cases op <;> rfl
      | yield value => cases value <;> rfl
      | subscript value index => exact print_subscript_place value index
      | _ => rfl
    rw [hsame] at hprint
    obtain ⟨ks, hks, hitem⟩ := h.written (by decide) hprint
    exact ⟨ks, hks, .one hitem⟩
  | @tuple s e t ts h =>
    obtain ⟨parts, hparts, hcodes⟩ := Option.bind_eq_some_iff.mp hprint
    obtain rfl := Option.some.inj hcodes
    obtain ⟨kss, hkss, hitems⟩ := exists_forall₂ (P := PartOf)
      (Q := fun ks (u : Term) => TargetItemAt ks u.unplaced)
      (forall₂_of_printAll hparts) fun u hu codes hcodes => (h u hu).written (by decide) hcodes
    refine ⟨_, scans_tupleItems hkss, ?_⟩
    obtain _ | ⟨hfirst, hothers⟩ := hitems
    rw [Term.unplaced, Form.unplaced, Term.allUnplaced_eq]
    exact .tuple hfirst (by rwa [List.forall₂_map_right_iff])

end

/-- A `for` of a comprehension whose parts are printed as themselves. -/
inductive Clause.Rereads : Clause → Prop where
  | mk {isAsync target source conditions} (htarget : Assignable target) (hsource : Embedded.Rereads source)
      (hconditions : ∀ t ∈ conditions, Embedded.Rereads t) :
    Clause.Rereads (.mk isAsync target source conditions)

section
variable {s e : Nat} {t u : Term} {ts : List Term} {cs : List Clause} {codes : Codes} {parts : List Codes}

theorem exists_conditions (h : ∀ u ∈ ts, Rereads u)
    (hparts : List.Forall₂ (fun u codes => u.print false 5 = some codes) ts parts) {first : List Char}
    {ks : List LexemeKind} (hks : Scans endsPart first ks) :
    ∃ kss, Scans endsPart (first ++ charsOf (parts.flatMap (codesOf " if " ++ ·)))
      (ks ++ led (.keyword "if") kss) ∧
      List.Forall₂ (ReadsAt 5) kss (ts.map Term.unplaced) := by
  induction hparts generalizing first ks with
  | nil => exact ⟨[], by simpa [led] using hks, .nil⟩
  | @cons u part ts parts hu _ ih =>
    obtain ⟨hrereads, hothers⟩ := List.forall_mem_cons.mp h
    obtain ⟨ls, -, hls, hreads⟩ := hrereads.part (l := 5) (by decide) (by decide) hu
    obtain ⟨kss, hscans, htests⟩ := ih hothers (scans_between hks (scans_word (s := "if") (by decide)) hls)
    exact ⟨ls :: kss, by simpa [led_cons] using hscans, .cons hreads htests⟩

theorem exists_clauses (h : ∀ c ∈ cs, c.Rereads) (hprint : Clause.printAll false cs = some codes)
    {first : List Char} {ks : List LexemeKind} (hks : Scans endsPart first ks) :
    ∃ kss, Scans endsPart (first ++ charsOf codes) (ks ++ kss.flatten) ∧
      List.Forall₂ ClauseAt kss (cs.map Clause.unplaced) := by
  induction cs generalizing codes first ks with
  | nil =>
    obtain rfl := Option.some.inj hprint
    exact ⟨[], by simpa using hks, .nil⟩
  | cons c cs ih =>
    obtain ⟨hc, hcs⟩ := List.forall_mem_cons.mp h
    obtain @⟨isAsync, target, source, conditions, htarget, hsource, hconditions⟩ := hc
    obtain ⟨head, hhead, hprint⟩ := Option.bind_eq_some_iff.mp hprint
    obtain ⟨origin, horigin, hprint⟩ := Option.bind_eq_some_iff.mp hprint
    obtain ⟨tests, htests, hprint⟩ := Option.bind_eq_some_iff.mp hprint
    obtain ⟨later, hlater, hprint⟩ := Option.bind_eq_some_iff.mp hprint
    obtain rfl := Option.some.inj hprint
    obtain ⟨ls, hls, htarget⟩ := htarget.written hhead
    obtain ⟨ms, -, hms, hsource⟩ := hsource.part (l := 5) (by decide) (by decide) horigin
    have hfor : Scans anyChar (if isAsync then " async for " else " for ").toList
        ((if isAsync then [.keyword "async"] else []) ++ [.keyword "for"]) := by
      cases isAsync with
      | true =>
        show Scans anyChar " async for ".toList [.keyword "async", .keyword "for"]
        exact (scans_word (s := "async") (by decide)).append_any
          ((scans_keyword (s := "for") (by decide)).blank rfl)
      | false => exact scans_word (s := "for") (by decide)
    have hstart : StartsWith endsPart (if isAsync then " async for " else " for ").toList := by
      cases isAsync <;> rfl
    have hloop := scans_between ((hks.append hfor hstart).append_any hls)
      (scans_word (s := "in") (by decide)) hms
    obtain ⟨nss, hnss, hconditions⟩ := exists_conditions hconditions (forall₂_of_printAll htests) hloop
    obtain ⟨kss, hkss, hclauses⟩ := ih hcs hlater hnss
    have hclause : ClauseAt _ (.mk isAsync _ _ _) := .mk htarget hsource hconditions
    rw [← Term.allUnplaced_eq] at hclause
    exact ⟨_ :: kss, by simpa using hkss, .cons hclause hclauses⟩

variable (ht : Rereads t) (h : ∀ c ∈ cs, c.Rereads) (hsome : cs ≠ [])
include ht h hsome

theorem rereads_listOf : Rereads (.mk s e (.listOf t cs)) := by
  refine rereads_of_atom fun place codes hprint => ?_
  obtain ⟨head, hhead, hprint⟩ := Option.bind_eq_some_iff.mp hprint
  obtain ⟨tail, htail, hprint⟩ := Option.bind_eq_some_iff.mp hprint
  obtain rfl := Option.some.inj hprint
  obtain ⟨ks, -, hks, hreads⟩ := ht.part (l := 4) (by decide) (by decide) hhead
  obtain ⟨kss, hkss, hclauses⟩ := exists_clauses h htail hks
  refine written_of (a := '[' :: (charsOf head ++ charsOf tail) ++ [']']) (by simp) rfl
    ((hkss.squares rfl).mono fun _ _ => rfl) ?_
  rw [Term.unplaced, Form.unplaced, Clause.allUnplaced_eq]
  exact readsAt_listOf hreads hclauses (by simpa using hsome)

theorem rereads_setOf : Rereads (.mk s e (.setOf t cs)) := by
  refine rereads_of_atom fun place codes hprint => ?_
  obtain ⟨head, hhead, hprint⟩ := Option.bind_eq_some_iff.mp hprint
  obtain ⟨tail, htail, hprint⟩ := Option.bind_eq_some_iff.mp hprint
  obtain rfl := Option.some.inj hprint
  obtain ⟨ks, -, hks, hreads⟩ := ht.part (l := 4) (by decide) (by decide) hhead
  obtain ⟨kss, hkss, hclauses⟩ := exists_clauses h htail hks
  refine written_of (a := '\x7b' :: (charsOf head ++ charsOf tail) ++ ['\x7d']) (by simp) rfl
    ((hkss.braces rfl).mono fun _ _ => rfl) ?_
  rw [Term.unplaced, Form.unplaced, Clause.allUnplaced_eq]
  exact readsAt_setOf hreads hclauses (by simpa using hsome)

theorem rereads_generator : Rereads (.mk s e (.generator t cs)) := by
  refine rereads_of_atom fun place codes hprint => ?_
  obtain ⟨head, hhead, hprint⟩ := Option.bind_eq_some_iff.mp hprint
  obtain ⟨tail, htail, hprint⟩ := Option.bind_eq_some_iff.mp hprint
  obtain rfl := Option.some.inj hprint
  obtain ⟨ks, -, hks, hreads⟩ := ht.part (l := 4) (by decide) (by decide) hhead
  obtain ⟨kss, hkss, hclauses⟩ := exists_clauses h htail hks
  refine written_of (a := '(' :: (charsOf head ++ charsOf tail) ++ [')']) (by simp) rfl
    ((hkss.parentheses rfl).mono fun _ _ => rfl) ?_
  rw [Term.unplaced, Form.unplaced, Clause.allUnplaced_eq]
  exact readsAt_generator hreads hclauses (by simpa using hsome)

theorem rereads_dictOf (hu : Rereads u) : Rereads (.mk s e (.dictOf t u cs)) := by
  refine rereads_of_atom fun place codes hprint => ?_
  obtain ⟨first, hfirst, hprint⟩ := Option.bind_eq_some_iff.mp hprint
  obtain ⟨second, hsecond, hprint⟩ := Option.bind_eq_some_iff.mp hprint
  obtain ⟨tail, htail, hprint⟩ := Option.bind_eq_some_iff.mp hprint
  obtain rfl := Option.some.inj hprint
  obtain ⟨ks, -, hks, hkey⟩ := ht.part (l := 4) (by decide) (by decide) hfirst
  obtain ⟨ls, -, hls, hvalue⟩ := hu.part (l := 4) (by decide) (by decide) hsecond
  obtain ⟨kss, hkss, hclauses⟩ := exists_clauses h htail (scans_pair hks hls)
  refine written_of (a := '\x7b' :: (charsOf first ++ ':' :: ' ' :: charsOf second ++ charsOf tail) ++
    ['\x7d'])
    (by simp) rfl ((hkss.braces rfl).mono fun _ _ => rfl) ?_
  rw [Term.unplaced, Form.unplaced, Clause.allUnplaced_eq, List.append_assoc]
  exact readsAt_dictOf hkey hclauses (by simpa using hsome) hvalue

end
end ViewTree.Embedded
