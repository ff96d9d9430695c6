import ViewTree.Proofs.Printing.Operators
import ViewTree.Proofs.Printing.Written

/-!
Terms as they are printed, form by form, comprehensions and lambdas apart: however a term is printed, its text
is read as the term if the texts of its parts are (`Rereads`).
-/
namespace ViewTree.Embedded
open Text

section
variable {s e : Nat} {t u v : Term} {ts : List Term} {codes : Codes} {parts : List Codes}

theorem scans_word {s : String} (h : s ∈ printedKeywords) :
    Scans anyChar (' ' :: s.toList ++ [' ']) [.keyword s] := (scans_keyword h).spaced rfl

theorem scans_sign {s : String} (h : s ∈ printedSymbols) :
    Scans anyChar (' ' :: s.toList ++ [' ']) [.symbol s] := (scans_symbol h).spaced rfl

/-- Two parts with something between blanks. -/
theorem scans_between {a b middle : List Char} {ks ls ms : List LexemeKind} (ha : Scans endsPart a ks)
    (hmiddle : Scans anyChar (' ' :: middle) ms) (hb : Scans endsPart b ls) :
    Scans endsPart (a ++ (' ' :: middle ++ b)) (ks ++ (ms ++ ls)) := ha.append (hmiddle.append_any hb) rfl

theorem rereads_binary {op : BinaryOp} (ht : Rereads t) (hu : Rereads u) :
    Rereads (.mk s e (.binary op t u)) := by
  refine rereads_of_level (l := op.level) (by cases op <;> decide) (by cases op <;> decide)
    fun place codes hprint => ?_
  obtain ⟨first, hfirst, hprint⟩ := Option.bind_eq_some_iff.mp hprint
  obtain ⟨second, hsecond, hprint⟩ := Option.bind_eq_some_iff.mp hprint
  obtain rfl := Option.some.inj hprint
  refine ⟨_, rfl, ?_⟩
  have hsign : op.sign ∈ printedSymbols := by cases op <;> decide
  by_cases hop : op = .power
  · subst hop
    obtain ⟨ks, hstart, hks, hfirst⟩ := ht.part (l := 17) (by decide) (by decide) hfirst
    obtain ⟨ls, -, hls, hsecond⟩ := hu.part (l := 16) (by decide) (by decide) hsecond
    refine written_of_part (by decide) (scans_between hks (scans_sign hsign) hls)
      (readsAt_power hfirst (hsecond.mono (by decide) (by decide) (by decide))) hstart.append (by simp)
  · have hnext : op.level.next = op.level + 1 := by cases op <;> rfl
    rw [if_neg hop] at hfirst hsecond
    obtain ⟨ks, hstart, hks, hfirst⟩ := ht.part (by cases op <;> decide) (by cases op <;> decide) hfirst
    obtain ⟨ls, -, hls, hsecond⟩ := hu.part (by cases op <;> decide) (by cases op <;> decide) hsecond
    rw [hnext] at hsecond
    exact written_of_part (by cases op <;> decide) (scans_between hks (scans_sign hsign) hls)
      (readsAt_binary hop hfirst hsecond) hstart.append (by simp)

theorem rereads_unary {op : UnaryOp} (ht : Rereads t) : Rereads (.mk s e (.unary op t)) := by
  refine rereads_of_level (l := op.level) (by cases op <;> decide) (by cases op <;> decide)
    fun place codes hprint => ?_
  obtain ⟨inside, hinside, hprint⟩ := Option.bind_eq_some_iff.mp hprint
  obtain rfl := Option.some.inj hprint
  refine ⟨_, rfl, ?_⟩
  obtain ⟨ks, hstart, hks, hreads⟩ := ht.part (by cases op <;> decide) (by cases op <;> decide) hinside
  have hbehind := hstart.imp fun _ => endsSymbol_of_startsPart
  by_cases hop : op = .not
  · subst hop
    have hword := ((scans_keyword (s := "not") (by decide)).blank rfl).append_any hks
    exact written_of_part (by decide) hword (readsAt_not hreads) rfl (by simp [UnaryOp.sign])
  · have hlevel : op.level = 15 := by cases op <;> first | rfl | exact absurd rfl hop
    have hfirst : StartsWith startsPart op.sign.toList := by
      cases op <;> rfl
    have hsign : op.sign ∈ printedSymbols := by cases op <;> first | exact absurd rfl hop | decide
    rw [hlevel] at hreads ⊢
    exact written_of_part (by decide) ((scans_symbol hsign).append hks hbehind) (readsAt_signed hop hreads)
      hfirst.append (by simp)

theorem rereads_await (ht : Rereads t) : Rereads (.mk s e (.await t)) := by
  refine rereads_of_level (l := 17) (by decide) (by decide) fun place codes hprint => ?_
  obtain ⟨inside, hinside, hprint⟩ := Option.bind_eq_some_iff.mp hprint
  obtain rfl := Option.some.inj hprint
  refine ⟨_, rfl, ?_⟩
  obtain ⟨ks, hstart, hks, hreads⟩ := ht.part (l := 18) (by decide) (by decide) hinside
  have hword := ((scans_keyword (s := "await") (by decide)).blank rfl).append_any hks
  exact written_of_part (by decide) hword (readsAt_await hreads) rfl (by simp)

theorem rereads_choice (ht : Rereads t) (hu : Rereads u) (hv : Rereads v) :
    Rereads (.mk s e (.choice t u v)) := by
  refine rereads_of_level (l := 4) (by decide) (by decide) fun place codes hprint => ?_
  obtain ⟨first, hfirst, hprint⟩ := Option.bind_eq_some_iff.mp hprint
  obtain ⟨second, hsecond, hprint⟩ := Option.bind_eq_some_iff.mp hprint
  obtain ⟨third, hthird, hprint⟩ := Option.bind_eq_some_iff.mp hprint
  obtain rfl := Option.some.inj hprint
  refine ⟨_, rfl, ?_⟩
  obtain ⟨ks, hstart, hks, hfirst⟩ := hu.part (l := 5) (by decide) (by decide) hfirst
  obtain ⟨ls, -, hls, hsecond⟩ := ht.part (l := 5) (by decide) (by decide) hsecond
  obtain ⟨ms, -, hms, hthird⟩ := hv.part (l := 4) (by decide) (by decide) hthird
  have hall := scans_between hks (scans_word (s := "if") (by decide))
    (scans_between hls (scans_word (s := "else") (by decide)) hms)
  exact written_of_part (by decide) hall (readsAt_choice hfirst hsecond hthird) hstart.append (by simp)

theorem startsWith_joined {P : Char → Bool} {sep : String} {part : Codes} (h : StartsWith P (charsOf part))
    (parts : List Codes) : StartsWith P (charsOf (joinCodes sep (part :: parts))) := by
  rw [charsOf_joinCodes]
  cases parts with
  | nil => simpa using h
  | cons next parts =>
    rw [List.map_cons, List.map_cons, List.intercalate_cons_cons, List.append_assoc]
    exact h.append

/-- Operands of `and` and `or` are at least as tight as the first one. -/
theorem forall₂_of_printRising {l m : Level} (hl : m ≤ l.next)
    (hprint : Term.printRising false l ts = some parts) :
    List.Forall₂ (fun t codes => ∃ place, m ≤ place ∧ place ≤ 18 ∧ t.print false place = some codes)
      ts parts := by
  have hrise (l : Nat) : min (l + 1) 18 ≤ min (min (l + 1) 18 + 1) 18 ∧ min (l + 1) 18 ≤ 18 := by omega
  induction ts generalizing l parts with
  | nil =>
    obtain rfl := Option.some.inj hprint
    exact .nil
  | cons t ts ih =>
    obtain ⟨first, hfirst, hprint⟩ := Option.bind_eq_some_iff.mp hprint
    obtain ⟨others, hothers, hprint⟩ := Option.bind_eq_some_iff.mp hprint
    obtain rfl := Option.some.inj hprint
    exact .cons ⟨l.next, hl, (hrise l).2, hfirst⟩ (ih (Nat.le_trans hl (hrise l).1) hothers)

theorem rereads_bool {op : BoolOp} (ht : Rereads t) (h : ∀ u ∈ ts, Rereads u) (hsome : ts ≠ []) :
    Rereads (.mk s e (.bool op (t :: ts))) := by
  have hlevel : 4 ≤ op.level + 1 ∧ op.level + 1 ≤ 18 := by cases op <;> decide
  refine rereads_of_level (l := op.level) (by cases op <;> decide) (by cases op <;> decide)
    fun place codes hprint => ?_
  obtain ⟨parts, hparts, hprint⟩ := Option.bind_eq_some_iff.mp hprint
  obtain rfl := Option.some.inj hprint
  refine ⟨_, rfl, ?_⟩
  have hall := forall₂_of_printRising (m := op.level + 1) (by cases op <;> decide) hparts
  obtain _ | @⟨_, part, _, parts, ⟨place, hplace, htop, hfirst⟩, hothers⟩ := hall
  obtain ⟨ks, hstart, hks, hfirst⟩ := ht.part (Nat.le_trans hlevel.1 hplace) htop hfirst
  obtain ⟨kss, hkss, hreads⟩ := exists_forall₂ (P := PartOf)
    (Q := fun ks (u : Term) => ReadsAt (op.level + 1) ks u.unplaced) hothers
    fun u hu codes ⟨place, hplace, htop, hcodes⟩ => by
      obtain ⟨ls, -, hls, hreads⟩ := (h u hu).part (Nat.le_trans hlevel.1 hplace) htop hcodes
      exact ⟨ls, hls, hreads.mono hlevel.1 hplace htop⟩
  have hsep : Scans anyChar (" " ++ op.sign ++ " ").toList [.keyword op.sign] := by
    simpa using scans_word (s := op.sign) (by cases op <;> decide)
  have hreads := readsAt_bool (l := ts.map Term.unplaced) (hfirst.mono hlevel.1 hplace htop)
    (by rwa [List.forall₂_map_right_iff]) (by simpa using hsome)
  refine written_of_part (by cases op <;> decide) (scans_separated hsep ?_ hks hkss) ?_
    (startsWith_joined hstart parts) rfl
  · cases op <;> rfl
  · rw [Term.unplaced, Form.unplaced, Term.allUnplaced_eq]
    exact hreads

theorem scans_compareOp (op : CompareOp) :
    Scans anyChar (' ' :: op.sign.toList ++ [' ']) op.lexemes := by
  cases op with
  | isNot =>
    exact (scans_word (s := "is") (by decide)).append_any
      ((scans_keyword (s := "not") (by decide)).blank rfl)
  | notIn =>
    exact (scans_word (s := "not") (by decide)).append_any
      ((scans_keyword (s := "in") (by decide)).blank rfl)
  | is => exact scans_word (s := "is") (by decide)
  | isIn => exact scans_word (s := "in") (by decide)
  | _ => exact scans_sign (by decide)

/-- Operators with their printed right operands, behind something. -/
theorem exists_compared {ops : List CompareOp} (hlength : ops.length = ts.length) (h : ∀ u ∈ ts, Rereads u)
    (hparts : List.Forall₂ (fun u codes => u.print false 9 = some codes) ts parts) {first : List Char}
    {ks : List LexemeKind} (hks : Scans endsPart first ks) :
    ∃ kss, Scans endsPart (first ++ charsOf ((ops.zip parts).flatMap fun (op, part) =>
        codesOf (" " ++ op.sign ++ " ") ++ part)) (ks ++ kss.flatten) ∧
      List.Forall₂ ComparedAt kss (ops.zip (ts.map Term.unplaced)) := by
  induction hparts generalizing ops first ks with
  | nil =>
    obtain rfl := List.length_eq_zero_iff.mp hlength
    exact ⟨[], by simpa using hks, .nil⟩
  | @cons u part ts parts hu _ ih =>
    obtain ⟨op, ops, rfl⟩ := List.exists_cons_of_length_eq_add_one hlength
    obtain ⟨hrereads, hothers⟩ := List.forall_mem_cons.mp h
    obtain ⟨ls, -, hls, hreads⟩ := hrereads.part (l := 9) (by decide) (by decide) hu
    obtain ⟨kss, hscans, hcompared⟩ := ih (Nat.succ.inj hlength) hothers
      (scans_between hks (scans_compareOp op) hls)
    refine ⟨(op.lexemes ++ ls) :: kss, ?_, .cons (.mk hreads) hcompared⟩
    simpa using hscans

theorem rereads_compare {ops : List CompareOp} (ht : Rereads t) (h : ∀ u ∈ ts, Rereads u)
    (hlength : ops.length = ts.length) (hsome : ops ≠ []) : Rereads (.mk s e (.compare t ops ts)) := by
  refine rereads_of_level (l := 8) (by decide) (by decide) fun place codes hprint => ?_
  obtain ⟨first, hfirst, hprint⟩ := Option.bind_eq_some_iff.mp hprint
  obtain ⟨parts, hparts, hprint⟩ := Option.bind_eq_some_iff.mp hprint
  obtain rfl := Option.some.inj hprint
  refine ⟨_, rfl, ?_⟩
  obtain ⟨ks, hstart, hks, hfirst⟩ := ht.part (l := 9) (by decide) (by decide) hfirst
  obtain ⟨kss, hscans, hcompared⟩ := exists_compared hlength h (forall₂_of_printAll hparts) hks
  refine written_of_part (by decide) hscans ?_ hstart.append (charsOf_append _ _)
  have hlength : ops.length = (ts.map Term.unplaced).length := by rw [hlength, List.length_map]
  have hzip : ops.zip (ts.map Term.unplaced) ≠ [] := by
    rw [← List.length_pos_iff, List.length_zip, ← hlength, Nat.min_self]
    exact List.length_pos_iff.mpr hsome
  have hreads := readsAt_compare hfirst hcompared hzip
  rw [List.map_fst_zip (Nat.le_of_eq hlength), List.map_snd_zip (Nat.le_of_eq hlength.symm)] at hreads
  rw [Term.unplaced, Form.unplaced, Term.allUnplaced_eq]
  exact hreads

theorem dotGap_cases (t : Term) : dotGap t = "" ∨ dotGap t = " " := by
  unfold dotGap
  split <;> simp

theorem scans_dot : Scans (fun c => isWordByte c && !c.isDigit) ['.'] [.symbol "."] := by
  refine scans_lexeme (by decide) rfl nofun fun offset c rest hc => ⟨.symbol ".", ?_, rfl⟩
  simp only [Bool.and_eq_true, Bool.not_eq_true'] at hc
  exact lexeme?_dot (ne_of_isWordByte (by decide) hc.1).symm hc.2 offset rest

/-- A dot and a name. -/
theorem scans_attribute {attr : String} (hattr : StandsForItself attr) :
    Scans endsWord ('.' :: attr.toList) [.symbol ".", .name attr] := by
  obtain ⟨c, rest, hlist, hword, hdigit⟩ := hattr.isVariable.exists_first
  have hfirst : StartsWith (fun c => isWordByte c && !c.isDigit) attr.toList := by
    rw [hlist]
    simp [StartsWith, hword, hdigit]
  exact scans_dot.append (scans_name hattr) hfirst

theorem rereads_attribute {attr : String} (ht : Rereads t) (hattr : StandsForItself attr) :
    Rereads (.mk s e (.attribute t attr)) := by
  refine rereads_of_atom fun place codes hprint => ?_
  obtain ⟨inside, hinside, hprint⟩ := Option.bind_eq_some_iff.mp hprint
  obtain rfl := Option.some.inj hprint
  obtain ⟨ks, hstart, hks, hreads⟩ := ht .atom inside (by decide) (by decide) hinside
  have hdot := scans_attribute hattr
  have hgap : Scans endsWord (charsOf inside ++ ((dotGap t).toList ++ '.' :: attr.toList))
      (ks ++ [.symbol ".", .name attr]) := by
    rcases dotGap_cases t with h | h
    · rw [h]
      exact hks.append hdot (by simp [StartsWith, endsTerm, h])
    · rw [h]
      exact hks.append hdot.behind_blank (endsTerm_of_endsPart rfl)
  refine written_of (by simp) hstart.append (hgap.mono fun c hc => ?_) (hreads.attribute attr)
  simp only [endsTerm, Bool.or_eq_true, Bool.and_eq_true, decide_eq_true_eq] at hc
  rcases hc with hc | ⟨⟨rfl, -⟩, -⟩
  · exact (ends_of_endsPart hc).1
  · decide

end

/-- A term that may stand in a subscript: an item or a slice. -/
inductive Indexes : Term → Prop where
  | item {t} (h : Listed t) : Indexes t
  | slice {s e lower upper step} (hlower : ∀ t ∈ lower, Rereads t) (hupper : ∀ t ∈ upper, Rereads t)
      (hstep : ∀ t ∈ step, Rereads t) : Indexes (.mk s e (.slice lower upper step))

section
variable {s e : Nat} {t u v : Term} {ts : List Term} {codes : Codes} {parts : List Codes}

/-- A bound of a slice, which may be missing. -/
theorem exists_bound {bound : Option Term} (h : ∀ t ∈ bound, Rereads t)
    (hprint : Term.printOption false "" bound = some codes) : ∃ kinds, PartOf codes kinds ∧
      BoundAt kinds (bound.map Term.unplaced) ∧
        (codes = [] ∧ kinds = [] ∨ StartsWith endsSymbol (charsOf codes)) := by
  cases bound with
  | none =>
    obtain rfl := Option.some.inj hprint
    exact ⟨[], scans_nil, .absent, .inl ⟨rfl, rfl⟩⟩
  | some t =>
    obtain ⟨inside, hinside, rfl⟩ := Option.map_eq_some_iff.mp hprint
    obtain ⟨kinds, hstart, hscans, hreads⟩ := (h t rfl).part (l := 4) (by decide) (by decide) hinside
    exact ⟨kinds, hscans, .present hreads, .inr (hstart.imp fun _ => endsSymbol_of_startsPart)⟩

/-- The step of a slice behind its colon, which may be missing. -/
theorem exists_step {step : Option Term} (h : ∀ t ∈ step, Rereads t)
    (hprint : Term.printOption false ":" step = some codes) : ∃ kinds, PartOf codes kinds ∧
      StepAt kinds (step.map Term.unplaced) ∧
        (codes = [] ∧ kinds = [] ∨ StartsWith (· = ':') (charsOf codes)) := by
  cases step with
  | none =>
    obtain rfl := Option.some.inj hprint
    exact ⟨[], scans_nil, .absent, .inl ⟨rfl, rfl⟩⟩
  | some t =>
    obtain ⟨inside, hinside, rfl⟩ := Option.map_eq_some_iff.mp hprint
    obtain ⟨kinds, hstart, hscans, hreads⟩ := (h t rfl).part (l := 4) (by decide) (by decide) hinside
    refine ⟨.symbol ":" :: kinds, ?_, .present hreads, .inr (by simp [StartsWith])⟩
    rw [PartOf, charsOf_append, charsOf_codesOf]
    exact (scans_symbol (s := ":") (by decide)).append hscans (hstart.imp fun _ => endsSymbol_of_startsPart)

/-- What follows a colon, if anything does. -/
theorem scans_colon {b : List Char} {ls : List LexemeKind} (hb : Scans endsPart b ls)
    (h : b = [] ∧ ls = [] ∨ StartsWith endsSymbol b) : Scans endsPart (':' :: b) (.symbol ":" :: ls) := by
  rcases h with ⟨rfl, rfl⟩ | hstart
  · exact (scans_symbol (s := ":") (by decide)).mono fun c hc => (ends_of_endsPart hc).2.2.2
  · exact (scans_symbol (s := ":") (by decide)).append hb hstart

theorem Indexes.written (h : Indexes t) (hprint : t.print false .test = some codes) :
    ∃ kinds, PartOf codes kinds ∧ IndexAt kinds t.unplaced := by
  cases h with
  | item h =>
    obtain ⟨kinds, hscans, hitem⟩ := h.written (by decide) (by decide) hprint
    exact ⟨kinds, hscans, .item hitem⟩
  | slice hlower hupper hstep =>
    obtain ⟨first, hfirst, hprint⟩ := Option.bind_eq_some_iff.mp hprint
    obtain ⟨second, hsecond, hprint⟩ := Option.bind_eq_some_iff.mp hprint
    obtain ⟨third, hthird, hprint⟩ := Option.bind_eq_some_iff.mp hprint
    obtain rfl := Option.some.inj hprint
    obtain ⟨ks, hks, hlower, -⟩ := exists_bound hlower hfirst
    obtain ⟨ls, hls, hupper, hupperStart⟩ := exists_bound hupper hsecond
    obtain ⟨ms, hms, hstep, hstepStart⟩ := exists_step hstep hthird
    have hbehind : Scans endsPart (charsOf second ++ charsOf third) (ls ++ ms) ∧
        (charsOf second ++ charsOf third = [] ∧ ls ++ ms = [] ∨
          StartsWith endsSymbol (charsOf second ++ charsOf third)) := by
      rcases hstepStart with ⟨rfl, rfl⟩ | hstepStart
      · rcases hupperStart with ⟨rfl, rfl⟩ | hupperStart
        · exact ⟨scans_nil, .inl ⟨rfl, rfl⟩⟩
        · exact ⟨by simpa using hls, .inr hupperStart.append⟩
      · refine ⟨hls.append hms (hstepStart.imp fun c hc => ?_), .inr ?_⟩
        · obtain rfl : c = ':' := by simpa using hc
          decide
        · rcases hupperStart with ⟨rfl, rfl⟩ | hupperStart
          · refine hstepStart.imp fun c hc => ?_
            obtain rfl : c = ':' := by simpa using hc
            decide
          · exact hupperStart.append
    refine ⟨ks ++ .symbol ":" :: (ls ++ ms), ?_, ?_⟩
    · have hall := hks.append (scans_colon hbehind.1 hbehind.2) rfl
      simpa [PartOf] using hall
    · rw [Term.unplaced, Form.unplaced, Term.optionUnplaced_eq, Term.optionUnplaced_eq,
        Term.optionUnplaced_eq]
      exact .slice hlower hupper hstep

end

/-- A term that may stand between the brackets of a subscript. -/
inductive Subscripts : Term → Prop where
  | one {t} (h : Indexes t) (hstar : t.isStarred = false) (hitems : ∀ u us, t.elements? ≠ some (u :: us)) :
    Subscripts t
  | tuple {s e t ts} (h : ∀ u ∈ t :: ts, Indexes u) : Subscripts (.mk s e (.tuple (t :: ts)))

section
variable {s e : Nat} {t u v : Term} {ts : List Term} {codes : Codes} {parts : List Codes}

theorem print_subscript (t u : Term) (hitems : ∀ v vs, u.elements? ≠ some (v :: vs)) (place : Level) :
    (Term.mk s e (.subscript t u)).print false place = (do
      let inside ← t.print false .atom
      let at? ← u.print false .test
      pure (inside ++ codesOf "[" ++ at? ++ codesOf "]")) := by
  obtain ⟨_, _, form⟩ := u
  cases form with
  | tuple items =>
    cases items with
    | nil => rfl
    | cons v vs => exact absurd rfl (hitems v vs)
  | _ => rfl

theorem print_subscript_place (t u : Term) {inField : Bool} {place place' : Level} :
    (Term.mk s e (.subscript t u)).print inField place =
      (Term.mk s e (.subscript t u)).print inField place' := by
  obtain ⟨_, _, form⟩ := u
  cases form with
  | tuple items => cases items <;> rfl
  | _ => rfl

theorem scans_subscript {inside index : Codes} {ks ls : List LexemeKind}
    (hks : Scans endsPart (charsOf inside) ks)
    (hls : Scans endsPart (charsOf index) ls) :
    Scans anyChar (charsOf inside ++ ('[' :: charsOf index ++ [']']))
      (ks ++ (.symbol "[" :: ls ++ [.symbol "]"])) :=
  hks.append (hls.squares rfl) rfl

theorem rereads_subscript (ht : Rereads t) (hu : Subscripts u) : Rereads (.mk s e (.subscript t u)) := by
  refine rereads_of_atom fun place codes hprint => ?_
  cases hu with
  | one h hstar hitems =>
    rw [print_subscript t u hitems] at hprint
    obtain ⟨inside, hinside, hprint⟩ := Option.bind_eq_some_iff.mp hprint
    obtain ⟨index, hindex, hprint⟩ := Option.bind_eq_some_iff.mp hprint
    obtain rfl := Option.some.inj hprint
    obtain ⟨ks, hstart, hks, hreads⟩ := ht.part (l := .atom) (by decide) (by decide) hinside
    obtain ⟨ls, hls, hindexed⟩ := h.written hindex
    refine written_of (by simp) hstart.append ((scans_subscript hks hls).mono fun _ _ => rfl) ?_
    exact hreads.subscript (.one hindexed (by rw [u.isStarred_unplaced, hstar]))
  | @tuple s e v vs h =>
    obtain ⟨inside, hinside, hprint⟩ := Option.bind_eq_some_iff.mp hprint
    obtain ⟨parts, hparts, hprint⟩ := Option.bind_eq_some_iff.mp hprint
    obtain rfl := Option.some.inj hprint
    obtain ⟨ks, hstart, hks, hreads⟩ := ht.part (l := .atom) (by decide) (by decide) hinside
    obtain ⟨lss, hlss, hindexed⟩ := exists_forall₂ (P := PartOf)
      (Q := fun ks (t : Term) => IndexAt ks t.unplaced)
      (forall₂_of_printAll hparts) fun w hw codes hcodes => (h w hw).written hcodes
    refine written_of (by simp) hstart.append
      ((scans_subscript hks (scans_tupleItems hlss)).mono fun _ _ => rfl) ?_
    rw [Term.unplaced, Form.unplaced, Term.unplaced, Form.unplaced, Term.allUnplaced_eq]
    obtain _ | ⟨hfirst, hothers⟩ := hindexed
    exact hreads.subscript (.tuple hfirst (by rwa [List.forall₂_map_right_iff]))

end

/-- A keyword argument whose name and value are printed as themselves. -/
inductive Keyword.Rereads : Keyword → Prop where
  | named {id t} (hid : StandsForItself id) (h : Embedded.Rereads t) : Keyword.Rereads (.mk (some id) t)
  | spread {t} (h : Embedded.Rereads t) : Keyword.Rereads (.mk none t)

section
variable {s e : Nat} {t u v : Term} {ts : List Term} {ws : List Keyword} {codes : Codes} {parts : List Codes}

/-- A name with an equals sign and a value. -/
theorem scans_assigned {id : String} {value : Codes} {ks : List LexemeKind} (hid : StandsForItself id)
    (hstart : StartsWith startsPart (charsOf value)) (hks : PartOf value ks) :
    Scans endsPart (id.toList ++ '=' :: charsOf value) (.name id :: .symbol "=" :: ks) :=
  (scans_name hid).append ((scans_symbol (s := "=") (by decide)).append hks
    (hstart.imp fun _ => endsSymbol_of_startsPart)) rfl

theorem scans_stars {value : Codes} {ks : List LexemeKind} (hstart : StartsWith startsPart (charsOf value))
    (hks : PartOf value ks) : PartOf (codesOf "**" ++ value) (.symbol "**" :: ks) := by
  rw [PartOf, charsOf_append, charsOf_codesOf]
  exact (scans_symbol (s := "**") (by decide)).append hks (hstart.imp fun _ => endsSymbol_of_startsPart)

theorem exists_keywords (h : ∀ w ∈ ws, w.Rereads) (hprint : Keyword.printAll false ws = some parts) :
    ∃ kss, List.Forall₂ PartOf parts kss ∧ List.Forall₂ KeywordAt kss (ws.map Keyword.unplaced) := by
  induction ws generalizing parts with
  | nil =>
    obtain rfl := Option.some.inj hprint
    exact ⟨[], .nil, .nil⟩
  | cons w ws ih =>
    obtain ⟨name, t⟩ := w
    obtain ⟨hw, hws⟩ := List.forall_mem_cons.mp h
    obtain ⟨value, hvalue, hprint⟩ := Option.bind_eq_some_iff.mp hprint
    obtain ⟨others, hothers, hprint⟩ := Option.bind_eq_some_iff.mp hprint
    obtain rfl := Option.some.inj hprint
    obtain ⟨kss, hkss, hkeywords⟩ := ih hws hothers
    cases hw with
    | named hid h =>
      obtain ⟨ks, hstart, hks, hreads⟩ := h.part (l := 4) (by decide) (by decide) hvalue
      refine ⟨_ :: kss, .cons ?_ hkss, .cons (.named hreads) hkeywords⟩
      have hall := scans_assigned hid hstart hks
      simpa [PartOf] using hall
    | spread h =>
      obtain ⟨ks, hstart, hks, hreads⟩ := h.part (l := 4) (by decide) (by decide) hvalue
      exact ⟨_ :: kss, .cons (scans_stars hstart hks) hkss, .cons (.spread hreads) hkeywords⟩

theorem rereads_call (ht : Rereads t) (h : ∀ u ∈ ts, Listed u) (hwords : ∀ w ∈ ws, w.Rereads) :
    Rereads (.mk s e (.call t ts ws)) := by
  refine rereads_of_atom fun place codes hprint => ?_
  obtain ⟨inside, hinside, hprint⟩ := Option.bind_eq_some_iff.mp hprint
  obtain ⟨first, hfirst, hprint⟩ := Option.bind_eq_some_iff.mp hprint
  obtain ⟨second, hsecond, hprint⟩ := Option.bind_eq_some_iff.mp hprint
  obtain rfl := Option.some.inj hprint
  obtain ⟨ks, hstart, hks, hreads⟩ := ht.part (l := .atom) (by decide) (by decide) hinside
  obtain ⟨kss, hkss, hitems⟩ := exists_items h (by decide) (by decide) hfirst
  obtain ⟨lss, hlss, hkeywords⟩ := exists_keywords hwords hsecond
  have harguments := (scans_joined (List.rel_append hkss hlss)).parentheses rfl
  refine written_of (by simp) hstart.append ((hks.append harguments rfl).mono fun _ _ => rfl) ?_
  rw [Term.unplaced, Form.unplaced, Term.allUnplaced_eq, Keyword.allUnplaced_eq]
  exact hreads.call hitems hkeywords

theorem parenthesizeIf_loose {l place : Level} (hl : l < 4) (hplace : 4 ≤ place) (inside : Codes) :
    parenthesizeIf (l < place) inside = codesOf "(" ++ inside ++ codesOf ")" :=
  if_pos (decide_eq_true (Nat.lt_of_lt_of_le hl hplace))

/-- A term that is printed between parentheses wherever it stands. -/
theorem rereads_of_group {l : Level} (hl : l < 4)
    (h : ∀ place codes, t.print false place = some codes → ∃ inside kinds,
      codes = parenthesizeIf (l < place) inside ∧ PartOf inside kinds ∧
        ReadsAt 18 (.symbol "(" :: kinds ++ [.symbol ")"]) t.unplaced) : Rereads t := by
  intro place codes hplace htop hprint
  obtain ⟨inside, kinds, rfl, hscans, hreads⟩ := h place codes hprint
  rw [parenthesizeIf_loose hl hplace]
  exact Written.mono (written_of (a := '(' :: charsOf inside ++ [')']) (by simp) rfl
    ((hscans.parentheses rfl).mono fun _ _ => rfl) hreads) hplace htop (Nat.le_refl 18)

theorem rereads_named {id : String} (hid : StandsForItself id) (ht : Rereads t) :
    Rereads (.mk s e (.named id t)) := by
  refine rereads_of_group (l := .named) (by decide) fun place codes hprint => ?_
  obtain ⟨inside, hinside, hprint⟩ := Option.bind_eq_some_iff.mp hprint
  obtain ⟨ks, hstart, hks, hreads⟩ := ht.part (l := .atom) (by decide) (by decide) hinside
  refine ⟨_, _, (Option.some.inj hprint).symm, ?_,
    readsAt_named (hreads.mono (by decide) (by decide) (by decide))⟩
  have hall := (scans_name hid).append ((scans_sign (s := ":=") (by decide)).append_any hks) rfl
  simpa [PartOf] using hall

theorem rereads_yield_none : Rereads (.mk s e (.yield none)) := by
  refine rereads_of_group (l := .yield) (by decide) fun place codes hprint => ?_
  refine ⟨_, _, (Option.some.inj hprint).symm, ?_, readsAt_yield_none⟩
  rw [PartOf, charsOf_codesOf]
  exact (scans_keyword (by decide)).mono fun c hc => (ends_of_endsPart hc).1

theorem rereads_yield (ht : Listed t) : Rereads (.mk s e (.yield (some t))) := by
  refine rereads_of_group (l := .yield) (by decide) fun place codes hprint => ?_
  obtain ⟨inside, hinside, hprint⟩ := Option.bind_eq_some_iff.mp hprint
  obtain ⟨ks, hks, hitem⟩ := ht.written (l := .atom) (by decide) (by decide) hinside
  refine ⟨_, _, (Option.some.inj hprint).symm, ?_, readsAt_yield hitem⟩
  have hall := ((scans_keyword (s := "yield") (by decide)).blank rfl).append_any hks
  simpa [PartOf] using hall

theorem rereads_yieldFrom (ht : Rereads t) : Rereads (.mk s e (.yieldFrom t)) := by
  refine rereads_of_group (l := .yield) (by decide) fun place codes hprint => ?_
  obtain ⟨inside, hinside, hprint⟩ := Option.bind_eq_some_iff.mp hprint
  obtain ⟨ks, -, hks, hreads⟩ := ht.part (l := .atom) (by decide) (by decide) hinside
  refine ⟨_, _, (Option.some.inj hprint).symm, ?_,
    readsAt_yieldFrom (hreads.mono (by decide) (by decide) (by decide))⟩
  have hall := ((scans_keyword (s := "yield") (by decide)).append
    ((scans_word (s := "from") (by decide)).append_any hks) rfl)
  simpa [PartOf] using hall

theorem rereads_set (h : ∀ u ∈ ts, Listed u) (hsome : ts ≠ []) : Rereads (.mk s e (.set ts)) := by
  refine rereads_of_atom fun place codes hprint => ?_
  obtain ⟨parts, hparts, hprint⟩ := Option.bind_eq_some_iff.mp hprint
  obtain rfl := Option.some.inj hprint
  obtain ⟨kss, hkss, hitems⟩ := exists_items h (by decide) (by decide) hparts
  refine written_of (a := '\x7b' :: charsOf (joinCodes ", " parts) ++ ['\x7d']) (by simp) rfl
    (((scans_joined hkss).braces rfl).mono fun _ _ => rfl) ?_
  rw [Term.unplaced, Form.unplaced, Term.allUnplaced_eq]
  obtain ⟨u, ts, rfl⟩ := List.exists_cons_of_ne_nil hsome
  obtain _ | ⟨hfirst, hothers⟩ := hitems
  exact readsAt_set hfirst hothers

end

/-- An entry whose key and value are printed as themselves. -/
inductive Entry.Rereads : Entry → Prop where
  | pair {t u} (ht : Embedded.Rereads t) (hu : Embedded.Rereads u) : Entry.Rereads (.mk (some t) u)
  | spread {t} (h : Embedded.Rereads t) : Entry.Rereads (.mk none t)

section
variable {s e : Nat} {t u v : Term} {ts : List Term} {es : List Entry} {codes : Codes} {parts : List Codes}

/-- Two parts with a colon between them. -/
theorem scans_pair {a b : List Char} {ks ls : List LexemeKind} (ha : Scans endsPart a ks)
    (hb : Scans endsPart b ls) : Scans endsPart (a ++ ':' :: ' ' :: b) (ks ++ .symbol ":" :: ls) :=
  ha.append (((scans_symbol (s := ":") (by decide)).blank rfl).append_any hb) rfl

theorem exists_entries (h : ∀ e ∈ es, e.Rereads) (hprint : Entry.printAll false es = some parts) :
    ∃ kss, List.Forall₂ PartOf parts kss ∧ List.Forall₂ EntryAt kss (es.map Entry.unplaced) := by
  induction es generalizing parts with
  | nil =>
    obtain rfl := Option.some.inj hprint
    exact ⟨[], .nil, .nil⟩
  | cons e es ih =>
    obtain ⟨he, hes⟩ := List.forall_mem_cons.mp h
    cases he with
    | pair ht hu =>
      obtain ⟨first, hfirst, hprint⟩ := Option.bind_eq_some_iff.mp hprint
      obtain ⟨second, hsecond, hprint⟩ := Option.bind_eq_some_iff.mp hprint
      obtain ⟨others, hothers, hprint⟩ := Option.bind_eq_some_iff.mp hprint
      obtain rfl := Option.some.inj hprint
      obtain ⟨kss, hkss, hentries⟩ := ih hes hothers
      obtain ⟨ks, -, hks, hkey⟩ := ht.part (l := 4) (by decide) (by decide) hfirst
      obtain ⟨ls, -, hls, hvalue⟩ := hu.part (l := 4) (by decide) (by decide) hsecond
      refine ⟨_ :: kss, .cons ?_ hkss, .cons (.pair hkey hvalue) hentries⟩
      simpa [PartOf] using scans_pair hks hls
    | spread ht =>
      obtain ⟨first, hfirst, hprint⟩ := Option.bind_eq_some_iff.mp hprint
      obtain ⟨others, hothers, hprint⟩ := Option.bind_eq_some_iff.mp hprint
      obtain rfl := Option.some.inj hprint
      obtain ⟨kss, hkss, hentries⟩ := ih hes hothers
      obtain ⟨ks, hstart, hks, hreads⟩ := ht.part (l := 9) (by decide) (by decide) hfirst
      exact ⟨_ :: kss, .cons (scans_stars hstart hks) hkss, .cons (.spread hreads) hentries⟩

theorem rereads_dict (h : ∀ e ∈ es, e.Rereads) : Rereads (.mk s e (.dict es)) := by
  refine rereads_of_atom fun place codes hprint => ?_
  obtain ⟨parts, hparts, hprint⟩ := Option.bind_eq_some_iff.mp hprint
  obtain rfl := Option.some.inj hprint
  obtain ⟨kss, hkss, hentries⟩ := exists_entries h hparts
  refine written_of (a := '\x7b' :: charsOf (joinCodes ", " parts) ++ ['\x7d']) (by simp) rfl
    (((scans_joined hkss).braces rfl).mono fun _ _ => rfl) ?_
  rw [Term.unplaced, Form.unplaced, Entry.allUnplaced_eq]
  exact readsAt_dict hentries

end
end ViewTree.Embedded
