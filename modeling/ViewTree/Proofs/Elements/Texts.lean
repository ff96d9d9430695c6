import Mathlib.Data.List.Forall2
import ViewTree.Proofs.Elements.Places

/-!
The texts of a tuple's elements. A tuple is cut into one text for each element, and parentheses around
such a text give the element again. Main statements: this holds if the parentheses around the tuple's
text close each other, and otherwise as long as the element leaves room for one more pair of
parentheses (`elementTexts?_cases`); an element that nests brackets as deep as may be leaves none
(`not_readsElement_deepTuple`).
-/
namespace ViewTree.Embedded
open Text Reader

/-- A string leaves room for its quotes. -/
theorem length_string_of_scanFrom {offset : Nat} {pending : List String} {fresh : Bool} {cs : List Char}
    {ts : List Lexeme} (h : scanFrom offset pending fresh cs = some ts) :
    ∀ t ∈ ts, ∀ s, t.kind = .string s → s.body.length + 2 ≤ cs.length := by
  induction ts generalizing offset pending fresh cs with
  | nil => nofun
  | cons t ts ih =>
    obtain ⟨gap, own, rest, still, hfinds⟩ | ⟨hline, front, rest, rfl, hscan⟩ := exists_first_of_scanFrom h
    · refine List.forall_mem_cons.mpr ⟨fun s hs => ?_, fun u hu s hs => ?_⟩
      · have := string_of_lexeme? (hs ▸ hfinds.lexeme)
        rw [hfinds.text, List.length_append, List.length_append]
        omega
      · have := ih hfinds.scan u hu s hs
        rw [hfinds.text, List.length_append, List.length_append]
        omega
    · refine List.forall_mem_cons.mpr ⟨fun s hs => (nomatch hline.symm.trans hs), fun u hu s hs => ?_⟩
      have := ih hscan u hu s hs
      rw [List.length_append]
      omega

theorem isShort_of_scan {cs : List Char} {ts : List Lexeme} (h : scan ('(' :: cs) = some ts) :
    ∀ t ∈ ts, ∀ s, t.kind = .string s → s.body.length + 2 ≤ cs.length := by
  rw [scan_cons] at h
  obtain ⟨later, hlater, rfl⟩ := Option.map_eq_some_iff.mp h
  refine List.forall_mem_cons.mpr ⟨fun s hs => ?_, length_string_of_scanFrom hlater⟩
  nomatch hs

/-- What is read from a field is read at every depth that its length allows. -/
theorem readField_of_length_lt {n m offset : Nat} {cs : List Char} {x : Term}
    (h : readField n offset cs = some x) (hm : cs.length < m) : readField m offset cs = some x := by
  induction m generalizing n offset cs x with
  | zero => exact absurd hm (Nat.not_lt_zero _)
  | succ m ih =>
    cases n with
    | zero => nomatch h
    | succ n =>
      unfold readField at h ⊢
      obtain ⟨lexemes, hscan, hread⟩ := Option.bind_eq_some_iff.mp h
      refine Option.bind_eq_some_iff.mpr ⟨lexemes, hscan, ?_⟩
      extract_lets moved at hread
      obtain ⟨⟨value, left⟩, hall, hend⟩ := Option.bind_eq_some_iff.mp hread
      refine Option.bind_eq_some_iff.mpr ⟨(value, left), ?_, hend⟩
      -- the strings among the lexemes are shorter than the field
      have hinner : FieldsWithin cs.length (readField n) (readField m) :=
        fun _ _ hlt _ hx => ih hx (by omega)
      have hgrammar := (tracks_grammarAt hinner (moved.length + 1)).1
      refine (tracks_itemsTerm (tracks_plainItem hgrammar) _ value left hall).2 ?_
      intro t ht s hs
      obtain ⟨u, hu, rfl⟩ := List.mem_map.mp ht
      obtain ⟨s', hs', rfl⟩ : ∃ s', u.kind = .string s' ∧
          s = { s' with offset := s'.offset + offset - 1 } := by
        dsimp only at hs
        split at hs
        · next s' hs' => exact ⟨s', hs', (LexemeKind.string.inj hs).symm⟩
        · next hother => exact absurd hs (hother s)
      have hlength : s'.body.length + 2 ≤ (cs ++ [')']).length := isShort_of_scan hscan u hu s' hs'
      rw [List.length_append, List.length_singleton] at hlength
      show s'.body.length < cs.length
      omega

theorem readTerm?_of_expression {text : String} {lexemes : List Lexeme} {n depth last : Nat} {x : Term}
    {ending : Lexeme} (hscan : scan (grouped text) = some lexemes) (hending : ending.kind = .lineEnd)
    (hread : (grammarAt (readField n) depth).1.expression ⟨lexemes, 0⟩ = some (x, ⟨[ending], last⟩)) :
    readTerm? text = some x := by
  have hdeep : (grammarAt (readField n) (lexemes.length + 1)).1.expression ⟨lexemes, 0⟩ =
      some (x, ⟨[ending], last⟩) := by
    obtain ⟨used, hused, -, hdeep⟩ :=
      (follows_grammarAt (readField n) depth (lexemes.length + 1)).1.expression _ _ _ trivial hread
    obtain rfl : lexemes = used ++ [ending] := hused
    refine hdeep ?_
    show 0 + used.length + 0 ≤ (used ++ [ending]).length
    rw [List.length_append]
    omega
  have hshort : (grammarAt (readField (grouped text).length) (lexemes.length + 1)).1.expression
      ⟨lexemes, 0⟩ = some (x, ⟨[ending], last⟩) := by
    have hinner : FieldsWithin (grouped text).length (readField n) (readField (grouped text).length) :=
      fun _ _ hlt _ hx => readField_of_length_lt hx hlt
    refine ((tracks_grammarAt hinner _).1.expression _ _ _ hdeep).2 fun t ht s hs => ?_
    have := length_string_of_scanFrom hscan t ht s hs
    omega
  have hstop : Next (some .lineEnd) ⟨[ending], last⟩ := congrArg some hending
  have hall : readAll? (readField (grouped text).length) (fun g _ => Grammar.itemsTerm g.expression)
      lexemes = some (x, ⟨[ending], last⟩) := itemsTerm_stop hshort hstop nofun
  have hend : atEnd ⟨[ending], last⟩ = true := by simp [atEnd, hending]
  unfold readTerm? readText?
  rw [hscan, Option.bind_eq_bind, Option.bind_some, hall, Option.bind_eq_bind, Option.bind_some]
  exact if_pos hend

/-- Lexemes that are read between some parentheses are read between those of a text. -/
theorem exists_readTerm?_of_grouped {text : String} {n : Nat} {core us : List Lexeme} {x : Term}
    {closing ending : Lexeme} (h : Grouped (readField n) core x)
    (hscan : scan (grouped text) = some (⟨.symbol "(", 0, 1⟩ :: us ++ [closing, ending]))
    (halike : Alike us core) (hclosing : closing.kind = .symbol ")") (hending : ending.kind = .lineEnd) :
    ∃ found, readTerm? text = some found ∧ found.unplaced = x.unplaced := by
  obtain ⟨depth, start, last, closing', tail, found, last', hclosing', hread, hfound⟩ := h
  obtain ⟨hg, hp⟩ := mirrors_grammarAt (fieldsAlike_readField (Nat.le_refl n)) depth
  obtain ⟨used, hused, -, hseals⟩ := seals_parenthesized hg hp start 0 _ _ _ hread
  obtain rfl : core ++ [closing'] = used := List.append_cancel_right (by rw [← hused]; simp)
  obtain ⟨y, stop, hy, hsame⟩ := hseals ⟨us ++ [closing] ++ [ending], 1⟩ (us ++ [closing]) [ending] rfl
    (by simp [Alike, halike.symm, hclosing, hclosing'])
  generalize hopening : (⟨.symbol "(", 0, 1⟩ : Lexeme) = opening at hscan
  have hkind : opening.kind = .symbol "(" := hopening ▸ rfl
  have hgroup : (grammarAt (readField n) depth).1.parenthesized (grammarAt (readField n) depth).2
      opening.start ⟨us ++ [closing] ++ [ending], opening.stop⟩ = some (y, ⟨[ending], stop⟩) := by
    rw [← hopening]
    exact hy
  have hi : Next (some (.symbol "(")) ⟨opening :: (us ++ [closing] ++ [ending]), 0⟩ := congrArg some hkind
  have hj : Next (some .lineEnd) ⟨[ending], stop⟩ := congrArg some hending
  have hprimary : (grammarAt (readField n) (depth + 1)).2 ⟨opening :: (us ++ [closing] ++ [ending]), 0⟩ =
      some (y, ⟨[ending], stop⟩) := primaryOf_of_group hkind hj rfl hgroup
  have hfactor : (grammarAt (readField n) (depth + 1)).1.factor
      ⟨opening :: (us ++ [closing] ++ [ending]), 0⟩ = some (y, ⟨[ending], stop⟩) :=
    factorOf_of_primary hi rfl hj rfl hprimary
  have hexpression : (grammarAt (readField n) (depth + 2)).1.expression
      ⟨opening :: us ++ [closing, ending], 0⟩ = some (y, ⟨[ending], stop⟩) := by
    have hall : opening :: us ++ [closing, ending] = opening :: (us ++ [closing] ++ [ending]) := by simp
    rw [hall]
    exact expressionOf_of_factor hi rfl hj rfl nofun hfactor
  exact ⟨y, readTerm?_of_expression hscan hending hexpression, hsame.symm.trans hfound⟩

section
variable {text : String} {t x : Term} {items : List Term} (hread : readTerm? text = some t)
  (hitems : t.elements? = some items) (hx : x ∈ items)
include hread hitems hx

/-- The elements of a tuple whose parentheses close each other stand between them. -/
theorem exists_standsBehind_of_isGroup (hgroup : IsGroup text) :
    ∃ lexemes front, scan (grouped text) = some lexemes ∧ Inside front ∧
      StandsBehind (readField (grouped text).length) lexemes front x := by
  obtain ⟨inner, hscan, hnest⟩ := hgroup
  obtain ⟨depth, last, hexpression⟩ := exists_expression_of_group hread hscan rfl rfl hnest
  have hinner := fieldsAlike_readField (Nat.le_refl (grouped text).length)
  obtain ⟨-, helements⟩ := (placed_expression hinner depth _ t _ hexpression).elements items hitems
  obtain ⟨front, hinside, hstands⟩ := helements x hx
  exact ⟨_, front, hscan, hinside, hstands⟩

/-- The elements of every tuple stand somewhere in the text. -/
theorem exists_standsBehind : ∃ lexemes front, scan (grouped text) = some lexemes ∧
    StandsBehind (readField (grouped text).length) lexemes front x := by
  obtain ⟨lexemes, hscan, hrest⟩ := Option.bind_eq_some_iff.mp hread
  obtain ⟨⟨found, left⟩, hall, hend⟩ := Option.bind_eq_some_iff.mp hrest
  replace hend : (if atEnd left then some found else none) = some t := hend
  split at hend
  case isFalse => nomatch hend
  case isTrue hleft =>
  obtain rfl := Option.some.inj hend
  have hinner := fieldsAlike_readField (Nat.le_refl (grouped text).length)
  have hspans := spansGrammar_grammarAt (readField (grouped text).length) (lexemes.length + 1)
  have hplaced := placed_expression hinner (lexemes.length + 1)
  refine ⟨lexemes, ?_⟩
  -- a tuple without parentheses has no more than the elements between its commas
  obtain hone | ⟨items', rfl, hfound⟩ := cases_of_itemsTerm hspans.expression hall
  · obtain ⟨front, -, hstands⟩ := ((hplaced _ _ _ hone).elements items hitems).2 x hx
    exact ⟨front, hscan, hstands⟩
  obtain rfl : items' = items := Option.some.inj hitems
  have hends : ∃ t tail, left.rest = t :: tail ∧ endsExpression t.kind := by
    obtain ⟨used, hused, hcount⟩ := spans_itemsTerm hspans.expression _ _ _ hall
    obtain rfl : lexemes = used ++ left.rest := hused.text
    obtain ⟨ending, tail, htail⟩ := List.exists_cons_of_ne_nil
      (ne_nil_of_scanFrom_append hscan (List.length_pos_iff.mp hcount) hused.balanced.inLine)
    have hline : ending.kind = .lineEnd := by
      have := List.all_eq_true.mp hleft ending (htail ▸ List.mem_cons_self)
      simpa using this
    exact ⟨ending, tail, htail, by rw [hline]; rfl⟩
  obtain ⟨before, i, j, hbefore, hexpression, hbehind⟩ := (hfound x hx).exists_ends hends
  obtain ⟨core, hcross, hcount⟩ := hspans.expression i x j hexpression
  obtain ⟨u, tail, hu, hkind⟩ := hbehind
  obtain ⟨front, -, hstands⟩ := standsBehind_of_isPlaced (hplaced i x j hexpression) hcross
    (List.length_pos_iff.mp hcount) ⟨u, tail, hu, hkind⟩
    (grouped_of_expression hinner hexpression hcross.text hu hkind)
    (unstarred_expression _ _ _ _ _ hexpression)
  have htext : lexemes = before ++ i.rest := hbefore.text
  exact ⟨before ++ front, hscan, htext ▸ hstands.append before⟩

end

theorem slice_of_append {a b c : List Char} {start stop : Nat} (hstart : start = a.length)
    (hstop : stop = start + b.length) : slice (a ++ (b ++ c)) start stop = b := by
  subst hstop hstart
  unfold slice
  rw [List.drop_left, Nat.add_sub_cancel_left, List.take_left]

/-- Between parentheses the text is read as the term, up to places. -/
def GroupsAs (s : String) (x : Term) : Prop := ∃ found, readTerm? s = some found ∧ found.unplaced = x.unplaced

/-- The text is read as the element; behind its star, if it has one. -/
def ReadsElement (s : String) : Term → Prop
  | .mk _ _ (.starred value) => ∃ rest, s = "*" ++ rest ∧ GroupsAs rest value
  | x => GroupsAs s x

/-- Parentheses around the lexemes do not nest too deep. -/
def HasRoom (core : List Lexeme) : Prop := (nestAll? [")"] core).isSome

theorem Balanced.own {core : List Lexeme} (h : Balanced core) {pending still : List String}
    (hnest : nestAll? pending core = some still) : nestAll? [] core = some [] := (h.nests pending still hnest).2

/-- Where something is open around, there is room for parentheses in its place. -/
theorem hasRoom_of_pending {core : List Lexeme} (h : Balanced core) {pending still : List String}
    (hpending : pending ≠ []) (hnest : nestAll? pending core = some still) : HasRoom core := by
  have halone : nestAll? [] core = some [] := h.own hnest
  have hroom : nestAll? ([] ++ [")"]) core = some ([] ++ [")"]) :=
    nestAll?_around hnest halone (List.length_pos_iff.mpr hpending)
  exact Option.isSome_iff_exists.mpr ⟨_, hroom⟩

theorem groupsAs_of_scansAs {n : Nat} {a : List Char} {core : List Lexeme} {x : Term}
    (hgrouped : Grouped (readField n) core x) (hscans : ScansAs a core)
    (hown : nestAll? [] core = some []) (hroom : HasRoom core) : GroupsAs (String.ofList a) x := by
  obtain ⟨us, closing, ending, halike, hclosing, hending, hscan⟩ := hscans.scan_grouped hown hroom
  exact exists_readTerm?_of_grouped hgrouped hscan halike hclosing hending

/-- The text is the part of `text`, between its parentheses, from the first to the last of these
lexemes. -/
structure IsPart (text : String) (core : List Lexeme) (s : String) : Prop where
  lexemes : ∃ front behind, scan (grouped text) = some (front ++ (core ++ behind))
  taken : core ≠ []
  slice : s.toList = Text.slice (grouped text) (startOf core) (stopOf core)

/-- The text of an element: lexemes of the tuple's text that give the element between parentheses, unless
these nest too deep. A tuple has its own parentheses. -/
structure IsElementText (text : String) (x : Term) (s : String) : Prop where
  part : ∃ core, IsPart text core s ∧ (IsGroup text ∨ HasRoom core → ReadsElement s x)
  enclosed : x.elements?.isSome → ∃ inner, s = "(" ++ inner ++ ")"

section
variable {cs : List Char} {front core behind : List Lexeme} {n : Nat} {x : Term}

/-- The text of lexemes that are read as a term between parentheses. -/
theorem groupsAs_of_scan (h : scan cs = some (front ++ (core ++ behind))) (hcore : core ≠ [])
    (hline : ∀ t ∈ core, t.kind ≠ .lineEnd)
    (hends : ∃ t tail, behind = t :: tail ∧ endsExpression t.kind) (hown : nestAll? [] core = some [])
    (hroom : HasRoom core) (hgrouped : Grouped (readField n) core x) :
    GroupsAs (String.ofList (slice cs (startOf core) (stopOf core))) x := by
  obtain ⟨before, rest, pending, fresh, rfl, -, hscan⟩ := exists_rest_of_scanFrom h
  obtain ⟨t, tail, rfl, hkind⟩ := hends
  have hhead : ∀ u ∈ (t :: tail).head?, endsExpression u.kind := fun u hu => Option.some.inj hu ▸ hkind
  obtain ⟨gap, a, after, hstands⟩ := exists_slice_of_scanFrom hscan hcore hline hhead
  have hslice : slice (before ++ rest) (startOf core) (stopOf core) = a := by
    rw [hstands.text, ← List.append_assoc]
    refine slice_of_append ?_ hstands.stop
    rw [hstands.start, List.length_append, Nat.zero_add]
  rw [hslice]
  exact groupsAs_of_scansAs hgrouped hstands.scans hown hroom

/-- Behind a star the text goes on with a gap. -/
theorem groupsAs_behind_star {star : Lexeme} (h : scan cs = some (front ++ (star :: core ++ behind)))
    (hstar : star.kind = .symbol "*") (hcore : core ≠ []) (hline : ∀ t ∈ core, t.kind ≠ .lineEnd)
    (hends : ∃ t tail, behind = t :: tail ∧ endsExpression t.kind) (hown : nestAll? [] core = some [])
    (hroom : HasRoom core) (hgrouped : Grouped (readField n) core x) :
    ∃ rest, String.ofList (slice cs star.start (stopOf core)) = "*" ++ rest ∧ GroupsAs rest x := by
  obtain ⟨before, rest, pending, fresh, rfl, -, hscan⟩ := exists_rest_of_scanFrom h
  obtain ⟨t, tail, rfl, hkind⟩ := hends
  have hhead : ∀ u ∈ (t :: tail).head?, endsExpression u.kind := fun u hu => Option.some.inj hu ▸ hkind
  obtain ⟨gap, own, more, still, hfinds⟩ | ⟨hend, -⟩ := exists_first_of_scanFrom hscan
  case inr => nomatch hstar.symm.trans hend
  obtain rfl := hfinds.own_eq hstar
  obtain ⟨gap', a, after, hstands⟩ := exists_slice_of_scanFrom hfinds.scan hcore hline hhead
  refine ⟨String.ofList (gap' ++ a), ?_,
    groupsAs_of_scansAs hgrouped (hstands.scans.gap hstands.passed hstands.starts) hown hroom⟩
  have hstart : star.start = (before ++ gap).length := by
    rw [hfinds.start, List.length_append, Nat.zero_add]
  have hstop : stopOf core = star.start + ('*' :: (gap' ++ a)).length := by
    rw [hstands.stop, hstands.start, hfinds.stop, List.length_cons, List.length_append]
    show star.start + 1 + gap'.length + a.length = _
    omega
  have htext : before ++ rest = before ++ gap ++ ('*' :: (gap' ++ a) ++ after) := by
    rw [hfinds.text, hstands.text]
    simp
  rw [htext, slice_of_append hstart hstop, String.ofList_cons]
  rfl

/-- The text of an element that stands in a text. -/
theorem readsElement_of_spot (h : scan cs = some (front ++ (core ++ behind)))
    (hspot : Spot (front ++ (core ++ behind)) front core behind x)
    (helement : IsElement (readField n) core x) (hroom : HasRoom core) :
    ReadsElement (String.ofList (slice cs (startOf core) (stopOf core))) x := by
  obtain ⟨before, rest, pending, fresh, -, -, hscan⟩ := exists_rest_of_scanFrom h
  obtain ⟨-, -, still, -, -, hnest, -⟩ := exists_rest_of_scanFrom hscan
  have hown : nestAll? [] core = some [] := (hspot.balanced.nests pending still hnest).2
  cases helement with
  | plain hgrouped hx =>
    have hgroups := groupsAs_of_scan h hspot.taken hspot.balanced.inLine hspot.ends hown hroom hgrouped
    obtain ⟨start, stop, form⟩ := x
    cases form with
    | starred value => nomatch hx
    | _ => exact hgroups
  | @starred star core start stop value hstar hcore hgrouped =>
    have hflat (pending : List String) : nest? pending star.kind = some pending :=
      nest?_flat (by rw [hstar]; rfl) pending
    unfold HasRoom at hroom
    rw [nestAll?_cons (hflat _)] at hroom hown
    have hstop : stopOf (star :: core) = stopOf core := by
      obtain ⟨t, core, rfl⟩ := List.exists_cons_of_ne_nil hcore
      simp [stopOf, List.getLast?_cons_cons]
    rw [hstop]
    exact groupsAs_behind_star h hstar hcore (List.forall_mem_cons.mp hspot.balanced.inLine).2 hspot.ends
      hown hroom hgrouped

end

theorem isElementText_of_standsBehind {text : String} {lexemes front : List Lexeme} {x : Term} {n : Nat}
    (hscan : scan (grouped text) = some lexemes) (hstands : StandsBehind (readField n) lexemes front x)
    (hgroup : IsGroup text → Inside front) : IsElementText text x (sourceOf text x) where
  part := by
    obtain ⟨core, behind, hspot, helement⟩ := hstands.spot
    obtain rfl := hspot.text
    have hslice : sourceOf text x = String.ofList (slice (grouped text) (startOf core) (stopOf core)) := by
      rw [sourceOf, hspot.start, hspot.stop]
    refine ⟨core, ⟨⟨front, behind, hscan⟩, hspot.taken, ?_⟩, fun hroom => ?_⟩
    · rw [hslice, String.toList_ofList]
    rw [hslice]
    refine readsElement_of_spot hscan hspot helement (hroom.elim (fun h => ?_) id)
    obtain ⟨before, rest, pending, fresh, -, hfront, hrest⟩ := exists_rest_of_scanFrom hscan
    obtain ⟨-, -, still, -, -, hnest, -⟩ := exists_rest_of_scanFrom hrest
    exact hasRoom_of_pending hspot.balanced (hgroup h _ _ hfront) hnest
  enclosed := by
    intro hx
    obtain ⟨a, opening, inside, closing, b, rfl, hopening, hclosing, hstart, hstop⟩ := hstands.enclosed hx
    rw [← List.append_assoc] at hscan
    obtain ⟨inner, hinner⟩ := exists_slice_of_parentheses hscan hopening hclosing
    refine ⟨String.ofList inner, ?_⟩
    rw [sourceOf, hstart, hstop, hinner, List.cons_append, String.ofList_cons, String.ofList_append]
    rfl

/-- The texts of a tuple's elements give the elements; a term that is no tuple has none. -/
theorem elementTexts?_cases {text : String} {t : Term} (hread : readTerm? text = some t) :
    (elementTexts? text t = none ↔ ∀ items, t.form ≠ .tuple items) ∧
      ∀ items, t.form = .tuple items → ∃ texts, elementTexts? text t = some texts ∧
        List.Forall₂ (IsElementText text) items texts := by
  obtain ⟨start, stop, form⟩ := t
  have hcases : (∃ items, form = .tuple items) ∨ ∀ items, form ≠ .tuple items := by
    by_cases h : ∃ items, form = .tuple items
    · exact .inl h
    · exact .inr (not_exists.mp h)
  obtain ⟨items, rfl⟩ | hother := hcases
  · refine ⟨⟨nofun, fun h => absurd rfl (h items)⟩, ?_⟩
    intro items' hsame
    obtain rfl := Form.tuple.inj hsame
    refine ⟨_, rfl, List.forall₂_map_right_iff.mpr (List.forall₂_same.mpr fun x hx => ?_)⟩
    by_cases hgroup : IsGroup text
    · obtain ⟨lexemes, front, hscan, hinside, hstands⟩ :=
        exists_standsBehind_of_isGroup hread rfl hx hgroup
      exact isElementText_of_standsBehind hscan hstands fun _ => hinside
    · obtain ⟨lexemes, front, hscan, hstands⟩ := exists_standsBehind hread rfl hx
      exact isElementText_of_standsBehind hscan hstands fun h => absurd h hgroup
  · have hnone : elementTexts? text (.mk start stop form) = none := by
      cases form with
      | tuple items => exact absurd rfl (hother items)
      | _ => rfl
    exact ⟨⟨fun _ => hother, fun _ => hnone⟩, fun items hitems => absurd hitems (hother items)⟩

/-- Elements with commas and brackets inside, over several lines, with a comment and a letter outside
of ASCII. -/
def mixedTuple : String := "lambda a: (a, 1), 'x, )', * größe # (\n, (1,\n 2)"

theorem elementTexts?_mixedTuple : ∃ t items, readTerm? mixedTuple = some t ∧ t.form = .tuple items ∧
    elementTexts? mixedTuple t = some ["lambda a: (a, 1)", "'x, )'", "* größe", "(1,\n 2)"] ∧
      List.Forall₂ (IsElementText mixedTuple) items
        ["lambda a: (a, 1)", "'x, )'", "* größe", "(1,\n 2)"] := by
  have hcut : (readTerm? mixedTuple).bind (elementTexts? mixedTuple) =
      some ["lambda a: (a, 1)", "'x, )'", "* größe", "(1,\n 2)"] := by decide +kernel
  obtain ⟨t, ht, htexts⟩ := Option.bind_eq_some_iff.mp hcut
  obtain ⟨hnone, hsome⟩ := elementTexts?_cases ht
  obtain ⟨items, hitems⟩ : ∃ items, t.form = .tuple items := by
    by_contra hother
    exact nomatch htexts.symm.trans (hnone.mpr (not_exists.mp hother))
  obtain ⟨texts, htexts', hall⟩ := hsome items hitems
  obtain rfl := Option.some.inj (htexts'.symm.trans htexts)
  exact ⟨t, items, ht, hitems, htexts, hall⟩

/-- An element that nests brackets as deep as may be. -/
def deepChars : List Char := List.replicate maxNesting '[' ++ List.replicate maxNesting ']'

/-- A tuple between parentheses that do not close each other. -/
def deepTuple : String := String.ofList ("0), ".toList ++ deepChars ++ ", (0".toList)

/-- There is no room for parentheses around an element that nests as deep as may be. -/
theorem not_readsElement_deepTuple : ∃ t items, readTerm? deepTuple = some t ∧ t.form = .tuple items ∧
    elementTexts? deepTuple t = some ["0", String.ofList deepChars, "0"] ∧
      ¬List.Forall₂ (fun x s => ReadsElement s x) items ["0", String.ofList deepChars, "0"] := by
  -- computed on characters, since texts are slow to take apart
  have hgrouped : grouped deepTuple = '(' :: ("0), ".toList ++ deepChars ++ ", (0".toList) ++ [')'] :=
    congrArg (fun cs => '(' :: cs ++ [')']) String.toList_ofList
  have hcut : (readText? (fun g _ => Grammar.itemsTerm g.expression) (grouped deepTuple)).bind (fun t =>
      t.elements?.map fun items => items.map fun x => slice (grouped deepTuple) x.start x.stop) =
        some [['0'], deepChars, ['0']] := by
    simp only [hgrouped]
    decide +kernel
  have hdeep : readTerm? (String.ofList deepChars) = none := by
    have hscan : scan ('(' :: (String.ofList deepChars).toList ++ [')']) = none := by
      simp only [String.toList_ofList]
      decide +kernel
    exact Option.bind_eq_none_iff.mpr fun ts hts => nomatch hscan.symm.trans hts
  obtain ⟨t, ht, hslices⟩ := Option.bind_eq_some_iff.mp hcut
  obtain ⟨items, hitems, hslices⟩ := Option.map_eq_some_iff.mp hslices
  have htexts : elementTexts? deepTuple t = some ["0", String.ofList deepChars, "0"] := by
    have hof : items.map (sourceOf deepTuple) = [['0'], deepChars, ['0']].map String.ofList := by
      rw [← hslices, List.map_map]
      rfl
    rw [elementTexts?, hitems, Option.map_some, hof]
    rfl
  have hform : t.form = .tuple items := by
    obtain ⟨start, stop, form⟩ := t
    cases form with
    | tuple items' => exact congrArg Form.tuple (Option.some.inj hitems)
    | _ => nomatch hitems
  refine ⟨t, items, ht, hform, htexts, fun hall => ?_⟩
  obtain ⟨_, _, -, hrest, rfl⟩ := List.forall₂_cons_right_iff.mp hall
  obtain ⟨⟨start, stop, form⟩, _, hreads, -, rfl⟩ := List.forall₂_cons_right_iff.mp hrest
  cases form with
  | starred value =>
    obtain ⟨rest, hrest, -⟩ := hreads
    have hfirst : (String.ofList deepChars).toList.head? = some '[' := by
      rw [String.toList_ofList]
      rfl
    rw [hrest] at hfirst
    simp at hfirst
  | _ =>
    obtain ⟨found, hfound, -⟩ := hreads
    nomatch hdeep.symm.trans hfound

end ViewTree.Embedded
