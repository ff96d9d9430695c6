import ViewTree.Proofs.Pasting.Productions
import ViewTree.Proofs.Scanning.Groups

/-!
The lexemes of an embedded text in the code that it is put into. Main statements: a group that a scan
passes between some brackets is passed between others too (`Passes.elsewhere`), so the text in the
form that it has on a line is passed wherever lines have it (`passesAs_inlineText`).
-/
namespace ViewTree.Embedded
open Text Reader

/-- What opens and closes nothing of what is around does so among other brackets, if these are not
more. -/
theorem nest?_around {own own' base around still : List String} {k : LexemeKind}
    (h : nest? (own ++ base) k = some still) (hown : nest? own k = some own')
    (hle : around.length ≤ base.length) : nest? (own ++ around) k = some (own' ++ around) := by
  cases k with
  | symbol s =>
    unfold nest? at h hown ⊢
    dsimp only at h hown ⊢
    cases hopens : closerOf? s with
    | some c =>
      rw [hopens] at h hown
      dsimp only at h hown ⊢
      split at h
      · next hroom =>
        split at hown
        · obtain rfl := Option.some.inj hown
          rw [List.length_append] at hroom
          rw [if_pos (by rw [List.length_append]; omega), List.cons_append]
        · nomatch hown
      · nomatch h
    | none =>
      rw [hopens] at h hown
      dsimp only at h hown ⊢
      by_cases hcloses : isCloser s
      · rw [if_pos hcloses] at hown ⊢
        cases own with
        | nil => nomatch hown
        | cons c own =>
          dsimp only [List.cons_append] at hown ⊢
          split at hown
          · next hc => rw [if_pos hc, Option.some.inj hown]
          · nomatch hown
      · rw [if_neg hcloses] at hown ⊢
        rw [Option.some.inj hown]
  | _ => exact congrArg (fun own => some (own ++ around)) (Option.some.inj hown)

theorem nest?_congr {k l : LexemeKind} (h : k.unplaced = l.unplaced) (pending : List String) :
    nest? pending k = nest? pending l := by
  cases k with
  | string s => cases l <;> first | rfl | exact absurd h nofun
  | _ => rw [eq_of_unplaced (by rfl) h]

theorem nestAll?_congr {ts us : List Lexeme} (h : Alike ts us) (pending : List String) :
    nestAll? pending ts = nestAll? pending us := by
  induction ts generalizing us pending with
  | nil => rw [List.map_eq_nil_iff.mp h.symm]
  | cons t ts ih =>
    obtain ⟨u, us, rfl, hkind, hrest⟩ := List.map_eq_cons_iff.mp h.symm
    unfold nestAll?
    rw [List.foldlM_cons, List.foldlM_cons, nest?_congr hkind]
    exact congrArg _ (funext fun still => ih hrest.symm still)

/-- Fewer brackets around are no obstacle. -/
theorem nestAll?_around {own own' base around still : List String} {ts : List Lexeme}
    (h : nestAll? (own ++ base) ts = some still) (hown : nestAll? own ts = some own')
    (hle : around.length ≤ base.length) : nestAll? (own ++ around) ts = some (own' ++ around) := by
  induction ts generalizing own with
  | nil =>
    obtain rfl := Option.some.inj hown
    rfl
  | cons t ts ih =>
    obtain ⟨next, hnext, hrest⟩ := Option.bind_eq_some_iff.mp h
    obtain ⟨own', hown', hrest'⟩ := Option.bind_eq_some_iff.mp hown
    obtain rfl : next = own' ++ base :=
      Option.some.inj (hnext.symm.trans (nest?_around hnext hown' (Nat.le_refl _)))
    rw [nestAll?_cons (nest?_around hnext hown' hle)]
    exact ih hrest hrest'

theorem lineEnd_eq_nil {i : ScanPoint} (h : i.pending ≠ []) : i.lineEnd = [] := by
  unfold ScanPoint.lineEnd
  rw [if_neg (by simp [h])]

/-- A text that is passed between brackets is passed between others, if it fits there; outside of all
brackets only if it has one line. -/
theorem Passes.elsewhere {i j : ScanPoint} {a s : List Char} {ts : List Lexeme}
    (h : Passes i a ts j s) {own own' base around still : List String}
    (hi : i.pending = own ++ base) (hbase : base ≠ []) (hown : nestAll? own ts = some own')
    (haround : nestAll? (own ++ around) ts = some still) (hlines : '\n' ∉ a ∨ around ≠ [])
    (offset : Nat) (fresh : Bool) :
    ∃ us k, Passes ⟨offset, own ++ around, fresh⟩ a us k s ∧ k.pending = own' ++ around ∧
      k.fresh = (fresh && us.isEmpty) ∧ Alike us ts := by
  induction h generalizing own offset fresh with
  | done i s =>
    obtain rfl := Option.some.inj hown
    exact ⟨[], _, .done _ _, rfl, by simp, rfl⟩
  | blank hc _ ih =>
    obtain ⟨us, k, hus, hk⟩ := ih hi hown haround
      (hlines.imp_left fun h hmem => h (List.mem_cons_of_mem _ hmem)) (offset + 1) fresh
    exact ⟨us, k, .blank hc hus, hk⟩
  | @feed o p f cs ts j s _ ih =>
    obtain rfl : p = own ++ base := hi
    have hinside : around ≠ [] := hlines.resolve_left fun h => h List.mem_cons_self
    rw [lineEnd_eq_nil (i := ⟨o, own ++ base, f⟩) (by simp [hbase])] at hown haround ⊢
    obtain ⟨us, k, hus, hk⟩ := ih rfl hown haround (.inr hinside) (offset + 1) fresh
    have hopen : (own ++ around).isEmpty = false := by simp [hinside]
    have hfeed := Passes.feed (f := fresh) (p := own ++ around) (by rwa [hopen, Bool.false_or])
    rw [lineEnd_eq_nil (i := ⟨offset, own ++ around, fresh⟩) (by simp [hinside])] at hfeed
    exact ⟨us, k, hfeed, hk⟩
  | @comment o p f skipped cs ts j s hskipped _ ih =>
    have hinside : around ≠ [] := hlines.resolve_left fun h => h (by simp)
    obtain ⟨us, k, hus, hk⟩ :=
      ih hi hown haround (.inr hinside) (offset + 1 + skipped.length) fresh
    exact ⟨us, k, .comment hskipped hus, hk⟩
  | join _ ih =>
    have hinside : around ≠ [] := hlines.resolve_left fun h => h (by simp)
    obtain ⟨us, k, hus, hk⟩ := ih hi hown haround (.inr hinside) (offset + 2) fresh
    exact ⟨us, k, .join hus, hk⟩
  | @lexeme o p f c rest kind n _ ts j s hc hlexeme hnest _ ih =>
    obtain rfl : p = own ++ base := hi
    obtain ⟨next, hnext, hrest⟩ := Option.bind_eq_some_iff.mp hown
    obtain ⟨beyond, hbeyond, haround⟩ := Option.bind_eq_some_iff.mp haround
    obtain rfl : beyond = next ++ around :=
      Option.some.inj (hbeyond.symm.trans (nest?_around hbeyond hnext (Nat.le_refl _)))
    have hstill := Option.some.inj (hnest.symm.trans (nest?_around hnest hnext (Nat.le_refl _)))
    obtain ⟨kind', hlexeme', hkind⟩ := exists_lexeme?_elsewhere hlexeme offset
    have hbehind : '\n' ∉ rest.drop (n - 1) ∨ around ≠ [] :=
      hlines.imp_left fun h hmem => h (List.mem_cons_of_mem _ (List.mem_of_mem_drop hmem))
    obtain ⟨us, k, hus, hpending, hfresh, halike⟩ :=
      ih hstill hrest haround hbehind (offset + max 1 n) false
    refine ⟨_, k, .lexeme hc hlexeme' ((nest?_congr hkind _).trans hbeyond) hus, hpending, ?_, ?_⟩
    · simpa using hfresh
    · exact List.cons_eq_cons.mpr ⟨hkind, halike⟩

/-- A scan passes the text of a group up to the parenthesis that closes it. -/
theorem IsGroup.exists_passes {text : String} (h : IsGroup text) (hreturn : '\r' ∉ text.toList) :
    ∃ inner fresh, scan (grouped text) = some (⟨.symbol "(", 0, 1⟩ :: inner ++
        [⟨.symbol ")", text.length + 1, text.length + 2⟩,
          ⟨.lineEnd, text.length + 2, text.length + 2⟩]) ∧
      nestAll? [] inner = some [] ∧
      Passes ⟨1, [")"], false⟩ text.toList inner ⟨text.length + 1, [")"], fresh⟩ [] := by
  obtain ⟨inner, hscan, hnest⟩ := h
  refine ⟨inner, ?_⟩
  have hcons : scan (grouped text) = _ := scan_cons (text.toList ++ [')'])
  rw [hscan] at hcons
  obtain ⟨later, hlater, hlexemes⟩ := Option.map_eq_some_iff.mp hcons.symm
  obtain ⟨-, rfl⟩ := List.cons.inj hlexemes
  obtain ⟨us, ⟨offset, pending, fresh⟩, s, vs, hpasses, hs, hvs, hall⟩ :=
    Embedded.exists_passes hreturn hlater
  obtain ⟨b, hb, hoffset⟩ := hpasses.suffix
  rcases hs with rfl | ⟨t, rfl, hfeed⟩
  · obtain ⟨hpending, rfl⟩ := scan_parenthesis hvs
    obtain ⟨rfl, -⟩ := List.append_inj' hall rfl
    obtain rfl : pending = [")"] := hpending
    obtain rfl : offset = text.length + 1 := by
      rw [← String.length_toList, hb, List.append_nil]
      exact hoffset.trans (Nat.add_comm _ _)
    exact ⟨fresh, hscan, hnest, hpasses⟩
  · -- the comment hides the last parenthesis, which is among the lexemes
    exfalso
    have hend : '\n' ∉ t ++ [')'] ∧ '\r' ∉ t ++ [')'] := by
      have ht : '\r' ∉ t := fun hmem =>
        hreturn (hb ▸ List.mem_append_right b (List.mem_cons_of_mem _ hmem))
      simpa using ⟨hfeed, ht⟩
    have hlines := (scan_comment hend.1 hend.2 hvs).2
    have hmem : ⟨.symbol ")", text.length + 1, text.length + 2⟩ ∈ us ++ vs := by
      rw [← hall]
      simp
    have hlength : text.length = b.length + (t.length + 1) := by
      rw [← String.length_toList, hb, List.length_append, List.length_cons]
    have hoffset : offset = 1 + b.length := hoffset
    rcases List.mem_append.mp hmem with hmem | hmem
    · have hstart : text.length + 1 < offset := hpasses.start_lt _ hmem
      omega
    · nomatch hlines _ hmem

/-- With these brackets around, a scan passes the text wherever it stands, and finds such lexemes. -/
def PassesAs (around : List String) (a : List Char) (ts : List Lexeme) : Prop :=
  ∀ offset fresh, ∃ us k, Passes ⟨offset, around, fresh⟩ a us k [] ∧ k.pending = around ∧
    k.fresh = (fresh && us.isEmpty) ∧ Alike us ts

/-- A text in parentheses of its own, if it fits between the brackets around. -/
theorem passesAs_grouped {text : String} {inner : List Lexeme} {i j : ScanPoint}
    {around still : List String} (h : Passes i text.toList inner j []) (hi : i.pending ≠ [])
    (hown : nestAll? [] inner = some []) (hroom : around.length < maxNesting)
    (haround : nestAll? (")" :: around) inner = some still) {opening closing : Lexeme}
    (hopening : opening.kind = .symbol "(") (hclosing : closing.kind = .symbol ")") :
    PassesAs around (grouped text) (opening :: inner ++ [closing]) := by
  intro offset fresh
  have hpending : i.pending = [] ++ i.pending := rfl
  obtain ⟨us, ⟨stop, pending, fresh'⟩, hus, hpending, -, halike⟩ := h.elsewhere hpending hi hown
    haround (.inr (List.cons_ne_nil _ _)) (offset + 1) false
  obtain rfl : pending = ")" :: around := hpending
  have hopen : nest? around (.symbol "(") = some (")" :: around) := if_pos hroom
  have hclose : nest? (")" :: around) (.symbol ")") = some around := rfl
  have hlast : Passes ⟨stop, ")" :: around, fresh'⟩ [')'] [⟨.symbol ")", stop, stop + 1⟩]
      ⟨stop + 1, around, false⟩ [] :=
    .lexeme (n := 1) (by decide) rfl hclose (.done _ _)
  have hall := Passes.lexeme (o := offset) (f := fresh) (c := '(') (n := 1) (by decide) rfl hopen
    ((hus.append (stops_cons (c := ')') (by decide) [])).trans hlast)
  refine ⟨_, _, hall, rfl, by simp, ?_⟩
  unfold Alike at halike ⊢
  simp [halike, hopening, hclosing]

/-- A lexeme opens and closes levels as it opens and closes brackets. -/
theorem depth_of_step? {v w : Nesting} {own own' : List String} {k : LexemeKind}
    (hstep : v.step? k = some w) (hnest : nest? own k = some own') :
    w.depth + own.length = v.depth + own'.length := by
  cases k with
  | symbol s =>
    unfold Nesting.step? at hstep
    unfold nest? at hnest
    dsimp only at hstep hnest
    cases hopens : closerOf? s with
    | some c =>
      rw [hopens] at hstep hnest
      obtain rfl := Option.some.inj hstep
      dsimp only at hnest
      split at hnest
      · obtain rfl := Option.some.inj hnest
        simp only [List.length_cons]
        omega
      · nomatch hnest
    | none =>
      rw [hopens] at hstep hnest
      rw [if_neg nofun] at hstep
      dsimp only at hnest
      split at hstep
      · next hcloses =>
        rw [if_pos hcloses] at hnest
        split at hstep
        · nomatch hstep
        · next hdepth =>
          obtain rfl := Option.some.inj hstep
          cases own with
          | nil => nomatch hnest
          | cons c own =>
            dsimp only at hnest
            split at hnest
            · obtain rfl := Option.some.inj hnest
              simp only [List.length_cons]
              omega
            · nomatch hnest
      · next hcloses =>
        rw [if_neg hcloses] at hnest
        obtain rfl := Option.some.inj hnest
        have hsame : w.depth = v.depth := by grind
        rw [hsame]
  | keyword word =>
    unfold Nesting.step? at hstep
    obtain rfl := Option.some.inj hnest
    have hsame : w.depth = v.depth := by grind
    rw [hsame]
  | _ =>
    obtain rfl := Option.some.inj hnest
    obtain rfl := Option.some.inj hstep
    rfl

theorem depth_of_walk? {v w : Nesting} {own own' : List String} {ts : List Lexeme}
    (hwalk : v.walk? ts = some w) (hnest : nestAll? own ts = some own') :
    w.depth + own.length = v.depth + own'.length := by
  induction ts generalizing v own with
  | nil =>
    obtain rfl := Option.some.inj hwalk
    obtain rfl := Option.some.inj hnest
    rfl
  | cons t ts ih =>
    obtain ⟨u, hstep, hwalk⟩ := Nesting.exists_step?_of_walk? hwalk
    obtain ⟨next, hnext, hrest⟩ := Option.bind_eq_some_iff.mp hnest
    have hfirst := depth_of_step? hstep hnext
    have hlater := ih hwalk hrest
    omega

/-- What starts a group and leaves no bracket open is the group. -/
theorem eq_of_balanced {opening closing ending : Lexeme} {inner used rest : List Lexeme}
    (hopening : opening.kind = .symbol "(") (hending : ending.kind = .lineEnd)
    (hnest : nestAll? [] inner = some [])
    (h : opening :: inner ++ [closing, ending] = used ++ rest) (hused : used ≠ []) {w : Nesting}
    (hwalk : Nesting.walk? ⟨0, 0, false⟩ used = some w) (hw : w.depth = 0)
    (hline : ∀ t ∈ used, t.kind ≠ .lineEnd) :
    used = opening :: inner ++ [closing] ∧ rest = [ending] := by
  obtain ⟨t, used, rfl⟩ := List.exists_cons_of_ne_nil hused
  obtain ⟨rfl, hinner⟩ := List.cons.inj h
  obtain ⟨v, hstep, hwalk⟩ := Nesting.exists_step?_of_walk? hwalk
  have hopen : nest? [] opening.kind = some [")"] := by rw [hopening]; rfl
  have hv : v.depth + 0 = 0 + 1 := depth_of_step? hstep hopen
  rcases List.append_eq_append_iff.mp hinner with ⟨a, rfl, ha⟩ | ⟨a, rfl, -⟩
  · match a, rest with
    | [], _ =>
      rw [List.append_nil] at hwalk
      have hdepth : w.depth + 0 = v.depth + 0 := depth_of_walk? hwalk hnest
      omega
    | [_], _ =>
      obtain ⟨rfl, rfl⟩ := List.cons.inj ha
      exact ⟨rfl, rfl⟩
    | [_, last], _ =>
      obtain rfl : ending = last := (List.cons.inj (List.cons.inj ha).2).1
      exact absurd hending (hline ending (by simp))
    | _ :: _ :: _ :: _, _ => simp at ha
  · rw [nestAll?_append] at hnest
    obtain ⟨own, hown, -⟩ := Option.bind_eq_some_iff.mp hnest
    have hdepth : w.depth + 0 = v.depth + own.length := depth_of_walk? hwalk hown
    omega

/-- What is read from the start of a group as a whole is the group. -/
theorem eq_of_passage {opening closing ending : Lexeme} {inner used rest : List Lexeme}
    (hopening : opening.kind = .symbol "(") (hending : ending.kind = .lineEnd)
    (hnest : nestAll? [] inner = some [])
    (h : opening :: inner ++ [closing, ending] = used ++ rest) {clear clear' : Bool}
    (hpassage : Passage ⟨.start, clear⟩ ⟨.begun, clear'⟩ used) :
    used = opening :: inner ++ [closing] ∧ rest = [ending] := by
  obtain ⟨w, hwalk, hcounts, -⟩ := hpassage.walks 0 0 ⟨0, 0, false⟩ ⟨rfl, fun _ => rfl⟩
  have hspent : 1 ≤ 0 + used.length := hpassage.spent_le
  have hsome : used ≠ [] := List.length_pos_iff.mp (by omega)
  exact eq_of_balanced hopening hending hnest h hsome hwalk (Prod.mk.inj hcounts).1 hpassage.inLine

/-- Some grammar reads the lexemes as an expression, in front of one that stands behind such. -/
def ReadsAs (inner : FieldReader) (ts : List Lexeme) (term : Term) : Prop :=
  ∃ depth last last' t tail, endsExpression t.kind ∧
    (grammarAt inner depth).1.expression ⟨ts ++ t :: tail, last⟩ = some (term, ⟨t :: tail, last'⟩)

/-- The lexemes are read as an expression among deeper texts too, wherever they stand and whatever
that stands behind expressions is behind them. -/
theorem ReadsAs.exists_expression {n n' : Nat} {ts us : List Lexeme} {term : Term} {t : Lexeme}
    (h : ReadsAs (readField n) ts term) (hn : n ≤ n') (halike : Alike us ts)
    (ht : endsExpression t.kind) {depth : Nat} (hdepth : us.length < depth) (tail : List Lexeme)
    (last : Nat) :
    ∃ found last', (grammarAt (readField n') depth).1.expression ⟨us ++ t :: tail, last⟩ =
      some (found, ⟨t :: tail, last'⟩) ∧ found.unplaced = term.unplaced := by
  obtain ⟨depth₀, last₀, last₁, u, more, hu, hread⟩ := h
  have hlength : ts.length = us.length := by
    simpa using (congrArg List.length halike).symm
  obtain ⟨used, hused, -, hdeep⟩ :=
    (follows_grammarAt (readField n) depth₀ depth).1.expression _ _ _ trivial hread
  obtain rfl : ts = used := List.append_cancel_right hused
  have hread : (grammarAt (readField n) depth).1.expression ⟨ts ++ u :: more, last₀⟩ =
      some (term, ⟨u :: more, last₁⟩) := by
    refine hdeep ?_
    show 0 + ts.length + 0 ≤ depth - 1
    omega
  obtain ⟨used, hused, -, hmirror⟩ :=
    (mirrors_grammarAt (fieldsAlike_readField hn) depth).1.expression _ _ _ hread
  obtain rfl : ts = used := List.append_cancel_right hused
  obtain ⟨found, last', hfound, hsame⟩ :=
    hmirror ⟨us ++ t :: tail, last⟩ us (t :: tail) rfl halike.symm (.ends hu ht)
  exact ⟨found, last', hfound, hsame.symm⟩

theorem exists_of_itemsTerm {item : Reader Term} {i j : Input} {term : Term}
    (h : Grammar.itemsTerm item i = some (term, j)) : ∃ first k, item i = some (first, k) := by
  obtain ⟨⟨found, k⟩, hfound, -⟩ := Option.bind_eq_some_iff.mp h
  obtain ⟨⟨first, k⟩, hfirst, -⟩ := Option.bind_eq_some_iff.mp hfound
  exact ⟨first, k, hfirst⟩

section
variable {text : String} {term : Term} {inner : List Lexeme} {opening closing ending : Lexeme}
  (hread : readTerm? text = some term)
  (hscan : scan (grouped text) = some (opening :: inner ++ [closing, ending]))
  (hopening : opening.kind = .symbol "(") (hending : ending.kind = .lineEnd)
  (hnest : nestAll? [] inner = some [])
include hread hscan hopening hending hnest

theorem exists_expression_of_group :
    ∃ depth last, (grammarAt (readField (grouped text).length) depth).1.expression
      ⟨opening :: inner ++ [closing, ending], 0⟩ = some (term, ⟨[ending], last⟩) := by
  obtain ⟨all, hall, hread⟩ := Option.bind_eq_some_iff.mp hread
  obtain rfl := Option.some.inj (hscan.symm.trans hall)
  obtain ⟨⟨found, left⟩, hitems, hend⟩ := Option.bind_eq_some_iff.mp hread
  obtain rfl : found = term := by
    have hend : (if atEnd left then some found else none) = some term := hend
    split at hend
    · exact Option.some.inj hend
    · nomatch hend
  unfold readAll? at hitems
  generalize (opening :: inner ++ [closing, ending]).length + 1 = depth at hitems
  obtain ⟨first, ⟨rest, last⟩, hfirst⟩ := exists_of_itemsTerm hitems
  obtain ⟨used, hused, hpassage, -⟩ :=
    (follows_grammarAt (readField (grouped text).length) depth depth).1.expression _ _ _ trivial hfirst
  obtain ⟨-, rfl⟩ := eq_of_passage hopening hending hnest hused hpassage
  have hstop := itemsTerm_stop hfirst (k := .lineEnd) (congrArg some hending) nofun
  obtain ⟨rfl, -⟩ := Prod.mk.inj (Option.some.inj (hstop.symm.trans hitems))
  exact ⟨depth, last, hfirst⟩

theorem readsAs_group :
    ReadsAs (readField (grouped text).length) (opening :: inner ++ [closing]) term := by
  obtain ⟨depth, last, hread⟩ := exists_expression_of_group hread hscan hopening hending hnest
  refine ⟨depth, 0, last, ending, [], by rw [hending]; rfl, ?_⟩
  rw [List.append_assoc]
  exact hread

end

/-- The text is put into parentheses on a line, or is an expression without them. -/
def StandsAlone (text : String) (term : Term) : Prop := isMultiline text ∨ IsExpression text term

/-- In the form that it has on a line, the text has room for its brackets between two others. -/
def Fits (text : String) : Prop :=
  isMultiline text → ∃ lexemes, scan (grouped text) = some lexemes ∧ (nestAll? [")"] lexemes).isSome

/-- The text is a group that stands alone. -/
structure IsInline (text : String) (term : Term) : Prop where
  group : IsGroup text
  noReturn : '\r' ∉ text.toList
  reads : readTerm? text = some term
  alone : StandsAlone text term

/-- Such a text is one expression on the line, and between parentheses too if it fits there. -/
theorem IsInline.exists_passesAs {text : String} {term : Term} (h : IsInline text term) :
    ∃ ts, ReadsAs (readField (grouped text).length) ts term ∧
      PassesAs [] (inlineText text).toList ts ∧
        (Fits text → PassesAs [")"] (inlineText text).toList ts) := by
  obtain ⟨inner, fresh, hscan, hnest, hpasses⟩ := h.group.exists_passes h.noReturn
  have hbetween : nestAll? ([] ++ [")"]) inner = some [")"] := hpasses.nestAll?_eq
  have houtside : nestAll? ([] ++ []) inner = some [] :=
    nestAll?_around hbetween hnest (Nat.zero_le _)
  unfold inlineText
  by_cases hlines : isMultiline text
  · rw [if_pos hlines, String.toList_ofList]
    refine ⟨_, readsAs_group h.reads hscan rfl rfl hnest, ?_, fun hfits => ?_⟩
    · exact passesAs_grouped hpasses nofun hnest (by decide) hbetween rfl rfl
    · obtain ⟨lexemes, hlexemes, hsome⟩ := hfits hlines
      obtain rfl := Option.some.inj (hscan.symm.trans hlexemes)
      obtain ⟨still, hstill⟩ := Option.isSome_iff_exists.mp hsome
      have hopen : nest? [")"] (.symbol "(") = some [")", ")"] := rfl
      rw [nestAll?_append, nestAll?_cons hopen] at hstill
      obtain ⟨deep, hdeep, -⟩ := Option.bind_eq_some_iff.mp hstill
      exact passesAs_grouped hpasses nofun hnest (by decide) hdeep rfl rfl
  · rw [if_neg hlines]
    have hfeed : '\n' ∉ text.toList := by simpa [isMultiline] using hlines
    obtain ⟨-, depth, opening, closing, ending, lexemes, last, hscan', hclosing, -, hexpression⟩ :=
      h.alone.resolve_left hlines
    obtain ⟨rfl, hends⟩ : lexemes = inner ∧ _ :=
      List.append_inj' (List.cons.inj (Option.some.inj (hscan'.symm.trans hscan))).2 rfl
    refine ⟨lexemes, ⟨depth, _, last, closing, [ending], by rw [hclosing]; rfl, hexpression⟩, ?_,
      fun _ => ?_⟩
    · exact hpasses.elsewhere rfl (List.cons_ne_nil _ _) hnest houtside (.inl hfeed)
    · exact hpasses.elsewhere rfl (List.cons_ne_nil _ _) hnest hbetween (.inl hfeed)

/-- In the form that it has on a line, the text is a group again. -/
theorem IsInline.isGroup_inlineText {text : String} {term : Term} (h : IsInline text term)
    (hfits : Fits text) : IsGroup (inlineText text) := by
  obtain ⟨ts, -, hbare, hbetween⟩ := h.exists_passesAs
  obtain ⟨us, k, hus, hpending, -, hbare⟩ := hbare 1 false
  obtain ⟨vs, ⟨o, p, f⟩, hvs, hp, -, halike⟩ := hbetween hfits 1 false
  obtain rfl : p = [")"] := hp
  have hnest : nestAll? [] vs = some [] := by
    rw [nestAll?_congr (halike.trans hbare.symm), hus.nestAll?_eq, hpending]
  obtain ⟨b, hb, hoffset⟩ := hvs.suffix
  obtain rfl : o = (inlineText text).length + 1 := by
    rw [← String.length_toList, hb, List.append_nil]
    exact hoffset.trans (Nat.add_comm _ _)
  have hclosing : Passes ⟨(inlineText text).length + 1, [")"], f⟩ [')']
      [⟨.symbol ")", (inlineText text).length + 1, (inlineText text).length + 2⟩]
      ⟨(inlineText text).length + 2, [], false⟩ [] :=
    .lexeme (c := ')') (by decide) rfl rfl (.done _ _)
  have hopening : lexeme? 0 (grouped (inlineText text)) = some (.symbol "(", 1) := rfl
  have hall : Passes ⟨0, [], true⟩ (grouped (inlineText text)) _ _ [] :=
    .lexeme (c := '(') (by decide) hopening rfl ((hvs.append (stops_closing rfl [])).trans hclosing)
  refine ⟨vs, ?_, hnest⟩
  rw [hall.scan_line (by rw [grouped, List.getLast?_append]; exact nofun), List.cons_append,
    List.append_assoc]
  rfl

end ViewTree.Embedded
