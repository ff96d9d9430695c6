import Mathlib.Data.List.Chain
import ViewTree.Proofs.Words
import ViewTree.Text.Compatibility

/-!
When spellings tell names apart. Main statements: what an ASCII word with an underscore puts in front
of a name does not change its compatibility form (`Text.compatible_append`), so made-up names are as
different as the names in them; and names that are written as words with one capital each can be told
apart in small letters (`Text.snakeCase_injOn`), which names in general cannot.
-/
namespace ViewTree.Text
open Embedded (toNat_lt_of_isAlpha toNat_lt_of_isDigit)

/-- The rows of a table are checked by their characters, because a literal is a list of characters only
in the kernel. -/
theorem forall_rows_cons {P : List Char → Prop} {cs : List Char} {read : List (List Char)}
    {rows : List String} (h : ∀ row ∈ cs :: read ++ rows.map String.toList, P row) :
    ∀ row ∈ read ++ (String.ofList cs :: rows).map String.toList, P row := by
  rw [List.map_cons, String.toList_ofList]
  exact fun row hrow => h row (List.perm_middle.mem_iff.mp hrow)

theorem ascii_lt_markClasses : ∀ run ∈ markClasses, 128 ≤ run.first := by
  rw [markClasses, CodeMap.read, ← List.flatMap_map, List.forall_mem_map, List.forall_mem_flatMap,
    ← List.nil_append (List.map _ _)]
  unfold markClassMap
  repeat refine forall_rows_cons ?_
  decide

/-- No character is composed of an underscore and another one, or of one and an ASCII character. -/
theorem ascii_lt_compositions : ∀ c ∈ compositions, c.1 ≠ 95 ∧ 128 ≤ c.2.1 := by
  rw [compositions, ← List.flatMap_map, List.forall_mem_map, List.forall_mem_flatMap,
    ← List.nil_append (List.map _ _)]
  unfold compositionMap
  repeat refine forall_rows_cons ?_
  decide +kernel

theorem markClass_of_ascii {n : Nat} (hn : n < 128) : markClass n = 0 := by
  have hfind : markClasses.find? (fun run => run.first ≤ n && n ≤ run.last) = none := by
    refine List.find?_eq_none.mpr fun run hrun => ?_
    have hfirst := ascii_lt_markClasses run hrun
    simp only [Bool.and_eq_true, decide_eq_true_eq]
    omega
  rw [markClass, hfind]

theorem composePair_ascii (base : Nat) {n : Nat} (hn : n < 128) : composePair base n = none := by
  rw [composePair, if_neg (by simp; omega), if_neg (by simp; omega), Option.map_eq_none_iff,
    List.find?_eq_none]
  intro c hc
  show ¬(c.1 = base && c.2.1 = n)
  have hsecond : 128 ≤ c.2.1 := (ascii_lt_compositions c hc).2
  simp only [Bool.and_eq_true, decide_eq_true_eq]
  omega

def IsInert (base : Nat) : Prop := base < 128 ∧ ∀ n, composePair base n = none

theorem isInert_underscore : IsInert 95 := by
  refine ⟨by decide, fun n => ?_⟩
  rw [composePair, if_neg (by simp), if_neg (by simp), Option.map_eq_none_iff, List.find?_eq_none]
  intro c hc
  show ¬(c.1 = 95 && c.2.1 = n)
  have hfirst : c.1 ≠ 95 := (ascii_lt_compositions c hc).1
  simp [hfirst]

theorem composeFrom_cons {base n : Nat} (h : composePair base n = none) (kept ns : List Nat) :
    composeFrom base kept (n :: ns) =
      if markClass n = 0 then base :: kept.reverse ++ composeFrom n [] ns
      else composeFrom base (n :: kept) ns := by
  rw [composeFrom.eq_def]
  dsimp only
  rw [h, ite_self]

/-- What stands behind an inert character is composed as by itself. -/
theorem composeFrom_inert {base : Nat} (hbase : IsInert base) (kept ns : List Nat) :
    composeFrom base kept ns = base :: kept.reverse ++ compose ns := by
  induction ns generalizing kept with
  | nil => rw [composeFrom.eq_def, compose, List.append_nil]
  | cons n ns ih =>
    rw [composeFrom_cons (hbase.2 n), compose]
    split
    · rfl
    · rw [ih, List.reverse_cons, List.cons_append, List.append_assoc]
      rfl

theorem compose_ascii {n m : Nat} (hn : n < 128) (hm : m < 128) (ns : List Nat) :
    compose (n :: m :: ns) = n :: compose (m :: ns) := by
  rw [compose, if_pos (markClass_of_ascii hn), composeFrom_cons (composePair_ascii n hm),
    if_pos (markClass_of_ascii hm), compose, if_pos (markClass_of_ascii hm)]
  rfl

theorem compose_append {p : List Nat} (hp : ∀ n ∈ p, n < 128) {base : Nat} (hbase : IsInert base)
    (ns : List Nat) : compose (p ++ base :: ns) = p ++ base :: compose ns := by
  induction p with
  | nil =>
    rw [List.nil_append, compose, if_pos (markClass_of_ascii hbase.1), composeFrom_inert hbase]
    rfl
  | cons n p ih =>
    obtain ⟨hn, hp⟩ := List.forall_mem_cons.mp hp
    cases p with
    | nil => exact (compose_ascii hn hbase.1 ns).trans (congrArg (n :: ·) (ih nofun))
    | cons m p => exact (compose_ascii hn (hp m List.mem_cons_self) _).trans (congrArg (n :: ·) (ih hp))

theorem orderMarks_append {p : List Nat} (hp : ∀ n ∈ p, n < 128) (ns : List Nat) :
    orderMarks [] (p ++ ns) = p ++ orderMarks [] ns := by
  induction p with
  | nil => rfl
  | cons n p ih =>
    obtain ⟨hn, hp⟩ := List.forall_mem_cons.mp hp
    rw [List.cons_append, orderMarks, if_pos (markClass_of_ascii hn), ih hp]
    rfl

theorem flatMap_decompose {cs : List Char} (hcs : ∀ c ∈ cs, c.toNat < 128) :
    cs.flatMap (fun c => decompose c.toNat) = cs.map Char.toNat := by
  rw [List.map_eq_flatMap]
  exact List.flatMap_congr fun c hc => by rw [decompose, if_pos (hcs c hc)]

theorem compatible_of_ascii {text : String} (h : ∀ c ∈ text.toList, c.toNat < 128) :
    compatible text = text :=
  if_pos (List.all_eq_true.mpr fun c hc => decide_eq_true (h c hc))

/-- An ASCII word and an underscore in front stay what they are, and change nothing behind them. -/
theorem compatible_append {p : List Char} (h : p.all (·.toNat < 128)) (text : String) :
    compatible (String.ofList (p ++ ['_']) ++ text) =
      String.ofList (p ++ ['_']) ++ compatible text := by
  have hp : ∀ c ∈ p, c.toNat < 128 := fun c hc => of_decide_eq_true (List.all_eq_true.mp h c hc)
  have hfront : ∀ c ∈ p ++ ['_'], c.toNat < 128 :=
    List.forall_mem_append.mpr ⟨hp, List.forall_mem_singleton.mpr (by decide)⟩
  have hlist : (String.ofList (p ++ ['_']) ++ text).toList = p ++ ['_'] ++ text.toList := by
    rw [String.toList_append, String.toList_ofList]
  by_cases htext : ∀ c ∈ text.toList, c.toNat < 128
  · rw [compatible_of_ascii htext, compatible_of_ascii]
    rw [hlist]
    exact List.forall_mem_append.mpr ⟨hfront, htext⟩
  · have hnot {cs : List Char} (hcs : text.toList ⊆ cs) : ¬cs.all (·.toNat < 128) = true :=
      fun hall => htext fun c hc => of_decide_eq_true (List.all_eq_true.mp hall c (hcs hc))
    have hmarks : orderMarks [] ((p ++ ['_']).map Char.toNat ++
        text.toList.flatMap fun c => decompose c.toNat) =
          p.map Char.toNat ++ 95 :: orderMarks [] (text.toList.flatMap fun c => decompose c.toNat) := by
      rw [orderMarks_append (List.forall_mem_map.mpr hfront), List.map_append, List.append_assoc]
      rfl
    have hback : (p.map Char.toNat).map Char.ofNat = p := by
      rw [List.map_map]
      exact List.map_id'' Char.ofNat_toNat p
    rw [compatible, compatible, hlist, if_neg (hnot (List.subset_append_right _ _)),
      if_neg (hnot (List.Subset.refl _))]
    dsimp only
    rw [List.flatMap_append, flatMap_decompose hfront, hmarks,
      compose_append (List.forall_mem_map.mpr hp) isInert_underscore, List.map_append, hback,
      ← String.ofList_append, List.append_assoc]
    rfl

/-- ASCII words written together, each with one capital in front. -/
structure IsCamel (cs : List Char) : Prop where
  capital : cs.head?.any (·.isUpper)
  ascii : cs.all (·.isAlphanum)
  apart : cs.IsChain fun a b => ¬(a.isUpper ∧ b.isUpper)

instance : DecidablePred IsCamel := fun cs =>
  decidable_of_iff (cs.head?.any (·.isUpper) ∧ cs.all (·.isAlphanum) ∧
    cs.IsChain fun a b => ¬(a.isUpper ∧ b.isUpper))
    ⟨fun ⟨h, h', h''⟩ => ⟨h, h', h''⟩, fun h => ⟨h.capital, h.ascii, h.apart⟩⟩

theorem IsCamel.alphanum {cs : List Char} (h : IsCamel cs) : ∀ c ∈ cs, c.isAlphanum :=
  List.all_eq_true.mp h.ascii

/-- How a character of such words stands in small letters. -/
def snakeChar (c : Char) : List Char := if c.isUpper then ['_', c.toLower] else [c]

/-- Letters and digits of ASCII: none of them is an underscore, and a capital is found again from its
small letter. -/
theorem of_isAlphanum {c : Char} (h : c.isAlphanum) : (c.toNat < 128 ∧ c.toLower.toNat < 128) ∧ c ≠ '_' ∧
    (c.isUpper → c.toLower.toUpper = c) ∧ (c.isUpper = false → c.toLower = c) := by
  have hsmall : c.toNat < 128 := by
    rcases Bool.or_eq_true_iff.mp h with h | h
    · exact toNat_lt_of_isAlpha h
    · exact toNat_lt_of_isDigit h
  have hall : ∀ n < 128, (Char.ofNat n).isAlphanum → (Char.ofNat n).toLower.toNat < 128 ∧
      Char.ofNat n ≠ '_' ∧
        ((Char.ofNat n).isUpper → (Char.ofNat n).toLower.toUpper = Char.ofNat n) ∧
          ((Char.ofNat n).isUpper = false → (Char.ofNat n).toLower = Char.ofNat n) := by decide
  have hchar := hall c.toNat hsmall
  rw [Char.ofNat_toNat] at hchar
  exact ⟨⟨hsmall, (hchar h).1⟩, (hchar h).2⟩

/-- An underscore is put in front of each capital but the first character. -/
theorem underscoredFrom_of_isChain {b : Char} {cs : List Char} (halphanum : ∀ c ∈ b :: cs, c.isAlphanum)
    (hchain : (b :: cs).IsChain fun a b => ¬(a.isUpper ∧ b.isUpper)) :
    underscoredFrom (some b) cs = cs.flatMap fun c => if c.isUpper then ['_', c] else [c] := by
  induction cs generalizing b with
  | nil => rfl
  | cons c cs ih =>
    obtain ⟨hb, hcs⟩ := List.forall_mem_cons.mp halphanum
    obtain ⟨hapart, hmore⟩ := List.isChain_cons_cons.mp hchain
    have hstarts : startsWord (some b) c cs = c.isUpper := by
      cases hc : c.isUpper with
      | false => rw [startsWord, hc, Bool.false_and]
      | true =>
        have hupper : b.isUpper = false := Bool.eq_false_iff.mpr fun hupper => hapart ⟨hupper, hc⟩
        have hother : (b.isLower || b.isDigit) = true := by
          change (b.isUpper || b.isLower || b.isDigit) = true at hb
          rwa [hupper, Bool.false_or] at hb
        rw [startsWord, hc, hother, Bool.true_or, Bool.true_and]
    rw [underscoredFrom, hstarts, ih hcs hmore, List.flatMap_cons]
    split <;> rfl

theorem lowerFrom_of_ascii (before : List Char) {cs : List Char} (h : ∀ c ∈ cs, c.toNat < 128) :
    lowerFrom before cs = cs.map Char.toLower := by
  induction cs generalizing before with
  | nil => rfl
  | cons c cs ih =>
    obtain ⟨hc, hcs⟩ := List.forall_mem_cons.mp h
    have hsigma : c ≠ 'Σ' := by
      rintro rfl
      exact absurd hc (by decide)
    rw [lowerFrom, if_neg hsigma, lowerChar, if_pos hc, ih _ hcs]
    rfl

theorem snakeCase_of_isCamel {c : Char} {cs : List Char} (h : IsCamel (c :: cs)) :
    snakeCase (String.ofList (c :: cs)) = String.ofList (c.toLower :: cs.flatMap snakeChar) := by
  obtain ⟨hc, hcs⟩ := List.forall_mem_cons.mp h.alphanum
  have hascii : ∀ d ∈ c :: cs.flatMap (fun c => if c.isUpper then ['_', c] else [c]),
      d.toNat < 128 := by
    refine List.forall_mem_cons.mpr ⟨(of_isAlphanum hc).1.1, List.forall_mem_flatMap.mpr fun e he => ?_⟩
    have he := (of_isAlphanum (hcs e he)).1.1
    split
    · exact List.forall_mem_cons.mpr ⟨by decide, List.forall_mem_singleton.mpr he⟩
    · exact List.forall_mem_singleton.mpr he
  rw [snakeCase, String.toList_ofList, underscoredFrom_none, underscoredFrom_of_isChain h.alphanum h.apart,
    lowerText, lowerFrom_of_ascii _ hascii, List.map_cons, List.map_flatMap]
  refine congrArg (String.ofList <| c.toLower :: ·) (List.flatMap_congr fun e he => ?_)
  unfold snakeChar
  split
  · rfl
  · next hsmall =>
    exact congrArg ([·]) ((of_isAlphanum (hcs e he)).2.2.2 (Bool.eq_false_iff.mpr hsmall))

theorem snakeChar_append_inj {c d : Char} (hc : c.isAlphanum) (hd : d.isAlphanum) {cs ds : List Char}
    (h : snakeChar c ++ cs = snakeChar d ++ ds) : c = d ∧ cs = ds := by
  obtain ⟨-, hcmark, hcback, -⟩ := of_isAlphanum hc
  obtain ⟨-, hdmark, hdback, -⟩ := of_isAlphanum hd
  unfold snakeChar at h
  split at h
  · next hcupper =>
    split at h
    · next hdupper =>
      obtain ⟨-, h⟩ := List.cons.inj h
      obtain ⟨hlower, h⟩ := List.cons.inj h
      exact ⟨by rw [← hcback hcupper, hlower, hdback hdupper], h⟩
    · exact absurd (List.cons.inj h).1.symm hdmark
  · split at h
    · exact absurd (List.cons.inj h).1 hcmark
    · exact List.cons.inj h

/-- The words can be read back, character by character. -/
theorem flatMap_snakeChar_inj {cs ds : List Char} (hcs : ∀ c ∈ cs, c.isAlphanum)
    (hds : ∀ d ∈ ds, d.isAlphanum) (h : cs.flatMap snakeChar = ds.flatMap snakeChar) : cs = ds := by
  have hsome (c : Char) (more : List Char) : snakeChar c ++ more ≠ [] := by
    unfold snakeChar
    split <;> exact List.cons_ne_nil _ _
  induction cs generalizing ds with
  | nil =>
    cases ds with
    | nil => rfl
    | cons d ds => exact absurd h.symm (hsome d _)
  | cons c cs ih =>
    cases ds with
    | nil => exact absurd h (hsome c _)
    | cons d ds =>
      obtain ⟨hc, hcs⟩ := List.forall_mem_cons.mp hcs
      obtain ⟨hd, hmore⟩ := List.forall_mem_cons.mp hds
      rw [List.flatMap_cons, List.flatMap_cons] at h
      obtain ⟨hfirst, h⟩ := snakeChar_append_inj hc hd h
      rw [hfirst, ih hcs hmore h]

theorem IsCamel.exists_eq {name : String} (h : IsCamel name.toList) :
    ∃ c cs, name = String.ofList (c :: cs) ∧ IsCamel (c :: cs) ∧ c.isUpper := by
  obtain ⟨c, hc, hupper⟩ := (Option.any_eq_true _ _).mp h.capital
  obtain ⟨cs, hcs⟩ := List.head?_eq_some_iff.mp hc
  exact ⟨c, cs, by rw [← hcs, String.ofList_toList], hcs ▸ h, hupper⟩

theorem IsCamel.compatible_eq {name : String} (h : IsCamel name.toList) : compatible name = name :=
  compatible_of_ascii fun c hc => (of_isAlphanum (h.alphanum c hc)).1.1

theorem IsCamel.compatible_snakeCase {name : String} (h : IsCamel name.toList) :
    compatible (snakeCase name) = snakeCase name := by
  obtain ⟨c, cs, rfl, h, -⟩ := h.exists_eq
  obtain ⟨hc, hcs⟩ := List.forall_mem_cons.mp h.alphanum
  rw [snakeCase_of_isCamel h]
  refine compatible_of_ascii ?_
  rw [String.toList_ofList]
  refine List.forall_mem_cons.mpr ⟨(of_isAlphanum hc).1.2, List.forall_mem_flatMap.mpr fun d hd => ?_⟩
  obtain ⟨hsmall, hlower⟩ := (of_isAlphanum (hcs d hd)).1
  unfold snakeChar
  split
  · exact List.forall_mem_cons.mpr ⟨by decide, List.forall_mem_singleton.mpr hlower⟩
  · exact List.forall_mem_singleton.mpr hsmall

/-- Names of such words can be told apart in small letters. -/
theorem snakeCase_injOn {a b : String} (ha : IsCamel a.toList) (hb : IsCamel b.toList)
    (h : snakeCase a = snakeCase b) : a = b := by
  obtain ⟨c, cs, rfl, hc, hcupper⟩ := ha.exists_eq
  obtain ⟨d, ds, rfl, hd, hdupper⟩ := hb.exists_eq
  rw [snakeCase_of_isCamel hc, snakeCase_of_isCamel hd] at h
  obtain ⟨hfirst, hmore⟩ := List.cons.inj (String.ofList_injective h)
  obtain ⟨hcalphanum, hcs⟩ := List.forall_mem_cons.mp hc.alphanum
  obtain ⟨hdalphanum, hds⟩ := List.forall_mem_cons.mp hd.alphanum
  have hhead : c = d := by
    rw [← (of_isAlphanum hcalphanum).2.2.1 hcupper, hfirst, (of_isAlphanum hdalphanum).2.2.1 hdupper]
  rw [hhead, flatMap_snakeChar_inj hcs hds hmore]

end ViewTree.Text
