import ViewTree.Proofs.Elements.Slices
import ViewTree.Proofs.Pasting.Suffixes

/-!
Paths between parentheses, and in front of dots. Main statements: what is read as a path between
parentheses is an expression without them (`isExpression_of_isPath`), a path ends with a closing bracket
or a name (`Suffixes.exists_trails`), and what ends so is scanned alike in front of a dot
(`Passes.before`).
-/
namespace ViewTree.Embedded
open Reader

section
variable {g : Grammar} {primary : Reader Term} {i j : Input} {x : Term}

theorem pathless_yieldTerm : Pathless g.yieldTerm :=
  .bind fun _ => .bind fun _ => .bind fun _ => .ite (fun _ => .bind fun _ => pathless_close rfl)
    fun _ => .bind fun _ => .ite (fun _ => pathless_close rfl) fun _ => .bind fun _ => pathless_close rfl

theorem namesNext_idle {b : Bool} (h : Grammar.namesNext i = some (b, j)) : j = i := by
  unfold Grammar.namesNext at h
  rw [bind_eq (peek_of_next rfl), bind_eq (peekSecond_eq i)] at h
  generalize Option.map (·.kind) (List.head? i.rest) = first? at h
  generalize Option.map (·.kind) i.rest[1]? = second? at h
  split at h <;> exact (Prod.mk.inj (Option.some.inj h)).2.symm

/-- A path among items is an expression. -/
theorem within_item : Within g.item g.expression := by
  refine .here fun start => .accept (.bind fun _ => pathless_close rfl) ?_
  intro i x j hx hr
  obtain ⟨⟨names, m⟩, hnames, hrest⟩ := Option.bind_eq_some_iff.mp hr
  obtain rfl := namesNext_idle hnames
  cases names with
  | false => exact hrest
  | true =>
    have hnone : Pathless (do
        let start ← here
        let target ← name
        symbol ":="
        let value ← g.expression
        close start (.named target value)) :=
      .bind fun _ => .bind fun _ => .bind fun _ => .bind fun _ => pathless_close rfl
    exact absurd hx (hnone.not_isPath hrest)

theorem idles_clause : Idles (g.clause primary) := by
  have hsome (isAsync : Bool) : Yields (· ≠ none) (do
      keyword "for"
      let found ← Grammar.itemsTerm (Grammar.target primary)
      keyword "in"
      let source ← g.disjunction
      let conditions ← many do
        if ← accept (.keyword "if") then pure (some (← g.disjunction)) else pure none
      pure (some (Clause.mk isAsync found source conditions))) :=
    .bind fun _ => .bind fun _ => .bind fun _ => .bind fun _ => .bind fun _ => .pure nofun
  refine .accept (.bind fun kind? => .ite (fun _ => hsome true) fun h => absurd (Bool.true_or _) h)
    (.peek fun kind? => ?_)
  split
  · exact (hsome false).idles
  · exact idles_pure

def itemStep {α : Type} (item : Reader α) (ends : LexemeKind → Bool) (s : List α × Bool) :
    Reader (Option (List α × Bool)) := do
  if !(← accept (.symbol ",")) then pure none
  else if (← peek).all ends then pure (some (s.1, true))
  else pure (some ((← item) :: s.1, true))

theorem itemsAfter_eq {α : Type} (first : α) (item : Reader α) (ends : LexemeKind → Bool) :
    itemsAfter first item ends =
      (repeating (itemStep item ends) ([first], false) >>= fun s => pure (s.1.reverse, s.2)) := rfl

/-- A round ends the list, or takes a comma, and perhaps an item behind it. -/
theorem cases_of_itemStep {α : Type} {item : Reader α} {ends : LexemeKind → Bool} {s : List α × Bool}
    {next? : Option (List α × Bool)} (h : itemStep item ends s i = some (next?, j)) :
    (next? = none ∧ j = i) ∨ ∃ comma rest, i.rest = comma :: rest ∧ comma.kind = .symbol "," ∧
      ((next? = some (s.1, true) ∧ j = ⟨rest, comma.stop⟩) ∨
        ∃ y, item ⟨rest, comma.stop⟩ = some (y, j) ∧ next? = some (y :: s.1, true)) := by
  by_cases hcomma : Next (some (.symbol ",")) i
  · obtain ⟨_ | ⟨comma, rest⟩, last⟩ := i
    · nomatch hcomma
    have hkind : comma.kind = .symbol "," := Option.some.inj hcomma
    refine .inr ⟨comma, rest, rfl, hkind, ?_⟩
    unfold itemStep at h
    rw [bind_eq (accept_eq hkind rest last), if_neg (by decide), bind_eq (peek_of_next rfl)] at h
    split at h
    · obtain ⟨rfl, rfl⟩ := Prod.mk.inj (Option.some.inj h)
      exact .inl ⟨rfl, rfl⟩
    · obtain ⟨⟨y, m⟩, hy, hend⟩ := Option.bind_eq_some_iff.mp h
      obtain ⟨rfl, rfl⟩ := Prod.mk.inj (Option.some.inj hend)
      exact .inr ⟨y, hy, rfl⟩
  · unfold itemStep at h
    rw [bind_eq (accept_of_not hcomma), if_pos (by decide)] at h
    obtain ⟨rfl, rfl⟩ := Prod.mk.inj (Option.some.inj h)
    exact .inl ⟨rfl, rfl⟩

/-- Where no comma is found, there is one item. -/
theorem itemsAfter_idle {α : Type} {first : α} {item : Reader α} {ends : LexemeKind → Bool}
    {found : List α} (h : itemsAfter first item ends i = some ((found, false), j)) :
    found = [first] ∧ j = i := by
  have hcommas (s : List α × Bool) :
      Yields (fun next? => ∀ next ∈ next?, next.2 = true) (itemStep item ends s) := by
    rintro i next? j h
    obtain ⟨rfl, -⟩ | ⟨comma, rest, -, -, ⟨rfl, -⟩ | ⟨y, -, rfl⟩⟩ := cases_of_itemStep h
    · nofun
    all_goals exact fun next hnext => Option.some.inj hnext ▸ rfl
  rw [itemsAfter_eq] at h
  obtain ⟨⟨⟨items, commas⟩, m⟩, hrepeating, hend⟩ := Option.bind_eq_some_iff.mp h
  obtain ⟨hpair, rfl⟩ := Prod.mk.inj (Option.some.inj hend)
  obtain ⟨rfl, rfl⟩ := Prod.mk.inj hpair
  obtain ⟨⟨next?, m'⟩, hstep, hmore⟩ := Option.bind_eq_some_iff.mp hrepeating
  cases next? with
  | none =>
    obtain ⟨hsame, rfl⟩ := Prod.mk.inj (Option.some.inj hmore)
    obtain ⟨rfl, -⟩ := Prod.mk.inj hsame
    obtain ⟨-, rfl⟩ | ⟨comma, rest, -, -, ⟨hnone, -⟩ | ⟨y, -, hnone⟩⟩ := cases_of_itemStep hstep
    · exact ⟨rfl, rfl⟩
    all_goals nomatch hnone
  | some next =>
    have hcomma : next.2 = true := hcommas ([first], false) i _ m' hstep next rfl
    nomatch Yields.rounds (fun s _ => hcommas s) _ hcomma m' _ m hmore

def closedExpression (g : Grammar) : Reader Term := do
  let value ← g.expression
  symbol ")"
  pure value

/-- Where a path stands between parentheses, an expression does. -/
theorem within_parenthesized (start : Nat) :
    Within (g.parenthesized primary start) (closedExpression g) := by
  refine .accept (pathless_close rfl) (.peek fun kind? => ?_)
  split
  · have hyield : Pathless (do
        let value ← g.yieldTerm
        symbol ")"
        pure value) := .bind_of pathless_yieldTerm fun _ hvalue => .bind fun _ => .pure hvalue
    exact hyield.within
  intro i x j hx hr
  obtain ⟨⟨first, m⟩, hitem, hrest⟩ := Option.bind_eq_some_iff.mp hr
  let rest (loops : List Clause) : Reader Term := do
    if !loops.isEmpty then
      symbol ")"
      close start (.generator first loops)
    else
      let after ← itemsAfter first g.item
      symbol ")"
      if after.2 then close start (.tuple after.1)
      else if first.isStarred then failure
      else pure first
  have hrest : (if first.isStarred then rest [] else g.clauses primary >>= rest) m = some (x, j) := hrest
  have hrest : rest [] m = some (x, j) := by
    split at hrest
    · exact hrest
    · obtain ⟨⟨loops, m'⟩, hloops, hbehind⟩ := Option.bind_eq_some_iff.mp hrest
      cases loops with
      | nil =>
        obtain rfl := idles_clause _ _ (item_of_many_nil hloops)
        exact hbehind
      | cons loop loops =>
        have hgenerator : Pathless (rest (loop :: loops)) := .bind fun _ => pathless_close rfl
        exact absurd hx (hgenerator.not_isPath hbehind)
  obtain ⟨⟨⟨found, commas⟩, m'⟩, hitems, hrest⟩ := Option.bind_eq_some_iff.mp hrest
  obtain ⟨⟨⟨⟩, k⟩, hsymbol, hend⟩ := Option.bind_eq_some_iff.mp hrest
  cases commas with
  | true => exact absurd hx ((pathless_close rfl : Pathless (close start (.tuple found))).not_isPath hend)
  | false =>
    obtain ⟨-, rfl⟩ := itemsAfter_idle hitems
    have hend : (if first.isStarred then failure else pure first : Reader Term) k = some (x, j) := hend
    split at hend
    · cases hend
    · obtain ⟨rfl, rfl⟩ := Prod.mk.inj (Option.some.inj hend)
      unfold closedExpression
      rw [bind_eq (within_item _ _ _ hx hitem), bind_eq hsymbol]
      rfl

end

/-- What is read as a path between parentheses is an expression without them. -/
theorem isExpression_of_isPath {text : String} {term : Term} (hgroup : IsGroup text)
    (hreturn : '\r' ∉ text.toList) (hends : ∀ c ∈ text.toList, c.toNat ≠ 0)
    (hread : readTerm? text = some term) (hpath : term.isPath) : IsExpression text term := by
  obtain ⟨inner, -, hscan, hnest, -⟩ := hgroup.exists_passes hreturn
  generalize hopening : (⟨.symbol "(", 0, 1⟩ : Lexeme) = opening at hscan
  generalize hclosing : (⟨.symbol ")", text.length + 1, text.length + 2⟩ : Lexeme) = closing at hscan
  generalize hending : (⟨.lineEnd, text.length + 2, text.length + 2⟩ : Lexeme) = ending at hscan
  have hkind : opening.kind = .symbol "(" := hopening ▸ rfl
  have hline : ending.kind = .lineEnd := hending ▸ rfl
  obtain ⟨depth, last, hexpression⟩ := exists_expression_of_group hread hscan hkind hline hnest
  generalize hfields : readField (grouped text).length = fields at hexpression
  -- a path is read as a primary, and here that is the group
  obtain ⟨depth, rfl⟩ : ∃ d, depth = d + 2 := by
    match depth with
    | 0 => nomatch hexpression
    | 1 => nomatch within_expression fields 0 _ _ _ hpath hexpression
    | depth + 2 => exact ⟨depth, rfl⟩
  have hprimary : (grammarAt fields depth).1.primaryOf fields (grammarAt fields depth).2
      ⟨opening :: inner ++ [closing, ending], 0⟩ = some (term, ⟨[ending], last⟩) :=
    within_expression fields (depth + 1) _ _ _ hpath hexpression
  rw [Grammar.primaryOf_eq, bind_eq (here_eq _)] at hprimary
  obtain ⟨⟨first, ⟨rest, last'⟩⟩, hatom, hrepeating⟩ := Option.bind_eq_some_iff.mp hprimary
  obtain ⟨hg, hp⟩ := follows_grammarAt fields depth depth
  obtain ⟨used, hused, hpassage, -⟩ := follows_atom hg fields hp _ _ _ trivial hatom
  obtain ⟨-, rfl⟩ := eq_of_passage hkind hline hnest hused hpassage
  have hstop : Next (some .lineEnd) ⟨[ending], last'⟩ := congrArg some hline
  obtain ⟨rfl, -⟩ : first = term ∧ _ := Prod.mk.inj (Option.some.inj
    ((repeating_stop (suffix_lineEnd hstop)).symm.trans hrepeating))
  have hgroup : (grammarAt fields depth).1.parenthesized (grammarAt fields depth).2 opening.start
      ⟨inner ++ [closing, ending], opening.stop⟩ = some (first, ⟨[ending], last'⟩) := by
    obtain rfl := hopening
    exact hatom
  obtain ⟨⟨value, ⟨left, last''⟩⟩, hvalue, hclose⟩ :=
    Option.bind_eq_some_iff.mp (within_parenthesized _ _ _ _ hpath hgroup)
  obtain ⟨⟨⟨⟩, behind⟩, hsymbol, hend⟩ := Option.bind_eq_some_iff.mp hclose
  obtain ⟨rfl, rfl⟩ := Prod.mk.inj (Option.some.inj hend)
  obtain ⟨closing', hleft, -⟩ := exists_of_symbol hsymbol
  obtain rfl : left = closing' :: [ending] := hleft
  obtain ⟨used, hused, -⟩ := hg.expression _ _ _ trivial hvalue
  have hused : inner ++ [closing, ending] = used ++ [closing', ending] := hused
  obtain ⟨-, hsame⟩ := List.append_inj' hused rfl
  obtain ⟨rfl, -⟩ := List.cons.inj hsame
  subst hfields
  exact ⟨hends, depth, opening, closing, ending, inner, last'', hscan, hclosing ▸ rfl, hline, hvalue⟩

section
variable {α β : Type} {kind : LexemeKind}

/-- What the reader takes ends with a lexeme of the kind. -/
def EndsWith (kind : LexemeKind) (r : Reader α) : Prop :=
  ∀ i x j, r i = some (x, j) → ∃ used t, i.rest = used ++ t :: j.rest ∧ t.kind = kind

theorem endsWith_symbol (text : String) {k : Unit → Reader α}
    (hk : ∀ i x j, k () i = some (x, j) → j.rest = i.rest) :
    EndsWith (.symbol text) (symbol text >>= k) := by
  intro i x j h
  obtain ⟨⟨⟨⟩, m⟩, hsymbol, hrest⟩ := Option.bind_eq_some_iff.mp h
  obtain ⟨t, ht, hkind⟩ := exists_of_symbol hsymbol
  exact ⟨[], t, by rw [ht, hk _ _ _ hrest, List.nil_append], hkind⟩

theorem EndsWith.bind {count : Nat} {m : Mode} {e : α → Mode} {r r' : Reader α} {k : α → Reader β}
    (h : Follows count m e r r') (hk : ∀ x, EndsWith kind (k x)) : EndsWith kind (r >>= k) := by
  intro i y j hr
  obtain ⟨⟨x, i'⟩, hx, hrest⟩ := Option.bind_eq_some_iff.mp hr
  obtain ⟨a, ha, -⟩ := h _ _ _ trivial hx
  obtain ⟨b, t, hb, ht⟩ := hk x _ _ _ hrest
  exact ⟨a ++ b, t, by rw [ha, hb, List.append_assoc], ht⟩

theorem endsWith_arguments {n : Nat} {g g' : Grammar} {primary primary' : Reader Term}
    (h : Reads n g g') (hp : Whole n primary primary') (start : Nat) :
    EndsWith (.symbol ")") (g.arguments primary start) := by
  have hpure {x y : Grammar.Arguments} {i j : Input}
      (hend : (pure x : Reader Grammar.Arguments) i = some (y, j)) : j.rest = i.rest :=
    (congrArg (·.2.rest) (Option.some.inj hend)).symm
  intro i x j hr
  obtain ⟨⟨found, m⟩, hfound, hrest⟩ := Option.bind_eq_some_iff.mp hr
  cases found with
  | true =>
    by_cases hi : Next (some (.symbol ")")) i
    · obtain ⟨t, m', ht, hkind, haccept⟩ := accept_of_next hi
      obtain ⟨-, rfl⟩ := Prod.mk.inj (Option.some.inj (haccept.symm.trans hfound))
      exact ⟨[], t, by rw [ht, hpure hrest, List.nil_append], hkind⟩
    · nomatch (accept_of_not hi).symm.trans hfound
  | false =>
    obtain rfl := accept_idle hfound
    refine EndsWith.bind (follows_argument h {}) (fun first => ?_) _ _ _ hrest
    extract_lets rest
    have hfrom : EndsWith (.symbol ")") (argumentsFrom g first) :=
      .bind (follows_repeating (follows_nextArgument h) first) fun read =>
        endsWith_symbol ")" fun _ _ _ => hpure
    have hclosed (loops : List Clause) : EndsWith (.symbol ")") (rest loops) := by
      dsimp only [rest]
      split
      · exact endsWith_symbol ")" fun _ _ _ hend => hpure hend
      · exact hfrom
    split
    · split
      · exact hclosed []
      · exact .bind (follows_clauses h hp) hclosed
    · exact hclosed []

end

/-- The lexeme closes a call or a subscript. -/
def Lexeme.Closes (t : Lexeme) : Prop := t.kind = .symbol ")" ∨ t.kind = .symbol "]"

/-- Lexemes that a path may end with: behind the last closing bracket stand names, and dots in front of
names. -/
inductive Trails : List Lexeme → Prop where
  | nil : Trails []
  | inside {t u ts} (hu : u ∈ ts) (hcloses : u.Closes) (h : Trails ts) : Trails (t :: ts)
  | closing {t ts} (ht : t.Closes) (h : Trails ts) : Trails (t :: ts)
  | name {t id ts} (ht : t.kind = .name id) (h : Trails ts) : Trails (t :: ts)
  | dot {t u id ts} (ht : t.kind = .symbol ".") (hu : u.kind = .name id) (h : Trails (u :: ts)) :
      Trails (t :: u :: ts)

namespace Trails
variable {t : Lexeme} {a b ts us : List Lexeme}

theorem append (h : Trails a) (h' : Trails b) : Trails (a ++ b) := by
  induction h with
  | nil => exact h'
  | inside hu hcloses _ ih => exact .inside (List.mem_append_left _ hu) hcloses ih
  | closing ht _ ih => exact .closing ht ih
  | name ht _ ih => exact .name ht ih
  | dot ht hu _ ih => exact .dot ht hu ih

theorem tail (h : Trails (t :: ts)) : Trails ts := by
  cases h with
  | inside _ _ h | closing _ h | name _ h | dot _ _ h => exact h

theorem of_append (h : Trails (a ++ b)) : Trails b := by
  induction a with
  | nil => exact h
  | cons t a ih => exact ih h.tail

theorem of_closes (ht : t.Closes) (ts : List Lexeme) : Trails (ts ++ [t]) := by
  induction ts with
  | nil => exact .closing ht .nil
  | cons u ts ih => exact .inside (by simp) ht ih

theorem of_alike (h : Trails ts) (halike : Alike us ts) : Trails us := by
  have hsymbol {t t' : Lexeme} {s : String} (ht : t.kind = .symbol s)
      (h : t'.kind.unplaced = t.kind.unplaced) : t'.kind = .symbol s :=
    (eq_of_unplaced (by rw [ht]; rfl) h.symm).symm.trans ht
  have hname {t t' : Lexeme} {id : String} (ht : t.kind = .name id)
      (h : t'.kind.unplaced = t.kind.unplaced) : t'.kind = .name id :=
    (eq_of_unplaced (by rw [ht]; rfl) h.symm).symm.trans ht
  have hcloses {t t' : Lexeme} (ht : t.Closes) (h : t'.kind.unplaced = t.kind.unplaced) : t'.Closes :=
    ht.imp (hsymbol · h) (hsymbol · h)
  induction h generalizing us with
  | nil => 
    obtain rfl := List.map_eq_nil_iff.mp halike
    exact .nil
  | @inside t u ts hu hcloses' _ ih =>
    obtain ⟨t', us, rfl, -, hrest⟩ := List.map_eq_cons_iff.mp halike
    have hmem : u.kind.unplaced ∈ us.map (·.kind.unplaced) := by
      rw [hrest]
      exact List.mem_map_of_mem hu
    obtain ⟨u', hu', hsame⟩ := List.mem_map.mp hmem
    exact .inside hu' (hcloses hcloses' hsame) (ih hrest)
  | closing ht _ ih =>
    obtain ⟨t', us, rfl, hsame, hrest⟩ := List.map_eq_cons_iff.mp halike
    exact .closing (hcloses ht hsame) (ih hrest)
  | name ht _ ih =>
    obtain ⟨t', us, rfl, hsame, hrest⟩ := List.map_eq_cons_iff.mp halike
    exact .name (hname ht hsame) (ih hrest)
  | dot ht hu _ ih =>
    obtain ⟨t', us, rfl, hsame, hrest⟩ := List.map_eq_cons_iff.mp halike
    obtain ⟨u', us, rfl, hsame', -⟩ := List.map_eq_cons_iff.mp hrest
    exact .dot (hsymbol ht hsame) (hname hu hsame') (ih hrest)

end Trails

section
variable {n : Nat} {g g' : Grammar} {primary primary' : Reader Term} (hg : Reads n g g')
  (hp : Whole n primary primary') {start : Nat} {v w x : Term} {i k : Input}
include hg hp

theorem exists_trails_of_suffix (h : g.suffix primary start v i = some (some w, k)) :
    ∃ used, i.rest = used ++ k.rest ∧ Trails used := by
  obtain ⟨_ | ⟨t, rest⟩, last⟩ := i
  · nomatch h
  obtain ⟨ht, attr, id, rfl, hattr, -⟩ | ⟨-, read, hread, -⟩ | ⟨-, index, closing, stop, hclosing, hread, -⟩ :=
    suffix_cases h
  · exact ⟨[t, attr], rfl, .dot ht hattr (.name hattr .nil)⟩
  · obtain ⟨used, closing, hused, hclosing⟩ := endsWith_arguments hg hp t.start _ _ _ hread
    exact ⟨t :: used ++ [closing], by simpa using hused, .of_closes (.inl hclosing) _⟩
  · obtain ⟨used, hused, -⟩ := follows_indices hg _ _ _ trivial hread
    exact ⟨t :: used ++ [closing], by simpa using hused, .of_closes (.inr hclosing) _⟩

theorem Suffixes.exists_trails (h : Suffixes g primary start v i x k) :
    ∃ used, i.rest = used ++ k.rest ∧ Trails used := by
  induction h with
  | done => exact ⟨[], rfl, .nil⟩
  | more hstep _ ih =>
    obtain ⟨a, ha, hfirst⟩ := exists_trails_of_suffix hg hp hstep
    obtain ⟨b, hb, hlater⟩ := ih
    exact ⟨a ++ b, by rw [ha, hb, List.append_assoc], hfirst.append hlater⟩

end

/-- Texts that start with a dot, or are empty. -/
def StartsDot (s : List Char) : Prop := ∀ c ∈ s.head?, c = '.'

theorem startsDot_nil : StartsDot [] := nofun

theorem startsDot_cons (cs : List Char) : StartsDot ('.' :: cs) := fun _ hc => (Option.some.inj hc).symm

section
variable {offset n : Nat} {c : Char} {rest : List Char}

/-- A name is read alike in front of a dot. -/
theorem lexeme?_name_append {z : List Char} (hz : StartsDot z) {id : String}
    (h : lexeme? offset (c :: rest) = some (.name id, n)) :
    lexeme? offset (c :: rest ++ z) = some (.name id, n) := by
  have hsmall {p : Char → Bool} (hp : p '.' = false) : ∀ d ∈ z.head?, p d = false :=
    fun d hd => hz d hd ▸ hp
  have hdrop : (c :: rest ++ z).drop ((c :: rest).takeWhile isWordByte).length =
      (c :: rest).drop ((c :: rest).takeWhile isWordByte).length ++ z :=
    List.drop_append_of_le_length (List.takeWhile_prefix _).length_le
  have htake := takeWhile_append_of_head? (p := isWordByte) (hsmall (by decide)) (c :: rest)
  unfold lexeme? at h ⊢
  rw [List.cons_append] at htake hdrop ⊢
  dsimp only at h ⊢
  rw [head?_append_any (hsmall (by decide)), htake, hdrop, head?_append_any (hsmall (by decide))]
  split at h
  · obtain ⟨x, -, hx⟩ := Option.map_eq_some_iff.mp h
    nomatch hx
  next hnumber =>
  rw [if_neg hnumber]
  split at h
  · next hword =>
    rw [if_pos hword]
    split at h
    · obtain ⟨x, -, hx⟩ := Option.map_eq_some_iff.mp h
      nomatch hx
    next hstring =>
    rw [if_neg hstring]
    exact h
  split at h
  · obtain ⟨x, -, hx⟩ := Option.map_eq_some_iff.mp h
    nomatch hx
  · obtain ⟨x, -, hx⟩ := Option.map_eq_some_iff.mp h
    nomatch hx

theorem isWordByte_of_name {id : String} (h : lexeme? offset (c :: rest) = some (.name id, n)) :
    isWordByte c := by
  cases hword : isWordByte c with
  | true => rfl
  | false =>
    unfold lexeme? at h
    dsimp only at h
    rw [hword, if_neg (c := false = true) nofun] at h
    split at h
    · obtain ⟨x, -, hx⟩ := Option.map_eq_some_iff.mp h
      nomatch hx
    split at h
    all_goals
      obtain ⟨x, -, hx⟩ := Option.map_eq_some_iff.mp h
      nomatch hx

theorem isDigit_of_dot {s : String} (h : lexeme? offset ('.' :: c :: rest) = some (.symbol s, n)) :
    c.isDigit = false := by
  cases hdigit : c.isDigit with
  | false => rfl
  | true =>
    unfold lexeme? at h
    dsimp only at h
    rw [if_pos (by simp [hdigit])] at h
    obtain ⟨x, -, hx⟩ := Option.map_eq_some_iff.mp h
    nomatch hx

/-- A closing bracket is a lexeme whatever stands behind it. -/
theorem closing_of_lexeme? {kind : LexemeKind} (h : lexeme? offset (c :: rest) = some (kind, n))
    (hkind : kind = .symbol ")" ∨ kind = .symbol "]") :
    isClosing c ∧ ∀ rest, lexeme? offset (c :: rest) = some (kind, n) := by
  rcases hkind with rfl | rfl
  all_goals
    obtain ⟨⟨more, hmore⟩, rfl⟩ := symbol_of_lexeme? h
    obtain ⟨rfl, -⟩ := List.cons.inj hmore
    exact ⟨by decide, fun _ => rfl⟩

theorem lexeme?_dot (hdot : c ≠ '.') (hdigit : c.isDigit = false) (offset : Nat) (rest : List Char) :
    lexeme? offset ('.' :: c :: rest) = some (.symbol ".", 1) := by
  have hsymbol : symbol? ('.' :: c :: rest) = some "." := by
    simp [symbol?, symbols, hdot.symm]
  unfold lexeme?
  dsimp only
  rw [if_neg (by simp [hdigit]), if_neg (by decide), if_neg (by decide), hsymbol]
  rfl

end

section
variable {i j : ScanPoint} {a s z : List Char} {t : Lexeme} {ts : List Lexeme}

theorem Passes.exists_closing (h : Passes i a ts j s) (ht : t ∈ ts) (hcloses : t.Closes) :
    ∃ x ∈ a, isClosing x := by
  induction h with
  | done => nomatch ht
  | blank _ _ ih => exact (ih ht).imp fun _ hx => hx.imp_left (List.mem_cons_of_mem _)
  | @feed o p f cs ts j s _ ih =>
    rcases List.mem_append.mp ht with hline | hmem
    · have hkind : t.kind = .lineEnd := by
        unfold ScanPoint.lineEnd at hline
        split at hline
        · rw [List.mem_singleton.mp hline]
        · nomatch hline
      rcases hcloses with hclosing | hclosing <;> nomatch hkind.symm.trans hclosing
    · exact (ih hmem).imp fun _ hx => hx.imp_left (List.mem_cons_of_mem _)
  | comment _ _ ih => exact (ih ht).imp fun _ hx => hx.imp_left (List.mem_append_right _)
  | join _ ih =>
    exact (ih ht).imp fun _ hx => hx.imp_left (List.mem_cons_of_mem _ ∘ List.mem_cons_of_mem _)
  | lexeme _ hlexeme _ _ ih =>
    rcases List.mem_cons.mp ht with rfl | hmem
    · exact ⟨_, List.mem_cons_self, (closing_of_lexeme? hlexeme hcloses).1⟩
    · exact (ih hmem).imp fun _ hx => hx.imp_left fun hx => List.mem_cons_of_mem _ (List.mem_of_mem_drop hx)

theorem Passes.exists_cons_of_name {id : String} (h : Passes i a (t :: ts) j s) (ht : t.kind = .name id) :
    ∃ c more, a = c :: more ∧ c ≠ '.' := by
  generalize hts : t :: ts = us at h
  cases h with
  | done => nomatch hts
  | @blank _ _ _ c cs _ _ _ hc => exact ⟨c, cs, rfl, by rcases hc with (rfl | rfl) | rfl <;> decide⟩
  | feed => exact ⟨_, _, rfl, by decide⟩
  | comment => exact ⟨_, _, rfl, by decide⟩
  | join => exact ⟨_, _, rfl, by decide⟩
  | @lexeme _ _ _ c rest _ _ _ _ _ _ _ hlexeme =>
    obtain ⟨rfl, -⟩ := List.cons.inj hts
    obtain rfl := ht
    refine ⟨c, rest, rfl, ?_⟩
    rintro rfl
    exact absurd (isWordByte_of_name hlexeme) (by decide)

/-- What ends as a path does is passed with a dot behind it as it is alone. -/
theorem Passes.before (h : Passes i a ts j []) (ht : Trails ts) (hz : StartsDot z) :
    Passes i (a ++ z) ts j z := by
  generalize hs : ([] : List Char) = s at h
  induction h with
  | done i s =>
    obtain rfl := hs
    exact .done i z
  | blank hc _ ih => exact .blank hc (ih ht hs)
  | feed _ ih => exact .feed (ih ht.of_append hs)
  | comment hskipped _ ih =>
    rw [List.append_assoc]
    exact .comment hskipped (ih ht hs)
  | join _ ih => exact .join (ih ht hs)
  | @lexeme o p f c rest kind n still ts j s hc hlexeme hnest h ih =>
    have hbehind := ih ht.tail hs
    rw [← drop_append_of_lexeme? hlexeme] at hbehind
    have hsame : lexeme? o (c :: (rest ++ z)) = some (kind, n) := by
      cases ht with
      | @inside _ u _ hu hcloses _ =>
        -- the lexeme ends in front of a bracket that closes, and does not see what stands behind it
        obtain ⟨x, hx, hclosing⟩ := h.exists_closing hu hcloses
        obtain ⟨b, m, hsplit⟩ := List.append_of_mem hx
        have hrest : rest = rest.take (n - 1) ++ b ++ x :: m := by
          rw [List.append_assoc, ← hsplit, List.take_append_drop]
        have hlength : n ≤ (c :: (rest.take (n - 1) ++ b)).length := by
          have hle := length_of_lexeme? hlexeme
          simp only [List.length_cons, List.length_append, List.length_take] at hle ⊢
          omega
        rw [hrest, ← List.cons_append] at hlexeme
        have halone := lexeme?_of_append (stops_closing hclosing m) (List.cons_ne_nil c _) hlexeme hlength
        have hfront := lexeme?_append (stops_closing hclosing (m ++ z)) halone
        rw [hrest, List.append_assoc, List.cons_append]
        exact hfront
      | closing ht _ => exact (closing_of_lexeme? hlexeme ht).2 _
      | name ht _ =>
        obtain rfl := ht
        exact lexeme?_name_append hz hlexeme
      | dot ht hu _ =>
        obtain rfl := ht
        obtain ⟨⟨more, hmore⟩, rfl⟩ := symbol_of_lexeme? hlexeme
        obtain ⟨rfl, -⟩ := List.cons.inj hmore
        obtain ⟨d, more, rfl, hd⟩ : ∃ d more, rest = d :: more ∧ d ≠ '.' := h.exists_cons_of_name hu
        exact lexeme?_dot hd (isDigit_of_dot hlexeme) o _
    exact .lexeme hc hsame hnest hbehind

end

end ViewTree.Embedded
