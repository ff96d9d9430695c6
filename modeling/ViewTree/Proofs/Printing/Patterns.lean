import ViewTree.Embedded.Cases
import ViewTree.Proofs.Printing.Atoms

/-!
Readers of patterns on lexemes whose kinds are known. Main statements: what is read at one place is read at
a looser one (`PatternAt.mono`), and a pattern of any place between parentheses is read at every place
(`PatternAt.grouped`).
-/
namespace ViewTree.Embedded
open Reader

namespace Pattern

mutual

/-- The pattern with all places forgotten. -/
def unplaced : Pattern → Pattern
  | value term => value term.unplaced
  | singleton constant => singleton constant
  | capture name => capture name
  | bound pattern name => bound pattern.unplaced name
  | star name => star name
  | sequence items => sequence (allUnplaced items)
  | mapping keys values others => mapping (Term.allUnplaced keys) (allUnplaced values) others
  | object type positional names named =>
    object type.unplaced (allUnplaced positional) names (allUnplaced named)
  | alternatives options => alternatives (allUnplaced options)

def allUnplaced : List Pattern → List Pattern
  | [] => []
  | p :: ps => p.unplaced :: allUnplaced ps

end

theorem allUnplaced_eq (ps : List Pattern) : allUnplaced ps = ps.map unplaced :=
  eq_map rfl (fun _ _ => rfl) ps

theorem isStar_unplaced (p : Pattern) : Cases.isStar p.unplaced = Cases.isStar p := by
  cases p <;> rfl

end Pattern

namespace Cases

/-- One pattern, or several with `|` between them. -/
def options (inner : FieldReader) (pattern : Reader Pattern) : Reader Pattern := do
  let first ← closed inner pattern
  let more ← many do
    if ← accept (.symbol "|") then pure (some (← closed inner pattern)) else pure none
  pure (if more.isEmpty then first else .alternatives (first :: more))

theorem patternOf_eq (inner : FieldReader) (pattern : Reader Pattern) : patternOf inner pattern = (do
    let found ← options inner pattern
    if ← accept (.keyword "as") then pure (.bound found (← bindingName)) else pure found) := by
  simp only [patternOf, options, bind_assoc, pure_bind]

/-- What reads a pattern at a place: one that stands by itself, alternatives, or one that may be bound. -/
def readerAt (inner : FieldReader) (depth : Nat) : Level → Reader Pattern
  | 10 => closed inner (patternAt inner depth)
  | 9 => options inner (patternAt inner depth)
  | _ => patternAt inner (depth + 1)

def startsPattern : LexemeKind → Bool
  | .name _ | .string _ | .number _ => true
  | .keyword word => word = "None" || word = "True" || word = "False"
  | .symbol s => s = "[" || s = "(" || s = "\x7b" || s = "-"
  | .lineEnd => false

theorem startsPattern_unplaced (k : LexemeKind) : startsPattern k.unplaced = startsPattern k := by
  cases k <;> rfl

end Cases

open Cases

/-- Wherever they stand, the lexemes are read as the pattern at the place. -/
structure PatternAt (l : Level) (kinds : List LexemeKind) (y : Pattern) : Prop where
  starts : ∃ k ks, kinds = k :: ks ∧ startsPattern k
  /-- A name in front is none of an argument. -/
  unnamed : ∀ id k ks, kinds = .name id :: k :: ks → Under 20 k
  unstarred : isStar y = false
  reads : ∀ inner depth, kinds.length ≤ depth →
    Consumes Pattern.unplaced (Under l) (Cases.readerAt inner depth l) kinds y

section
variable {l m : Level} {kinds : List LexemeKind} {y : Pattern}

theorem PatternAt.ne_nil (h : PatternAt l kinds y) : kinds ≠ [] := by
  obtain ⟨k, ks, rfl, -⟩ := h.starts
  exact List.cons_ne_nil k ks

theorem PatternAt.begins (h : PatternAt l kinds y) {B P : LexemeKind → Prop}
    (hP : ∀ k, startsPattern k → P k) : Begins B kinds P := by
  obtain ⟨k, ks, rfl, hk⟩ := h.starts
  exact fun k' hk' => hP k' (by rw [← startsPattern_unplaced, hk']; exact hk)

theorem PatternAt.begins_ne (h : PatternAt l kinds y) {B : LexemeKind → Prop} {k : LexemeKind}
    (hk : startsPattern k = false) : Begins B kinds (· ≠ k) := by
  refine h.begins fun k' hk' => ?_
  rintro rfl
  exact Bool.false_ne_true (hk.symm.trans hk')

/-- A pattern alone is one of alternatives. -/
theorem PatternAt.options (h : PatternAt 10 kinds y) : PatternAt 9 kinds y := by
  refine ⟨h.starts, h.unnamed, h.unstarred, fun inner depth hdepth => ?_⟩
  refine ((h.reads inner depth hdepth).mono (under_of_le (by decide))).bind_nil fun x hx => ?_
  refine (consumes_many_none (f := Pattern.unplaced) ?_).bind_nil
    fun more hmore => ?_
  · exact consumes_accept_other (fun k hk => ne_of_rank_lt hk (by decide)) (consumes_pure rfl)
  · obtain rfl := List.map_eq_nil_iff.mp hmore
    exact consumes_pure hx

theorem PatternAt.whole (h : PatternAt 9 kinds y) : PatternAt 8 kinds y := by
  refine ⟨h.starts, h.unnamed, h.unstarred, fun inner depth hdepth => ?_⟩
  show Consumes _ _ (patternOf inner (patternAt inner depth)) _ _
  rw [patternOf_eq]
  refine ((h.reads inner depth hdepth).mono (under_of_le (by decide))).bind_nil fun x hx => ?_
  exact consumes_accept_other (fun k hk => ne_of_rank_lt hk (by decide)) (consumes_pure hx)

/-- What is read at a place is read at looser ones. -/
theorem PatternAt.mono (h : PatternAt m kinds y) (hl : 8 ≤ l) (hlm : l ≤ m) (hm : m ≤ 10) :
    PatternAt l kinds y := by
  interval_cases m <;> interval_cases l <;>
    first | exact h | exact h.options | exact h.whole | exact h.options.whole

theorem PatternAt.pattern (h : PatternAt 8 kinds y) {inner : FieldReader} {depth : Nat}
    (hdepth : kinds.length < depth) :
    Consumes Pattern.unplaced (Under 8) (patternAt inner depth) kinds y := by
  obtain ⟨depth, rfl⟩ := Nat.exists_eq_add_of_le' (Nat.lt_of_le_of_lt (Nat.zero_le _) hdepth)
  exact h.reads inner depth (Nat.le_of_lt_succ hdepth)

/-- A pattern with more lexemes behind those of its first part. -/
theorem PatternAt.followed (h : PatternAt m kinds y) {k : LexemeKind} {ks : List LexemeKind} (hk : Under 20 k)
    {z : Pattern} (hstar : isStar z = false)
    (hreads : ∀ inner depth, kinds.length ≤ depth → ks.length < depth →
      Consumes Pattern.unplaced (Under l) (Cases.readerAt inner depth l) (kinds ++ k :: ks) z) :
    PatternAt l (kinds ++ k :: ks) z := by
  obtain ⟨first, rest, rfl, hfirst⟩ := h.starts
  refine ⟨⟨first, rest ++ k :: ks, rfl, hfirst⟩, ?_, hstar, fun inner depth hdepth => ?_⟩
  · rintro id second more hkinds
    obtain ⟨rfl, hmore⟩ := List.cons.inj hkinds
    cases rest with
    | nil =>
      obtain ⟨rfl, -⟩ := List.cons.inj hmore
      exact hk
    | cons l rest =>
      obtain ⟨rfl, -⟩ := List.cons.inj hmore
      exact h.unnamed id l rest rfl
  · simp only [List.length_append, List.length_cons] at hdepth
    exact hreads inner depth (by simp only [List.length_cons]; omega) (by omega)

/-- Several patterns, any of which may match. -/
theorem PatternAt.alternatives (h : PatternAt 10 kinds y) {kss : List (List LexemeKind)} {ys : List Pattern}
    (hothers : List.Forall₂ (PatternAt 10) kss ys) (hsome : ys ≠ []) :
    PatternAt 9 (kinds ++ led (.symbol "|") kss) (.alternatives (y :: ys)) := by
  obtain ⟨ls, kss, rfl⟩ : ∃ ls kss', kss = ls :: kss' := by
    cases hothers with
    | nil => exact absurd rfl hsome
    | cons => exact ⟨_, _, rfl⟩
  rw [led_cons]
  refine h.followed (by decide) rfl fun inner depth hks hls => ?_
  rw [← led_cons]
  have hitems := forall₂_of_led (.symbol "|") (d := depth + 1) hothers
    (by rw [led_cons, List.length_cons]; omega)
    fun ks y hlength hy => hy.reads inner depth (by omega)
  refine (h.reads inner depth hks).bind (begins_under (by decide)) fun x hx => ?_
  refine (consumes_many (C := Under 10) (f := Pattern.unplaced) (l := ys)
    (under_of_le (by decide)) ?_ ?_).bind_nil fun more hmore => ?_
  · exact consumes_accept_other (fun k hk => ne_of_rank_lt hk (by decide)) (consumes_pure rfl)
  · rw [List.forall₂_map_left_iff]
    refine hitems.imp fun ks y hy => ⟨List.cons_ne_nil _ _, begins_under (by decide), ?_⟩
    exact consumes_accept rfl (hy.bind_nil fun v hv => consumes_pure (congrArg some hv))
  · subst hmore
    cases more with
    | nil => exact absurd rfl hsome
    | cons one more =>
      refine consumes_pure ?_
      rw [List.isEmpty_cons, if_neg Bool.false_ne_true, Pattern.unplaced, Pattern.allUnplaced, hx,
        Pattern.allUnplaced_eq, List.map_cons]

theorem consumes_bindingName {word : String} (hword : word ≠ "_") :
    Consumes id (Under 10) bindingName [.name word] word := by
  refine consumes_name (consumes_peek (fun _ hk => hk) fun k hk => ?_)
  have hother {s : String} (hs : 10 ≤ rank (.symbol s)) : k ≠ .symbol s := ne_of_rank_lt hk hs
  refine consumes_ite_neg ?_ (consumes_pure rfl)
  simp [Cases.binds, hword, continuesName, hother (s := ".") (by decide), hother (s := "(") (by decide),
    hother (s := "=") (by decide)]

/-- A pattern whose match is bound to a name. -/
theorem PatternAt.bound (h : PatternAt 9 kinds y) {word : String} (hword : word ≠ "_") :
    PatternAt 8 (kinds ++ [.keyword "as", .name word]) (.bound y word) := by
  refine h.followed (by decide) rfl fun inner depth hks _ => ?_
  show Consumes _ _ (patternOf inner (patternAt inner depth)) _ _
  rw [patternOf_eq]
  refine (h.reads inner depth hks).bind (begins_under (by decide)) fun x hx => ?_
  refine consumes_when rfl ?_
  refine ((consumes_bindingName hword).mono (under_of_le (by decide))).bind_nil fun found hfound =>
    consumes_pure ?_
  rw [Pattern.unplaced, hx, show found = word from hfound]

/-- The lexemes are a number with a sign or none. -/
inductive SignedAt : List LexemeKind → Term → Prop where
  | plain {value} : SignedAt [.number value] (.mk 0 0 (.literal value))
  | negative {value} :
    SignedAt [.symbol "-", .number value] (.mk 0 0 (.unary .negative (.mk 0 0 (.literal value))))

/-- The lexemes are a number that a pattern compares with. -/
inductive NumberAt : List LexemeKind → Term → Prop where
  | signed {ks y} (h : SignedAt ks y) : NumberAt ks y
  | complex {ks y op x} (h : SignedAt ks y) (hreal : isImaginary y = false) (hop : op = .add ∨ op = .sub) :
    NumberAt (ks ++ [.symbol op.sign, .number (.imaginary x)])
      (.mk 0 0 (.binary op y (.mk 0 0 (.literal (.imaginary x)))))

theorem isImaginary_unplaced (t : Term) : isImaginary t.unplaced = isImaginary t := by
  obtain ⟨s, e, form⟩ := t
  cases form with
  | literal value => cases value <;> rfl
  | unary op operand =>
    obtain ⟨s, e, form⟩ := operand
    cases form with
    | literal value => cases value <;> rfl
    | yield value => cases value <;> rfl
    | _ => rfl
  | yield value => cases value <;> rfl
  | _ => rfl

section
variable {t : Term} {B : LexemeKind → Prop}

theorem SignedAt.consumes (h : SignedAt kinds t) : Consumes Term.unplaced B signedNumber kinds t := by
  cases h with
  | @plain value =>
    refine consumes_here fun start => consumes_accept_other (begins_plain rfl nofun) ?_
    exact consumes_here fun inner => consumes_take rfl
      ((consumes_close rfl inner).bind_nil fun x hx => consumes_pure hx)
  | @negative value =>
    refine consumes_here fun start => consumes_accept rfl (consumes_here fun inner => consumes_take rfl ?_)
    exact (consumes_close rfl inner).bind_nil fun x hx =>
      consumes_close (by rw [Form.unplaced, hx]; rfl) start

/-- The sign and the imaginary part behind a real one. -/
def imaginaryPart (start : Nat) (first : Term) (op : BinaryOp) : Reader Term := do
  let _ ← next
  let inner ← here
  match ← next with
  | .number (.imaginary value) =>
    let second ← close inner (.literal (.imaginary value))
    if isImaginary first then failure
    close start (.binary op first second)
  | _ => failure

theorem NumberAt.consumes (h : NumberAt kinds t) : Consumes Term.unplaced (Under 10) number kinds t := by
  cases h with
  | signed h =>
    refine consumes_here fun start => h.consumes.bind_nil fun x hx => consumes_peek (fun _ hk => hk)
      fun k hk => ?_
    have hother {s : String} (hs : 10 ≤ rank (.symbol s)) : k ≠ .symbol s := ne_of_rank_lt hk hs
    dsimp only
    split
    · next heq => exact absurd (Option.some.inj heq) (hother (by decide))
    · next heq => exact absurd (Option.some.inj heq) (hother (by decide))
    · exact consumes_pure hx
  | @complex ks y op x h hreal hop =>
    refine consumes_here fun start => h.consumes.bind begins_any fun first hfirst => ?_
    subst hfirst
    rw [isImaginary_unplaced] at hreal
    have hjoin (op : BinaryOp) : Consumes Term.unplaced (Under 10) (imaginaryPart start first op)
        [.symbol op.sign, .number (.imaginary x)]
        (.mk 0 0 (.binary op first.unplaced (.mk 0 0 (.literal (.imaginary x))))) := by
      refine consumes_take rfl (consumes_here fun inner => consumes_take rfl ?_)
      refine (consumes_close rfl inner).bind_nil fun second hsecond => ?_
      refine consumes_ite_neg (by simp [hreal]) (consumes_close ?_ start)
      rw [Form.unplaced, hsecond]
      rfl
    rcases hop with rfl | rfl <;> exact consumes_peek_plain rfl (hjoin _)

/-- The first lexeme of a number. -/
theorem NumberAt.exists_first (h : NumberAt kinds t) :
    ∃ k ks, kinds = k :: ks ∧ (k = .symbol "-" ∨ ∃ value, k = .number value) := by
  have hsigned {ks : List LexemeKind} {y : Term} (h : SignedAt ks y) (more : List LexemeKind) :
      ∃ k ls, ks ++ more = k :: ls ∧ (k = .symbol "-" ∨ ∃ value, k = .number value) := by
    cases h with
    | plain => exact ⟨_, more, rfl, .inr ⟨_, rfl⟩⟩
    | negative => exact ⟨_, _, rfl, .inl rfl⟩
  cases h with
  | signed h => simpa using hsigned h []
  | complex h => exact hsigned h _

theorem consumes_strings {inner : FieldReader} {s : StringLiteral} {value : Literal}
    (h : ∀ inner offset, stringsForm? inner [⟨s.marks, s.body, offset⟩] = some (.literal value)) :
    Consumes Term.unplaced (Under 19) (strings inner) [.string ⟨s.marks, s.body, 0⟩]
      (.mk 0 0 (.literal value)) := by
  refine consumes_here fun start => (consumes_stringLiterals s).bind_nil fun literals hliterals => ?_
  obtain ⟨⟨marks, body, offset⟩, rfl, hs⟩ := List.map_eq_singleton_iff.mp hliterals
  obtain ⟨rfl, rfl, -⟩ := StringLiteral.mk.inj hs
  rw [h]
  exact consumes_close rfl start

def pathKinds (word : String) (attrs : List String) : List LexemeKind :=
  .name word :: (attrs.map fun attr => [.symbol ".", .name attr]).flatten

def pathTerm (word : String) (attrs : List String) : Term :=
  attrs.foldl (fun value attr => .mk 0 0 (.attribute value attr)) (.mk 0 0 (.name word))

def nextAttribute (start : Nat) (value : Term) : Reader (Option Term) := do
  if ← accept (.symbol ".") then
    let attr ← name
    pure (some (← close start (.attribute value attr)))
  else pure none

theorem consumes_dotted (word : String) (attrs : List String) :
    Consumes Term.unplaced (· ≠ .symbol ".") dotted (pathKinds word attrs) (pathTerm word attrs) := by
  refine consumes_here fun start => consumes_name ?_
  have hrounds : Rounds Term.unplaced (· ≠ .symbol ".") (nextAttribute start)
      (attrs.map fun attr => [.symbol ".", .name attr]).flatten (.mk 0 0 (.name word))
        (pathTerm word attrs) := by
    refine rounds_foldl (C := Any) (fun _ _ => trivial) (fun s => ?_) ?_ _
    · exact consumes_accept_other (fun k hk => hk) (consumes_pure rfl)
    rw [List.forall₂_map_left_iff]
    refine List.forall₂_same.mpr fun attr _ => ⟨List.cons_ne_nil _ _, begins_any, fun s => ?_⟩
    refine consumes_accept rfl (consumes_name ?_)
    refine (consumes_close (f := .attribute s.unplaced attr) rfl start).bind_nil fun x hx => ?_
    exact consumes_pure (congrArg some hx)
  have hfirst : Consumes Term.unplaced Any (close start (.name word)) [] (.mk 0 0 (.name word)) :=
    consumes_close rfl start
  exact hfirst.nil_bind begins_any fun x hx => hrounds.consumes_repeating hx

end

/-- One name is none of an argument. -/
theorem unnamed_one {k : LexemeKind} : ∀ id l ks, [k] = .name id :: l :: ks → Under 20 l :=
  fun _ _ _ h => nomatch (List.cons.inj h).2

theorem patternAt_number {t : Term} (h : NumberAt kinds t) : PatternAt 10 kinds (.value t) := by
  obtain ⟨k, ks, rfl, hk⟩ := h.exists_first
  have hname (id : String) : k ≠ .name id := by
    rcases hk with rfl | ⟨value, rfl⟩ <;> exact nofun
  refine ⟨⟨k, ks, rfl, ?_⟩, fun id l ls heq => absurd (List.cons.inj heq).1 (hname id), rfl,
    fun inner depth _ => ?_⟩
  · rcases hk with rfl | ⟨value, rfl⟩ <;> rfl
  have hread : Consumes Pattern.unplaced (Under 10) (do pure (.value (← Cases.number))) (k :: ks)
    (.value t) :=
    h.consumes.bind_nil fun x hx => consumes_pure (by rw [Pattern.unplaced, hx])
  rcases hk with rfl | ⟨value, rfl⟩ <;> exact consumes_peek_plain rfl hread

theorem patternAt_string {s : StringLiteral} {value : Literal}
    (h : ∀ inner offset, stringsForm? inner [⟨s.marks, s.body, offset⟩] = some (.literal value)) :
    PatternAt 10 [.string ⟨s.marks, s.body, 0⟩] (.value (.mk 0 0 (.literal value))) := by
  refine ⟨⟨_, _, rfl, rfl⟩, nofun, rfl, fun inner depth _ => ?_⟩
  refine consumes_peek (fun _ => exists_string_of_unplaced) ?_
  rintro _ ⟨offset, rfl⟩
  refine ((consumes_strings h).mono (under_of_le (by decide))).bind_nil fun x hx => consumes_pure ?_
  rw [Pattern.unplaced, hx]

theorem patternAt_singleton {k : LexemeKind} {value : Literal} (h : singleton? k = some value) :
    PatternAt 10 [k] (.singleton value) := by
  unfold singleton? at h
  split at h
  case h_4 => cases h
  all_goals
    obtain rfl := Option.some.inj h
    exact ⟨⟨_, _, rfl, rfl⟩, unnamed_one, rfl, fun _ _ _ => consumes_peek_plain rfl
      (consumes_take rfl (consumes_pure rfl))⟩

theorem patternAt_wildcard : PatternAt 10 [.name "_"] (.capture none) :=
  ⟨⟨_, _, rfl, rfl⟩, unnamed_one, rfl, fun _ _ _ => consumes_peek_plain rfl
    (consumes_peek_plain rfl (consumes_take rfl (consumes_pure rfl)))⟩

/-- What a path that nothing is called with is. -/
def pathPattern (found : Term) : Pattern :=
  match found with
  | .mk _ _ (.name id) => .capture (some id)
  | _ => .value found

theorem pathPattern_unplaced (found : Term) : (pathPattern found).unplaced = pathPattern found.unplaced := by
  obtain ⟨s, e, form⟩ := found
  cases form with
  | yield value => cases value <;> rfl
  | _ => rfl

theorem named_eq (pattern : Reader Pattern) : named pattern = (do
    if (← peek) = some (.name "_") then
      let _ ← next
      pure (.capture none)
    else
      let found ← dotted
      if ← accept (.symbol "(") then object pattern found
      else if (← peek) = some (.symbol "=") then failure
      else pure (pathPattern found)) := by
  refine congrArg (peek >>= ·) (funext fun first => ?_)
  split
  · rfl
  refine congrArg (dotted >>= ·) (funext fun found => ?_)
  refine congrArg (accept _ >>= ·) (funext fun called => ?_)
  split
  · rfl
  refine congrArg (peek >>= ·) (funext fun second => ?_)
  split
  · rfl
  · obtain ⟨s, e, form⟩ := found
    cases form <;> rfl

/-- A name with attributes or none, which is compared with if it has some. -/
theorem patternAt_path {word : String} (hword : word ≠ "_") (attrs : List String) :
    PatternAt 10 (pathKinds word attrs) (pathPattern (pathTerm word attrs)) := by
  refine ⟨⟨_, _, rfl, rfl⟩, fun id k ks heq => ?_, ?_, fun inner depth _ => ?_⟩
  · cases attrs with
    | nil => cases (List.cons.inj heq).2
    | cons attr attrs =>
      obtain ⟨rfl, -⟩ := List.cons.inj (List.cons.inj heq).2
      decide
  · unfold pathPattern
    split <;> rfl
  · refine consumes_peek_plain rfl ?_
    show Consumes _ _ (named _) _ _
    rw [named_eq]
    refine consumes_peek_plain rfl (consumes_ite_neg (by simpa using hword) ?_)
    refine ((consumes_dotted word attrs).mono fun k hk => ne_of_rank_lt hk (by decide)).bind_nil
      fun found hfound => ?_
    refine consumes_unless (fun k hk => ne_of_rank_lt hk (by decide)) ?_
    refine consumes_peek (P := (· ≠ .symbol "=")) (fun k hk => ne_of_rank_lt hk (by decide)) fun k hk => ?_
    refine consumes_ite_neg (fun heq => hk (Option.some.inj heq)) (consumes_pure ?_)
    rw [pathPattern_unplaced, hfound]

/-- The lexemes are read as an item of a sequence. -/
inductive SequenceItemAt : List LexemeKind → Pattern → Prop where
  | pattern {ks y} (h : PatternAt 8 ks y) : SequenceItemAt ks y
  | wildcard : SequenceItemAt [.symbol "*", .name "_"] (.star none)
  | star {word} (hword : word ≠ "_") : SequenceItemAt [.symbol "*", .name word] (.star (some word))

variable {inner : FieldReader} {depth : Nat}

theorem PatternAt.maybeStar (h : PatternAt 8 kinds y) (hdepth : kinds.length < depth) :
    Consumes Pattern.unplaced (Under 8) (maybeStar (patternAt inner depth)) kinds y :=
  consumes_accept_other (h.begins_ne rfl) (h.pattern hdepth)

theorem SequenceItemAt.consumes (h : SequenceItemAt kinds y) (hdepth : kinds.length < depth) :
    Consumes Pattern.unplaced (Under 8) (Cases.maybeStar (patternAt inner depth)) kinds y := by
  cases h with
  | pattern h => exact h.maybeStar hdepth
  | wildcard =>
    exact consumes_when rfl (consumes_peek_plain rfl (consumes_take rfl (consumes_pure rfl)))
  | @star word hword =>
    refine consumes_when rfl (consumes_peek_plain rfl ?_)
    have hread : Consumes Pattern.unplaced (Under 8) (do pure (.star (some (← bindingName)))) [.name word]
        (.star (some word)) :=
      ((consumes_bindingName hword).mono (under_of_le (by decide))).bind_nil fun x hx => consumes_pure (by
        rw [Pattern.unplaced, show x = word from hx])
    split
    · next heq => exact absurd (LexemeKind.name.inj (Option.some.inj heq)) hword
    · exact hread

theorem SequenceItemAt.begins (h : SequenceItemAt kinds y) {B P : LexemeKind → Prop} (hstar : P (.symbol "*"))
    (hP : ∀ k, startsPattern k → P k) : Begins B kinds P := by
  cases h with
  | pattern h => exact h.begins hP
  | wildcard | star => exact begins_plain rfl hstar

theorem closes_of_startsPattern {k : LexemeKind} (h : startsPattern k) : closes k = false := by
  cases k with
  | keyword word =>
    simp only [startsPattern, Bool.or_eq_true, decide_eq_true_eq] at h
    rcases h with (rfl | rfl) | rfl <;> decide
  | symbol s =>
    simp only [startsPattern, Bool.or_eq_true, decide_eq_true_eq] at h
    rcases h with ((rfl | rfl) | rfl) | rfl <;> decide
  | _ => rfl

/-- Items with commas between them, in front of what ends them. -/
theorem consumes_sequence {kss : List (List LexemeKind)} {ys : List Pattern} {ks : List LexemeKind}
    (hfirst : SequenceItemAt ks y) (h : List.Forall₂ SequenceItemAt kss ys)
    (hdepth : (commas (ks :: kss)).length < depth) :
    Consumes (unplacedItems Pattern.unplaced) (fun k => closes k ∧ Under 8 k)
      (items (Cases.maybeStar (patternAt inner depth)) closes) (commas (ks :: kss))
        (y :: ys, !ys.isEmpty) := by
  rw [commas, List.length_append] at hdepth
  refine consumes_items (C := Under 8) (fun k hk => hk.2) ?_ (by decide) (hfirst.consumes (by omega)) ?_
  · rintro _ ⟨hk, -⟩ rfl
    cases hk
  · exact forall₂_of_led (.symbol ",") h (d := depth) (by omega) fun ls z hlength hz =>
      ⟨hz.consumes hlength, hz.begins rfl fun k => closes_of_startsPattern⟩

/-- A pattern where several might stand. -/
theorem PatternAt.openSequence (h : PatternAt 8 kinds y) (hdepth : kinds.length < depth) :
    Consumes Pattern.unplaced (fun k => closes k ∧ Under 8 k) (openSequence (patternAt inner depth))
      kinds y := by
  have hone : Consumes (unplacedItems Pattern.unplaced) (fun k => closes k ∧ Under 8 k)
      (items (Cases.maybeStar (patternAt inner depth)) closes) kinds ([y], false) := by
    refine consumes_items_one ?_ ((h.maybeStar hdepth).mono fun k hk => hk.2)
    rintro _ ⟨hk, -⟩ rfl
    cases hk
  refine hone.bind_nil fun (found, commas) hfound => ?_
  obtain ⟨hlist, rfl⟩ := Prod.mk.inj hfound
  obtain ⟨one, rfl, rfl⟩ := List.map_eq_singleton_iff.mp hlist
  have hstar : isStar one = false := by rw [← one.isStar_unplaced, h.unstarred]
  exact consumes_ite_neg (by simp [hstar]) (consumes_pure rfl)

/-- Patterns between brackets. -/
theorem patternAt_sequence {kss : List (List LexemeKind)} {ys : List Pattern}
    (h : List.Forall₂ SequenceItemAt kss ys) :
    PatternAt 10 (.symbol "[" :: commas kss ++ [.symbol "]"]) (.sequence ys) := by
  refine ⟨⟨_, _, rfl, rfl⟩, nofun, rfl, fun inner depth hdepth => ?_⟩
  simp only [List.length_append, List.length_cons, List.length_nil] at hdepth
  refine consumes_peek_plain rfl (consumes_take rfl ?_)
  cases h with
  | nil => exact consumes_when rfl (consumes_pure rfl)
  | @cons ks y kss ys hfirst h =>
    have hopening : Begins Any ks (· ≠ .symbol "]") := hfirst.begins nofun fun k hk => by
      rintro rfl
      cases hk
    have hsome : ks ≠ [] := by
      cases hfirst with
      | pattern h => exact h.ne_nil
      | _ => exact List.cons_ne_nil _ _
    refine consumes_accept_other ?_ (consumes_ite_neg Bool.false_ne_true ?_)
    · exact ((hopening.elsewhere hsome).append hsome).append (by simp [hsome])
    refine (consumes_sequence hfirst h (by omega)).bind (begins_plain rfl ⟨rfl, by decide⟩)
      fun (found, commas) hfound => ?_
    refine consumes_symbol (consumes_pure ?_)
    rw [Pattern.unplaced, Pattern.allUnplaced_eq, (Prod.mk.inj hfound).1]

/-- A pattern between parentheses. -/
theorem PatternAt.grouped (h : PatternAt 8 kinds y) :
    PatternAt 10 (.symbol "(" :: kinds ++ [.symbol ")"]) y := by
  refine ⟨⟨_, _, rfl, rfl⟩, nofun, h.unstarred, fun inner depth hdepth => ?_⟩
  simp only [List.length_append, List.length_cons, List.length_nil] at hdepth
  refine consumes_peek_plain rfl (consumes_take rfl ?_)
  refine consumes_unless ((h.begins_ne (B := Any) rfl).elsewhere h.ne_nil |>.append h.ne_nil) ?_
  refine (h.openSequence (by omega)).bind (begins_plain rfl ⟨rfl, by decide⟩) fun found hfound => ?_
  exact consumes_symbol (consumes_pure hfound)

end
end ViewTree.Embedded
