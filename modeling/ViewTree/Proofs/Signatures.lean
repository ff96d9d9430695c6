import ViewTree.Proofs.PastedNames
import ViewTree.Proofs.UpdateRoutine

/-!
The signatures of the two routines of a view. Both texts begin with the header that has them
(`View.exists_headers`), and they are as good as the parameters that the view is written with. Main
statements: if the source is plain each parameter is an identifier, and both signatures are well formed
exactly if the parameters are distinct, no keywords, and no locals of the routines
(`View.signed_iff_of_readSource`); no check asks for any of this (`View.not_signed_signedSource`).
-/
namespace ViewTree
open Embedded

namespace Text

theorem intercalate_fields (sep : Char) (cs : List Char) :
    [sep].intercalate (fields sep cs) = cs := by
  have hjoin (fs : List (List Char)) : [sep].intercalate fs = joinFields sep fs := by
    induction fs with
    | nil => rfl
    | cons f fs ih =>
      cases fs with
      | nil => exact List.intercalate_singleton
      | cons g gs =>
        rw [List.intercalate_cons_cons, ih, List.append_assoc]
        rfl
  rw [hjoin, joinFields_fields]

theorem lines_ne_nil (text : String) : lines text ≠ [] := by
  simpa [lines] using fields_ne_nil '\n' text.toList

theorem intercalate_lines (text : String) : "\n".intercalate (lines text) = text := by
  apply String.toList_injective
  rw [String.toList_intercalate, lines, List.map_map, show "\n".toList = ['\n'] from rfl]
  have hid : (String.toList ∘ String.ofList) = id := funext fun _ => String.toList_ofList
  rw [hid, List.map_id, intercalate_fields]

end Text

namespace Code

/-- Without indentation the rows of a text are its lines. -/
theorem map_render_line (width : Int) (text : String) :
    (line text).map (Row.render width 0) = Text.lines text := by
  have hplaced (t : String) : Row.render width 0 (.placed 0 t) = t := by
    rw [Row.render]
    split
    · next hempty => exact hempty.symm
    · rw [show ((0 : Nat) + 0 : Int) = 0 from rfl, Int.mul_zero]
      exact String.empty_append
  unfold line
  cases Text.lines text with
  | nil => rfl
  | cons first more =>
    simp only [List.map_cons, hplaced, List.map_map]
    exact congrArg (first :: ·) (List.map_id'' (fun _ => rfl) more)

/-- A block begins with its header. -/
theorem prefix_render_block (width : Int) (header : String) (body : Code) :
    header.toList <+: ((block header body).render width 0).toList := by
  rw [render, block, List.map_append, map_render_line]
  generalize (indent 1 body).map (Row.render width 0) = more
  by_cases hmore : more = []
  · rw [hmore, List.append_nil, Text.intercalate_lines]
  · rw [String.intercalate_append_of_ne_nil (Text.lines_ne_nil header) hmore, Text.intercalate_lines,
      String.append_assoc, String.toList_append]
    exact List.prefix_append _ _

end Code

namespace View

def initParams (v : View) : List String := v.model :: v.others

/-- The parameters of the update routine: the record, the model and the sender. -/
def updateParams (v : View) : List String := recordLocal :: v.model :: v.others.head?.toList

/-- The text of the init routine begins with its signature. -/
def initHeader (settings : Settings) (v : View) : String :=
  "def " ++ v.initName ++ "(" ++ ", ".intercalate v.initParams ++
    ") -> tuple[" ++ v.root.rootType settings ++ ", " ++ v.name ++ "]:"

/-- The signature of the update routine, where the record has its type. -/
def updateHeader (v : View) : String :=
  "def " ++ v.updateName ++ "(" ++
    ", ".intercalate ((recordLocal ++ ": " ++ v.name) :: v.updateParams.tail) ++ ") -> None:"

theorem exists_headers {settings : Settings} {v : View} {a : Artifact}
    (h : (Component.view v).artifact settings = .ok a) : ∃ record init update,
      a = .view v.name record init update ∧ (v.initHeader settings).toList <+: init.toList ∧
        v.updateHeader.toList <+: update.toList := by
  obtain ⟨r, updates, -, -, rfl⟩ := artifact_eq_ok h
  exact ⟨_, _, _, rfl, Code.prefix_render_block _ _ _, Code.prefix_render_block _ _ _⟩

/-- A list of parameters that a function can have. Names that differ in their spelling alone are
one. -/
structure IsSignature (params : List String) : Prop where
  distinct : (params.map Text.compatible).Nodup
  names : ∀ p ∈ params, Text.isIdentifier p ∧ ¬isKeyword p

/-- The locals that the routines give a value themselves, and the parameter of messages. -/
def ownLocals : List String := [recordLocal, valueLocal, itemLocal, pageLocal, signalArguments]

/-- Both signatures are well formed, and no parameter is a local of the routines. -/
structure Signed (v : View) : Prop where
  init : IsSignature v.initParams
  update : IsSignature v.updateParams
  apart : ∀ p ∈ v.initParams, Text.compatible p ∉ ownLocals

/-- It is the parameters of the init routine that matter: the update routine has the first two of
them, behind the record. -/
theorem signed_iff (v : View) : v.Signed ↔ IsSignature v.initParams ∧
    ∀ p ∈ v.initParams, Text.compatible p ∉ ownLocals := by
  refine ⟨fun h => ⟨h.init, h.apart⟩, fun ⟨hinit, hapart⟩ => ⟨hinit, ?_, hapart⟩⟩
  have hsublist : (v.model :: v.others.head?.toList).Sublist v.initParams := by
    refine List.Sublist.cons_cons _ ?_
    cases v.others with
    | nil => exact List.Sublist.refl []
    | cons sender others => exact List.singleton_sublist.mpr List.mem_cons_self
  have hrecord : Text.compatible recordLocal = recordLocal := by decide
  refine ⟨List.nodup_cons.mpr ⟨fun hmem => ?_, hinit.distinct.sublist (hsublist.map _)⟩,
    List.forall_mem_cons.mpr ⟨by decide, fun p hp => hinit.names p (hsublist.subset hp)⟩⟩
  obtain ⟨p, hp, hsame⟩ := List.mem_map.mp hmem
  refine hapart p (hsublist.subset hp) ?_
  rw [hsame, hrecord]
  exact List.mem_cons_self

theorem initParams_of_assignNames {settings : Settings} {v w : View}
    (h : (Component.view v).assignNames settings = .view w) : w.initParams = v.initParams := by
  obtain rfl := Component.view.inj h
  rfl

/-- A view that is read from a plain source and has no errors has code that begins with its
signatures. The parameters in them are identifiers, none of them a word of a choice, and nothing else
but repetitions, other keywords and the names of locals can be wrong with them. -/
theorem signed_iff_of_readSource {settings : Settings} {source : String} {outcomes : List Outcome}
    (hsource : Text.IsPlain source.toList) (h : readSource? settings source = some outcomes)
    {o : Outcome} (ho : o ∈ outcomes) {v w : View} (hv : o.result = .ok (.view v))
    (hw : (Component.view v).assignNames settings = .view w)
    (hcheck : ((Component.view w).check settings).errors = []) :
    (∃ record init update,
      (Component.view w).artifact settings = .ok (.view w.name record init update) ∧
        (w.initHeader settings).toList <+: init.toList ∧ w.updateHeader.toList <+: update.toList) ∧
    (∀ p ∈ w.initParams ++ w.updateParams, Text.isIdentifier p ∧
      p ≠ "if" ∧ p ≠ "elif" ∧ p ≠ "else") ∧
    (w.Signed ↔ (w.initParams.map Text.compatible).Nodup ∧
      ∀ p ∈ w.initParams, ¬isKeyword p ∧ Text.compatible p ∉ ownLocals) := by
  have hsound := Component.sound_of_readSource h ho hv
  have hparams : ∀ p ∈ w.initParams, Text.isIdentifier p ∧ p ≠ "if" ∧ p ≠ "elif" ∧ p ≠ "else" := by
    rw [initParams_of_assignNames hw]
    intro p hp
    have hwrites := hsound.params p hp
    exact ⟨hwrites.word.isIdentifier hsource hwrites.copied, hwrites.word.free⟩
  refine ⟨?_, ?_, ?_⟩
  · obtain ⟨a, ha⟩ := (Component.generable_of_errors hcheck).exists_artifact settings
    obtain ⟨record, init, update, rfl, hinit, hupdate⟩ := exists_headers ha
    exact ⟨record, init, update, ha, hinit, hupdate⟩
  · refine List.forall_mem_append.mpr ⟨hparams, List.forall_mem_cons.mpr ⟨by decide, ?_⟩⟩
    refine List.forall_mem_cons.mpr ⟨hparams _ List.mem_cons_self, fun p hp => hparams p ?_⟩
    exact List.mem_cons_of_mem _ (List.mem_of_mem_head? (Option.mem_toList.mp hp))
  · rw [signed_iff]
    constructor
    · rintro ⟨⟨hdistinct, hnames⟩, hapart⟩
      exact ⟨hdistinct, fun p hp => ⟨(hnames p hp).2, hapart p hp⟩⟩
    · rintro ⟨hdistinct, hfree⟩
      exact ⟨⟨hdistinct, fun p hp => ⟨(hparams p hp).1, (hfree p hp).1⟩⟩, fun p hp => (hfree p hp).2⟩

theorem signed_iff_dialSource : Text.IsPlain dialSource.toList ∧
    ∃ outcomes o v w, readSource? {} dialSource = some outcomes ∧ o ∈ outcomes ∧
      o.result = .ok (.view v) ∧ (Component.view v).assignNames {} = .view w ∧
      ((Component.view w).check {}).errors = [] ∧ w.initParams = ["m", "s"] ∧
      (∃ record init update,
        (Component.view w).artifact {} = .ok (.view w.name record init update) ∧
          (w.initHeader {}).toList <+: init.toList ∧ w.updateHeader.toList <+: update.toList) ∧
      w.Signed := by
  have hread : holdsView {} dialSource fun w =>
      ((Component.view w).check {}).errors = [] ∧ w.initParams = ["m", "s"] := by decide +kernel
  obtain ⟨outcomes, o, v, w, houtcomes, ho, hv, hw, htest⟩ := exists_of_holdsView hread
  obtain ⟨herrors, hparams⟩ := of_decide_eq_true htest
  obtain ⟨hheaders, -, hsigned⟩ := signed_iff_of_readSource isPlain_dialSource houtcomes ho hv hw herrors
  refine ⟨isPlain_dialSource, outcomes, o, v, w, houtcomes, ho, hv, hw, herrors, hparams, hheaders, ?_⟩
  rw [hsigned, hparams]
  decide

/-- A view without properties, and with these parameters. -/
def signedSource (params : String) : String :=
  "view Badge(" ++ params ++ ") \x7b\n  Gtk.Label\n\x7d\n"

instance (params : String) : Spelled (signedSource params) :=
  .append (.append .literal inferInstance) .literal

/-- The view with these parameters has no errors, and its code begins with them, but it is not
signed. -/
def PassesUnsigned (params : String) : Prop :=
  ∃ outcomes o v w, readSource? {} (signedSource params) = some outcomes ∧ o ∈ outcomes ∧
    o.result = .ok (.view v) ∧ (Component.view v).assignNames {} = .view w ∧
    ((Component.view w).check {}).errors = [] ∧
    w.initHeader {} = "def init_badge(" ++ params ++ ") -> tuple[Gtk.Label, Badge]:" ∧ ¬w.Signed

theorem passesUnsigned_of_holdsView {params : String}
    (h : holdsView {} (signedSource params) fun w =>
      ((Component.view w).check {}).errors = [] ∧
      w.initHeader {} = "def init_badge(" ++ params ++ ") -> tuple[Gtk.Label, Badge]:" ∧
      ¬((w.initParams.map Text.compatible).Nodup ∧
        ∀ p ∈ w.initParams, ¬isKeyword p ∧ Text.compatible p ∉ ownLocals)) :
    PassesUnsigned params := by
  obtain ⟨outcomes, o, v, w, houtcomes, ho, hv, hw, htest⟩ := exists_of_holdsView h
  obtain ⟨herrors, hheader, hwrong⟩ := of_decide_eq_true htest
  refine ⟨outcomes, o, v, w, houtcomes, ho, hv, hw, herrors, hheader, fun hsigned => hwrong ?_⟩
  exact ⟨hsigned.init.distinct, fun p hp => ⟨(hsigned.init.names p hp).2, hsigned.apart p hp⟩⟩

/-- A parameter that is repeated, a keyword or a local gets past the checks and into the signature. -/
theorem not_signed_signedSource : PassesUnsigned "model, model" ∧ PassesUnsigned "class" ∧
    PassesUnsigned "widgets" ∧ PassesUnsigned "m, s, _value" ∧ PassesUnsigned "m, _args" := by
  refine ⟨?_, ?_, ?_, ?_, ?_⟩
  all_goals exact passesUnsigned_of_holdsView (by decide +kernel)

end View
end ViewTree
