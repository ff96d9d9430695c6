import ViewTree.Proofs.Reading.Files
import ViewTree.Proofs.UpdateRoutine
import ViewTree.Proofs.UpdateScope

/-!
Connections and bindings in the init routine. Main statement: where the checks find no error, each
connection and each binding of the walk is registered once, in order and behind everything that is
applied, and the values that a callback takes along are bound to its parameters by position
(`Component.exists_registering_routine`).
-/
namespace ViewTree

/-- A function around a body with the arguments for its parameters. -/
structure Factory where
  parameters : List String
  body : String
  arguments : List String

namespace Factory

/-- The function is called where it stands. -/
def code (f : Factory) : String :=
  "(lambda " ++ ", ".intercalate f.parameters ++ ": " ++ f.body ++ ")(" ++
    ", ".intercalate f.arguments ++ ")"

/-- The parameters are the captured names, and each gets its own value: the expression it was
captured with, or else whatever has that name where the function is called. -/
structure Binds (f : Factory) (captures : List Capture) : Prop where
  /-- No two parameters have the same name. -/
  distinct : f.parameters.Nodup
  /-- There is one argument for each parameter. -/
  saturated : f.arguments.length = f.parameters.length
  /-- There is one parameter for each capture. -/
  exhaustive : f.parameters.length = captures.length
  /-- Parameters and arguments go with the captures by position. -/
  aligned : ∀ (i : Nat) capture, captures[i]? = some capture →
    f.parameters[i]? = some capture.name ∧
      f.arguments[i]? = some (match capture.value with
        | some value => value.code
        | none => capture.name)

end Factory

namespace Callback

/-- The function that a callback with captures is. -/
def factory (settings : Settings) (c : Callback) : Factory :=
  ⟨c.captures.map (·.name), Reaction.code settings c.reaction, c.captures.map Capture.code⟩

theorem code_eq (settings : Settings) (c : Callback) : c.code settings =
    if c.captures = [] then Reaction.code settings c.reaction else (c.factory settings).code := by
  simp only [code, List.isEmpty_iff]
  rfl

theorem binds_factory {settings : Settings} {c : Callback} (h : (c.captures.map (·.name)).Nodup) :
    (c.factory settings).Binds c.captures where
  distinct := h
  saturated := by simp [factory]
  exhaustive := by simp [factory]
  aligned i capture hcapture := by
    refine ⟨by simp [factory, hcapture], ?_⟩
    rw [factory, List.getElem?_map, hcapture, Option.map_some, Capture.code]
    cases capture.value <;> rfl

/-- What the value of a connection is registered as, given who receives messages. -/
inductive Registered (settings : Settings) (sender? : Option String) (value : Expr)
    (captures : List Capture) : String → Prop where
  /-- A written function that takes nothing along stays as it is. -/
  | plain (written : value.term.isLambda = true) (nothing : captures = []) :
      Registered settings sender? value captures value.code
  /-- A written function is the body of the one that binds the captures. -/
  | capturing {f : Factory} (written : value.term.isLambda = true) (something : captures ≠ [])
      (body : f.body = value.code) (binds : f.Binds captures) :
      Registered settings sender? value captures f.code
  /-- A message is sent by a function of any arguments, which has the sender bound once: in its
  place among the captures or else in front of them. -/
  | message {sender : String} {bound : List Capture} {f : Factory}
      (sent : value.term.isLambda = false) (receiver : sender? = some sender)
      (body : f.body =
        "lambda *_args: " ++ sender ++ "." ++ settings.senderMethod ++ "(" ++ value.code ++ ")")
      (binds : f.Binds bound) (once : f.parameters.count sender = 1)
      (added : sender ∉ captures.map (·.name) → bound = ⟨sender, none⟩ :: captures)
      (kept : sender ∈ captures.map (·.name) → bound = captures) :
      Registered settings sender? value captures f.code

/-- What a message takes along: the sender stands in front unless it is among the captures. -/
def withSender (sender : String) (captures : List Capture) : List Capture :=
  if captures.any (·.name = sender) then captures else ⟨sender, none⟩ :: captures

theorem withSender_of_mem {sender : String} {captures : List Capture}
    (h : sender ∈ captures.map (·.name)) : withSender sender captures = captures :=
  if_pos (by simpa using h)

theorem withSender_of_not_mem {sender : String} {captures : List Capture}
    (h : sender ∉ captures.map (·.name)) :
    withSender sender captures = ⟨sender, none⟩ :: captures :=
  if_neg (by simpa using h)

theorem mem_names_withSender (sender : String) (captures : List Capture) :
    sender ∈ (withSender sender captures).map (·.name) := by
  by_cases h : sender ∈ captures.map (·.name)
  · rwa [withSender_of_mem h]
  · rw [withSender_of_not_mem h]
    exact List.mem_cons_self

theorem nodup_names_withSender (sender : String) {captures : List Capture}
    (h : (captures.map (·.name)).Nodup) : ((withSender sender captures).map (·.name)).Nodup := by
  by_cases hmem : sender ∈ captures.map (·.name)
  · rwa [withSender_of_mem hmem]
  · rw [withSender_of_not_mem hmem]
    exact List.nodup_cons.mpr ⟨hmem, h⟩

theorem ofConnection?_eq_some {sender? : Option String} {value : Expr} {captures : List Capture}
    {c : Callback} (h : ofConnection? sender? value captures = some c) :
    (value.term.isLambda = true ∧ c = ⟨captures, .function value⟩) ∨
      value.term.isLambda = false ∧ ∃ sender, sender? = some sender ∧
        c = ⟨withSender sender captures, .message sender value⟩ := by
  unfold ofConnection? at h
  split at h
  · next hvalue => exact .inl ⟨hvalue, (Option.some.inj h).symm⟩
  · next hvalue =>
    obtain ⟨sender, hsender, rfl⟩ := Option.map_eq_some_iff.mp h
    exact .inr ⟨eq_false_of_ne_true hvalue, sender, hsender, rfl⟩

/-- The callback of a connection whose captures have different names binds each of them. -/
theorem registered_of_ofConnection? (settings : Settings) {sender? : Option String} {value : Expr}
    {captures : List Capture} {c : Callback} (hdistinct : (captures.map (·.name)).Nodup)
    (h : ofConnection? sender? value captures = some c) :
    Registered settings sender? value captures (c.code settings) := by
  obtain ⟨hvalue, rfl⟩ | ⟨hvalue, sender, hsender, rfl⟩ := ofConnection?_eq_some h
  · rw [code_eq]
    by_cases hcaptures : captures = []
    · rw [if_pos hcaptures]
      exact .plain hvalue hcaptures
    · rw [if_neg hcaptures]
      exact .capturing hvalue hcaptures rfl (binds_factory hdistinct)
  · have hmem := mem_names_withSender sender captures
    have hnodup := nodup_names_withSender sender hdistinct
    have hsome : withSender sender captures ≠ [] := fun hnone => by
      rw [hnone] at hmem
      cases hmem
    rw [code_eq, if_neg hsome]
    exact .message hvalue hsender rfl (binds_factory hnodup) (List.count_eq_one_of_mem hnodup hmem)
      withSender_of_not_mem withSender_of_mem

end Callback

/-- The lines of a connection or binding of a widget. -/
inductive Registration (settings : Settings) (sender? : Option String) :
    Widget × Property → Code → Prop where
  /-- The signal and one callback are given to the widget; a guard holds what comes back. -/
  | connection {w : Widget} {p : Property} {value : Expr} {captures : List Capture}
      {guard : Option String} {callback : String}
      (payload : p.payload = .connection value captures guard)
      (registered : Callback.Registered settings sender? value captures callback) :
      Registration settings sender? (w, p)
        (Code.line (guard.elim "" (· ++ " = ") ++ w.handle.code ++ "." ++ settings.connectMethod ++
          "(\"" ++ Text.signalName p.name ++ "\", " ++ callback ++ ")"))
  /-- The method of a binding is called with its value and what is chained to it. -/
  | binding {w : Widget} {p : Property} {value : Expr} (payload : p.payload = .binding value) :
      Registration settings sender? (w, p)
        (Code.line (methodCall w.handle p.name value.arguments p.modifiers.chain))

def Property.isRegistered (p : Property) : Bool := p.kind = .connection || p.kind = .binding

/-- The connections and bindings of a widget. -/
def Node.registrations : Node → List (Widget × Property)
  | widget w => (w.properties.filter (·.isRegistered)).map (w, ·)
  | choice _ => []

theorem Statement.code_connect (settings : Settings) (target : Handle) (signal : String)
    (callback : Callback) (guard : Option String) :
    (connect target signal callback guard).code settings =
      Code.line (guard.elim "" (· ++ " = ") ++ target.code ++ "." ++ settings.connectMethod ++
        "(\"" ++ signal ++ "\", " ++ callback.code settings ++ ")") := by
  have hquote (text : String) : "(\"" ++ text = "(" ++ ("\"" ++ text) := by
    rw [← String.append_assoc]
    rfl
  cases guard <;> simp [code, callOf, String.append_assoc, hquote]

/-- A property gives the lines of its registration, if it has one. -/
theorem Property.forall₂_registration {settings : Settings} {sender? : Option String} {w : Widget}
    {p : Property} {own : List Statement}
    (hdistinct : (p.payload.captures.map (·.name)).Nodup)
    (h : p.connects sender? w.handle = .ok own) :
    List.Forall₂ (fun registered s => Registration settings sender? registered (s.code settings))
      (([p].filter (·.isRegistered)).map (w, ·)) own := by
  obtain ⟨value, captures, guard, callback, hpayload, hcallback, rfl⟩ | ⟨value, hpayload, rfl⟩ |
    ⟨hconnection, hbinding, rfl⟩ := Property.connects_cases h
  · rw [hpayload] at hdistinct
    have hregistered := Callback.registered_of_ofConnection? settings hdistinct hcallback
    rw [List.filter_cons_of_pos (by simp [isRegistered, kind, hpayload, Payload.kind])]
    exact .cons (Statement.code_connect settings _ _ _ _ ▸ .connection hpayload hregistered) .nil
  · rw [List.filter_cons_of_pos (by simp [isRegistered, kind, hpayload, Payload.kind])]
    exact .cons (.binding hpayload) .nil
  · rw [List.filter_cons_of_neg (by simp [isRegistered, hconnection, hbinding])]
    exact .nil

theorem Component.nodup_of_repeatedNames {names : List String} (h : repeatedNames names = []) :
    names.Nodup := by
  refine List.nodup_iff_count_eq_one.mpr fun name hname => ?_
  have honce : ¬ 1 < names.count name := fun hcount => by
    have hmem : name ∈ repeatedNames names :=
      mem_sortNames.mpr (List.mem_filter.mpr ⟨hname, decide_eq_true hcount⟩)
    rw [h] at hmem
    cases hmem
  have hpos := List.count_pos_iff.mpr hname
  omega

/-- In a component without errors no connection captures a name twice. -/
theorem Component.nodup_captures_of_check {settings : Settings} {c : Component}
    (h : (c.check settings).errors = []) {n : Node} (hn : n ∈ c.walk) {p : Property}
    (hp : p ∈ n.properties) : (p.payload.captures.map (·.name)).Nodup := by
  obtain ⟨-, -, -, hconnections⟩ := check_errors h
  obtain ⟨v, hv, rfl⟩ := exists_visit hn
  have hnone := List.flatMap_eq_nil_iff.mp hconnections (v, p) (mem_propertyVisits.mpr ⟨hv, hp⟩)
  cases hpayload : p.payload with
  | connection value captures guard =>
    simp only [checkConnection, hpayload, List.map_eq_nil_iff, List.append_eq_nil_iff] at hnone
    obtain ⟨-, hcaptured⟩ := hnone
    refine nodup_of_repeatedNames (List.isEmpty_iff.mp (by_contra fun hrepeated => ?_))
    exact List.cons_ne_nil _ _ ((if_neg hrepeated).symm.trans hcaptured)
  | _ => exact List.nodup_nil

theorem Widget.registrations_eq (w : Widget) : (Node.widget w).registrations =
    w.properties.flatMap fun p => ([p].filter (·.isRegistered)).map (w, ·) := by
  rw [Node.registrations, ← List.map_flatMap, ← List.filter_flatMap, List.flatMap_singleton']

theorem Component.forall₂_registrations {settings : Settings} {c : Component}
    (hcheck : (c.check settings).errors = []) {statements : List Statement}
    (h : c.connects = .ok statements) :
    List.Forall₂ (fun registered s => Registration settings c.sender? registered (s.code settings))
      (c.walk.flatMap Node.registrations) statements := by
  refine forall₂_of_flatten_mapM_eq_ok h fun n hn own hown => ?_
  cases n with
  | widget w =>
    rw [Widget.registrations_eq]
    exact forall₂_of_flatten_mapM_eq_ok hown fun p hp own hown =>
      Property.forall₂_registration (nodup_captures_of_check hcheck hn hp) hown
  | choice choice =>
    obtain rfl := Except.ok.inj hown
    exact .nil

/-- Neither building nor applying connects or binds anything. -/
theorem Component.isConnection_of_mem_front {settings : Settings} {c : Component} {s : Statement}
    (hs : s ∈ c.rootBuilds ++ c.otherBuilds ++ c.assigns settings) : s.isConnection = false := by
  rcases List.mem_append.mp hs with hs | hs
  · cases builds_of_mem_builds hs <;> rfl
  · cases applies_of_mem_assigns hs <;> rfl

theorem Property.isConnection_of_connects {sender? : Option String} {target : Handle} {p : Property}
    {own : List Statement} (h : p.connects sender? target = .ok own) :
    ∀ s ∈ own, s.isConnection = true := by
  obtain ⟨_, _, _, _, -, -, rfl⟩ | ⟨_, -, rfl⟩ | ⟨-, -, rfl⟩ := Property.connects_cases h
  · exact List.forall_mem_singleton.mpr rfl
  · exact List.forall_mem_singleton.mpr rfl
  · exact List.forall_mem_nil _

/-- The routine registers the connections and bindings of the component. -/
structure InitRoutine.Registers (settings : Settings) (c : Component) (r : InitRoutine) : Prop where
  /-- Everything is built and applied before. -/
  last : r.statements = c.rootBuilds ++ c.otherBuilds ++ c.assigns settings ++ r.connects
  /-- There is no other statement that connects or binds. -/
  only : r.statements.filter (·.isConnection) = r.connects
  /-- Each connection and binding of each widget has its lines, once and in the order of the walk. -/
  registered : List.Forall₂ (Registration settings c.sender?) (c.walk.flatMap Node.registrations)
    (r.connects.map (Statement.code settings))
  /-- No two nodes share a name, so none of them come twice. -/
  distinct : (c.walk.map (·.nodeName.text)).Nodup

namespace Component

/-- The routine of a component without errors registers each connection and each binding once, with
the captures of a callback bound by position. -/
theorem exists_registering_routine (settings : Settings) (c : Component)
    (h : (c.check settings).errors = []) :
    ∃ r, c.initRoutine settings = .ok r ∧ r.Registers settings c := by
  have hgenerable := generable_of_errors h
  obtain ⟨connects, hconnects⟩ := hgenerable.exists_connects
  refine ⟨⟨c.rootBuilds, c.otherBuilds, c.assigns settings, connects⟩, ?_, ?_⟩
  · rw [initRoutine, hconnects]
    rfl
  constructor
  case last => rfl
  case only =>
    have hfront : (c.rootBuilds ++ c.otherBuilds ++ c.assigns settings).filter (·.isConnection) = [] :=
      List.filter_eq_nil_iff.mpr fun s hs => by simp [isConnection_of_mem_front hs]
    have hown : connects.filter (·.isConnection) = connects :=
      List.filter_eq_self.mpr fun s hs => by
        obtain ⟨w, p, own, -, -, hown, hs⟩ := (mem_connects hconnects).1 s hs
        exact Property.isConnection_of_connects hown s hs
    rw [InitRoutine.statements, List.filter_append, hfront, hown, List.nil_append]
  case registered => exact List.forall₂_map_right_iff.mpr (forall₂_registrations h hconnects)
  case distinct => exact nodup_names_walk hgenerable

/-- A view whose signals take the sender along behind another value and in front of one, and whose
last signal runs what is written. -/
def dialerSource : String :=
  "view Dialer(model, tx) \x7b\n  Gtk.Entry \x7b\n" ++
    "    connect_activate[text = model.text, tx] => Call(text) @typed,\n" ++
    "    connect_icon_press[step] => Add(step),\n    connect_map => lambda w: w.show(),\n  \x7d\n\x7d\n"

instance : Spelled dialerSource := .append (.append .literal .literal) .literal

def dialerCode : String :=
  "typed = entry_0.connect(\"activate\", " ++
    "(lambda text, tx: lambda *_args: tx.input(Call(text)))(model.text, tx))\n" ++
    "entry_0.connect(\"icon-press\", (lambda tx, step: lambda *_args: tx.input(Add(step)))(tx, step))\n" ++
    "entry_0.connect(\"map\", lambda w: w.show())"

theorem registering_routine_dialerSource : ∃ outcomes o v w,
    readSource? {} dialerSource = some outcomes ∧ o ∈ outcomes ∧ o.result = .ok (.view v) ∧
      (Component.view v).assignNames {} = .view w ∧ ((Component.view w).check {}).errors = [] ∧
      ∃ r, (Component.view w).initRoutine {} = .ok r ∧ r.Registers {} (.view w) ∧
        (statementsCode {} r.connects).render 4 0 = dialerCode := by
  have hread : holdsView {} dialerSource fun w =>
      ((Component.view w).check {}).errors.isEmpty &&
        ((Component.view w).initRoutine {}).toOption.any fun r =>
          (statementsCode {} r.connects).render 4 0 = dialerCode := by decide +kernel
  obtain ⟨outcomes, o, v, w, houtcomes, ho, hv, hw, htest⟩ := exists_of_holdsView hread
  obtain ⟨herrors, hcode⟩ := Bool.and_eq_true_iff.mp htest
  have herrors := List.isEmpty_iff.mp herrors
  obtain ⟨r, hr, hregisters⟩ := exists_registering_routine {} (.view w) herrors
  rw [hr] at hcode
  exact ⟨outcomes, o, v, w, houtcomes, ho, hv, hw, herrors, r, hr, hregisters,
    of_decide_eq_true hcode⟩

end Component

end ViewTree
