import ViewTree.Text.Spelling

/-!
Settings for reading view files and writing code: the names that the generated code uses of the
toolkit, the model and the sender, and how modules are laid out.
-/
namespace ViewTree

/-- A table of texts in order of insertion. -/
abbrev Entries := List (String × String)

namespace Entries

def get? (entries : Entries) (key : String) : Option String :=
  (entries.find? (·.1 = key)).map (·.2)

end Entries

def singleChildWidgets : List String :=
  ["Window", "ApplicationWindow", "Dialog", "ScrolledWindow", "Frame", "Button", "ToggleButton",
   "Popover", "Revealer", "Viewport", "Overlay", "Expander", "AspectFrame"]

structure Settings where
  toolkitModule : String := "Gtk"
  toolkitImport : Option String := some "from gi.repository import Gtk"
  switchContainer : String := "Stack"
  transitionEnum : String := "StackTransitionType"
  defaultChildMethod : String := "append"
  containerMethods : Entries := singleChildWidgets.map (·, "set_child")
  senderMethod : String := "input"
  trackerMethod : String := "changed"
  bindingMethod : String := "bind_property"
  connectMethod : String := "connect"
  blockMethod : String := "handler_block"
  unblockMethod : String := "handler_unblock"
  addPageMethod : String := "add_named"
  getPageMethod : String := "get_visible_child_name"
  setPageMethod : String := "set_visible_child_name"
  setPageFullMethod : String := "set_visible_child_full"
  transitionMethod : String := "set_transition_type"
  indentWidth : Nat := 4
  emitHeader : Bool := true
  imports : List String := []
deriving DecidableEq, Repr

namespace Settings

/-- The container that choices are shown in. -/
def switchType (s : Settings) : String := s.toolkitModule ++ "." ++ s.switchContainer

def transitionValue (s : Settings) (kind : String) : String :=
  s.toolkitModule ++ "." ++ s.transitionEnum ++ "." ++ Text.constantCase kind

/-- The method that adds an unnamed child to a container: by the full path of its type, else by the
last segment, else the default. -/
def childMethod (s : Settings) (type : Option String) : String :=
  match type with
  | some path =>
    if path = "" then s.defaultChildMethod
    else ((s.containerMethods.get? path).or
      (s.containerMethods.get? (Text.lastSegment path))).getD s.defaultChildMethod
  | none => s.defaultChildMethod

end Settings
end ViewTree
