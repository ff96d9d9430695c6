import ViewTree.Settings.Conversions

/-!
Settings from configuration values: each key has a field. All problems are reported, each with the
path to the value.
-/
namespace ViewTree.Settings

abbrev Reading := Settings × List SettingsProblem

/-- A value where a problem may have been noted instead. -/
def Reading.note {α : Type} (r : Reading) (path : List String) (found : Except Mismatch α)
    (store : α → Settings) : Reading :=
  match found with
  | .ok value => (store value, r.2)
  | .error m => (r.1, r.2 ++ [⟨path, m⟩])

/-- A value where problems may have been noted instead. -/
def Reading.collect {α : Type} (r : Reading) (found : Except (List SettingsProblem) α)
    (store : α → Settings) : Reading :=
  match found with
  | .ok value => (store value, r.2)
  | .error problems => (r.1, r.2 ++ problems)

namespace Conversions

def width (c : Conversions) (d : Datum) : Except Mismatch Nat :=
  match c.whole d with
  | .ok n => if n < 1 then .error .tooSmall else if 8 < n then .error .tooLarge else .ok n.toNat
  | .error m => .error m

def table (c : Conversions) (path : List String) (d : Datum) :
    Except (List SettingsProblem) Entries :=
  match d with
  | .table found => c.entries path (found.map fun (k, v) => (.text k, v))
  | _ => .error [⟨path, .notTable⟩]

end Conversions

def textField? : String → Option (Settings → String → Settings)
  | "toolkit_module" => some fun s v => { s with toolkitModule := v }
  | "switch_container" => some fun s v => { s with switchContainer := v }
  | "transition_enum" => some fun s v => { s with transitionEnum := v }
  | "default_child_method" => some fun s v => { s with defaultChildMethod := v }
  | "sender_method" => some fun s v => { s with senderMethod := v }
  | "tracker_method" => some fun s v => { s with trackerMethod := v }
  | "binding_method" => some fun s v => { s with bindingMethod := v }
  | "connect_method" => some fun s v => { s with connectMethod := v }
  | "block_method" => some fun s v => { s with blockMethod := v }
  | "unblock_method" => some fun s v => { s with unblockMethod := v }
  | "add_page_method" => some fun s v => { s with addPageMethod := v }
  | "get_page_method" => some fun s v => { s with getPageMethod := v }
  | "set_page_method" => some fun s v => { s with setPageMethod := v }
  | "set_page_full_method" => some fun s v => { s with setPageFullMethod := v }
  | "transition_method" => some fun s v => { s with transitionMethod := v }
  | _ => none

/-- The settings with one entry more. -/
def readEntry (c : Conversions) (r : Reading) (key : String) (d : Datum) : Reading :=
  match textField? key with
  | some store => r.note [key] (c.text d) (store r.1)
  | none =>
    match key with
    | "toolkit_import" => r.note [key] (c.textOrNone d) fun v => { r.1 with toolkitImport := v }
    | "container_methods" => r.collect (c.table [key] d) fun v => { r.1 with containerMethods := v }
    | "indent_width" => r.note [key] (c.width d) fun v => { r.1 with indentWidth := v }
    | "emit_header" => r.note [key] (c.truth d) fun v => { r.1 with emitHeader := v }
    | "imports" => r.collect (c.texts [key] d) fun v => { r.1 with imports := v }
    | _ => (r.1, r.2 ++ [⟨[key], .unknownKey⟩])

/-- The settings that a table of configuration values describes. -/
def ofEntries (found : List (String × Datum)) (c : Conversions := .lax) :
    Except (List SettingsProblem) Settings :=
  let (settings, problems) :=
    found.foldl (fun r (key, d) => readEntry c r key d) (({} : Settings), [])
  if problems.isEmpty then .ok settings else .error problems

end ViewTree.Settings
