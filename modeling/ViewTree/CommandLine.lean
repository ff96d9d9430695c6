import ViewTree.Source.Path

/-!
Commands, and one way to read them from the arguments of a command line.
-/
namespace ViewTree

/-- How files are compiled. -/
structure CompileOptions where
  config : Option Path
  extended : Bool

inductive Command where
  | version
  | check (sources : List Path) (strict : Bool) (options : CompileOptions)
  | compile (source : Path) (output : Option Path) (options : CompileOptions)

/-- An option with its spellings, and whether an argument belongs to it. -/
structure OptionForm where
  name : String
  spellings : List String
  takesValue : Bool := false

/-- Options in the order in which they are given, and what else is given. -/
structure CommandLine where
  options : List (String × Option String) := []
  others : List String := []

namespace CommandLine

def form? (forms : List OptionForm) (spelling : String) : Option OptionForm :=
  forms.find? (·.spellings.contains spelling)

/-- Options in short spelling behind one dash. The last one may be followed by its value; if the
value is missing, the option is answered apart. -/
def cluster? (forms : List OptionForm) :
    List Char → Option (List (String × Option String) × Option String)
  | [] => some ([], none)
  | c :: cs => do
    let form ← form? forms (String.ofList ['-', c])
    if form.takesValue then
      if cs.isEmpty then pure ([], some form.name)
      else pure ([(form.name, some (String.ofList cs))], none)
    else
      let (found, missing) ← cluster? forms cs
      pure ((form.name, none) :: found, missing)

/-- The options that an argument holds; one whose value is the next argument is answered apart. -/
def optionsOf? (forms : List OptionForm) (argument : String) :
    Option (List (String × Option String) × Option String) :=
  let cs := argument.toList
  if cs.take 2 = ['-', '-'] then do
    let spelling := cs.takeWhile (· ≠ '=')
    let form ← form? forms (String.ofList spelling)
    match form.takesValue, cs.drop spelling.length with
    | true, [] => some ([], some form.name)
    | true, _ :: value => some ([(form.name, some (String.ofList value))], none)
    | false, [] => some ([(form.name, none)], none)
    | false, _ => none
  else cluster? forms (cs.drop 1)

def isOption (argument : String) : Bool :=
  argument.toList.head? = some '-' && 1 < argument.length

/-- Sorts arguments. Two dashes end the options, and so does the first other argument unless they
are `mixed`. -/
def read? (forms : List OptionForm) (mixed : Bool) : List String → Option CommandLine
  | [] => some {}
  | argument :: more =>
    if argument = "--" then some { others := more }
    else if isOption argument then
      match optionsOf? forms argument with
      | none => none
      | some (found, none) =>
        (read? forms mixed more).map fun a => { a with options := found ++ a.options }
      | some (found, some name) =>
        match more with
        | [] => none
        | value :: more =>
          (read? forms mixed more).map fun a =>
            { a with options := found ++ (name, some value) :: a.options }
    else if mixed then
      (read? forms mixed more).map fun a => { a with others := argument :: a.others }
    else some { others := argument :: more }

def has (a : CommandLine) (name : String) : Bool := a.options.any (·.1 = name)

/-- The value of an option; the last one counts. -/
def value? (a : CommandLine) (name : String) : Option String :=
  ((a.options.filter (·.1 = name)).getLast?).bind (·.2)

end CommandLine

namespace Command

def programOptions : List OptionForm :=
  [⟨"version", ["--version"], false⟩, ⟨"verbose", ["--verbose", "-v"], false⟩]

def configOption : OptionForm := ⟨"config", ["--config", "-c"], true⟩
def extendedOption : OptionForm := ⟨"extended", ["--extended"], false⟩

def checkOptions : List OptionForm :=
  [configOption, extendedOption, ⟨"strict", ["--strict"], false⟩]

def compileOptions : List OptionForm :=
  [configOption, extendedOption, ⟨"output", ["--output", "-o"], true⟩]

def pathOption (a : CommandLine) (name : String) : Option Path := (a.value? name).map Path.ofString

def common (a : CommandLine) : CompileOptions := ⟨pathOption a "config", a.has "extended"⟩

/-- The command that arguments ask for; none if they are not understood. -/
def ofArguments? (arguments : List String) : Option Command := do
  let program ← CommandLine.read? programOptions false arguments
  if program.has "version" then return version
  match program.others with
  | "check" :: more =>
    let a ← CommandLine.read? checkOptions true more
    if a.others.isEmpty then none
    else return check (a.others.map Path.ofString) (a.has "strict") (common a)
  | "compile" :: more =>
    let a ← CommandLine.read? compileOptions true more
    match a.others with
    | [source] => return compile (Path.ofString source) (pathOption a "output") (common a)
    | _ => none
  | _ => none

end Command

end ViewTree
