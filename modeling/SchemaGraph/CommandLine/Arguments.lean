import SchemaGraph.Settings.Basic
/-!
# Command-line arguments

A command line names a command with its own options, and global options before or after it.
`Invocation.ofArguments?` answers none for every misuse.

An option is `--name value`, `--name=value`, `-n value`, `-n=value` or `-nvalue`; flags of one
letter can stand behind one hyphen. After `--` nothing is an option. No option may be given twice,
except that a global one may stand once before and once after the command, where the latter counts,
and that `-v` counts how often it is given.
-/

namespace SchemaGraph

/-- What changes the tolerance of a run. -/
structure Toggles where
  allowMissingImports : Bool
  strictImports : Bool
  showMissingTypes : Bool
  hideMissingTypes : Bool
  deriving DecidableEq, Repr

/-- A command with its options. -/
inductive Command where
  | render (input : String) (selection output : Option String) (svg png : Bool)
      (toggles : Toggles)
  | imports (input : String) (output : Option String) (svg : Bool) (toggles : Toggles)
  | stats (path : String) (json : Bool) (toggles : Toggles)
  | init (force : Bool)
  deriving DecidableEq, Repr

/-- A command with the global options. -/
structure Invocation where
  settingsPath : String
  logPath : Option String
  verbosity : Nat
  command : Command
  deriving DecidableEq, Repr

namespace CommandLine

/-- How often an option may be given and what it takes. -/
inductive OptionKind where
  | flag
  /-- A flag that counts. -/
  | counter
  /-- An option with a text. -/
  | text
  /-- An option with a path, which is not empty. -/
  | path
  deriving DecidableEq, Repr

/-- An option. -/
structure OptionSpec where
  name : String
  letter : Option Char
  kind : OptionKind
  deriving DecidableEq, Repr

/-- The options that every command takes. -/
def globalOptions : List OptionSpec :=
  [⟨"config", some 'c', .path⟩, ⟨"log", none, .path⟩, ⟨"verbose", some 'v', .counter⟩]

/-- The options that change the tolerance of a run. -/
def toggleOptions : List OptionSpec :=
  [⟨"allow-missing-imports", none, .flag⟩, ⟨"strict-imports", none, .flag⟩,
    ⟨"show-missing-types", none, .flag⟩, ⟨"hide-missing-types", none, .flag⟩]

/-- The options and the number of inputs of each command. -/
def commands : List (String × List OptionSpec × Nat) :=
  [("render", [⟨"select", some 's', .text⟩, ⟨"output", some 'o', .text⟩, ⟨"svg", none, .flag⟩,
      ⟨"png", none, .flag⟩] ++ toggleOptions, 1),
    ("imports", [⟨"output", some 'o', .text⟩, ⟨"svg", none, .flag⟩] ++ toggleOptions, 1),
    ("stats", [⟨"json", some 'j', .flag⟩] ++ toggleOptions, 1),
    ("init", [⟨"force", some 'f', .flag⟩], 0)]

/-- What has been given at one level: each option with its value, and the inputs. -/
structure Given where
  options : List (String × String)
  inputs : List String
  deriving DecidableEq, Repr

namespace Given

/-- The value of an option, if it is given. -/
def value? (g : Given) (name : String) : Option String :=
  g.options.lookup name

/-- Whether an option is given. -/
def has (g : Given) (name : String) : Bool :=
  (g.value? name).isSome

/-- How often an option is given. -/
def count (g : Given) (name : String) : Nat :=
  g.options.countP (·.1 = name)

/-- One more option; none when it may not be given again, or not with this value. -/
def add? (g : Given) (spec : OptionSpec) (value : String) : Option Given :=
  if spec.kind = .path ∧ value = "" then none
  else if g.has spec.name ∧ spec.kind ≠ .counter then none
  else some { g with options := g.options ++ [(spec.name, value)] }

end Given

/-- Whether an option takes a value. -/
def OptionSpec.takesValue (spec : OptionSpec) : Bool :=
  spec.kind = .text || spec.kind = .path

/-- Whether an argument is no value because it looks like an option. -/
def looksLikeOption (argument : String) : Bool :=
  match argument.toList with
  | '-' :: _ :: _ => true
  | _ => false

/-- The value of an option: the one given with it, or the next argument. -/
def takeValue? (given : Option String) (rest : List String) : Option (String × List String) :=
  match given, rest with
  | some value, rest => some (value, rest)
  | none, next :: rest => if looksLikeOption next then none else some (next, rest)
  | none, [] => none

/-- The text before the first equals sign, and the text after it if there is one. -/
def splitEquals (cs : List Char) : List Char × Option (List Char) :=
  match cs.dropWhile (· != '=') with
  | [] => (cs, none)
  | _ :: value => (cs.takeWhile (· != '='), some value)

/-- Takes a long option, given without its two hyphens. -/
def takeLong? (specs : List OptionSpec) (g : Given) (argument : List Char) (rest : List String) :
    Option (Given × List String) := do
  let (name, value) := splitEquals argument
  let spec ← specs.find? (·.name = String.ofList name)
  if spec.takesValue then
    let (value, rest) ← takeValue? (value.map String.ofList) rest
    return (← g.add? spec value, rest)
  else if value.isSome then none
  else return (← g.add? spec "", rest)

/-- Takes the options of one letter that stand behind one hyphen. -/
def takeShort? (specs : List OptionSpec) (g : Given) (rest : List String) :
    List Char → Option (Given × List String)
  | [] => some (g, rest)
  | letter :: cs => do
    let spec ← specs.find? (·.letter = some letter)
    if spec.takesValue then
      let value :=
        match cs with
        | [] => none
        | '=' :: value => some value
        | value => some value
      let (value, rest) ← takeValue? (value.map String.ofList) rest
      return (← g.add? spec value, rest)
    else
      let g ← g.add? spec ""
      takeShort? specs g rest cs

/-- Takes the options and inputs of a level: `inputs` of them at most. With no inputs allowed the
first argument that is no option ends the level, and it is answered with all that follow. -/
def takeLevel? (specs : List OptionSpec) (inputs : Nat) :
    (fuel : Nat) → Given → List String → Option (Given × List String)
  | 0, _, _ => none
  | _, g, [] => some (g, [])
  | fuel + 1, g, argument :: rest =>
    match argument.toList with
    | ['-', '-'] =>
      if g.inputs.length + rest.length ≤ inputs then
        some ({ g with inputs := g.inputs ++ rest }, [])
      else none
    | '-' :: '-' :: name => do
      let (g, rest) ← takeLong? specs g name rest
      takeLevel? specs inputs fuel g rest
    | '-' :: c :: cs => do
      let (g, rest) ← takeShort? specs g rest (c :: cs)
      takeLevel? specs inputs fuel g rest
    | _ =>
      if inputs = 0 then some (g, argument :: rest)
      else if g.inputs.length < inputs then
        takeLevel? specs inputs fuel { g with inputs := g.inputs ++ [argument] } rest
      else none

/-- The toggles that are given; those that contradict each other are refused. -/
def toggles? (g : Given) : Option Toggles :=
  let t : Toggles :=
    ⟨g.has "allow-missing-imports", g.has "strict-imports", g.has "show-missing-types",
      g.has "hide-missing-types"⟩
  if (t.allowMissingImports ∧ t.strictImports) ∨ (t.showMissingTypes ∧ t.hideMissingTypes) then none
  else some t

/-- The command of a name with what is given for it. -/
def command? (name : String) (g : Given) : Option Command := do
  let toggles ← toggles? g
  match name, g.inputs with
  | "render", [input] =>
    return .render input (g.value? "select") (g.value? "output") (g.has "svg") (g.has "png") toggles
  | "imports", [input] => return .imports input (g.value? "output") (g.has "svg") toggles
  | "stats", [path] => return .stats path (g.has "json") toggles
  | "init", [] => return .init (g.has "force")
  | _, _ => none

end CommandLine

/-- The invocation of a list of arguments; none for a misuse. -/
def Invocation.ofArguments? (arguments : List String) : Option Invocation := do
  let fuel := arguments.length + 1
  let (before, rest) ← CommandLine.takeLevel? CommandLine.globalOptions 0 fuel ⟨[], []⟩ arguments
  match rest with
  | [] => none
  | name :: rest =>
    let (specs, inputs) ← CommandLine.commands.lookup name
    let (after, rest) ←
      CommandLine.takeLevel? (specs ++ CommandLine.globalOptions) inputs fuel ⟨[], []⟩ rest
    if rest.isEmpty then
      let command ← CommandLine.command? name after
      return {
        settingsPath :=
          ((after.value? "config").or (before.value? "config")).getD Settings.fileName
        logPath := (after.value? "log").or (before.value? "log")
        verbosity := if after.has "verbose" then after.count "verbose" else before.count "verbose"
        command }
    else none

end SchemaGraph
