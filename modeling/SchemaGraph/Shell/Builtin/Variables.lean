import SchemaGraph.Shell.Builtin.Basic
/-!
# Variables and options of a shell

The commands that give variables values and attributes, forget them, and switch the options of the
shell.
-/

namespace SchemaGraph.Shell.Call

/-- The name in a word of the form `name=value` or `name`. -/
def nameIn (word : String) : String :=
  String.ofList (word.toList.takeWhile (· != '='))

/-- The value in a word of the form `name=value`. -/
def valueIn? (word : String) : Option String :=
  match word.toList.dropWhile (· != '=') with
  | _ :: value => some (String.ofList value)
  | [] => none

/-- Gives variables the values in words, as far as these have values, and does something with each
name. Words with bad names end the command. -/
def eachName (call : Call) (change : String → State → State) : List String → State → State
  | [], s => s
  | word :: words, s =>
    let name := nameIn word
    if !isName name then call.failHard s (word ++ ": bad variable name")
    else
      let s := change name s
      let s :=
        match valueIn? word with
        | some value => s.assign { call.frame with reader := call.name } name value
        | none => s
      if s.isRunning then eachName call change words s else s

/-- Variables with their values, one on each line. -/
def listing (s : State) (names : List String) : String :=
  String.join (names.map fun name =>
    match s.values.get? name with
    | some value => name ++ "=" ++ quoted value ++ "\n"
    | none => name ++ "\n")

/-- Gives variables an attribute, or shows those that have it. -/
def attribute_ (call : Call) (names : State → List String) (give : String → State → State)
    (s : State) : State :=
  call.withLetters ['p', 'n'] s fun _ words =>
    if words = [] then
      call.print s (String.join ((sortDistinct (names s)).map fun name =>
        call.name ++ " " ++ listing s [name]))
    else call.eachName give words (succeed s)

/-- Makes variables known to programs. -/
def export_ (call : Call) (s : State) : State :=
  call.attribute_ (·.exported) (fun name s => { s with exported := name :: s.exported }) s

/-- Lets variables keep their values. -/
def readonly (call : Call) (s : State) : State :=
  let s' := call.attribute_ (·.readOnly) (fun _ s => s) s
  if s'.isRunning then
    let names := (call.arguments.filter fun word => word.toList.head? ≠ some '-').map nameIn
    { s' with readOnly := names.filter isName ++ s'.readOnly }
  else s'

/-- Gives variables values until the present function ends. -/
def local_ (call : Call) (s : State) : State :=
  if !call.frame.isFunction then
    call.failHard s (match call.frame.variety with
      | .plain => "not in a function"
      | .extended => "can only be used in a function")
  else
    call.eachName (fun name s => { s with hidden := (name, s.values.get? name) :: s.hidden })
      call.arguments (succeed s)

/-- Forgets variables or functions. -/
def unset (call : Call) (s : State) : State :=
  call.withLetters ['v', 'f'] s fun found words =>
    if found.contains 'f' then
      { s with functions := s.functions.filterKeys fun name => !words.contains name, status := 0 }
    else
      match words.find? s.readOnly.contains, words.find? (fun name => !isName name) with
      | some name, _ => call.failHard s (name ++ ": is read only")
      | none, some name => call.failHard s (name ++ ": bad variable name")
      | none, none =>
        { s with
          values := s.values.filterKeys fun name => !words.contains name
          exported := s.exported.filter fun name => !words.contains name
          status := 0 }

/-! ## Options -/

/-- The options of a shell with their letters. -/
def optionNames : List (String × Char) :=
  [("errexit", 'e'), ("noglob", 'f'), ("ignoreeof", 'I'), ("interactive", 'i'), ("monitor", 'm'),
    ("noexec", 'n'), ("stdin", 's'), ("xtrace", 'x'), ("verbose", 'v'), ("vi", 'V'),
    ("emacs", 'E'), ("noclobber", 'C'), ("allexport", 'a'), ("notify", 'b'), ("nounset", 'u'),
    ("privileged", 'p')]

/-- Switches options, given by letters. -/
def switch (isOn : Bool) (letters : List Char) (s : State) : State :=
  let others := s.options.filter fun c => !letters.contains c
  { s with options := if isOn then letters ++ others else others }

/-- Switches an option that is given by its name. -/
def switchNamed (call : Call) (isOn : Bool) (name : String) (s : State) : State :=
  match optionNames.lookup name with
  | some letter => switch isOn [letter] s
  | none =>
    match call.frame.variety with
    | .plain => call.failHard s ("Illegal option -o " ++ name)
    | .extended =>
      if name = "pipefail" then { s with failsWithParts := isOn }
      else if name = "posix" then s
      else call.failHard s (name ++ ": invalid option name")

/-- The options with their states. -/
def optionListing (s : State) : String :=
  "Current option settings\n" ++ String.join (optionNames.map fun option =>
    option.1 ++ String.ofList (List.replicate (16 - option.1.length) ' ') ++
      (if s.has option.2 then "on" else "off") ++ "\n")

/-- The commands that switch the options as they are. -/
def optionCommands (s : State) : String :=
  String.join (optionNames.map fun option =>
    "set " ++ (if s.has option.2 then "-" else "+") ++ "o " ++ option.1 ++ "\n")

/-- Other arguments, of which no option has been taken. -/
def withArguments (arguments : List String) (s : State) : State :=
  { s with arguments, optionPlace := 1, lettersTaken := 0 }

/-- Switches options up to the first word that is none; the words from there on are the new
arguments. The letter `o` stands for the name that follows. -/
def setAll (call : Call) : List String → State → State
  | [], s => s
  | word :: words, s =>
    let switching (isOn : Bool) (letters : List Char) : State :=
      match letters.find? fun c => !('o' :: optionNames.map (·.2)).contains c with
      | some c => call.failHard s ("Illegal option " ++ (if isOn then "-" else "+") ++
          String.singleton c)
      | none => switch isOn (letters.filter (· != 'o')) s
    let going (isOn : Bool) (letters : List Char) : State :=
      let switched := switching isOn letters
      if !letters.contains 'o' then
        if switched.isRunning then setAll call words switched else switched
      else
        match words with
        | [] => call.print switched (if isOn then optionListing switched
            else optionCommands switched)
        | name :: words =>
          let switched := call.switchNamed isOn name switched
          if switched.isRunning then setAll call words switched else switched
    match word.toList with
    | ['-', '-'] => withArguments words s
    | ['-'] =>
      let s := switch false ['x', 'v'] s
      if words = [] then s else withArguments words s
    | '-' :: letters => going true letters
    | '+' :: letters => going false letters
    | _ => withArguments (word :: words) s

/-- Switches options and sets the arguments, or shows all variables. -/
def set (call : Call) (s : State) : State :=
  if call.arguments = [] then call.print s (listing s s.values.keys)
  else call.setAll call.arguments { s with status := 0 }

/-- Takes arguments away at the front. -/
def shift (call : Call) (s : State) : State :=
  call.withCount s fun n =>
    if n ≤ s.arguments.length then succeed (withArguments (s.arguments.drop n) s)
    else
      match call.frame.variety with
      | .plain => call.failHard s "can't shift that many"
      | .extended => { s with status := 1 }

/-! ## Aliases -/

/-- Gives names other texts that take their places, or shows such texts. -/
def alias_ (call : Call) (s : State) : State :=
  let show_ (name text : String) : String := name ++ "=" ++ quoted text ++ "\n"
  if call.arguments = [] then
    call.print s (String.join (s.aliases.entries.map fun entry => show_ entry.1 entry.2))
  else
    call.arguments.foldl (fun s word =>
      match valueIn? word with
      | some text => { s with aliases := s.aliases.insert (nameIn word) text }
      | none =>
        match s.aliases.get? word with
        | some text => { call.print s (show_ word text) with status := s.status }
        | none => { s.put 2 ("alias: " ++ word ++ " not found\n") with status := 1 }) (succeed s)

/-- Forgets aliases. -/
def unalias (call : Call) (s : State) : State :=
  if call.arguments.head? = some "-a" then { s with aliases := .empty, status := 0 }
  else
    call.arguments.foldl (fun s word =>
      if s.aliases.contains word then { s with aliases := s.aliases.filterKeys (· != word) }
      else { s.put 2 ("unalias: " ++ word ++ " not found\n") with status := 1 }) (succeed s)

end SchemaGraph.Shell.Call
