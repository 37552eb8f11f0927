import SchemaGraph.Shell.Builtin
import SchemaGraph.Shell.Grammar
import SchemaGraph.Shell.Launching
import SchemaGraph.Shell.Redirection
/-!
# Calls of programs

Where programs are looked up, what a name means as a command, how processes begin, and what a shell
keeps of its own state when another process has ended.
-/

namespace SchemaGraph.Shell

/-- The shells, with their varieties. -/
def shells : List (String × Variety) :=
  [("sh", .plain), ("dash", .plain), ("bash", .extended)]

/-- The names of the programs that every system has. -/
def systemPrograms : List String :=
  shells.map (·.1) ++ Launcher.all.map (·.1) ++ Utility.all.map (·.1)

/-- How many scripts may name each other as their interpreters. -/
def interpreterLimit : Nat := 5

/-- The name of the system's program that a path leads to. -/
def systemProgram? (path : String) : Option String :=
  (["/bin/", "/usr/bin/"].findSome? fun directory =>
    directory.toList.isPrefixOf? path.toList).bind fun name =>
      if systemPrograms.contains (String.ofList name) then some (String.ofList name) else none

/-! ## Looking up -/

/-- What a lookup of a program finds. -/
inductive Lookup where
  | missing
  /-- Nothing that can be run. -/
  | denied
  | found (path : String)
  deriving DecidableEq, Repr

namespace Lookup

/-- What a path leads to. -/
def atPath (t : FileTree) (path : String) : Lookup :=
  if (systemProgram? path).isSome then .found path
  else
    match t.stat (Text.ofByteText path) with
    | .ok (.file _ true) => .found path
    | .ok _ => .denied
    | .error e => if e = .notFound ∨ e = .notDirectory then .missing else .denied

/-- The first program that is found; else something that cannot be run, if there is any. -/
def first : List Lookup → Lookup
  | [] => .missing
  | .found path :: _ => .found path
  | .missing :: rest => first rest
  | .denied :: rest =>
    match first rest with
    | .missing => .denied
    | other => other

/-- The program of a name without a slash, in the directories of a path variable. -/
def inDirectories (t : FileTree) (directories name : String) : Lookup :=
  first ((Text.split (· == ':') directories).map fun directory =>
    atPath t (if directory = "" then name else directory ++ "/" ++ name))

end Lookup

/-- The paths of the programs of a name. -/
def placesOf (name : String) (s : State) : List String :=
  let found (path : String) : Option String :=
    match Lookup.atPath s.tree path with
    | .found path => some path
    | _ => none
  if name.toList.contains '/' then (found name).toList
  else
    (Text.split (· == ':') ((s.values.get? "PATH").getD "")).filterMap fun directory =>
      found (directory ++ "/" ++ name)

/-- What a name means as a command. -/
inductive Meaning where
  | keyword
  | alias (text : String)
  | function
  | special
  | shellCommand
  | program (path : String) (isTracked : Bool)
  deriving DecidableEq, Repr

/-- Whether a text cannot be that of a script because of the characters of its first line. -/
def isBinary (bytes : List UInt8) : Bool :=
  ((bytes.take 256).takeWhile (· != 10)).any fun byte =>
    byte < 9 || (15 < byte && byte < 27) || (27 < byte && byte < 32) || byte = 127

/-! ## Words of a shell -/

/-- What the words of a shell ask for. -/
structure ShellOptions where
  /-- The options that are switched, by letters or by names, in their order. -/
  switches : List (Bool × List Char × Option String)
  words : List String

namespace ShellOptions

/-- The letters that are options of a shell as it starts. -/
def known : List Char :=
  'c' :: 'l' :: 'o' :: 's' :: Call.optionNames.map (·.2)

/-- Reads the words of a shell, or says which of them is no option. -/
def read : List String → Except String ShellOptions
  | [] => .ok ⟨[], []⟩
  | word :: words =>
    match word.toList with
    | ['-', '-'] | ['-'] => .ok ⟨[], words⟩
    | sign :: letters =>
      if sign = '-' ∨ sign = '+' then
        match letters.find? fun c => !known.contains c with
        | some letter =>
          .error ("Illegal option " ++ String.singleton sign ++ String.singleton letter)
        | none =>
          let adding (name : Option String) (o : ShellOptions) : ShellOptions :=
            { o with switches := (sign = '-', letters, name) :: o.switches }
          if letters.contains 'o' then
            match words with
            | name :: words => (read words).map (adding (some name))
            | [] => .ok (adding none ⟨[], []⟩)
          else (read words).map (adding none)
      else .ok ⟨[], word :: words⟩
    | [] => .ok ⟨[], word :: words⟩

/-- Whether the option of a letter is given. -/
def has (o : ShellOptions) (letter : Char) : Bool :=
  o.switches.any fun switch => switch.2.1.contains letter

/-- The state in which a shell starts with these options. -/
def apply (o : ShellOptions) (call : Call) (s : State) : State :=
  o.switches.foldl (fun s switch =>
    let letters := switch.2.1.filter fun c => !("colq".toList.contains c)
    let s := Call.switch switch.1 letters s
    match switch.2.2 with
    | some name => call.switchNamed switch.1 name s
    | none => s) s

end ShellOptions

namespace State

/-! ## Processes -/

/-- What happens when signals come of which nothing is known but that they may be ignored. -/
def inheritedTraps (s : State) : List (Nat × String) :=
  s.traps.filter fun trap => trap.1 ≠ 0 && trap.2 = ""

/-- The state in which a part of a script starts that has a process of its own. -/
def inSubshell (s : State) : State :=
  { s.fork with traps := s.inheritedTraps, trapStatus := none, finished := [] }

/-- The state in which the process goes on as a program with the given arguments. -/
def asProgram (s : State) (arguments : List String) : State :=
  let environment := s.environmentOf
  let directory :=
    match environment.get? "PWD" with
    | some path =>
      if (s.tree.locate (Text.ofByteText path)).toOption = some s.tree.workingDirectory then path
      else pathOf s.tree.workingDirectory
    | none => pathOf s.tree.workingDirectory
  let fresh := Process.start environment arguments
  { s with
    toProcess := { fresh with
      values := (fresh.values.insert "PWD" directory).insert "PPID"
        (toString (s.ancestors.headD 1))
      exported := "PWD" :: fresh.exported
      descriptors := s.descriptors
      traps := s.inheritedTraps
      ignored := s.inheritedTraps.map (·.1)
      mask := s.mask
      number := s.number
      rootNumber := s.number
      ancestors := s.ancestors } }

/-- The state at the end of a script: it ends with the exit code of its latest command unless it has
ended in another way. -/
def ending (s : State) : State :=
  match s.outcome with
  | .ended _ => s
  | _ => s.finish s.status

/-- Says so when a signal has ended a process. -/
def sayEnd (s : State) (variety : Variety) (status : ExitStatus) : State :=
  match variety, status with
  | .plain, .signal number =>
    match Signal.remarks.lookup number with
    | some remark => s.put 2 (remark ++ "\n")
    | none => s
  | _, _ => s

/-- The state of a shell after another process, about whose end it may say something. -/
def afterChild (s : State) (frame : Frame) (after : State) : State :=
  (s.afterProcess after).sayEnd frame.variety after.exitStatus

/-! ## Meanings -/

/-- What a program is called by: a path, or a name that is looked up. -/
def lookUp (s : State) (name : String) : Lookup :=
  if name.toList.contains '/' then Lookup.atPath s.tree name
  else Lookup.inDirectories s.tree ((s.values.get? "PATH").getD "") name

/-- What a name means as a command; none if nothing has it. -/
def meaning? (s : State) (variety : Variety) (name : String) : Option Meaning :=
  if name ∈ reservedWords then some .keyword
  else
    match s.aliases.get? name with
    | some text => some (.alias text)
    | none =>
      if s.functions.contains name then some .function
      else if name ∈ specialCommands then some .special
      else if Call.isCommand variety name then some .shellCommand
      else if name.toList.contains '/' then
        if (systemProgram? name).isSome ∨ s.tree.pathExists (Text.ofByteText name) then
          some (.program name false)
        else none
      else
        match s.lookUp name with
        | .found path => some (.program path (s.tracked.contains name))
        | _ => none

/-- The state in which it is known where the program of a name is. -/
def track (s : State) (name : String) : State :=
  match s.lookUp name with
  | .found path =>
    if name.toList.contains '/' then s else { s with tracked := s.tracked.insert name path }
  | _ => s

/-- Says what a name means as a command. -/
def describe (call : Call) (s : State) (name : String) : State :=
  let tell (text : String) : State :=
    let told := call.print s (name ++ text ++ "\n")
    { told with status := max s.status told.status }
  match s.meaning? call.frame.variety name, call.frame.variety with
  | some .keyword, _ => tell " is a shell keyword"
  | some (.alias text), .plain => tell (" is an alias for " ++ text)
  | some (.alias text), .extended => tell (" is aliased to `" ++ text ++ "'")
  | some .function, .plain => tell " is a shell function"
  | some .function, .extended => tell " is a function"
  | some .special, .plain => tell " is a special shell builtin"
  | some .special, .extended | some .shellCommand, _ => tell " is a shell builtin"
  | some (.program path true), .plain => (tell (" is a tracked alias for " ++ path)).track name
  | some (.program path _), _ => (tell (" is " ++ path)).track name
  | none, .plain => tell ": not found" |> fun s => { s with status := 127 }
  | none, .extended => call.fail s 1 (name ++ ": not found")

/-- Says by a single word what a name means as a command. -/
def nameMeaning (call : Call) (s : State) (name : String) : State :=
  match s.meaning? call.frame.variety name with
  | some (.program path _) => (call.print s (path ++ "\n")).track name
  | some (.alias text) => call.print s ("alias " ++ name ++ "=" ++ Call.quoted text ++ "\n")
  | some _ => call.print s (name ++ "\n")
  | none => { s with status := if call.frame.variety = .plain then 127 else 1 }

/-- The number by which a shell finds the path of a program again. -/
def placeOf (name : String) : Nat :=
  let cs := name.toList
  ((cs.map Char.toNat).foldl (· + ·) ((cs.head?.map Char.toNat).getD 0 * 16)) % 0x8000 % 31

/-- Looks programs up, forgets what was looked up, or shows it. -/
def hash (call : Call) (s : State) : State :=
  call.withLetters ['r', 'v'] s fun letters words =>
    if letters.contains 'r' then { s with tracked := .empty, status := 0 }
    else if words = [] then
      let ordered := s.tracked.entries.mergeSort fun a b => placeOf a.1 ≤ placeOf b.1
      call.print s (String.join (ordered.map (·.2 ++ "\n")))
    else
      words.foldl (fun s name =>
        match s.meaning? call.frame.variety name with
        | some _ => s.track name
        | none => call.fail s 1 (name ++ ": not found")) { s with status := 0 }

/-! ## Programs of the system -/

/-- Runs a program that reads, writes and ends. -/
def runUtility (s : State) (called : String) (utility : Utility) (arguments : List String) :
    State :=
  let input := (s.readable 0).map fun byte => Char.ofNat byte.toNat
  let isFile : Bool :=
    match s.fileOf? 0 with
    | some (.file _ _ _) => true
    | _ => false
  let effect := utility ⟨called, arguments, s.tree, input, isFile⟩
  let taken := (s.skip 0 effect.taken)
  let isOpen := (s.descriptors.lookup 1).isSome
  let after := effect.shown.foldl (fun s shown =>
    match shown with
    | .output text => s.emit 1 (text.map fun c => UInt8.ofNat c.toNat)
    | .errors text => s.put 2 text) { taken with tree := effect.tree }
  let writes := effect.shown.any fun
    | .output text => text ≠ []
    | .errors _ => false
  if writes && !isOpen then
    let what := if called = "cat" then "standard output" else "write error"
    (after.put 2 (called ++ ": " ++ what ++ ": Bad file descriptor\n")).finish
      (if called = "ls" ∨ called = "sort" ∨ called = "grep" then 2 else 1)
  else after.finish effect.status

/-! ## Control -/

/-- Ends the script if its latest command has failed and that is to end it. -/
def checkFailure (s : State) (isTested : Bool) : State :=
  if s.has 'e' && !isTested && s.status ≠ 0 && s.isRunning then s.finish s.status else s

/-- Whether a loop goes on after a run of its body, and the state. -/
def afterBody (s : State) : Bool × State :=
  match s.outcome with
  | .running => (true, s)
  | .left loops =>
    (false, { s with outcome := if loops ≤ 1 then .running else .left (loops - 1) })
  | .resumed loops =>
    if loops ≤ 1 then (true, { s with outcome := .running })
    else (false, { s with outcome := .resumed (loops - 1) })
  | .returned | .refused | .ended _ => (false, s)

/-- Goes on after the end of a function or of a file that was read. -/
def resuming (s : State) : State :=
  if s.outcome = .returned then { s with outcome := .running } else s

/-- Goes on after an error that ends no script. -/
def pardoned (s : State) : State :=
  if s.outcome = .refused then { s with outcome := .running } else s

/-- The state in which variables are again what they were before. -/
def withVariablesOf (s before : State) (names : List String) : State :=
  let restored := names.foldl (fun s name => s.restore name (before.values.get? name)) s
  { restored with
    exported := before.exported.filter names.contains ++
      s.exported.filter fun name => !names.contains name }

/-- A word as it is shown before a command runs. -/
def shownWord (variety : Variety) (word : String) : String :=
  let isPlain := word.toList.all fun c => c.isAlphanum || "_./:=,+@%-".toList.contains c
  if variety = .plain || (isPlain && word ≠ "") then word else "'" ++ word ++ "'"

/-- The lines that show a command with the variables that it sets. -/
def commandLines (s : State) (variety : Variety) (names words : List String) : List String :=
  let settings := names.map fun name =>
    name ++ "=" ++ shownWord variety ((s.values.get? name).getD "")
  let words := words.map (shownWord variety)
  let lines : List (List String) :=
    match variety with
    | .plain => [settings ++ words]
    | .extended => settings.map ([·]) ++ [words]
  (lines.filter (· ≠ [])).map (String.intercalate " ")

end State

/-- How many milliseconds a script sleeps before it does anything else. -/
def Script.delay : Script → Nat
  | .sequence first _ | .both first _ | .either first _ | .subshell first => first.delay
  | .redirected body _ _ => body.delay
  | .simple [] [name, time] _ _ =>
    if bareText? name = some "sleep" then
      ((bareText? time).bind Utility.milliseconds?).getD 0
    else 0
  | _ => 0

end SchemaGraph.Shell
