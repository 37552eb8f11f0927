import SchemaGraph.Shell.Builtin.Reading
import SchemaGraph.Shell.Builtin.Signals
import SchemaGraph.Shell.Condition
import SchemaGraph.Shell.Printing
/-!
# Commands of the shell itself

The commands that a shell runs without another program because they change its own state, or because
they are short. Commands that run others are not among them.
-/

namespace SchemaGraph.Shell.Call

/-! ## Going on elsewhere -/

/-- Leaves loops, or goes on with one of them. Without a loop nothing happens. -/
def leave (outcome : Nat → Outcome) (call : Call) (s : State) : State :=
  call.withCount s fun n =>
    if n = 0 then call.failHard s "Illegal number: 0"
    else if call.frame.loops = 0 then succeed s
    else { succeed s with outcome := outcome (min n call.frame.loops) }

/-- Ends the script with an exit code. Without one it is that of the latest command, or the one
before the commands of a trap. -/
def exit (call : Call) (s : State) : State :=
  match call.arguments with
  | [] => s.finish (s.trapStatus.getD s.status)
  | text :: _ =>
    match call.frame.variety with
    | .plain =>
      match natural? text with
      | some code => s.finish code
      | none => call.failHard s ("Illegal number: " ++ text)
    | .extended =>
      match text.toInt? with
      | some code => s.finish (code.emod 256).toNat
      | none => (call.fail s 2 (text ++ ": numeric argument required")).finish 2

/-- Leaves a function or a file that is read. -/
def return_ (call : Call) (s : State) : State :=
  match call.arguments with
  | [] => { s with outcome := .returned }
  | _ => call.withCount s fun n => { s with status := n, outcome := .returned }

/-! ## Directories -/

/-- A path from a directory, where `.` and `..` are taken out of its text. -/
def plainPath (directory path : String) : String :=
  let pieces := (if Path.isAbsolute path then [] else Path.pieces directory) ++ Path.pieces path
  let kept := pieces.foldl (fun kept piece =>
    if piece = "" ∨ piece = "." then kept
    else if piece = ".." then kept.tail
    else piece :: kept) []
  "/" ++ Path.ofPieces kept.reverse

/-- The path by which the shell has come to its directory. -/
def directoryOf (s : State) : String :=
  let physical := State.pathOf s.tree.workingDirectory
  match s.values.get? "PWD" with
  | some path =>
    if (s.tree.locate (Text.ofByteText path)).toOption = some s.tree.workingDirectory then path
    else physical
  | none => physical

/-- Goes to another directory, if a path leads to one. -/
def enter? (isPhysical : Bool) (path : String) (s : State) : Option State :=
  let directory := directoryOf s
  let plain := plainPath directory path
  let target := Text.ofByteText (if isPhysical then path else plain)
  if s.tree.isDirectory target then
    (s.tree.locate target).toOption.map fun location =>
      let shown := if isPhysical then State.pathOf location else plain
      let moved := { s with toSystem := s.toSystem.inDirectory location }
      let set := (moved.setVariable "OLDPWD" directory).setVariable "PWD" shown
      { set with exported := "OLDPWD" :: "PWD" :: set.exported }
  else none

/-- Why a path leads to no directory. -/
def entryReason (s : State) (path : String) : String :=
  match s.tree.stat (Text.ofByteText path) with
  | .error e => e.reason
  | .ok _ => SystemError.notDirectory.reason

/-- Changes the working directory. A path that does not start with a dot or a slash is looked up in
the directories of a variable first. -/
def cd (call : Call) (s : State) : State :=
  call.withLetters ['L', 'P'] s fun letters words =>
    let isPhysical := letters.getLast? = some 'P'
    let value (name : String) : String := (s.values.get? name).getD ""
    let path := match words with
      | [] => value "HOME"
      | word :: _ => if word = "-" then value "OLDPWD" else word
    let first := String.ofList (path.toList.takeWhile (· != '/'))
    let isFixed := path = "" ∨ first = "" ∨ first = "." ∨ first = ".."
    let bases := if isFixed then [] else Text.split (· == ':') (value "CDPATH")
    let found? := bases.findSome? fun base =>
      if base = "" then none
      else (enter? isPhysical (base ++ "/" ++ path) s).map (·, true)
    let moved? := found?.orElse fun _ =>
      (enter? isPhysical (if path = "" then "." else path) s).map (·, words.head? = some "-")
    match moved? with
    | some (s, isShown) =>
      if isShown then call.print s (directoryOf s ++ "\n") else succeed s
    | none =>
      match call.frame.variety with
      | .plain => call.fail s 2 ("can't cd to " ++ path)
      | .extended => call.fail s 1 (path ++ ": " ++ entryReason s path)

/-- Writes the path of the working directory. -/
def pwd (call : Call) (s : State) : State :=
  call.withLetters ['L', 'P'] s fun letters _ =>
    let path :=
      if letters.getLast? = some 'P' then State.pathOf s.tree.workingDirectory else directoryOf s
    call.print s (path ++ "\n")

/-! ## Conditions -/

/-- Evaluates the condition that words are. -/
def holds (call : Call) (words : List String) (s : State) : State :=
  let words :=
    match call.frame.variety with
    | .plain => words
    | .extended => words.map fun word => if word = "==" then "=" else word
  match Condition.holds s.tree words with
  | .ok value => { s with status := if value then 0 else 1 }
  | .error e =>
    call.fail s 2 (match call.frame.variety, e with
      | .plain, e => e.message
      | .extended, .noNumber word => word ++ ": integer expression expected"
      | .extended, .unexpectedOperator _ =>
        match words with
        | [word, _] => word ++ ": unary operator expected"
        | [_, word, _] => word ++ ": binary operator expected"
        | _ => "too many arguments"
      | .extended, .missingValue _ => "argument expected"
      | .extended, .missingParenthesis => "`)' expected")

/-- Evaluates the condition before the closing bracket. -/
def bracket (call : Call) (s : State) : State :=
  if call.arguments.getLast? = some "]" then call.holds call.arguments.dropLast s
  else
    call.fail s 2 (match call.frame.variety with
      | .plain => "missing ]"
      | .extended => "missing `]'")

/-! ## Writing -/

/-- Writes arguments. A plain shell takes escapes in them without being asked to. -/
def echo (call : Call) (s : State) : State :=
  call.print s (match call.frame.variety with
    | .plain => Printing.plainEcho call.arguments
    | .extended => Printing.fullEcho call.arguments)

/-- Writes a format with arguments in its places. -/
def printf (call : Call) (s : State) : State :=
  call.withLetters [] s fun _ words =>
    match words with
    | [] => call.fail s 2 "usage: printf format [arg ...]"
    | format :: arguments =>
      let written := Printing.printf .shell format arguments
      let (complaints, text) := written.separated
      let s := complaints.foldl (fun s complaint => call.fail s 1 complaint) s
      let s := match written.flaw with
        | some flaw => call.fail s 2 flaw
        | none => s
      let status := if written.flaw.isSome then 2 else if complaints = [] then 0 else 1
      let s := call.print s text
      { s with status := max s.status status }

/-! ## Limits -/

/-- A number in octal digits, at least four of them. -/
def maskText (mask : Nat) : String :=
  let digits := Nat.toDigits 8 mask
  String.ofList (List.replicate (4 - digits.length) '0' ++ digits)

/-- The permissions that new files may get. -/
def maskLetters (mask : Nat) : String :=
  let letters (who : String) (bits : Nat) : String :=
    let letter (unit : Nat) (name : String) : String := if bits / unit % 2 = 0 then name else ""
    who ++ "=" ++ letter 4 "r" ++ letter 2 "w" ++ letter 1 "x"
  letters "u" (mask / 64) ++ "," ++ letters "g" (mask / 8) ++ "," ++ letters "o" mask

/-- Says which permissions new files do not get, or shows it. -/
def umask (call : Call) (s : State) : State :=
  call.withLetters ['S'] s fun letters words =>
    match words with
    | [] => call.print s ((if letters = [] then maskText s.mask else maskLetters s.mask) ++ "\n")
    | word :: _ =>
      let digits := word.toList
      if digits.head?.any Char.isDigit then
        if digits.all Arithmetic.isOctal then
          { s with mask := Arithmetic.ofDigits 8 digits % 512, status := 0 }
        else call.failHard s ("Illegal number: " ++ word)
      else if digits.any (fun c => "+-=".toList.contains c) &&
          digits.all (fun c => "ugoarwxX+-=,".toList.contains c) then succeed s
      else call.failHard s ("Illegal mode: " ++ word)

/-- Shows a limit of the process, none of which is set. -/
def ulimit (call : Call) (s : State) : State :=
  call.withLetters "HSatfdscmlpnvwr".toList s fun _ words =>
    if words = [] then call.print s "unlimited\n" else succeed s

/-- Shows how long the shell and its programs have run. -/
def times (call : Call) (s : State) : State :=
  call.print s "0m0.000000s 0m0.000000s\n0m0.000000s 0m0.000000s\n"

/-! ## Jobs -/

/-- Shows what runs beside the script. -/
def jobs (call : Call) (s : State) : State :=
  match call.arguments.find? fun word => word.toList.head? ≠ some '-' with
  | some word => call.failHard s ("No such job: " ++ word)
  | none =>
    let count := s.jobs.length
    let line (place : Nat) : String :=
      let sign := if place = count then "+" else if place + 1 = count then "-" else " "
      "[" ++ toString place ++ "] " ++ sign ++ " Running" ++
        String.ofList (List.replicate 20 ' ') ++ "\n"
    call.print s (String.join ((List.range count).map fun n => line (n + 1)))

/-- Goes on with a job that has been stopped, of which there is none. -/
def resume (call : Call) (s : State) : State :=
  match call.arguments with
  | [] => call.failHard s "No current job"
  | word :: _ => call.failHard s ("No such job: " ++ word)

/-! ## All commands -/

/-- The commands of a shell that run no others. -/
def commands : List (String × (Call → State → State)) :=
  [(":", fun _ => succeed), ("[", bracket), ("alias", alias_), ("bg", resume),
    ("break", leave .left), ("cd", cd), ("continue", leave .resumed), ("echo", echo),
    ("exit", exit), ("export", export_), ("false", fun _ s => { s with status := 1 }),
    ("fg", resume), ("getopts", getopts), ("jobs", jobs), ("kill", kill), ("local", local_),
    ("printf", printf), ("pwd", pwd), ("read", read), ("readonly", readonly),
    ("return", return_), ("set", set), ("shift", shift),
    ("test", fun call => call.holds call.arguments),
    ("times", times), ("trap", trap), ("true", fun _ => succeed), ("ulimit", ulimit),
    ("umask", umask), ("unalias", unalias), ("unset", unset)]

/-- The commands of a shell that run others, or look them up. -/
def runningCommands : List String :=
  [".", "command", "eval", "exec", "hash", "type", "wait"]

/-- Whether a name is that of a command of the shell. -/
def isCommand (variety : Variety) (name : String) : Bool :=
  (commands.lookup name).isSome || runningCommands.contains name ||
    (variety = .extended && (name = "source" || name = "[["))

/-- The state after a command of the shell; none if there is no such command. -/
def run? (call : Call) (s : State) : Option State :=
  if call.name = "[[" ∧ call.frame.variety = .extended then
    some (call.holds call.arguments.dropLast s)
  else (commands.lookup call.name).map fun command => command call s

end SchemaGraph.Shell.Call
