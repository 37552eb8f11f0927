import SchemaGraph.Shell.Script
import SchemaGraph.Shell.System
/-!
# The state of a shell

A shell has a state of its own: its variables and arguments, its descriptors, what it does when
signals come, and how it has ended once it has. Texts inside a shell are byte texts.
-/

namespace SchemaGraph.Shell

/-- How a command leaves the script. -/
inductive Outcome where
  | running
  /-- So many loops are left. -/
  | left (loops : Nat)
  /-- So many loops are left, of which the last one goes on. -/
  | resumed (loops : Nat)
  | returned
  /-- An error ends the script, unless a command that may fail has met it. -/
  | refused
  | ended (status : ExitStatus)
  deriving DecidableEq, Repr

/-- What surrounds a command. -/
structure Frame where
  /-- The name of the script. -/
  name : String
  variety : Variety
  /-- The command whose text is read, as complaints name it. -/
  reader : String
  /-- Whether the failure of a command is looked at. -/
  isTested : Bool
  isFunction : Bool
  /-- Whether the process ends with the command. -/
  isLast : Bool
  /-- The number of loops. -/
  loops : Nat

/-- The frame of a script. -/
def Frame.ofScript (name : String) (variety : Variety) : Frame :=
  ⟨name, variety, "", false, false, false, 0⟩

/-- The state that a shell does not share. -/
structure Process where
  /-- The values of the variables. -/
  values : Table String String
  /-- The variables that other programs get. -/
  exported : List String
  /-- The variables that keep their values. -/
  readOnly : List String
  arguments : List String
  functions : Table String Script
  aliases : Table String String
  /-- The letters of the options that are on. -/
  options : List Char
  /-- Whether a pipe fails when any of its commands does. -/
  failsWithParts : Bool
  /-- The descriptors, each with the number of its open file. -/
  descriptors : List (Nat × Nat)
  /-- What the variables of the present function were before it. -/
  hidden : List (String × Option String)
  /-- The commands that run when a signal comes, or with zero at the end. -/
  traps : List (Nat × String)
  /-- The signals that have been ignored from the start, which stays so. -/
  ignored : List Nat
  /-- The place of the argument from which options are taken next. -/
  optionPlace : Nat
  /-- How many characters have been taken of the argument before it; zero if no more can be. -/
  lettersTaken : Nat
  number : Nat
  /-- The number of the shell that read the script. -/
  rootNumber : Nat
  /-- The processes that have started this one. -/
  ancestors : List Nat
  /-- The programs that have been looked up, with their paths. -/
  tracked : Table String String
  /-- The permissions that new files do not get. -/
  mask : Nat
  /-- While commands for a signal or for the end run, the exit code before them. -/
  trapStatus : Option Nat
  /-- The latest process beside the script. -/
  latestJob : Option Nat
  /-- How processes beside the script have ended. -/
  finished : List (Nat × ExitStatus)
  line : Nat
  /-- The line up to which commands have been read. -/
  linesRead : Nat
  /-- The exit code of the latest command. -/
  status : Nat
  /-- The exit code of the commands whose output stands in the present command. -/
  outputStatus : Nat
  outcome : Outcome

/-- Commands that run beside a script. -/
structure Job where
  /-- How many milliseconds they sleep first. -/
  delay : Nat
  process : Process
  directory : Location
  frame : Frame
  body : Script

/-- The state of a running shell. -/
structure State extends System, Process where
  /-- What runs beside the script and has not been waited for. -/
  jobs : List Job

/-! ## Processes -/

namespace Process

/-- The paths at which programs are looked up. -/
def standardPath : String :=
  "/usr/local/sbin:/usr/local/bin:/usr/sbin:/usr/bin:/sbin:/bin"

/-- The variables that the first process gets. -/
def environment : Table String String :=
  .ofList [("HOME", "/root"), ("PATH", standardPath)]

/-- A shell with the given variables at the start of its script. -/
def start (environment : Table String String) (arguments : List String) : Process where
  values :=
    ((environment.insert "IFS" " \t\n").insert "OPTIND" "1").insert "PS4" "+ " |>.insert "PATH"
      ((environment.get? "PATH").getD standardPath)
  exported := environment.keys
  readOnly := []
  arguments := arguments
  functions := .empty
  aliases := .empty
  options := []
  failsWithParts := false
  descriptors := []
  hidden := []
  traps := []
  ignored := []
  optionPlace := 1
  lettersTaken := 0
  number := 0
  rootNumber := 0
  ancestors := []
  tracked := .empty
  mask := 0o22
  trapStatus := none
  latestJob := none
  finished := []
  line := 1
  linesRead := 1
  status := 0
  outputStatus := 0
  outcome := .running

/-- Whether the option of a letter is on. -/
def has (p : Process) (letter : Char) : Bool :=
  p.options.contains letter

/-- Whether the next command runs. -/
def isRunning (p : Process) : Bool :=
  p.outcome = .running

/-- The process in which a descriptor leads to an open file, or is closed. -/
def withDescriptor (p : Process) (descriptor : Nat) (number : Option Nat) : Process :=
  let others := p.descriptors.filter (·.1 != descriptor)
  { p with descriptors := (number.map (descriptor, ·)).toList ++ others }

/-- The variables that other programs get, with their values. -/
def environmentOf (p : Process) : Table String String :=
  p.values.filterKeys p.exported.contains

/-- The characters at which values are split into fields. -/
def separators (p : Process) : List Char :=
  ((p.values.get? "IFS").getD " \t\n").toList

end Process

namespace State

/-- The path of a location, as a byte text. -/
def pathOf (location : Location) : String :=
  "/" ++ Text.toByteText (Path.ofPieces location)

/-- The first process, whose output goes nowhere and whose errors are those of the program. -/
def start (tree : FileTree) : State :=
  let system := { System.start tree with opened := [.nowhere, .errors], latestProcess := 1000 }
  let environment := Process.environment.insert "PWD" (pathOf tree.workingDirectory)
  let process := { Process.start environment [] with
    descriptors := [(0, 0), (1, 0), (2, 1)]
    number := 1000
    rootNumber := 1000
    ancestors := [999] }
  { system, process with jobs := [] }

/-! ## Descriptors -/

/-- Writes bytes to a descriptor; none if it is closed. -/
def emit? (s : State) (descriptor : Nat) (bytes : List UInt8) : Option State :=
  (s.descriptors.lookup descriptor).map fun number =>
    { s with toSystem := s.toSystem.write number bytes }

/-- Writes bytes to a descriptor. Those for a closed one are lost. -/
def emit (s : State) (descriptor : Nat) (bytes : List UInt8) : State :=
  (s.emit? descriptor bytes).getD s

/-- Writes a text to a descriptor. -/
def put (s : State) (descriptor : Nat) (text : String) : State :=
  s.emit descriptor (Text.bytesOfByteText text)

/-- The bytes that can be read from a descriptor. -/
def readable (s : State) (descriptor : Nat) : List UInt8 :=
  match s.descriptors.lookup descriptor with
  | some number => s.toSystem.readable number
  | none => []

/-- Goes on behind the given number of bytes, which have been read from a descriptor. -/
def skip (s : State) (descriptor count : Nat) : State :=
  match s.descriptors.lookup descriptor with
  | some number => { s with toSystem := s.toSystem.skip number count }
  | none => s

/-- The open file of a descriptor. -/
def fileOf? (s : State) (descriptor : Nat) : Option OpenFile :=
  (s.descriptors.lookup descriptor).bind fun number => s.opened[number]?

/-- Lets a descriptor lead to a file that is opened for it. -/
def openAt (s : State) (descriptor : Nat) (file : OpenFile) : State :=
  let (number, system) := s.toSystem.openFile file
  { s with toSystem := system, toProcess := s.toProcess.withDescriptor descriptor (some number) }

/-- Lets some descriptors lead to what they led to before, and forgets open files that had not been
opened then and to which none leads any more. -/
def restoring (s before : State) (descriptors : List Nat) : State :=
  let process := descriptors.foldl (fun (p : Process) descriptor =>
    p.withDescriptor descriptor (before.descriptors.lookup descriptor)) s.toProcess
  let used := (process.descriptors ++ s.jobs.flatMap (·.process.descriptors)).map (·.2 + 1)
  let size := used.foldl max before.opened.length
  { s with toProcess := process, opened := s.opened.take size }

/-! ## Processes -/

/-- The state of a new process that goes on with what this one does. -/
def fork (s : State) : State :=
  let (number, system) := s.toSystem.newProcess
  { s with toSystem := system, number, ancestors := s.number :: s.ancestors }

/-- How a process has ended. -/
def exitStatus (after : State) : ExitStatus :=
  match after.outcome with
  | .ended status => status
  | _ => .code (after.status % 256)

/-- The exit code that a shell sees. -/
def codeOf : ExitStatus → Nat
  | .code code => code
  | .signal number => 128 + number

/-- The state of a shell after another process, of which it keeps what processes share. -/
def afterProcess (s after : State) : State :=
  { s with
    toSystem := after.toSystem.inDirectory s.tree.workingDirectory
    jobs := after.jobs
    status := codeOf after.exitStatus }.restoring s []

/-! ## Complaints -/

/-- Ends the script with an exit code, of which the last eight bits count. -/
def finish (s : State) (code : Nat) : State :=
  { s with status := code % 256, outcome := .ended (.code (code % 256)) }

/-- Ends the script because of an error. -/
def refuse (s : State) (code : Nat) : State :=
  { s with status := code, outcome := .refused }

/-- Writes a complaint with the place of the command. -/
def complainHere (s : State) (frame : Frame) (complaint : String) : State :=
  let place :=
    match frame.variety with
    | .plain => toString s.line
    | .extended => "line " ++ toString s.line
  s.put 2 (frame.name ++ ": " ++ place ++ ": " ++ complaint ++ "\n")

/-- Writes a complaint of the shell itself. -/
def complain (s : State) (frame : Frame) (complaint : String) : State :=
  s.complainHere frame
    ((if frame.reader = "" then "" else frame.reader ++ ": ") ++ complaint)

/-! ## Variables -/

/-- The value of a parameter; none if it is not set. -/
def value? (s : State) (frame : Frame) (name : String) : Option String :=
  if name = "$" then some (toString s.rootNumber)
  else if name = "?" then some (toString s.status)
  else if name = "#" then some (toString s.arguments.length)
  else if name = "!" then s.latestJob.map toString
  else if name = "-" then
    some (String.ofList ("pubaCEVvxsnmiIfe".toList.filter s.options.contains))
  else if name = "@" ∨ name = "*" then
    let separator := String.ofList (((s.values.get? "IFS").getD " ").toList.take 1)
    if s.arguments = [] then none else some (String.intercalate separator s.arguments)
  else
    match name.toNat? with
    | some 0 => some frame.name
    | some (n + 1) => s.arguments[n]?
    | none => s.values.get? name

/-- Gives a variable a value. -/
def setVariable (s : State) (name value : String) : State :=
  { s with
    values := s.values.insert name value
    exported := if s.has 'a' then name :: s.exported else s.exported
    optionPlace := if name = "OPTIND" then max 1 (value.toNat?.getD 1) else s.optionPlace
    lettersTaken := if name = "OPTIND" then 0 else s.lettersTaken
    tracked := if name = "PATH" then .empty else s.tracked }

/-- Gives a variable the value that it had, if it had one. -/
def restore (s : State) (name : String) : Option String → State
  | some value => s.setVariable name value
  | none => { s with values := s.values.filterKeys (· != name) }

/-- Gives a variable a value, unless it keeps the one that it has, which ends a script. -/
def assign (s : State) (frame : Frame) (name value : String) : State :=
  if s.readOnly.contains name then
    (s.complain frame (name ++ ": " ++ match frame.variety with
      | .plain => "is read only"
      | .extended => "readonly variable")).refuse frame.variety.failureCode
  else s.setVariable name value

end State
end SchemaGraph.Shell
