import SchemaGraph.Program.Signal
import SchemaGraph.Shell.Builtin.Basic
/-!
# Signals and other processes

The commands that say what happens when signals come, and that send signals to processes.
-/

namespace SchemaGraph.Shell.Call

/-- How a shell names a signal, where zero is the end of the script. -/
def signalName (number : Nat) : String :=
  if number = 0 then "EXIT"
  else
    match (Signal.shellNames false).lookup number with
    | some name => String.ofList (name.toList.drop 3)
    | none => toString number

/-- The number of the signal that a text means, where zero is the end of the script. -/
def signalNumber? (call : Call) (text : String) : Option Nat :=
  if text.toList.map Char.toUpper = "EXIT".toList then some 0
  else Signal.number? (call.frame.variety = .extended) text

/-- Says what happens at the end, or when signals come; shows it when there are no words. An action
that is missing stands for what happens by default. -/
def trap (call : Call) (s : State) : State :=
  let words := if call.arguments.head? = some "--" then call.arguments.tail else call.arguments
  let (action?, conditions) : Option String × List String :=
    match words with
    | [] => (none, [])
    | [condition] => (none, [condition])
    | action :: conditions =>
      if (Signal.number? true action).isSome && action.toList.all Char.isDigit then (none, words)
      else (if action = "-" then none else some action, conditions)
  if words = [] then
    let ordered := s.traps.mergeSort fun a b => a.1 ≤ b.1
    call.print s (String.join (ordered.map fun entry =>
      "trap -- " ++ quoted entry.2 ++ " " ++ signalName entry.1 ++ "\n"))
  else
    match conditions.find? fun condition => (call.signalNumber? condition).isNone with
    | some condition => { s.put 2 ("trap: " ++ condition ++ ": bad trap\n") with status := 1 }
    | none =>
      conditions.foldl (fun s condition =>
        let number := (call.signalNumber? condition).getD 0
        let others := s.traps.filter (·.1 != number)
        { s with traps := (action?.map (number, ·)).toList ++ others }) (succeed s)

/-- The job of a process; none if it is no job or has ended. -/
def jobOf? (s : State) (process : Nat) : Option Job :=
  s.jobs.find? (·.process.number == process)

/-- The job whose place stands after a percent sign, or a complaint. -/
def jobAtPlace? (s : State) (place : List Char) : Except String Job :=
  let found (job? : Option Job) (complaint : String) : Except String Job :=
    match job? with
    | some job => .ok job
    | none => .error complaint
  if place = [] ∨ place = ['%'] ∨ place = ['+'] then found s.jobs.getLast? "No current job"
  else if place = ['-'] then found s.jobs.dropLast.getLast? "No previous job"
  else
    found ((natural? (String.ofList place)).bind fun n => if n = 0 then none else s.jobs[n - 1]?)
      ("No such job: " ++ String.ofList ('%' :: place))

/-- Ends a job that has not been waited for. -/
def endJob (s : State) (process : Nat) (status : ExitStatus) : State :=
  { s with
    jobs := s.jobs.filter (·.process.number != process)
    finished := (process, status) :: s.finished }

/-- What a signal can be sent to. -/
inductive Receiver where
  | process (number : Nat)
  /-- A process that leads others, with all of them. -/
  | group (number : Nat)
  deriving DecidableEq, Repr

/-- The receiver that a word names, or a complaint. A plain shell takes the processes of a job for a
group, which they are not. -/
def receiver (call : Call) (s : State) (word : String) : Except String Receiver :=
  let numbered (digits : List Char) : Except String Nat :=
    match natural? (String.ofList (digits.dropWhile (· == ' '))) with
    | some number => .ok number
    | none => .error ("Illegal number: " ++ String.ofList digits)
  match call.frame.variety, word.toList with
  | .plain, '%' :: place => (jobAtPlace? s place).map fun job => .group job.process.number
  | .plain, '-' :: digits => (numbered digits).map .group
  | .plain, digits => (numbered digits).map .process
  | .extended, '%' :: place => (jobAtPlace? s place).map fun job => .process job.process.number
  | .extended, digits =>
    match natural? (String.ofList digits) with
    | some number => .ok (.process number)
    | none => .error (word ++ ": arguments must be process or job IDs")

/-- Whether a signal ends the process at once. -/
def isDeadly (s : State) (signal : Nat) : Bool :=
  signal ∉ Signal.harmless &&
    !(Signal.canBeIgnored signal && (s.ignored.contains signal || (s.traps.lookup signal).isSome))

/-- Sends a signal, and answers whether there is a receiver. One that does nothing by default ends
no job. The first process of a system is always there. -/
def send (signal : Nat) (receiver : Receiver) (s : State) : Bool × State :=
  match receiver with
  | .group number => (number = 1 && signal = 0, s)
  | .process number =>
    if number = s.number ∨ number ∈ s.ancestors then
      (true, { s with toSystem := s.toSystem.send number signal })
    else if (jobOf? s number).isSome then
      (true, if signal ∈ Signal.harmless then s else endJob s number (.signal signal))
    else (number = 1 && signal = 0, s)

/-- Sends a signal to the receivers that words name; `hasFailed` says whether one was missing. A
plain shell stops at a word that names none. -/
def sendAll (call : Call) (signal : Nat) : (hasFailed : Bool) → List String → State → State
  | hasFailed, [], s => { s with status := if hasFailed then 1 else 0 }
  | hasFailed, word :: words, s =>
    match call.receiver s word, call.frame.variety with
    | .error complaint, .plain => call.fail s 2 complaint
    | .error complaint, .extended => sendAll call signal true words (call.fail s 1 complaint)
    | .ok receiver, _ =>
      match send signal receiver s with
      | (false, s) => sendAll call signal true words (call.fail s 1 "No such process\n")
      | (true, s) =>
        if receiver = .process s.number && isDeadly s signal then { s with status := 0 }
        else sendAll call signal hasFailed words s

/-- How `kill` is to be called. -/
def killUsage : String :=
  "Usage: kill [-s sigspec | -signum | -sigspec] [pid | job]... or\nkill -l [exitstatus]"

/-- The names of the signals, or the one that a number or an exit code means. -/
def signalList (call : Call) (words : List String) (s : State) : State :=
  match words with
  | [] =>
    call.print s (String.join (("0" :: (List.range Signal.greatest).map fun n =>
      signalName (n + 1)).map (· ++ "\n")))
  | word :: _ =>
    match natural? word with
    | some code =>
      let number := if 128 < code then code - 128 else code
      if 0 < number && number ≤ Signal.greatest then call.print s (signalName number ++ "\n")
      else call.failHard s ("invalid signal number or exit status: " ++ word)
    | none => call.failHard s ("Illegal number: " ++ word)

/-- What the words of `kill` ask for. -/
structure KillRequest where
  /-- Whether names of signals are asked for. -/
  isList : Bool
  signal : Option Nat
  words : List String
  deriving DecidableEq, Repr

/-- The number of the signal of a name, or a complaint. -/
def knownSignal (call : Call) (name : String) : Except String Nat :=
  match Signal.number? (call.frame.variety = .extended) name, call.frame.variety with
  | some signal, _ => .ok signal
  | none, .plain => .error ("invalid signal number or name: " ++ name)
  | none, .extended => .error (name ++ ": invalid signal specification")

/-- Reads the options of `kill`, which start with a letter that is no signal. -/
def killOptions (call : Call) : List String → Except String KillRequest
  | [] => .ok ⟨false, none, []⟩
  | word :: words =>
    match word.toList with
    | ['-', '-'] => .ok ⟨false, none, words⟩
    | '-' :: c :: cs =>
      let listing := (c :: cs).takeWhile (· != 's')
      let adding (signal : Option Nat) (r : KillRequest) : KillRequest :=
        ⟨r.isList || listing ≠ [], r.signal.orElse fun _ => signal, r.words⟩
      match listing.find? (· != 'l') with
      | some letter => .error ("Illegal option -" ++ String.singleton letter)
      | none =>
        match (c :: cs).dropWhile (· != 's'), words with
        | [], words => (killOptions call words).map (adding none)
        | [_], [] => .error "No arg for -s option"
        | [_], name :: words => do
          let signal ← call.knownSignal name
          return adding (some signal) (← killOptions call words)
        | _ :: name, words => do
          let signal ← call.knownSignal (String.ofList name)
          return adding (some signal) (← killOptions call words)
    | _ => .ok ⟨false, none, word :: words⟩

/-- Reads the words of `kill`: a signal in front, or options. -/
def killRequest (call : Call) : Except String KillRequest :=
  match call.arguments with
  | [] => .error killUsage
  | word :: words =>
    match word.toList, call.frame.variety with
    | '-' :: name, variety =>
      match Signal.number? (variety = .extended) (String.ofList name) with
      | some signal => .ok ⟨false, some signal, words⟩
      | none =>
        if variety = .extended && !(["-l", "-s", "--"].contains word) then
          .error (String.ofList name ++ ": invalid signal specification")
        else call.killOptions (word :: words)
    | _, _ => .ok ⟨false, none, word :: words⟩

/-- Sends the signal that an option names, or the one that asks to end. -/
def kill (call : Call) (s : State) : State :=
  match call.killRequest with
  | .error complaint => call.fail s call.frame.variety.failureCode complaint
  | .ok request =>
    if request.isList && (request.signal.isNone || request.words = []) then
      call.signalList request.words s
    else if request.isList || request.words = [] then call.fail s 2 killUsage
    else call.sendAll (request.signal.getD 15) false request.words s

end SchemaGraph.Shell.Call
