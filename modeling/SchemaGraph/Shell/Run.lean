import SchemaGraph.Program.Header
import SchemaGraph.Shell.Invocation
/-!
# Running shell scripts

Commands take a state to the state that they leave. A program that a script calls is another script,
a shell, or one of the programs that every system has. What runs beside a script runs when it is
waited for, while the script sleeps, or after its end. Every nested step of a run takes one of
`fuel` steps, and a run that has none left does nothing more.
-/

namespace SchemaGraph.Shell

/-- The branch of a selection that runs, if there is one. -/
def selectBranch (x : Expander) (subject : String) :
    List (List Word × Script) → State → Option Script × State
  | [], s => (none, s)
  | (patterns, body) :: branches, s =>
    let (found, s) := patterns.foldl (fun (run : Bool × State) word =>
      if run.1 then run
      else
        let (pattern, s) := x.pattern word run.2
        (pattern.accepts subject.toList, s)) (false, s)
    if found then (some body, s) else selectBranch x subject branches s

/-- Shows a command before it runs, where the errors went before its redirections. -/
def showCommand (x : Expander) (before : State) (names words : List String) (s : State) : State :=
  if s.has 'x' then
    let sign := (s.values.get? "PS4").getD ""
    let (front, s) := x.text ((Source.quotedWord? x.frame.variety sign).getD []) s
    let text := String.join ((s.commandLines x.frame.variety names words).map fun line =>
      front ++ line ++ "\n")
    match before.descriptors.lookup 2 with
    | some number => { s with toSystem := s.toSystem.write number (Text.bytesOfByteText text) }
    | none => s
  else s

/-- The text of a file that is read as a part of a script. A name without a slash is looked up. -/
def readScript (s : State) (path : String) : Except SystemError (String × String) :=
  let text (path : String) : Except SystemError (String × String) :=
    match s.tree.readFile (Text.ofByteText path) with
    | .ok content => .ok (path, Text.byteText content.bytes)
    | .error .isDirectory => .ok (path, "")
    | .error e => .error e
  if path.toList.contains '/' then text path
  else
    let directories := Text.split (· == ':') ((s.values.get? "PATH").getD "")
    let paths := directories.map fun d => if d = "" then path else d ++ "/" ++ path
    match paths.find? fun path => s.tree.isFile (Text.ofByteText path) with
    | some path => text path
    | none => .error .notFound

mutual

/-- Runs a command of any kind. -/
def runScript : (fuel : Nat) → Frame → Script → State → State
  | 0, _, _, s => s
  | fuel + 1, frame, script, s =>
    let x : Expander := ⟨outputOf fuel frame, frame, .fields⟩
    let tested : Frame := { frame with isTested := true }
    let looping : Frame := { frame with loops := frame.loops + 1 }
    let settle (s : State) : State := (runTraps fuel frame s).checkFailure frame.isTested
    if !s.isRunning || s.has 'n' then s
    else
      match script with
      | .nothing => { s with status := 0 }
      | .simple assignments words redirects line =>
        settle (runSimple fuel frame assignments words redirects { s with line, outputStatus := 0 })
      | .sequence first .nothing => runScript fuel frame first s
      | .sequence first second => runScript fuel frame second (runScript fuel frame first s)
      | .both first second =>
        let s := runScript fuel tested first s
        if s.status = 0 then runScript fuel frame second s else s
      | .either first second =>
        let s := runScript fuel tested first s
        if s.status = 0 then s else runScript fuel frame second s
      | .negation body =>
        let s := runScript fuel tested body s
        if s.isRunning then { s with status := if s.status = 0 then 1 else 0 } else s
      | .pipe source target =>
        let (number, system) := s.toSystem.openFile (.pipe [] [])
        let piped := { s with toSystem := system }
        let on (descriptor : Nat) (s : State) : State :=
          { s with toProcess := s.toProcess.withDescriptor descriptor (some number) }
        let sent := runPart fuel frame source (on 1 piped.inSubshell)
        let sent := runJobs fuel (fun job => job.process.descriptors.any (·.2 == number)) sent
        let between := piped.afterChild frame sent
        let after := between.afterChild frame (runPart fuel frame target (on 0 between.inSubshell))
        let status :=
          if s.failsWithParts && after.status = 0 then between.status else after.status
        settle ({ after with status }.restoring s [])
      | .background body =>
        let child := s.inSubshell.openAt 0 .nowhere
        let process := { child.toProcess with traps := (2, "") :: (3, "") :: child.traps }
        let job : Job :=
          ⟨body.delay, process, s.tree.workingDirectory, { frame with isTested := false }, body⟩
        { s with
          toSystem := child.toSystem
          jobs := s.jobs ++ [job]
          latestJob := some child.number
          status := 0 }
      | .redirected body redirects line =>
        let s := { s with line }
        let descriptors := redirects.flatMap Redirect.descriptors
        match Redirect.openAll x redirects s with
        | (true, opened) => (runScript fuel frame body opened).restoring s descriptors
        | (false, failed) =>
          { failed with status := frame.variety.failureCode }.restoring s descriptors
            |>.checkFailure frame.isTested
      | .subshell body => settle (s.afterChild frame (runPart fuel frame body s.inSubshell))
      | .choose condition body otherwise =>
        let s := runScript fuel tested condition s
        if s.status = 0 then runScript fuel frame body s else runScript fuel frame otherwise s
      | .loop isUntil condition body => runLoop fuel looping isUntil condition body 0 s
      | .each name words body =>
        let (values, s) : List String × State :=
          match words with
          | some words => x.fields words s
          | none => (s.arguments, s)
        runEach fuel looping name body values { s with status := 0 }
      | .select subject branches =>
        let (text, s) := x.text subject s
        match selectBranch x text branches s with
        | (some body, s) => runScript fuel frame body s
        | (none, s) => { s with status := 0 }
      | .function name body => { s with functions := s.functions.insert name body, status := 0 }

/-- Runs a loop; `last` is the exit code of its latest run. -/
def runLoop : (fuel : Nat) → Frame → (isUntil : Bool) → (condition body : Script) →
    (last : Nat) → State → State
  | 0, _, _, _, _, _, s => s
  | fuel + 1, frame, isUntil, condition, body, last, s =>
    let s := runScript fuel { frame with isTested := true } condition s
    if !s.isRunning then
      match s.afterBody with
      | (true, s) => runLoop fuel frame isUntil condition body last s
      | (false, s) => s
    else if (s.status = 0) = isUntil then { s with status := last }
    else
      match (runScript fuel frame body s).afterBody with
      | (true, s) => runLoop fuel frame isUntil condition body s.status s
      | (false, s) => s

/-- Runs a command for each of several values of a variable. -/
def runEach : (fuel : Nat) → Frame → (name : String) → (body : Script) →
    (values : List String) → State → State
  | 0, _, _, _, _, s => s
  | _, _, _, _, [], s => s
  | fuel + 1, frame, name, body, value :: values, s =>
    match (runScript fuel frame body (s.assign frame name value)).afterBody with
    | (true, s) => runEach fuel frame name body values s
    | (false, s) => s

/-- Runs a part of a script up to the end of its process. -/
def runPart : (fuel : Nat) → Frame → Script → State → State
  | 0, _, _, s => s
  | fuel + 1, frame, body, s =>
    let isLast := s.traps.all (·.2 = "") && body matches .simple _ _ _ _
    runAtEnd fuel frame (runScript fuel { frame with isLast } body s)

/-- What commands write, without the line ends at its end. -/
def outputOf : (fuel : Nat) → Frame → Script → State → String × State
  | 0, _, _, s => ("", s)
  | fuel + 1, frame, body, s =>
    let (number, system) := s.toSystem.openFile (.pipe [] [])
    let piped := { s with toSystem := system }
    let child := piped.inSubshell
    let child := { child with toProcess := child.toProcess.withDescriptor 1 (some number) }
    let after := runPart fuel { frame with isTested := false } body child
    let after := runJobs fuel (fun job => job.process.descriptors.any (·.2 == number)) after
    let bytes := (after.toSystem.readable number).filter (· != 0)
    let text := (Text.byteText bytes).toList.reverse.dropWhile (· == '\n')
    let back := piped.afterChild frame after
    (String.ofList text.reverse,
      { back with status := s.status, outputStatus := back.status }.restoring s [])

/-- Runs a simple command. What it assigns stays only when it has no words or is special. -/
def runSimple : (fuel : Nat) → Frame → (assignments : List (String × Word)) →
    (words : List Word) → (redirects : List Redirect) → State → State
  | 0, _, _, _, _, s => s
  | fuel + 1, frame, assignments, words, redirects, s =>
    let x : Expander := ⟨outputOf fuel frame, frame, .fields⟩
    let (words, s) := x.commandWords words s
    let isSpecial := words.head?.any specialCommands.contains
    let descriptors := redirects.flatMap Redirect.descriptors
    if !s.isRunning then s
    else
      match Redirect.openAll x redirects s with
      | (false, failed) =>
        let failed := failed.restoring s descriptors
        if !failed.isRunning then failed
        else if isSpecial && frame.variety = .plain then failed.refuse frame.variety.failureCode
        else { failed with status := frame.variety.failureCode }
      | (true, opened) =>
        let names := assignments.map (·.1)
        let assigned := x.assignAll assignments opened
        if !assigned.isRunning then assigned.restoring s descriptors
        else
          let shown := showCommand x s names words assigned
          match words with
          | [] => { shown with status := shown.outputStatus }.restoring s descriptors
          | ["exec"] | ["command", "exec"] | ["exec", "--"] => { shown with status := 0 }
          | name :: arguments =>
            let exports := !isSpecial || name = "exec"
            let given := { shown with exported := if exports then names ++ shown.exported
              else shown.exported }
            let after := runWords fuel frame true name arguments given
            let kept := if isSpecial then after else after.withVariablesOf s names
            kept.restoring s descriptors

/-- Runs a command by its words. Without `isOpen` its name is not that of a function, and errors end
no script. -/
def runWords : (fuel : Nat) → Frame → (isOpen : Bool) → (name : String) →
    (arguments : List String) → State → State
  | 0, _, _, _, _, s => s
  | fuel + 1, frame, isOpen, name, arguments, s =>
    let isFatal := isOpen && specialCommands.contains name
    let call : Call := ⟨frame, name, arguments, isFatal⟩
    let spare (s : State) : State := if isFatal then s else s.pardoned
    if !s.isRunning then s
    else
      match (if isOpen then s.functions.get? name else none) with
      | some body =>
        let inner := { s with arguments, hidden := [], optionPlace := 1, lettersTaken := 0 }
        let within : Frame := { frame with loops := 0, isFunction := true, isLast := false }
        let after := runScript fuel within body inner
        let restored := after.hidden.foldl (fun s hidden => s.restore hidden.1 hidden.2) after
        { restored.resuming with
          arguments := s.arguments
          hidden := s.hidden
          optionPlace := s.optionPlace
          lettersTaken := s.lettersTaken }
      | none =>
        if name = "eval" then
          let within : Frame := { frame with reader := name, isLast := false }
          spare (runText fuel within (String.intercalate " " arguments) s)
        else if name = "exec" then
          match (if arguments.head? = some "--" then arguments.tail else arguments) with
          | [] => { s with status := 0 }
          | name :: arguments =>
            match startWords fuel (name :: arguments) s with
            | .ok after =>
              { s.afterProcess after with outcome := .ended after.exitStatus, traps := [] }
            | .error e => complainOf fuel frame true name e s
        else if name = "command" then
          match arguments with
          | [] | ["--"] => { s with status := 0 }
          | word :: words =>
            if word = "-v" ∨ word = "-V" then
              match words with
              | [] => { s with status := 0 }
              | name :: _ =>
                if word = "-v" then State.nameMeaning call { s with status := 0 } name
                else State.describe call { s with status := 0 } name
            else if word = "-p" then
              match words with
              | [] => { s with status := 0 }
              | name :: arguments =>
                let s' := { s with values := s.values.insert "PATH" Process.standardPath }
                (runWords fuel frame false name arguments s').withVariablesOf s ["PATH"]
            else if word = "--" then runWords fuel frame false (words.headD "") words.tail s
            else
              match word.toList with
              | '-' :: letter :: _ =>
                call.failHard s ("Illegal option -" ++ String.singleton letter)
              | _ => runWords fuel frame false word words s
        else if name = "." ∨ (name = "source" ∧ frame.variety = .extended) then
          match arguments with
          | [] => { s with status := 0 }
          | path :: _ =>
            match readScript s path, frame.variety with
            | .ok (path, text), _ =>
              let within : Frame := { frame with reader := path, isLast := false }
              spare (runText fuel within text s).resuming
            | .error e, .extended => call.fail s 1 (path ++ ": " ++ e.reason)
            | .error e, .plain =>
              call.failHard s (
                if path.toList.contains '/' then
                  "cannot open " ++ path ++ ": " ++ openReason false e
                else path ++ ": not found")
        else if name = "type" then
          arguments.foldl (State.describe call) { s with status := 0 }
        else if name = "hash" then State.hash call s
        else if name = "wait" then
          let s := arguments.foldl (fun s word => waitFor fuel call word s)
            (if arguments = [] then
              { runJobs fuel (·.process.ancestors.head? == some s.number) s with status := 0 }
            else s)
          match s.sent.find? fun sent => sent.1 == s.number &&
              ((s.traps.lookup sent.2).getD "") ≠ "" with
          | some sent => { s with status := 128 + sent.2 }
          | none => s
        else
          match call.run? s with
          | some s => spare s
          | none => runProgram fuel frame name arguments s

/-- Complains that a program could not be run. -/
def complainOf : (fuel : Nat) → Frame → (isLast : Bool) → (name : String) → SystemError → State →
    State
  | 0, _, _, _, _, s => s
  | _ + 1, frame, isLast, name, e, s =>
    let isPath := name.toList.contains '/'
    let isMissing := e = .notFound ∨ e = .notDirectory
    let reason :=
      if isMissing then
        if frame.variety = .plain then "not found"
        else if isPath then e.reason
        else "command not found"
      else if frame.variety = .extended && s.tree.isDirectory (Text.ofByteText name) then
        SystemError.isDirectory.reason
      else e.reason
    let status := if isMissing || (!isPath && !isLast) then 127 else 126
    let s := s.complain frame ((if isLast then "exec: " else "") ++ name ++ ": " ++ reason)
    if isLast then s.finish status else { s with status }

/-- Runs a program that a script calls. -/
def runProgram : (fuel : Nat) → Frame → (name : String) → (arguments : List String) →
    State → State
  | 0, _, _, _, s => s
  | fuel + 1, frame, name, arguments, s =>
    let s := s.track name
    let s :=
      if name = "sleep" then
        let time := ((arguments.filterMap Utility.milliseconds?).foldl (· + ·) 0)
        let after := runJobs fuel (·.delay ≤ time) s
        { after with jobs := after.jobs.map fun job => { job with delay := job.delay - time } }
      else s
    match startWords fuel (name :: arguments) (if frame.isLast then s else s.fork) with
    | .ok after =>
      if frame.isLast then { s.afterProcess after with outcome := .ended after.exitStatus }
      else s.afterChild frame after
    | .error e => complainOf fuel frame false name e s

/-- Waits for the process or the job that a word names, and has its exit code. -/
def waitFor : (fuel : Nat) → Call → (word : String) → State → State
  | 0, _, _, s => s
  | fuel + 1, call, word, s =>
    let number? : Except String Nat :=
      match word.toList with
      | '%' :: place =>
        match Call.jobAtPlace? s place with
        | .ok job => .ok job.process.number
        | .error complaint => .error complaint
      | _ =>
        match Call.natural? word with
        | some number => .ok number
        | none => .error ("Illegal number: " ++ word)
    match number? with
    | .error complaint => call.fail s 2 complaint
    | .ok number =>
      let s :=
        match Call.jobOf? s number with
        | some job => runJobs fuel (fun other =>
            other.process.number == number || other.delay < job.delay) s
        | none => s
      match s.finished.lookup number with
      | some status =>
        let code := State.codeOf status
        let others := s.finished.filter (·.1 != number)
        { s.sayEnd call.frame.variety status with
          status := code
          finished := (number, .code code) :: others }
      | none => { s with status := 127 }

/-- Runs jobs that are chosen, one after the other; one that sleeps longer comes later. -/
def runJobs : (fuel : Nat) → (chosen : Job → Bool) → State → State
  | 0, _, s => s
  | fuel + 1, chosen, s =>
    let first? := (s.jobs.filter chosen).foldl (fun (best : Option Job) job =>
      match best with
      | some other => if job.delay < other.delay then some job else best
      | none => some job) none
    match first? with
    | none => s
    | some job =>
      let number := job.process.number
      let inner : State :=
        { toSystem := s.toSystem.inDirectory job.directory
          toProcess := job.process
          jobs := s.jobs.filter (·.process.number != number) }
      let after := runPart fuel job.frame job.body inner
      runJobs fuel chosen
        { s with
          toSystem := after.toSystem.inDirectory s.tree.workingDirectory
          jobs := after.jobs
          finished := (number, after.exitStatus) :: s.finished }

/-- Does what is to be done when signals come that are on their way to the process. -/
def runTraps : (fuel : Nat) → Frame → State → State
  | 0, _, s => s
  | fuel + 1, frame, s =>
    let mine := (s.sent.filter (·.1 == s.number)).map (·.2)
    match mine with
    | [] => s
    | first :: rest =>
      if !s.isRunning then s
      else
        let signal := rest.foldl min first
        let s := { s with sent := s.sent.filter (· != (s.number, signal)) }
        let next : State → State := runTraps fuel frame
        let action? :=
          if !Signal.canBeIgnored signal then none
          else if s.ignored.contains signal then some ""
          else s.traps.lookup signal
        match action? with
        | some "" => next s
        | some action =>
          let quiet : Frame := { frame with isTested := false, reader := "", isLast := false }
          let after := runText fuel quiet action { s with trapStatus := some s.status }
          let after := { after with trapStatus := s.trapStatus }
          next (if after.isRunning then { after with status := s.status } else after)
        | none =>
          if signal ∈ Signal.harmless then next s
          else { s with outcome := .ended (.signal signal) }

/-- Runs the commands that were kept for the end of a script. The exit code stays unless they end
the script themselves. -/
def runAtEnd : (fuel : Nat) → Frame → State → State
  | 0, _, s => s
  | fuel + 1, frame, s =>
    let s := s.ending
    match s.outcome, s.traps.lookup 0 with
    | .ended (.code code), some action =>
      let quiet : Frame :=
        { frame with isTested := false, reader := "", isLast := false, loops := 0 }
      let after := runText fuel quiet action
        { s with
          traps := s.traps.filter (·.1 != 0)
          outcome := .running
          trapStatus := some code }
      match after.outcome with
      | .ended _ | .refused => after.ending
      | _ => after.finish code
    | _, _ => s

/-- Runs the commands of a text. -/
def runText : (fuel : Nat) → Frame → (text : String) → State → State
  | 0, _, _, s => s
  | fuel + 1, frame, text, s =>
    { runSource fuel frame true (.ofText frame.variety text) s with linesRead := s.linesRead }

/-- Runs the commands of what is left of a text, line by line. -/
def runSource : (fuel : Nat) → Frame → (isFirst : Bool) → Source → State → State
  | 0, _, _, _, s => s
  | fuel + 1, frame, isFirst, source, s =>
    let showing (rest : List Char) : State :=
      let text := source.chars.take (source.chars.length - rest.length)
      if s.has 'v' then s.put 2 (String.ofList text) else s
    match { source with aliases := s.aliases.entries }.next with
    | .error e =>
      ({ s with line := e.line }.complain frame ("Syntax error: " ++ e.message)).refuse 2
    | .ok (none, rest) =>
      let s := showing rest.chars
      if isFirst then { s with status := 0 } else s
    | .ok (some script, rest) =>
      let s := { showing rest.chars with linesRead := rest.line }
      let s := if s.has 'n' then s else runScript fuel frame script s
      if s.isRunning then runSource fuel frame false rest s else s

/-- Runs the program that words name in place of the present process. A text that does not say which
program reads it is the script of a plain shell. -/
def startWords : (fuel : Nat) → (words : List String) → State → Except SystemError State
  | 0, _, _ => .error .linkLoop
  | _, [], _ => .error .notFound
  | fuel + 1, name :: arguments, s =>
    match s.lookUp name with
    | .missing => .error .notFound
    | .denied =>
      match s.tree.stat (Text.ofByteText name) with
      | .ok _ => .error .permissionDenied
      | .error e => .error (if name.toList.contains '/' then e else .permissionDenied)
    | .found path =>
      match startPath fuel 0 name path arguments s with
      | .error .badProgram =>
        let bytes := ((s.tree.readFile (Text.ofByteText path)).toOption.map (·.bytes)).getD []
        if isBinary bytes then .error .badProgram
        else .ok (runShell fuel .plain path [path] (path :: arguments) s)
      | started => started

/-- Runs the program that a path leads to. The interpreter of a script is a program again; `depth`
is how many scripts have been passed. -/
def startPath : (fuel depth : Nat) → (called path : String) → (arguments : List String) →
    State → Except SystemError State
  | 0, _, _, _, _, _ => .error .linkLoop
  | fuel + 1, depth, called, path, arguments, s =>
    match systemProgram? path with
    | some name => .ok (runSystem fuel called name arguments s)
    | none =>
      match s.tree.stat (Text.ofByteText path) with
      | .error e => .error e
      | .ok (.file content executable) =>
        if !executable then .error .permissionDenied
        else
          match ProgramHeader.read? (Text.ofBytes content.bytes) with
          | none => .error .badProgram
          | some header =>
            let interpreter := Text.toByteText header.interpreter
            if interpreterLimit ≤ depth then .error .linkLoop
            else
              startPath fuel (depth + 1) interpreter interpreter
                ((header.argument.map Text.toByteText).toList ++ path :: arguments) s
      | .ok _ => .error .permissionDenied

/-- Runs a program that every system has, which was called by some word. -/
def runSystem : (fuel : Nat) → (called name : String) → (arguments : List String) → State → State
  | 0, _, _, _, s => s
  | fuel + 1, called, name, arguments, s =>
    match shells.lookup name, Launcher.all.lookup name, Utility.all.lookup name with
    | some variety, _, _ => runShell fuel variety called [] arguments s
    | none, some launcher, _ => launcher ⟨called, arguments, placesOf, startWords fuel⟩ s
    | none, none, some utility => s.runUtility called utility arguments
    | none, none, none => s

/-- Runs a shell with words, of which those in `fixed` are no options. -/
def runShell : (fuel : Nat) → Variety → (called : String) → (fixed : List String) →
    (words : List String) → State → State
  | 0, _, _, _, _, s => s
  | fuel + 1, variety, called, fixed, words, s =>
    let fail (status : Nat) (complaint : String) : State :=
      (s.put 2 (called ++ ": 0: " ++ complaint ++ "\n")).finish status
    let run (name text : String) (o : ShellOptions) (arguments : List String) (s : State) : State :=
      let frame := Frame.ofScript name variety
      let start := s.asProgram arguments
      let start := o.apply ⟨frame, "set", [], true⟩ start
      runAtEnd fuel frame (runText fuel frame text start)
    match (if fixed = [] then ShellOptions.read words else .ok ⟨[], words⟩) with
    | .error complaint => fail 2 complaint
    | .ok o =>
      match o.switches.findSome? fun switch => switch.2.2.filter fun name =>
          variety = .plain && (Call.optionNames.lookup name).isNone with
      | some name => fail 2 ("Illegal option -o " ++ name)
      | none =>
        let input (_ : Unit) : State :=
          let bytes := s.readable 0
          run called (Text.byteText bytes) o o.words (s.skip 0 bytes.length)
        match o.words with
        | [] => if o.has 'c' then fail 2 "-c requires an argument" else input ()
        | first :: rest =>
          if o.has 'c' then run (rest.headD called) first o rest.tail s
          else if o.has 's' then input ()
          else
            match s.tree.readFile (Text.ofByteText first), variety with
            | .ok content, _ => run first (Text.byteText content.bytes) o rest s
            | .error .isDirectory, .plain => s.finish 0
            | .error e, .plain => fail 2 ("cannot open " ++ first ++ ": " ++ openReason false e)
            | .error e, .extended =>
              (s.put 2 (called ++ ": " ++ first ++ ": " ++ e.reason ++ "\n")).finish
                (if e = .notFound then 127 else 126)

end

end SchemaGraph.Shell
