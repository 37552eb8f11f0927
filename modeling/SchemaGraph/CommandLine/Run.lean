import SchemaGraph.CommandLine.Arguments
import SchemaGraph.Log
import SchemaGraph.Program.Run
import SchemaGraph.Settings.File
/-!
# Running a command line

`runCommandLine` takes the arguments and the file tree of a process and answers what the process
does: its exit code, what it writes, and the tree it leaves. Images are drawn by the programs of a
usual system.
-/

namespace SchemaGraph

/-- What a finished process leaves. -/
structure ProcessResult where
  exitCode : Nat
  output : String
  errorOutput : String
  tree : FileTree

/-- The settings with the given toggles. -/
def Toggles.apply (toggles : Toggles) (s : Settings) : Settings :=
  { s with
    allowMissingImports :=
      (s.allowMissingImports || toggles.allowMissingImports) && !toggles.strictImports
    showMissingTypes :=
      (s.showMissingTypes || toggles.showMissingTypes) && !toggles.hideMissingTypes }

namespace CommandLine

/-- A text as one line of output. -/
def lineOf (text : String) : String :=
  text ++ "\n"

/-- The statistics of a root as JSON. -/
def statisticsJson (s : Statistics) : String :=
  Settings.writeItems '\x7b' '\x7d' 0
    [Settings.writeMember "entity_count" (toString s.entityCount),
      Settings.writeMember "edge_count" (toString s.edgeCount),
      Settings.writeMember "file_count" (toString s.fileCount),
      Settings.writeMember "missing_file_count" (toString s.missingFileCount),
      Settings.writeMember "entities_by_kind"
        (Settings.writeItems '\x7b' '\x7d' 2
          (s.entitiesByKind.entries.map fun e => Settings.writeMember e.1 (toString e.2))),
      Settings.writeMember "unresolved_count" (toString s.unresolvedCount),
      Settings.writeMember "unsupported_count" (toString s.unsupportedCount),
      Settings.writeMember "unreferenced_types" (Settings.writeTexts s.unreferencedTypes)]

/-- The statistics of a root for readers. -/
def statisticsText (root : String) (s : Statistics) : String :=
  let counts :=
    ["protograph stats for " ++ root,
      "  Files:       " ++ toString s.fileCount,
      "  Missing:     " ++ toString s.missingFileCount,
      "  Entities:    " ++ toString s.entityCount,
      "  Edges:       " ++ toString s.edgeCount,
      "  Placeholders: " ++ toString s.unresolvedCount,
      "  Unsupported: " ++ toString s.unsupportedCount]
  let unreferenced :=
    if s.unreferencedTypes.isEmpty then []
    else "\n  Unreferenced types:" :: s.unreferencedTypes.map fun name => "    " ++ name
  let kinds :=
    if s.entitiesByKind.entries.isEmpty then []
    else
      "\n  Entities by kind:" ::
        s.entitiesByKind.entries.map fun e => "    " ++ e.1 ++ ": " ++ toString e.2
  String.join ((counts ++ unreferenced ++ kinds).map lineOf)

/-- The result of a process that fails with a message. -/
def failed (t : FileTree) (message : String) : ProcessResult :=
  ⟨1, "", lineOf ("Error: " ++ message), t⟩

/-- Runs a batch: one line for each root, on one of the two outputs. -/
def runBatchCommand (t : FileTree) (settings : Settings) (selection output : Option String)
    (input : String) : ProcessResult :=
  match t.runBatch settings selection output input with
  | (.error e, t) => failed t e.message
  | (.ok results, t) =>
    let done := results.filterMap fun
      | (root, .ok path) => some (lineOf (Text.firstLine root ++ " -> " ++ path))
      | _ => none
    let failures := results.filterMap fun
      | (root, .error e) => some (lineOf ("Failed " ++ Text.firstLine root ++ ": " ++ e.message))
      | _ => none
    ⟨if failures.isEmpty then 0 else 1, String.join done, String.join failures, t⟩

/-- The settings of a run with its toggles. -/
def settingsOf (t : FileTree) (path : String) (toggles : Toggles) :
    Except SettingsError Settings :=
  (Settings.load t path).map toggles.apply

/-- What a command works on: a batch or a single root, with its settings. -/
inductive Job where
  | batch (settings : Settings) (selection output : Option String) (input : String)
  | stats (settings : Settings) (path : String) (json : Bool)
  | init (path : String) (force : Bool)

/-- The job of a command, with the settings that it reads. -/
def jobOf (t : FileTree) (settingsPath : String) : Command → Except SettingsError Job
  | .render input selection output svg png toggles => do
    let s ← settingsOf t settingsPath toggles
    let s := { s with
      generateSvg := s.generateSvg || svg
      generatePng := s.generatePng || png }
    return .batch s selection output input
  | .imports input output svg toggles => do
    let s ← settingsOf t settingsPath toggles
    return .batch { s with generateSvg := s.generateSvg || svg } (some selectImports) output input
  | .stats path json toggles => do
    let s ← settingsOf t settingsPath toggles
    return .stats s path json
  | .init force => return .init settingsPath force

/-- Writes the standard settings to a path, where settings are replaced only if forced. -/
def runInit (t : FileTree) (path : String) (force : Bool) : ProcessResult :=
  if t.pathExists path && !force then failed t (SettingsError.alreadyExists path).message
  else
    match Settings.save t path .standard with
    | (.error e, t) => failed t e.message
    | (.ok (), t) => ⟨0, lineOf ("Wrote " ++ path), "", t⟩

/-- Runs a job. -/
def runJob (t : FileTree) : Job → ProcessResult
  | .batch settings selection output input => runBatchCommand t settings selection output input
  | .stats settings path json =>
    match t.openGraph settings path with
    | .error e => failed t e.message
    | .ok graph =>
      let s := graph.statistics
      ⟨0, if json then lineOf (statisticsJson s) else statisticsText graph.root s, "", t⟩
  | .init path force => runInit t path force

/-- The remarks on a job. -/
def jobRemarks (t : FileTree) : Job → List Remark
  | .batch settings selection output input => t.batchRemarks settings selection output input
  | .stats settings path _ => t.openRemarks settings path
  | .init _ _ => []

/-- The severity from which remarks are logged. -/
def thresholdOf (verbosity : Nat) : Severity :=
  if verbosity = 0 then .warning else .debug

/-- Runs a command. -/
def runInvocation (t : FileTree) (invocation : Invocation) : ProcessResult :=
  match jobOf t invocation.settingsPath invocation.command with
  | .error e => failed t e.message
  | .ok job => runJob t job

/-- The log of a command. -/
def logOf (t : FileTree) (invocation : Invocation) : String :=
  match jobOf t invocation.settingsPath invocation.command with
  | .error _ => ""
  | .ok job => logText (thresholdOf invocation.verbosity) (jobRemarks t job)

/-- Writes a log into the file that a path leads to, if there is anything to write and the file is
still there. -/
def keepLog (t : FileTree) (path log : String) : FileTree :=
  if log ≠ "" ∧ t.isFile path then (t.writeText path log).toOption.getD t else t

/-- Runs a command, and writes its log if it has one. The file of the log is there, and empty, when
the command starts; it stays so when logging is off. -/
def runLogged (isLogging : Bool) (t : FileTree) (invocation : Invocation) : ProcessResult :=
  match invocation.logPath with
  | none => runInvocation t invocation
  | some path =>
    match t.writeText path "" with
    | .error e => failed t (GraphError.system e).message
    | .ok t =>
      let result := runInvocation t invocation
      let log := if isLogging then logOf t invocation else ""
      { result with tree := keepLog result.tree path log }

end CommandLine

/-- Runs a command line in a tree. What surrounds the run can switch its log off. A misuse ends with
the exit code 2. -/
def runCommandLine (isLogging : Bool) (t : FileTree) (arguments : List String) : ProcessResult :=
  match Invocation.ofArguments? arguments with
  | none => ⟨2, "", CommandLine.lineOf "error: invalid arguments", t⟩
  | some invocation => CommandLine.runLogged isLogging t invocation

end SchemaGraph
