import SchemaGraph.Program.Signal
import SchemaGraph.Schema.Grammar
/-!
# Errors

Every failure is a cause with its details; `message` gives the one text of each cause. The narrow
types are those of single operations, `GraphError` is any of them.
-/

namespace SchemaGraph

/-- A refusal of the operating system, or of what stands before it. -/
inductive SystemError where
  | notFound | badProgram | permissionDenied | busy | fileExists | notDirectory | isDirectory
  /-- A directory was to be moved below itself. -/
  | invalidMove
  /-- A name, or a path as a whole, has too many bytes. -/
  | nameTooLong
  | directoryNotEmpty
  /-- Links, or the interpreters of scripts, lead from one to the next too often. -/
  | linkLoop
  /-- The bytes of a file are not a text. -/
  | notText
  /-- A path holds a NUL character. -/
  | nulInPath
  /-- The name of a program or one of its arguments holds a NUL character. -/
  | nulInArgument
  deriving DecidableEq, Repr

namespace SystemError

/-- What a system error says. -/
def reason : SystemError → String
  | notFound => "No such file or directory"
  | badProgram => "Exec format error"
  | permissionDenied => "Permission denied"
  | busy => "Device or resource busy"
  | fileExists => "File exists"
  | notDirectory => "Not a directory"
  | isDirectory => "Is a directory"
  | invalidMove => "Invalid argument"
  | nameTooLong => "File name too long"
  | directoryNotEmpty => "Directory not empty"
  | linkLoop => "Too many levels of symbolic links"
  | notText => "stream did not contain valid UTF-8"
  | nulInPath => "file name contained an unexpected NUL byte"
  | nulInArgument => "nul byte found in provided data"

/-- The number that the operating system gives to an error of its own. -/
def code? : SystemError → Option Nat
  | notFound => some 2
  | badProgram => some 8
  | permissionDenied => some 13
  | busy => some 16
  | fileExists => some 17
  | notDirectory => some 20
  | isDirectory => some 21
  | invalidMove => some 22
  | nameTooLong => some 36
  | directoryNotEmpty => some 39
  | linkLoop => some 40
  | notText | nulInPath | nulInArgument => none

/-- The text of a system error. -/
def message (e : SystemError) : String :=
  match e.code? with
  | some code => e.reason ++ " (os error " ++ toString code ++ ")"
  | none => e.reason

end SystemError

/-- Why a file pattern is malformed. -/
inductive PatternProblem where
  /-- More than two stars in a row. -/
  | tooManyStars
  /-- Two stars beside something other than a separator. -/
  | starsInComponent
  /-- A range of characters that is not closed. -/
  | badRange
  deriving DecidableEq, Repr

/-- The text of a problem with a file pattern. -/
def PatternProblem.message : PatternProblem → String
  | tooManyStars => "wildcards are either regular `*` or recursive `**`"
  | starsInComponent => "recursive wildcards must form a single path component"
  | badRange => "invalid range pattern"

/-- A malformed file pattern, with the number of characters before the problem. -/
structure PatternError where
  position : Nat
  problem : PatternProblem
  deriving DecidableEq, Repr

/-- The text of a pattern error. -/
def PatternError.message (e : PatternError) : String :=
  "Pattern syntax error near position " ++ toString e.position ++ ": " ++ e.problem.message

/-- Why a file cannot be used. -/
inductive FileProblem where
  /-- No text is kept under this name. -/
  | unknownName
  /-- No candidate path is a file. -/
  | noCandidate
  | unreadable (cause : SystemError)
  | notAFile
  | unreadableList (cause : SystemError)
  | invalidPattern (cause : PatternError)
  | noMatch
  deriving DecidableEq, Repr

/-- The text of a problem with a file. -/
def FileProblem.message : FileProblem → String
  | unknownName => "not found"
  | noCandidate => "not found in root directory or import paths"
  | unreadable cause => "failed to read: " ++ cause.message
  | notAFile => "not a file"
  | unreadableList cause => "failed to read list: " ++ cause.message
  | invalidPattern cause => "invalid pattern: " ++ cause.message
  | noMatch => "pattern matched no files"

/-- A problem with the file at a path. -/
structure FileError where
  problem : FileProblem
  path : String
  deriving DecidableEq, Repr

/-- The text of a file error. -/
def FileError.message (e : FileError) : String :=
  "file error: " ++ e.problem.message ++ " (path: " ++ e.path ++ ")"

/-- The text of a refusal of a schema text. -/
def ParseError.message (e : ParseError) : String :=
  "parse error: " ++ e.complaint.message ++ " (path: " ++ e.path ++ ", line: Some(" ++
    toString e.line ++ "))"

/-- A declaration whose qualified name is taken; `source` is the unit of the entity that has it. -/
structure Duplicate where
  qualifiedName : String
  source : String
  deriving DecidableEq, Repr

/-- The text of a duplicate declaration. -/
def Duplicate.message (e : Duplicate) : String :=
  "duplicate declaration of '" ++ e.qualifiedName ++ "' (path: " ++ e.source ++ ")"

/-- Why a reference binds to nothing. -/
inductive BindingError where
  | unresolved (scope reference : String)
  | ambiguous (scope reference : String) (candidates : List String)
  deriving DecidableEq, Repr

/-- The text of a binding error. -/
def BindingError.message : BindingError → String
  | unresolved scope reference =>
    "unresolved type reference '" ++ reference ++ "' (scope: " ++ scope ++ ")"
  | ambiguous scope reference candidates =>
    "ambiguous type reference '" ++ reference ++ "' (scope: " ++ scope ++ ", candidates: " ++
      Text.quoteList candidates ++ ")"

/-- A fragment of a selection that matches no entity, or more than one. -/
structure SelectionError where
  fragment : String
  candidates : List String
  deriving DecidableEq, Repr

/-- The text of a selection error. -/
def SelectionError.message (e : SelectionError) : String :=
  "selection '" ++ e.fragment ++ "' must match exactly one entity, found " ++
    toString e.candidates.length ++ ": " ++ Text.quoteList e.candidates

/-- A construct that is recognised and not drawn. -/
inductive Construct where
  | extend (target : String)
  | group (name : String)
  deriving DecidableEq, Repr

/-- The text of a construct. -/
def Construct.text : Construct → String
  | extend target => "extend " ++ target
  | group name => "group " ++ name

/-- A construct that is not drawn, with the scope in which it stands. -/
structure Unsupported where
  construct : Construct
  scope : String
  deriving DecidableEq, Repr

/-- The text of an unsupported construct. -/
def Unsupported.message (e : Unsupported) : String :=
  "unsupported construct '" ++ e.construct.text ++ "' in " ++ e.scope

/-- Why an import walk ends early. -/
inductive WalkError where
  /-- The root, or an import that is not tolerated, cannot be loaded. -/
  | missingImport (name : String) (importer : Option String) (cause : FileError)
  | parse (cause : ParseError)
  deriving DecidableEq, Repr

/-- The text of a walk error. -/
def WalkError.message : WalkError → String
  | missingImport name importer cause =>
    "missing import '" ++ name ++ "' (imported by: " ++ Text.quoteOption importer ++ "): " ++
      cause.message
  | parse cause => cause.message

/-- Why no graph can be loaded. -/
inductive LoadError where
  | walk (cause : WalkError)
  | binding (cause : BindingError)
  deriving DecidableEq, Repr

/-- The text of a load error. -/
def LoadError.message : LoadError → String
  | walk cause => cause.message
  | binding cause => cause.message

/-- Why settings cannot be read or written. The detail of a failure is not kept. -/
inductive SettingsError where
  | unreadable (path : String)
  | malformed (path : String)
  | noDirectory (path : String)
  | unwritable (path : String)
  | irreplaceable (path : String)
  | alreadyExists (path : String)
  deriving DecidableEq, Repr

/-- The text of a settings error. -/
def SettingsError.message : SettingsError → String
  | unreadable path => "config error: cannot read " ++ path
  | malformed path => "config error: cannot parse " ++ path
  | noDirectory path => "config error: cannot create directory " ++ path
  | unwritable path => "config error: cannot write " ++ path
  | irreplaceable path => "config error: cannot replace " ++ path
  | alreadyExists path =>
    "config error: '" ++ path ++ "' already exists (use --force to overwrite)"

/-- How a program ended that did not succeed. -/
inductive ExitStatus where
  | code (code : Nat)
  | signal (number : Nat)
  deriving DecidableEq, Repr

/-- The text of an exit status. -/
def ExitStatus.text : ExitStatus → String
  | .code n => "exit status: " ++ toString n
  | .signal n =>
    "signal: " ++ toString n ++
      match Signal.names.lookup n with
      | some name => " (" ++ name ++ ")"
      | none => ""

/-- Why no image is drawn. -/
inductive DrawingError where
  | notStarted (command : String) (cause : SystemError)
  /-- The drawing program failed; `output` is what it wrote as its errors, trimmed. -/
  | failed (command : String) (status : ExitStatus) (output : String)
  deriving DecidableEq, Repr

/-- The text of a drawing error. -/
def DrawingError.message : DrawingError → String
  | notStarted command cause =>
    "render error: failed to run '" ++ command ++ "': " ++ cause.message
  | failed command status output =>
    "render error: '" ++ command ++ "' exited with " ++ status.text ++ ": " ++ output

/-- Any failure. -/
inductive GraphError where
  | file (cause : FileError)
  | load (cause : LoadError)
  | selection (cause : SelectionError)
  | settings (cause : SettingsError)
  | drawing (cause : DrawingError)
  | system (cause : SystemError)
  deriving DecidableEq, Repr

/-- The text of a failure. -/
def GraphError.message : GraphError → String
  | file cause => cause.message
  | load cause => cause.message
  | selection cause => cause.message
  | settings cause => cause.message
  | drawing cause => cause.message
  | system cause => "io error: " ++ cause.message

end SchemaGraph
