import SchemaGraph.Shell.Editor.Basic
import SchemaGraph.Shell.Utility.Basic
/-!
# Files and lines of the line editor

A session goes through the lines of some files. It knows the lines that are left, the two spaces and
what has been written. A line knows whether it has its end: the last one of a file may lack it, and
what is written after such a line starts on a line of its own.
-/

namespace SchemaGraph.Shell.Editor

/-- A line without its end, and whether it has one. -/
structure Line where
  text : List Char
  isEnded : Bool

/-- What is shown after the present line. -/
inductive Appended where
  | text (cs : List Char)
  | file (name : String)

/-- How files are edited. -/
structure Setting where
  isQuiet : Bool
  /-- Whether every file has lines of its own. -/
  isSeparate : Bool
  /-- When files are changed in their places: what their copies are called, which is empty if there
  are none. -/
  inPlace? : Option String
  lineEnd : Char
  /-- The width of rows in which lines are listed. -/
  width : Nat
  /-- What can be read. -/
  input : List Char

/-- The state of an editor. -/
structure Session where
  tree : FileTree
  /-- What has been written, the latest piece first. -/
  output : List (List Char)
  /-- What has been written for the present file in its place, the latest piece first. -/
  edited : List (List Char)
  errors : List (List Char)
  /-- The places in which the latest line lacks its end. -/
  unended : List Sink
  status : Nat
  /-- Whether an error has ended the program. -/
  isStopped : Bool
  /-- The file that is edited, while it is. -/
  name? : Option String
  /-- The file that was opened last. -/
  latestName : String
  /-- The lines of the present file that are left. -/
  lines : List Line
  /-- The files that are left. -/
  names : List String
  /-- What is left of files from which single lines are taken. -/
  sources : List (String × List Line)
  number : Nat
  space : Line
  holdSpace : Line
  hasChanged : Bool
  latest? : Option (Regex × MatchMode)
  /-- The commands whose ranges have begun, each with the last line of the range if its number is
  known. -/
  ranges : List (Nat × Option Nat)
  appended : List Appended

namespace Session

/-- The lines of a text. -/
def linesOf (lineEnd : Char) (text : List Char) : List Line :=
  let pieces := Text.splitAt (· == lineEnd) text
  pieces.dropLast.map (⟨·, true⟩) ++
    ((pieces.getLast?.filter (· ≠ [])).map (⟨·, false⟩)).toList

/-- The text of a line with its end. -/
def textOf (setting : Setting) (line : Line) : List Char :=
  line.text ++ if line.isEnded then [setting.lineEnd] else []

/-- Adds a complaint. -/
def complain (s : Session) (status : Nat) (complaint : String) : Session :=
  { s with
    errors := ("sed: " ++ complaint ++ "\n").toList :: s.errors
    status := max s.status status }

/-- Ends the program with a complaint. -/
def stop (s : Session) (complaint : String) : Session :=
  { s.complain 4 complaint with isStopped := true }

/-! ## Writing -/

/-- Writes characters. -/
def emit (s : Session) (sink : Sink) (text : List Char) : Session :=
  match sink with
  | .output => { s with output := text :: s.output }
  | .errors => { s with errors := text :: s.errors }
  | .file name =>
    let old := ((s.tree.readFile (Request.path name)).toOption.map Request.charsOf).getD []
    match Utility.writeFile s.tree name (old ++ text) with
    | .ok tree => { s with tree }
    | .error _ => s

/-- Writes characters where the edited lines go. -/
def emitEdited (s : Session) (setting : Setting) (text : List Char) : Session :=
  if setting.inPlace?.isSome then { s with edited := text :: s.edited } else s.emit .output text

/-- Ends the latest line in a place if it lacks its end. -/
def completing (s : Session) (setting : Setting) (sink : Sink)
    (emit : Session → List Char → Session) : Session :=
  if s.unended.contains sink then
    emit { s with unended := s.unended.filter (· != sink) } [setting.lineEnd]
  else s

/-- Writes a line to a sink. -/
def writeLine (s : Session) (setting : Setting) (sink : Sink) (line : Line) : Session :=
  let s := s.completing setting sink fun s text => s.emit sink text
  let s := s.emit sink (textOf setting line)
  if line.isEnded then s else { s with unended := sink :: s.unended }

/-- Shows a text where the edited lines go. -/
def showText (s : Session) (setting : Setting) (text : List Char) : Session :=
  (s.completing setting .output fun s text => s.emitEdited setting text).emitEdited setting text

/-- Shows a line where the edited lines go. -/
def showLine (s : Session) (setting : Setting) (line : Line) : Session :=
  let s := s.showText setting (textOf setting line)
  if line.isEnded then s else { s with unended := .output :: s.unended }

/-- Shows what has been put behind the present line. -/
def flush (s : Session) (setting : Setting) : Session :=
  s.appended.foldl (fun s item =>
    match item with
    | .text cs => s.showText setting cs
    | .file name =>
      if name = "/dev/stdin" then s.showText setting setting.input
      else
        match s.tree.readFile (Request.path name) with
        | .ok content =>
          if content.bytes = [] then s else s.showText setting (Request.charsOf content)
        | .error .isDirectory => s.stop ("read error on " ++ name ++ ": Is a directory")
        | .error _ => s) { s with appended := [] }

/-! ## Files -/

/-- The name of the copy of a file. -/
def copyName (suffix name : String) : String :=
  let base := Utility.baseName name
  let renamed :=
    if suffix.toList.contains '*' then
      String.ofList (suffix.toList.flatMap fun c => if c = '*' then base.toList else [c])
    else base ++ suffix
  if renamed.toList.contains '/' || !name.toList.contains '/' then renamed
  else Utility.inDirectory (Utility.directoryName name) renamed

/-- Ends the present file. If it is changed in its place, its copy gets the old text and the file
the new one. -/
def close (s : Session) (setting : Setting) : Session :=
  match s.name?, setting.inPlace? with
  | some name, some suffix =>
    let s := { s with name? := none, lines := [] }
    let changed : Except SystemError FileTree := do
      let location ← s.tree.locateEntry (Request.path name)
      let entry ← s.tree.stat (Request.path name)
      let tree ←
        if suffix = "" then pure s.tree
        else s.tree.rename (Request.path name) (Request.path (copyName suffix name))
      let content := Request.contentOf s.edited.reverse.flatten
      return tree.put location (match entry with
        | .file _ isExecutable => .file content isExecutable
        | _ => .file content false)
    match changed with
    | .ok tree => { s with tree, edited := [], unended := s.unended.filter (· != .output) }
    | .error e => s.stop ("cannot rename " ++ name ++ ": " ++ e.reason)
  | _, _ => { s with name? := none, lines := [] }

/-- Opens a file; complains if this fails. -/
def openFile (s : Session) (setting : Setting) (name : String) : Session :=
  if name = "-" && setting.inPlace?.isNone then
    { s with
      name? := some name, latestName := name, lines := linesOf setting.lineEnd setting.input }
  else
    match s.tree.readFile (Request.path name) with
    | .ok content =>
      { s with
        name? := some name
        latestName := name
        lines := linesOf setting.lineEnd (Request.charsOf content) }
    | .error .isDirectory =>
      if setting.inPlace?.isSome then
        s.stop ("couldn't edit " ++ name ++ ": not a regular file")
      else s.stop ("read error on " ++ name ++ ": Is a directory")
    | .error e => s.complain 2 ("can't read " ++ name ++ ": " ++ e.reason)

/-- Opens files, until there is one that has lines. -/
def openNext (setting : Setting) : List String → Session → Session
  | [], s => { (s.close setting) with names := [] }
  | name :: names, s =>
    let s := s.close setting
    if s.isStopped then s
    else
      let s := s.openFile setting name
      if s.isStopped then s
      else if s.lines = [] then openNext setting names s
      else
        if setting.isSeparate then
          { s with names, number := 0, ranges := [], holdSpace := ⟨[], true⟩ }
        else { s with names }

/-- The session in which the next line can be taken, if there is one. -/
def prepared (s : Session) (setting : Setting) : Session :=
  if s.lines = [] then openNext setting s.names s else s

/-- Whether there is no line after the present one, and the session in which this is known. -/
def isAtEnd (s : Session) (setting : Setting) : Bool × Session :=
  if s.lines ≠ [] then (false, s)
  else if setting.isSeparate then (true, s)
  else
    let s := s.prepared setting
    (s.lines = [], s)

/-- Takes the next line; none if there is none. -/
def take (s : Session) (setting : Setting) : Option Line × Session :=
  let s := (s.flush setting).prepared setting
  if s.isStopped then (none, s)
  else
    match s.lines with
    | [] => (none, s)
    | line :: lines =>
      (some line, { s with lines, number := s.number + 1, hasChanged := false })

/-- Takes a line of a file from which single lines are taken. -/
def takeFrom (s : Session) (setting : Setting) (name : String) : Option Line × Session :=
  let left : Except SystemError (List Line) :=
    match s.sources.lookup name with
    | some lines => .ok lines
    | none =>
      if name = "/dev/stdin" then .ok (linesOf setting.lineEnd setting.input)
      else
        (s.tree.readFile (Request.path name)).map fun content =>
          linesOf setting.lineEnd (Request.charsOf content)
  match left with
  | .ok [] => (none, s)
  | .ok (line :: lines) => (some line, { s with sources := (name, lines) :: s.sources })
  | .error .isDirectory => (none, s.stop ("read error on " ++ name ++ ": Is a directory"))
  | .error _ => (none, s)

end Session
end SchemaGraph.Shell.Editor
