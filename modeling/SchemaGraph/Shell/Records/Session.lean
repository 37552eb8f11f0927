import SchemaGraph.Shell.Launching.Basic
import SchemaGraph.Shell.Records.Basic
import SchemaGraph.Shell.Records.Format
import SchemaGraph.Shell.Records.Value
import SchemaGraph.Shell.Redirection
import SchemaGraph.Shell.Regex.Reader
/-!
# What programs for records work with

A session has the values of all names, the present record with its fields, and what is read and
written. What is printed waits until it is flushed. A session can be interrupted, by the statements
that leave others and by errors.
-/

namespace SchemaGraph.Shell.Records

/-- What a name stands for. -/
inductive Slot where
  | value (v : Value)
  /-- Nothing yet. As an array it is the one of the given number. -/
  | pending (number : Nat)
  | array (number : Nat)
  deriving DecidableEq, Repr

/-- Where a text goes that is printed. -/
inductive Outlet where
  /-- To an open file. -/
  | file (number : Nat)
  /-- To a command, which reads it when it is closed. -/
  | command
  deriving DecidableEq, Repr

/-- An output that has been opened, with the pieces that wait, the latest first. -/
structure Output where
  name : String
  outlet : Outlet
  waiting : List (List Char)

/-- What is left of a text that has been opened to read records from it. -/
structure Reading where
  name : String
  isCommand : Bool
  rest : List Char
  /-- How the command has ended. -/
  status : Nat

/-- A session. -/
structure Session where
  state : State
  globals : Table String Slot
  /-- The names of the present function, if there is one. -/
  locals : Option (Table String Slot)
  arrays : Array Elements
  record : Value
  fields : List Value
  /-- What is left of the present text from which rules get their records, if one is open. -/
  input? : Option (List Char)
  /-- The number of the argument that is opened next. -/
  nextArgument : Nat
  /-- Whether an argument has named a text. -/
  hasOpened : Bool
  readings : List Reading
  outputs : List Output
  /-- What is printed and waits, the latest piece first. -/
  printed : List (List Char)
  /-- The rules whose ranges have begun. -/
  ranges : List Nat
  status : Nat

/-- Why a session does not go on with the next statement. -/
inductive Interrupt where
  | leave | resume | next | nextFile | exit
  | return (value : Value)
  | failure (complaint : String)
  deriving DecidableEq, Repr

/-- Something that is done in a session. -/
abbrev Runner : Type → Type :=
  ExceptT Interrupt (StateM Session)

namespace Runner

/-- Ends the program with a complaint. -/
def fail (complaint : String) : Runner α :=
  throw (.failure complaint)

/-! ## Names -/

/-- What a name stands for. -/
def slot (name : String) : Runner (Option Slot) := do
  let s ← get
  match s.locals.bind (·.get? name) with
  | some slot => return some slot
  | none => return s.globals.get? name

/-- Lets a name stand for something. -/
def setSlot (name : String) (slot : Slot) : Runner Unit :=
  modify fun s =>
    match s.locals with
    | some names =>
      if names.contains name then { s with locals := some (names.insert name slot) }
      else { s with globals := s.globals.insert name slot }
    | none => { s with globals := s.globals.insert name slot }

/-- The number of a new array. -/
def newArray : Runner Nat := do
  let number := (← get).arrays.size
  modify fun s => { s with arrays := s.arrays.push .empty }
  return number

/-- The number of the array of a name. -/
def arrayOf (name : String) : Runner Nat := do
  match ← slot name with
  | some (.array number) => return number
  | some (.pending number) =>
    setSlot name (.array number)
    return number
  | some (.value _) => fail ("illegal reference to variable " ++ name)
  | none =>
    let number ← newArray
    setSlot name (.array number)
    return number

/-- The array of a number. -/
def elements (number : Nat) : Runner Elements := do
  return ((← get).arrays[number]?).getD .empty

/-- Changes the array of a number. -/
def setElements (number : Nat) (elements : Elements) : Runner Unit :=
  modify fun s => { s with arrays := s.arrays.setIfInBounds number elements }

/-- The value of a name, which has to be no array. -/
def valueOf (name : String) : Runner Value := do
  match ← slot name with
  | some (.value v) => return v
  | some (.array _) => fail ("illegal reference to array " ++ name)
  | some (.pending _) | none => return .unset

/-- The value of a global name as a text. -/
def textOf (name : String) : Runner String := do
  match (← get).globals.get? name with
  | some (.value v) => return v.toText "%.6g"
  | _ => return ""

/-- A value as a text. -/
def toText (v : Value) : Runner String := do
  return v.toText (← textOf "CONVFMT")

/-- Gives a global name a value. -/
def setGlobal (name : String) (v : Value) : Runner Unit :=
  modify fun s => { s with globals := s.globals.insert name (.value v) }

/-! ## Patterns -/

/-- The pattern that a text is. -/
def patternOf (text : String) : Runner Regex :=
  match Regex.read .named text.toList with
  | .ok pattern => return pattern
  | .error _ => fail ("regular expression compile failed (missing operand)\n" ++ text)

/-- How programs for records match. -/
def mode : MatchMode :=
  ⟨false, false⟩

/-- The first match of a pattern in a text that is not empty. Every step takes a character, so
`fuel` is their number. -/
def solidMatch? (pattern : Regex) : (fuel : Nat) → Place → Option Regex.Found
  | 0, _ => none
  | fuel + 1, p =>
    match pattern.find? mode p with
    | none => none
    | some found =>
      if found.text ≠ [] then some found
      else if found.stop.rest = [] then none
      else solidMatch? pattern fuel found.stop.advance

/-- The parts of a text between matches of a pattern. Every step takes a character, so `fuel` is
their number. -/
def partsBetween (pattern : Regex) : (fuel : Nat) → Place → List (List Char)
  | 0, p => [p.rest]
  | fuel + 1, p =>
    match solidMatch? pattern (p.rest.length + 1) p with
    | none => [p.rest]
    | some found =>
      p.rest.take (found.start.position - p.position) :: partsBetween pattern fuel found.stop

/-- The parts of a text that a separator divides: a single blank stands for all blanks, another
character for itself, and a longer text for a pattern. -/
def partsOf (separator : String) (text : List Char) : Runner (List (List Char)) := do
  let isBlank (c : Char) : Bool := c == ' ' || c == '\t' || c == '\n'
  match separator.toList with
  | [] => return text.map ([·])
  | [' '] => return (Text.splitAt isBlank text).filter (· ≠ [])
  | [c] => return if text = [] then [] else Text.splitAt (· == c) text
  | _ =>
    let pattern ← patternOf separator
    return if text = [] then [] else partsBetween pattern text.length (.start text)

/-! ## The record -/

/-- Says how many fields there are. -/
def setFieldCount : Runner Unit := do
  setGlobal "NF" (.ofNat (← get).fields.length)

/-- Makes a text the present record. -/
def setRecord (v : Value) : Runner Unit := do
  let parts ← partsOf (← textOf "FS") (← toText v).toList
  let fields := parts.map fun part => Value.input (String.ofList part)
  modify fun s => { s with record := v, fields }
  setFieldCount

/-- Puts the record together from its fields. -/
def joinFields : Runner Unit := do
  let format ← textOf "CONVFMT"
  let texts := (← get).fields.map (·.toText format)
  let text := String.intercalate (← textOf "OFS") texts
  modify fun s => { s with record := .text text }
  setFieldCount

/-- Lets the record have so many fields. -/
def resize (count : Nat) : Runner Unit := do
  modify fun s =>
    { s with
      fields := s.fields.take count ++ List.replicate (count - s.fields.length) (.text "") }
  joinFields

/-- The value of a field; the one with number zero is the whole record. -/
def field (number : Nat) : Runner Value := do
  let s ← get
  return if number = 0 then s.record else (s.fields[number - 1]?).getD .unset

/-- Gives a field a value. -/
def setField (number : Nat) (v : Value) : Runner Unit := do
  if number = 0 then setRecord v
  else
    if (← get).fields.length < number then resize number
    modify fun s => { s with fields := s.fields.set (number - 1) v }
    joinFields

/-- Gives a name a value. The number of fields changes the record. -/
def setValue (name : String) (v : Value) : Runner Unit := do
  match ← slot name with
  | some (.array _) => fail ("illegal reference to array " ++ name)
  | _ =>
    setSlot name (.value v)
    if name = "NF" then resize v.toNumber.clamped.toNat

/-! ## Printing -/

/-- The characters of pieces, of which the latest comes first. -/
def joined (pieces : List (List Char)) : List Char :=
  pieces.reverse.flatten

/-- The bytes of characters. -/
def bytesOf (text : List Char) : List UInt8 :=
  text.map fun c => UInt8.ofNat c.toNat

/-- Writes what waits for the output and for files. -/
def flush : Runner Unit :=
  modify fun s =>
    let state := s.state.emit 1 (bytesOf (joined s.printed))
    let flushed := s.outputs.foldr (fun (output : Output) (run : State × List Output) =>
      match output.outlet with
      | .command => (run.1, output :: run.2)
      | .file number =>
        let system := run.1.toSystem.write number (bytesOf (joined output.waiting))
        ({ run.1 with toSystem := system }, { output with waiting := [] } :: run.2)) (state, [])
    { s with state := flushed.1, outputs := flushed.2, printed := [] }

/-- Runs a command in a shell, and has the number that says how it has ended. -/
def runCommand (l : Launch) (shell command : String) : Runner Nat := do
  let (ended, state) := l.await [shell, "-c", command] (← get).state
  modify fun s => { s with state }
  return match ended with
    | .ok (.code code) => code
    | .ok (.signal number) => 256 + number
    | .error _ => 127

/-- Runs a command that reads what was printed for it. -/
def feed (l : Launch) (command : String) (text : List Char) : Runner Nat := do
  let before := (← get).state
  modify fun s => { s with state := s.state.openAt 0 (.pipe (bytesOf text) []) }
  let status ← runCommand l "/bin/sh" command
  modify fun s => { s with state := s.state.restoring before [0] }
  return status

/-- Prints a text to a file or to a command, which is opened if it is not open. -/
def printTo (isCommand appends : Bool) (name : String) (text : List Char) : Runner Unit := do
  let isHere (output : Output) : Bool :=
    output.name = name && (output.outlet = .command) = isCommand
  match !isCommand, name with
  | true, "/dev/stdout" => modify fun s => { s with printed := text :: s.printed }
  | true, "/dev/stderr" =>
    modify fun s => { s with state := s.state.emit 2 (bytesOf text) }
  | _, _ =>
    match (← get).outputs.find? isHere with
    | some output =>
      modify fun s =>
        { s with
          outputs := { output with waiting := text :: output.waiting } ::
            s.outputs.filter (!isHere ·) }
    | none =>
      let outlet ←
        if isCommand then
          flush
          pure .command
        else
          match Redirect.openPath false (if appends then .append else .write) name
            (← get).state with
          | .error e =>
            fail ("cannot open \"" ++ name ++ "\" for output (" ++ e.reason ++ ")")
          | .ok (file, state) =>
            let (number, system) := state.toSystem.openFile file
            modify fun s => { s with state := { state with toSystem := system } }
            pure (.file number)
      modify fun s => { s with outputs := ⟨name, outlet, [text]⟩ :: s.outputs }

/-- Closes outputs and inputs, and has the number that says how a command has ended; none if nothing
of the name was open. -/
def close (l : Launch) (name : String) : Runner (Option Nat) := do
  flush
  let s ← get
  modify fun s =>
    { s with
      outputs := s.outputs.filter (·.name != name)
      readings := s.readings.filter (·.name != name) }
  let written ← (s.outputs.filter (·.name == name)).mapM fun output =>
    match output.outlet with
    | .command => feed l name (joined output.waiting)
    | .file _ => pure 0
  let read := (s.readings.filter (·.name == name)).map (·.status)
  return (written ++ read).getLast?

/-- Closes everything at the end. -/
def closeAll (l : Launch) : Runner Unit := do
  let text := (← get).printed
  modify fun s => { s with printed := [] }
  flush
  for output in (← get).outputs do
    if output.outlet = .command then
      let _ ← feed l output.name (joined output.waiting)
  modify fun s => { s with printed := text, outputs := [] }
  flush

/-! ## Reading -/

/-- The first record of a text that is not empty, and the text after it. A separator of one
character stands for itself, a longer one for a pattern; an empty one stands for empty lines. -/
def recordOf (separator : String) (text : List Char) : Runner (List Char × List Char) := do
  match separator.toList with
  | [] =>
    let text := text.dropWhile (· == '\n')
    let pattern ← patternOf "\n\n+"
    match solidMatch? pattern (text.length + 1) (.start text) with
    | some found => return (text.take found.start.position, found.stop.rest)
    | none => return (if text.getLast? = some '\n' then text.dropLast else text, [])
  | [c] => return (text.takeWhile (· != c), (text.dropWhile (· != c)).tail)
  | _ =>
    let pattern ← patternOf separator
    match solidMatch? pattern (text.length + 1) (.start text) with
    | some found => return (text.take found.start.position, found.stop.rest)
    | none => return (text, [])

/-- Whether a text has a record. -/
def hasRecord (separator : String) (text : List Char) : Bool :=
  if separator = "" then text.any (· != '\n') else text ≠ []

/-- The text of a file, or what can be read in its place. -/
def textOfFile (name : String) : Runner (Except SystemError (List Char)) := do
  if Request.isInput name then
    let bytes := (← get).state.readable 0
    modify fun s => { s with state := s.state.skip 0 bytes.length }
    return .ok (bytes.map fun byte => Char.ofNat byte.toNat)
  else return ((← get).state.tree.readFile (Request.path name)).map Request.charsOf

/-- The value of an argument that assigns one, in which a backslash names characters. -/
def assignedText (cs : List Char) : String :=
  String.ofList ((Regex.namedChars cs.length cs).map (·.1.1))

/-- Does what an argument of the form `name=value` says, and answers whether it is one. -/
def takesAssignment (argument : String) : Runner Bool := do
  let name := String.ofList (argument.toList.takeWhile (· != '='))
  match argument.toList.dropWhile (· != '=') with
  | '=' :: value =>
    if isName name then
      setValue name (.input (assignedText value))
      return true
    else return false
  | _ => return false

/-- Opens the next text from which rules get their records: one that an argument names, or what can
be read if none does. `fuel` is the number of arguments. -/
def openNext : (fuel : Nat) → Runner Bool
  | 0 => return false
  | fuel + 1 => do
    let s ← get
    let start (name : String) : Runner Bool := do
      match ← textOfFile name with
      | .ok text =>
        modify fun s => { s with input? := some text, hasOpened := true }
        setGlobal "FILENAME" (.text name)
        setGlobal "FNR" (.ofNat 0)
        return true
      | .error e => fail ("cannot open \"" ++ name ++ "\" (" ++ e.reason ++ ")")
    let count := ((← valueOf "ARGC").toNumber.clamped).toNat
    if count ≤ s.nextArgument then
      if s.hasOpened then return false else start "-"
    else
      modify fun s => { s with nextArgument := s.nextArgument + 1 }
      let arguments ← elements (← arrayOf "ARGV")
      let argument ← toText ((arguments.values.get? (toString s.nextArgument)).getD (.text ""))
      if argument = "" then openNext fuel
      else if ← takesAssignment argument then openNext fuel
      else start argument

/-- The next record for the rules; none at the end of the last text. `fuel` is the number of
arguments. -/
def nextRecord : (fuel : Nat) → Runner (Option (List Char))
  | 0 => return none
  | fuel + 1 => do
    let separator ← textOf "RS"
    match (← get).input? with
    | some text =>
      if hasRecord separator text then
        let (record, rest) ← recordOf separator text
        modify fun s => { s with input? := some rest }
        return some record
      else
        modify fun s => { s with input? := none }
        nextRecord fuel
    | none => if ← openNext fuel then nextRecord fuel else return none

/-- Counts a record of the rules. -/
def countRecord : Runner Unit := do
  for name in ["NR", "FNR"] do
    setGlobal name (.number ((← valueOf name).toNumber.add (.ofInt 1)))

/-- Opens a file or a command to read records from it, and answers whether that could be done. -/
def openReading (l : Launch) (isCommand : Bool) (name : String) : Runner Bool := do
  if (← get).readings.any fun r => r.name = name && r.isCommand = isCommand then return true
  else if isCommand then
    flush
    let (number, system) := (← get).state.toSystem.openFile (.pipe [] [])
    let before := { (← get).state with toSystem := system }
    modify fun s =>
      { s with
        state := { before with toProcess := before.toProcess.withDescriptor 1 (some number) } }
    let status ← runCommand l "/bin/sh" name
    let text := ((← get).state.readable 1).map fun byte => Char.ofNat byte.toNat
    modify fun s =>
      { s with
        state := s.state.restoring before [1]
        readings := ⟨name, isCommand, text, status⟩ :: s.readings }
    return true
  else
    match ← textOfFile name with
    | .ok text =>
      modify fun s => { s with readings := ⟨name, isCommand, text, 0⟩ :: s.readings }
      return true
    | .error _ => return false

/-- The next record of a file or a command that is open; none at its end. -/
def recordFrom (isCommand : Bool) (name : String) : Runner (Option (List Char)) := do
  let separator ← textOf "RS"
  let isHere (r : Reading) : Bool := r.name = name && r.isCommand = isCommand
  match (← get).readings.find? isHere with
  | none => return none
  | some reading =>
    if hasRecord separator reading.rest then
      let (record, rest) ← recordOf separator reading.rest
      modify fun s =>
        { s with readings := { reading with rest } :: s.readings.filter (!isHere ·) }
      return some record
    else return none

end Runner
end SchemaGraph.Shell.Records
