import SchemaGraph.Shell.Records.Reader
import SchemaGraph.Shell.Records.Run
/-!
# Running programs for records

The words of the program that scans records give the rules, values of names and the texts that are
divided into records.
-/

namespace SchemaGraph.Shell.Launcher.Scanning
open Records

/-- What the words of the program ask for. -/
structure Setting where
  /-- The files that have the rules. -/
  files : List String
  /-- The assignments before the first rule. -/
  assignments : List String
  operands : List String

/-- Reads words up to the first one that is no option. -/
def readWords : List String → Setting
  | [] => ⟨[], [], []⟩
  | word :: words =>
    match word.toList, words with
    | ['-', '-'], _ => ⟨[], [], words⟩
    | '-' :: letter :: value, words =>
      let withValue (value : String) (s : Setting) : Setting :=
        if letter = 'f' then { s with files := value :: s.files }
        else if letter = 'F' then { s with assignments := ("FS=" ++ value) :: s.assignments }
        else if letter = 'v' then { s with assignments := value :: s.assignments }
        else s
      if !(['f', 'F', 'v', 'W'].contains letter) then readWords words
      else
        match value, words with
        | [], next :: words => withValue next (readWords words)
        | value, words => withValue (String.ofList value) (readWords words)
    | _, _ => ⟨[], [], word :: words⟩

/-- The text of the rules, or what is wrong with a file. -/
def textOf (s : State) : List String → Except String (List Char)
  | [] => .ok []
  | name :: names => do
    match s.tree.readFile (Request.path name) with
    | .ok content => return Request.charsOf content ++ '\n' :: (← textOf s names)
    | .error e => .error ("cannot open \"" ++ name ++ "\" (" ++ e.reason ++ ")")

/-- The values that names have before the first rule. -/
def globals (argumentCount : Nat) : Table String Slot :=
  .ofList ([("FS", " "), ("OFS", " "), ("ORS", "\n"), ("RS", "\n"), ("SUBSEP", "\x1c"),
      ("CONVFMT", "%.6g"), ("OFMT", "%.6g"), ("FILENAME", "")].map
        (fun entry => (entry.1, .value (.text entry.2))) ++
    [("NF", 0), ("NR", 0), ("FNR", 0), ("RSTART", 0), ("ARGC", argumentCount)].map
      (fun entry => (entry.1, .value (.ofNat entry.2))) ++
    [("RLENGTH", .value (.number (.ofInt (-1)))), ("ARGV", .array 0), ("ENVIRON", .array 1)])

/-- The session before the first rule. -/
def sessionOf (arguments : List String) (s : State) : Session :=
  let argumentValues := arguments.zipIdx.map fun (word, i) => (toString i, Value.input word)
  let argumentArray : Elements :=
    { Elements.empty with
      values := .ofList argumentValues
      arrangement := .keyed
      byNumber := (argumentValues.map (·.1)).reverse }
  let environment := s.environmentOf.entries.foldl (fun (a : Elements) entry =>
    a.put false entry.1 (.input entry.2)) .empty
  ⟨s, globals arguments.length, none, #[argumentArray, environment], .unset, [], none, 1, false,
    [], [], [], [], 0⟩

/-- How many nested steps a program may take. -/
def depth : Nat := 100000

/-- Runs a program with its assignments and closes everything at its end. -/
def run (l : Launch) (setting : Setting) (program : Program) : Runner Unit := do
  try
    for assignment in setting.assignments do
      let _ ← Runner.takesAssignment assignment
    Runner.runProgram l program depth
  catch e =>
    match e with
    | .failure complaint =>
      modify fun s =>
        { s with state := s.state.put 2 (l.program ++ ": " ++ complaint ++ "\n"), status := 2 }
    | _ => pure ()
  Runner.closeAll l

end Scanning

open Records in
/-- Applies rules to records. -/
def awk : Launcher := fun l s =>
  let setting := Scanning.readWords l.arguments
  let isGiven := setting.files ≠ []
  if !isGiven && setting.operands = [] then
    (s.put 2 ("Usage: " ++ l.program ++ " [Options] [Program] [file ...]\n")).finish 2
  else
    let text? := if isGiven then Scanning.textOf s setting.files
      else .ok (setting.operands.headD "").toList
    match text?.bind Program.read with
    | .error complaint => l.fail s 2 complaint
    | .ok program =>
      let operands := if isGiven then setting.operands else setting.operands.tail
      let session := Scanning.sessionOf (l.program :: operands) s
      let (_, after) := (Scanning.run l setting program).run.run session
      after.state.finish after.status

end SchemaGraph.Shell.Launcher
