import SchemaGraph.Shell.Editor.Reader
import SchemaGraph.Shell.Editor.Run
/-!
# The line editor as a program

The words of the program give its commands, the way in which it works and the files that it edits.
-/

namespace SchemaGraph.Shell.Utility.Editing
open Editor

/-- The options. -/
def table : OptionTable where
  letters := "nsuErzbPDLX".toList
  valued := "efl".toList
  optional := ['i']
  long := [("binary", 'b'), ("regexp-extended", 'E'), ("debug", 'D'), ("in-place", 'i'),
    ("expression", 'e'), ("file", 'f'), ("line-length", 'l'), ("null-data", 'z'),
    ("zero-terminated", 'z'), ("quiet", 'n'), ("posix", 'P'), ("silent", 'n'), ("sandbox", 'X'),
    ("separate", 's'), ("unbuffered", 'u'), ("follow-symlinks", 'L')]
  stopsEarly := false

/-- The texts of commands that the options give, with their origins. -/
def textsOf (r : Request) : (count : Nat) → List (Char × String) →
    Except String (List (CommandOrigin × List Char))
  | _, [] => .ok []
  | count, ('e', text) :: options => do
    return (.expression (count + 1), text.toList) :: (← textsOf r (count + 1) options)
  | count, ('f', name) :: options =>
    match r.read r.tree name with
    | .ok text => do return (.file name, text) :: (← textsOf r count options)
    | .error .isDirectory => do return (.file name, []) :: (← textsOf r count options)
    | .error e => .error ("couldn't open file " ++ name ++ ": " ++ e.reason)
  | count, _ :: options => textsOf r count options

/-- Makes the files empty into which lines are written. -/
def emptied (t : FileTree) (program : Program) : Except String FileTree :=
  let nameOf : Option Sink → Option String
    | some (.file name) => some name
    | _ => none
  let names := program.commands.toList.filterMap fun command =>
    match command.action with
    | .write sink | .writeFirstLine sink => nameOf (some sink)
    | .substitute sub => nameOf sub.sink?
    | _ => none
  names.foldlM (fun t name =>
    (writeFile t name []).mapError fun e => "couldn't open file " ++ name ++ ": " ++ e.reason) t

/-- How many characters have been read. -/
def takenBy (r : Request) (selected : Selected) (words : List String) (s : Session) : Nat :=
  if !words.contains "-" then 0
  else if r.isFile || selected.has 'u' then
    let left :=
      if s.name? = some "-" then s.lines.map fun line => line.text.length + 1
      else if s.names.contains "-" then [r.input.length]
      else []
    r.input.length - left.foldl (· + ·) 0
  else if s.names.contains "-" then 0
  else r.input.length

/-- The session before the first line. -/
def sessionOf (t : FileTree) (words : List String) : Session :=
  ⟨t, [], [], [], [], 0, false, none, "-", [], words, [], 0, ⟨[], true⟩, ⟨[], true⟩, false, none,
    [], []⟩

end Editing

open Editor in
/-- Edits lines as its commands say. -/
def sed : Utility := fun r =>
  let fail (status : Nat) (complaint : String) : Effect :=
    .failure r.tree status "sed" complaint
  let usage : String :=
    "Usage: sed [OPTION]... \x7bscript-only-if-no-other-script\x7d [input-file]...\n"
  match Editing.table.read r.arguments with
  | .error e => ⟨r.tree, [.errors ("sed: " ++ e.message ++ "\n" ++ usage)], 0, 1⟩
  | .ok selected =>
    let isGiven := selected.has 'e' || selected.has 'f'
    if !isGiven && selected.operands = [] then ⟨r.tree, [.errors usage], 0, 1⟩
    else
      let options := if isGiven then selected.options else [('e', selected.operands.headD "")]
      let operands := if isGiven then selected.operands else selected.operands.tail
      let inPlace? := selected.value? 'i'
      let width := ((selected.value? 'l').bind String.toNat?).getD 70
      match Editing.textsOf r 0 options with
      | .error complaint => fail 1 complaint
      | .ok texts =>
        match Program.read (selected.has 'E' || selected.has 'r') texts with
        | .error complaint => fail 1 complaint
        | .ok program =>
          if operands = [] && inPlace?.isSome then fail 4 "no input files"
          else
            match Editing.emptied r.tree program with
            | .error complaint => fail 4 complaint
            | .ok tree =>
              let setting : Setting :=
                ⟨selected.has 'n', selected.has 's' || inPlace?.isSome, inPlace?,
                  if selected.has 'z' then '\x00' else '\n', width, r.input⟩
              let words := sources operands
              let s := (Editing.sessionOf tree words).edit setting program
              ⟨s.tree, [.errors (String.ofList s.errors.reverse.flatten),
                .output s.output.reverse.flatten], Editing.takenBy r selected words s, s.status⟩

end SchemaGraph.Shell.Utility
