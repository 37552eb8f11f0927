import SchemaGraph.Shell.State
/-!
# Calls of commands of a shell

What the commands of the shell itself work with, how they complain and how they write.
-/

namespace SchemaGraph.Shell

/-- What a command of the shell works with. -/
structure Call where
  frame : Frame
  name : String
  arguments : List String
  /-- Whether a failure of the command ends a plain shell. -/
  isFatal : Bool

namespace Call

/-- The state after success. -/
def succeed (s : State) : State :=
  { s with status := 0 }

/-- Complains, and fails with an exit code. -/
def fail (call : Call) (s : State) (status : Nat) (complaint : String) : State :=
  { s.complainHere call.frame (call.name ++ ": " ++ complaint) with status := status }

/-- Complains, which ends a plain shell where the command is one that it needs. -/
def failHard (call : Call) (s : State) (complaint : String) : State :=
  match call.frame.variety with
  | .plain =>
    let s := call.fail s 2 complaint
    if call.isFatal then s.refuse 2 else s
  | .extended => call.fail s 1 complaint

/-- Writes a text as the output of a command. -/
def print (call : Call) (s : State) (text : String) : State :=
  match s.emit? 1 (Text.bytesOfByteText text) with
  | some s => succeed s
  | none => if text = "" then succeed s else call.fail s 1 (call.name ++ ": I/O error")

/-- A number that an argument is. -/
def natural? (text : String) : Option Nat :=
  if text.toList.all Char.isDigit then text.toNat?.filter (· < 0x80000000) else none

/-- Goes on with a number that is given as an argument, which is one by default. -/
def withCount (call : Call) (s : State) (next : Nat → State) : State :=
  match call.arguments with
  | [] => next 1
  | text :: _ =>
    match natural? text with
    | some n => next n
    | none =>
      call.failHard s (match call.frame.variety with
        | .plain => "Illegal number: " ++ text
        | .extended => text ++ ": numeric argument required")

/-- A text in the quotes that make it one word. -/
def quoted (text : String) : String :=
  "'" ++ String.join (text.toList.map fun c =>
    if c = '\'' then "'\"'\"'" else String.singleton c) ++ "'"

/-- The words after the options in front, and the letters of these options; or the letter that is no
option. -/
def letters (known : List Char) : List String → Except Char (List Char × List String)
  | [] => .ok ([], [])
  | word :: words =>
    match word.toList with
    | ['-', '-'] => .ok ([], words)
    | '-' :: c :: cs =>
      match (c :: cs).find? fun c => !known.contains c with
      | some c => .error c
      | none => do
        let (found, words) ← letters known words
        return ((c :: cs) ++ found, words)
    | _ => .ok ([], word :: words)

/-- Goes on with the letters of options and the other words. -/
def withLetters (call : Call) (known : List Char) (s : State)
    (next : List Char → List String → State) : State :=
  match letters known call.arguments with
  | .ok (found, words) => next found words
  | .error c => call.failHard s ("Illegal option -" ++ String.singleton c)

end Call
end SchemaGraph.Shell
