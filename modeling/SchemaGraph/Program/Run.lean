import SchemaGraph.Program.Drawing
import SchemaGraph.Shell.Run
/-!
# The programs of a usual system

A program is an executable script of the file tree, or one of those that every system has. A run
answers how the program ended, what it wrote as its errors, and the tree that it leaves. Command
lines run these programs; the modules below them do not know which ones there are.
-/

namespace SchemaGraph

/-- What a process leaves in the state at its end. -/
def ProgramResult.ofState (t : FileTree) (s : Shell.State) : ProgramResult where
  failure := if s.exitStatus = .code 0 then none else some s.exitStatus
  errorOutput := Text.ofBytes s.errorOutput.reverse
  tree := { s.tree with workingDirectory := t.workingDirectory }

namespace FileTree

/-- How many nested steps a program may take. -/
def programSteps : Nat := 20000

/-- Runs the program of the given name. A name with a slash is a path; another one is looked up
among the programs that every system has. What the program writes as its output is lost. -/
def runProgram (t : FileTree) (name : String) (arguments : List String) :
    Except SystemError ProgramResult :=
  let s := Shell.State.start t
  let arguments := arguments.map Text.toByteText
  let started : Except SystemError Shell.State :=
    if (name :: arguments).any fun word => word.toList.contains '\x00' then .error .nulInArgument
    else if name.toList.contains '/' then
      let path := Text.toByteText name
      Shell.startPath programSteps 0 path path arguments s
    else if nameLimit < name.utf8ByteSize then .error .nameTooLong
    else if name = "." ∨ name = ".." then .error .permissionDenied
    else if Shell.systemPrograms.contains name then
      .ok (Shell.runSystem programSteps name name arguments s)
    else .error .notFound
  started.map fun after => .ofState t (Shell.runJobs programSteps (fun _ => true) after)

end FileTree

instance : Programs :=
  ⟨FileTree.runProgram⟩

end SchemaGraph
