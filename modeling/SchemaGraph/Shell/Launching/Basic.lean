import SchemaGraph.Shell.Builtin.Basic
import SchemaGraph.Shell.Utility
/-!
# Calls of programs that run others

A program that runs others takes words that name another program and its arguments. It goes on as
that program, or runs it as a process of its own and goes on when that one has ended.
-/

namespace SchemaGraph.Shell

/-- How a program is called that runs others. -/
structure Launch where
  /-- The name by which the program was called. -/
  program : String
  arguments : List String
  /-- The paths of the programs of a name. -/
  places : String → State → List String
  /-- Runs the program that words name in place of the present process. -/
  start : List String → State → Except SystemError State

/-- A program that runs others. -/
abbrev Launcher : Type :=
  Launch → State → State

namespace Launch

/-- Ends with an exit code after a complaint. -/
def fail (l : Launch) (s : State) (status : Nat) (complaint : String) : State :=
  (s.put 2 (l.program ++ ": " ++ complaint ++ "\n")).finish status

/-- Ends because of wrong words. -/
def misuse (l : Launch) (s : State) (status : Nat) (complaint : String) : State :=
  l.fail s status (complaint ++ "\nTry '" ++ l.program ++ " --help' for more information.")

/-- Goes on as the program that words name. -/
def become (l : Launch) (words : List String) (s : State) : State :=
  match l.start words s with
  | .ok after => after
  | .error e =>
    let name := words.headD ""
    let hint :=
      if e = .notFound && name.toList.contains ' ' then
        "\n" ++ l.program ++ ": use -[v]S to pass options in shebang lines"
      else ""
    l.fail s (if e = .notFound then 127 else 126) (shellQuoted name ++ ": " ++ e.reason ++ hint)

/-- Runs the program that words name as a process of its own: how it has ended, and the state after
it. -/
def await (l : Launch) (words : List String) (s : State) : Except SystemError ExitStatus × State :=
  match l.start words s.fork with
  | .ok after => (.ok after.exitStatus, s.afterProcess after)
  | .error e => (.error e, s)

end Launch
end SchemaGraph.Shell
