import SchemaGraph.Shell.Launching.Basic
/-!
# Programs in other circumstances

These programs run another one with a changed environment, for a limited time, or in other
circumstances that it does not see.
-/

namespace SchemaGraph.Shell.Launcher

/-! ## Environments -/

/-- The words of a text between blanks. -/
def wordsOf (text : String) : List String :=
  (Text.split (fun c => c == ' ' || c == '\t') text).filter (· ≠ "")

/-- The words of `env`, where the text after `-S` is split at its blanks. -/
def splitWords : List String → List String
  | [] => []
  | word :: words =>
    match word.toList, words with
    | ['-', 'S'], next :: words => wordsOf next ++ words
    | ['-', 'v', 'S'], next :: words => wordsOf next ++ words
    | '-' :: 'S' :: rest, words => wordsOf (String.ofList rest) ++ words
    | _, words => word :: words

/-- The variables of a process as lines. -/
def environmentLines (s : State) : String :=
  String.join (s.environmentOf.entries.map fun entry => entry.1 ++ "=" ++ entry.2 ++ "\n")

/-- Runs a program in a changed environment, or shows the environment. -/
def env : Launcher := fun l s =>
  let table : OptionTable :=
    ⟨['i', '0', 'v'], ['u', 'C'], [], [("ignore-environment", 'i'), ("unset", 'u'), ("null", '0'),
      ("chdir", 'C')], true⟩
  match table.read (splitWords l.arguments) with
  | .error e => l.misuse s 125 e.message
  | .ok selected =>
    let words := selected.operands
    let clears := selected.has 'i' || words.head? = some "-"
    let words := if words.head? = some "-" then words.tail else words
    let assignments := words.takeWhile fun word => word.toList.contains '='
    let removed := selected.allValues 'u'
    let cleared := { s with
      exported := if clears then [] else s.exported.filter fun name => !removed.contains name }
    let s := assignments.foldl (fun s word =>
      let name := String.ofList (word.toList.takeWhile (· != '='))
      let value := String.ofList ((word.toList.dropWhile (· != '=')).drop 1)
      { s with values := s.values.insert name value, exported := name :: s.exported }) cleared
    let words := words.drop assignments.length
    let moved? : Except SystemError State :=
      match selected.value? 'C' with
      | none => .ok s
      | some path => do
        let location ← s.tree.locate (Text.ofByteText path)
        match ← s.tree.stat (Text.ofByteText path) with
        | .directory => return { s with toSystem := s.toSystem.inDirectory location }
        | _ => throw .notDirectory
    match moved? with
    | .error e =>
      l.fail s 125 ("cannot change directory to " ++ shellQuoted ((selected.value? 'C').getD "") ++
        ": " ++ e.reason)
    | .ok s => if words = [] then (s.put 1 (environmentLines s)).finish 0 else l.become words s

/-- Shows the values of variables. The exit code says whether all of them are set. -/
def printenv : Launcher := fun l s =>
  let environment := s.environmentOf
  let names := l.arguments.filter (· ≠ "--")
  if names = [] then (s.put 1 (environmentLines s)).finish 0
  else
    let values := names.filterMap environment.get?
    (s.put 1 (String.join (values.map (· ++ "\n")))).finish
      (if values.length = names.length then 0 else 1)

/-! ## Programs in other circumstances -/

/-- Runs a program as it is, after the options of this one; `valued` are those with a value. -/
def plainly (letters valued : String) : Launcher := fun l s =>
  match (OptionTable.read ⟨letters.toList, valued.toList, [], [], true⟩ l.arguments) with
  | .error e => l.misuse s 125 e.message
  | .ok selected =>
    if selected.operands = [] then l.misuse s 125 "missing operand"
    else l.become selected.operands s

/-- Runs a program for a limited time, which only a program that waits can exceed. -/
def timeout : Launcher := fun l s =>
  let long := [("signal", 's'), ("kill-after", 'k'), ("foreground", 'f'), ("preserve-status", 'p'),
    ("verbose", 'v')]
  match (OptionTable.read ⟨['v'], ['s', 'k'], [], long, true⟩ l.arguments) with
  | .error e => l.misuse s 125 e.message
  | .ok selected =>
    match selected.operands with
    | limit :: name :: words =>
      match Utility.milliseconds? limit with
      | none => l.misuse s 125 ("invalid time interval " ++ plainQuoted limit)
      | some limit =>
        let duration :=
          if name = "sleep" then (words.head?.bind Utility.milliseconds?).getD 0 else 0
        if 0 < limit ∧ limit < duration then s.finish 124 else l.become (name :: words) s
    | _ => l.misuse s 125 "missing operand"

/-! ## Places of programs -/

/-- Shows where programs are. -/
def which : Launcher := fun l s =>
  let showsAll := l.arguments.head? = some "-a"
  let names := if showsAll then l.arguments.tail else l.arguments
  let found := names.map fun name => l.places name s
  let shown := found.flatMap fun paths => if showsAll then paths else paths.take 1
  (s.put 1 (String.join (shown.map (· ++ "\n")))).finish
    (if names = [] || found.any List.isEmpty then 1 else 0)

end SchemaGraph.Shell.Launcher
