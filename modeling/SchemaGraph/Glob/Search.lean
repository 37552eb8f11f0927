import SchemaGraph.Files.Tree
import SchemaGraph.Glob.Pattern
/-!
# Finding files by a pattern

The components of a pattern are matched against the names of directory entries, one directory after
the other. A component without wildcards leads on without reading the directory; a component `**`
leads to the directories below at every depth. Paths below the working directory are given without
the leading `.`.
-/

namespace SchemaGraph

namespace FileTree

/-- Whether a path means the working directory itself. -/
def isHere (path : String) : Bool :=
  !Path.isAbsolute path && Path.reversed path = ["."]

/-- The path of an entry of a directory, as a search spells it. -/
def childPath (path name : String) : String :=
  if isHere path then name else Path.join path name

/-- What a search goes on with. -/
inductive SearchTask where
  /-- Enter a directory with the components that are left. -/
  | enter (path : String) (components : List GlobPattern)
  /-- Match the name of an entry against the components that are left. -/
  | test (path : String) (components : List GlobPattern)
  deriving DecidableEq, Repr

/-- The components after a run of recursive ones. -/
def afterRecursive : List GlobPattern → List GlobPattern
  | [] => []
  | component :: rest => if component.isRecursive then afterRecursive rest else component :: rest

/-- The components from the last one of the run of recursive ones at the front. -/
def lastRecursive : List GlobPattern → List GlobPattern
  | [] => []
  | [only] => [only]
  | component :: following :: rest =>
    if following.isRecursive then lastRecursive (following :: rest)
    else component :: following :: rest

/-- The paths that a search finds, in at most `fuel` nested steps. -/
def searchWithin (t : FileTree) (requireDirectory : Bool) :
    (fuel : Nat) → SearchTask → List String
  | 0, _ => []
  | _, .enter _ [] => []
  | _, .test _ [] => []
  | fuel + 1, .enter path (component :: rest) =>
    let goOn (next : String) : List String :=
      if rest.isEmpty then
        if !requireDirectory || t.isDirectory next then [next] else []
      else searchWithin t requireDirectory fuel (.enter next rest)
    match component.literal? with
    | some name =>
      let name := String.ofList name
      let special := name = "." ∨ name = ".."
      let next := childPath path name
      if (special ∧ t.isDirectory path) ∨ (¬ special ∧ t.pathExists next) then goOn next else []
    | none =>
      if t.isDirectory path then
        let children := (t.listDirectory path).flatMap fun name =>
          searchWithin t requireDirectory fuel (.test (childPath path name) (component :: rest))
        let specials :=
          if component.head? = some (.char '.') then
            ([".", ".."].filter component.accepts).flatMap fun name => goOn (Path.join path name)
          else []
        children ++ specials
      else []
  | fuel + 1, .test path (component :: rest) =>
    let testName : List GlobPattern → List String
      | [] => []
      | component :: rest =>
        match Path.fileName? path with
        | none => []
        | some name =>
          if component.accepts name then
            if rest.isEmpty then
              if !requireDirectory || t.isDirectory path then [path] else []
            else searchWithin t requireDirectory fuel (.enter path rest)
          else []
    if component.isRecursive then
      let following := afterRecursive (component :: rest)
      if t.isDirectory path then
        searchWithin t requireDirectory fuel (.enter path (lastRecursive (component :: rest))) ++
          if following.isEmpty then [path] else testName following
      else testName following
    else testName (component :: rest)

/-- The components of a pattern: a separator at its end opens no further one. -/
def patternComponents (pattern : String) : List String :=
  let pieces := Path.pieces pattern
  if pieces.getLast? = some "" then pieces.dropLast else pieces

/-- Reads the components of a pattern. -/
def readComponents : List String → Except PatternError (List GlobPattern)
  | [] => .ok []
  | component :: rest =>
    match GlobPattern.read component with
    | .error e => .error e
    | .ok component =>
      match readComponents rest with
      | .error e => .error e
      | .ok rest => .ok (component :: rest)

/-- The paths that a pattern finds. The pattern must be well-formed as a whole and in each
component. -/
def find (t : FileTree) (pattern : String) : Except PatternError (List String) :=
  match GlobPattern.read pattern with
  | .error e => .error e
  | .ok _ =>
    let absolute := Path.isAbsolute pattern
    let components :=
      patternComponents (if absolute then String.ofList pattern.toList.tail else pattern)
    match readComponents components with
    | .error e => .error e
    | .ok components =>
      let requireDirectory := pattern.toList.getLast? = some '/'
      let fuel := 2 * (components.length + 1) * (t.entries.size + 2)
      .ok (t.searchWithin requireDirectory fuel (.enter (if absolute then "/" else ".") components))

end FileTree
end SchemaGraph
