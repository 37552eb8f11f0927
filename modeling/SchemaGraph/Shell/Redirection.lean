import SchemaGraph.Shell.Expansion
/-!
# Redirections

Redirections are opened one after the other before a command runs. Each lets a descriptor lead to
another open file, or closes it.
-/

namespace SchemaGraph.Shell

/-- The reason that a plain shell gives for a file it cannot open. -/
def openReason (creates : Bool) (e : SystemError) : String :=
  if e = .notFound ∨ e = .notDirectory then
    if creates then "Directory nonexistent" else "No such file"
  else e.reason

/-- What a shell complains of when it cannot open a file. -/
def openComplaint (variety : Variety) (creates : Bool) (path : String) (e : SystemError) : String :=
  match variety with
  | .plain =>
    (if creates then "cannot create " else "cannot open ") ++ path ++ ": " ++ openReason creates e
  | .extended => path ++ ": " ++ e.reason

/-- The descriptor that a path means. -/
def deviceDescriptor? (path : String) : Option Nat :=
  if path = "/dev/stdin" then some 0
  else if path = "/dev/stdout" then some 1
  else if path = "/dev/stderr" then some 2
  else
    (["/dev/fd/", "/proc/self/fd/"].findSome? fun directory =>
      directory.toList.isPrefixOf? path.toList).bind fun digits =>
        (String.ofList digits).toNat?

namespace Redirect

/-- The descriptors that a redirection changes. -/
def descriptors : Redirect → List Nat
  | .file _ .writeAll _ => [1, 2]
  | redirect => [redirect.descriptor]

/-- The content that a file has when it is opened. -/
def contentAfter (mode : RedirectMode) (entry : Option FileEntry) : FileContent :=
  match entry with
  | some (.file content _) =>
    match mode with
    | .append | .update | .read => content
    | .write | .overwrite | .writeAll | .duplicate => .text ""
  | _ => .text ""

/-- Opens a file of the tree. With `keeps` a file that is there is not emptied. -/
def openPath (keeps : Bool) (mode : RedirectMode) (path : String) (s : State) :
    Except SystemError (OpenFile × State) := do
  let path := Text.ofByteText path
  if mode = .read then
    let location ← s.tree.locate path
    match ← s.tree.stat path with
    | .nullDevice => return (.nowhere, s)
    | _ => return (.file location 0 false, s)
  else
    let location ← s.tree.locateFile path
    match s.tree.entry? location with
    | some .nullDevice => return (.nowhere, s)
    | some (.file _ _) => if keeps && mode = .write then throw .fileExists
    | _ => pure ()
    let tree ← s.tree.writeAt location (contentAfter mode (s.tree.entry? location))
    return (.file location 0 (mode = .append), { s with tree })

/-- Lets a descriptor lead to where another one leads. -/
def duplicate (x : Expander) (descriptor source : Nat) (s : State) : Bool × State :=
  match s.descriptors.lookup source with
  | some number => (true, { s with
      toProcess := s.toProcess.withDescriptor descriptor (some number) })
  | none => (false, s.complain x.frame (toString source ++ ": Bad file descriptor"))

/-- The descriptor that a text names. A plain shell knows those of a single digit. -/
def sourceOf? (variety : Variety) (text : String) : Option Nat :=
  match variety, text.toList with
  | .plain, [c] | .extended, [c] => if c.isDigit then some (c.toNat - '0'.toNat) else none
  | .extended, c :: cs => if (c :: cs).all Char.isDigit then text.toNat? else none
  | _, _ => none

/-- Opens a file for a descriptor, and answers whether that could be done. -/
def openFile (x : Expander) (descriptor : Nat) (mode : RedirectMode) (path : String) (s : State) :
    Bool × State :=
  match deviceDescriptor? path with
  | some source =>
    if (s.descriptors.lookup source).isSome then duplicate x descriptor source s
    else
      (false, s.complain x.frame (openComplaint x.frame.variety (mode ≠ .read) path .notFound))
  | none =>
    match openPath (s.has 'C') mode path s with
    | .error e =>
      (false, s.complain x.frame (openComplaint x.frame.variety (mode ≠ .read) path e))
    | .ok (opened, s) =>
      let s := s.openAt descriptor opened
      if mode = .writeAll then duplicate x 2 1 s else (true, s)

/-- Opens the target of a redirection, and answers whether that could be done. -/
def openTarget (x : Expander) (redirect : Redirect) (s : State) : Bool × State :=
  match redirect with
  | .document descriptor text =>
    let (text, s) := x.text text s
    (true, s.openAt descriptor (.pipe (Text.bytesOfByteText text) []))
  | .file descriptor .duplicate target =>
    let (text, s) := x.text target s
    if text = "-" then
      (true, { s with toProcess := s.toProcess.withDescriptor descriptor none })
    else
      match sourceOf? x.frame.variety text, x.frame.variety with
      | some source, _ => duplicate x descriptor source s
      | none, .plain =>
        (false,
          ({ s with line := s.linesRead }.complain x.frame "Syntax error: Bad fd number").refuse 2)
      | none, .extended =>
        if descriptor = 1 then openFile x descriptor .writeAll text s
        else (false, s.complain x.frame (text ++ ": ambiguous redirect"))
  | .file descriptor mode target =>
    let (path, s) := x.text target s
    openFile x descriptor mode path s

/-- Opens redirections one after the other, and answers whether that could be done. -/
def openAll (x : Expander) : List Redirect → State → Bool × State
  | [], s => (true, s)
  | redirect :: rest, s =>
    match openTarget x redirect s with
    | (false, s) => (false, s)
    | (true, s) => if s.isRunning then openAll x rest s else (false, s)

end Redirect
end SchemaGraph.Shell
