import SchemaGraph.Text.Blank
/-!
# Paths

Paths are texts whose components stand between slashes. An empty component means nothing, and so
does a component `.` that is not the first one.
-/

namespace SchemaGraph.Path

/-- Whether a path starts at the root of the file system. -/
def isAbsolute (path : String) : Bool :=
  path.toList.head? = some '/'

/-- The pieces of a path between its slashes. -/
def pieces (path : String) : List String :=
  Text.split (· == '/') path

/-- The path of the given pieces. -/
def ofPieces (pieces : List String) : String :=
  String.intercalate "/" pieces

/-- The pieces of a path in reverse, without the empty ones at its end. -/
def piecesFromEnd (path : String) : List String :=
  (pieces path).reverse.dropWhile (· == "")

/-- Whether a path ends with a slash after a name, so that it can only lead to a directory. -/
def wantsDirectory (path : String) : Bool :=
  path.toList.getLast? = some '/' &&
    match piecesFromEnd path with
    | [] => false
    | name :: _ => name ≠ "." && name ≠ ".."

/-- The pieces of a path in reverse, from the last one that is a component. -/
def dropBlank : List String → List String
  | [] => []
  | [first] => if first = "" then [] else [first]
  | piece :: before :: others =>
    if piece = "" ∨ piece = "." then dropBlank (before :: others) else piece :: before :: others

/-- The pieces of a path in reverse, from its last component. -/
def reversed (path : String) : List String :=
  dropBlank (pieces path).reverse

/-- The path around the last component; none when there is no component. -/
def parent? (path : String) : Option String :=
  match reversed path with
  | [] => none
  | _ :: before =>
    match dropBlank before with
    | [] => some (if isAbsolute path then "/" else "")
    | around => some (ofPieces around.reverse)

/-- The last component, if it is a name. -/
def fileName? (path : String) : Option String :=
  match reversed path with
  | [] => none
  | name :: _ => if name = "." ∨ name = ".." then none else some name

/-- A file name without its last dot and what follows it. A dot at the start does not count. -/
def stemOf (name : String) : String :=
  match (Text.splitAt (· == '.') name.toList).reverse with
  | _ :: before :: others =>
    if others = [] ∧ before = [] then name
    else String.ofList (List.intercalate ['.'] (before :: others).reverse)
  | _ => name

/-- The file name of a path without its extension. -/
def fileStem? (path : String) : Option String :=
  (fileName? path).map stemOf

/-- What follows the last dot of a file name. A dot at the start does not count. -/
def extensionOf? (name : String) : Option String :=
  match (Text.splitAt (· == '.') name.toList).reverse with
  | last :: before :: others =>
    if others = [] ∧ before = [] then none else some (String.ofList last)
  | _ => none

/-- The path without the extension of its file name, which is cut off at the end of the text. -/
def cutExtension (path : String) : String :=
  match (fileName? path).bind extensionOf? with
  | none => path
  | some extension => String.ofList (path.toList.take (path.length - extension.length))

/-- The path with the extension of its file name replaced, or added when there is none. The old
extension goes first, and what it leaves may be no file name any more: of a dot, a dot and an
extension it leaves `..`, which gets no other extension. -/
def withExtension (path extension : String) : String :=
  let kept := cutExtension path
  match fileStem? kept with
  | none => kept
  | some stem => ofPieces ((reversed kept).tail.reverse ++ [stem]) ++ "." ++ extension

/-- The path `path` seen from `base`: an absolute path stays as it is. -/
def join (base path : String) : String :=
  if isAbsolute path then path
  else if base = "" ∨ base.toList.getLast? = some '/' then base ++ path
  else base ++ "/" ++ path

end SchemaGraph.Path
