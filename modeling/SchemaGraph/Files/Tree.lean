import SchemaGraph.Error
import SchemaGraph.Files.Path
import SchemaGraph.Table
/-!
# File trees

A `FileTree` is a file system as a value: directories and files by the names that lead to them from
the root, and the working directory from which other paths than absolute ones start. Reading asks
the tree, writing answers a new one, and both refuse what an operating system refuses.
-/

namespace SchemaGraph

/-- What a file holds: a text, or bytes that are none. -/
inductive FileContent where
  | text (text : String)
  | binary (bytes : List UInt8)
  deriving DecidableEq, Repr

/-- The content of the given bytes. -/
def FileContent.ofBytes (bytes : List UInt8) : FileContent :=
  match String.fromUTF8? ⟨bytes.toArray⟩ with
  | some decoded => .text decoded
  | none => .binary bytes

/-- The bytes of a content. -/
def FileContent.bytes : FileContent → List UInt8
  | .text s => s.toUTF8.toList
  | .binary bytes => bytes

/-- What stands under a name. -/
inductive FileEntry where
  | directory
  | file (content : FileContent) (executable : Bool)
  /-- Another name for what a path leads to. -/
  | link (target : String)
  /-- The device that has nothing to read and keeps nothing that is written. -/
  | nullDevice
  deriving DecidableEq, Repr

/-- The names that lead to an entry from the root. -/
abbrev Location : Type :=
  List String

instance : KeyOrder Location where
  lt_irrefl := List.lt_irrefl
  lt_trans := List.lt_trans
  eq_of_not_lt hab hba := List.le_antisymm (List.not_lt.1 hba) (List.not_lt.1 hab)

/-- A file system. -/
structure FileTree where
  /-- Every entry except the root, which is a directory. -/
  entries : Table Location FileEntry
  workingDirectory : Location

namespace FileTree

/-- The entry at a location. -/
def entry? (t : FileTree) (location : Location) : Option FileEntry :=
  if location = [] then some .directory else t.entries.get? location

/-- The tree of what every system has besides the programs: the usual directories, and the device
that keeps nothing. -/
def usual : FileTree where
  entries := .ofList
    ([["bin"], ["dev"], ["etc"], ["home"], ["root"], ["tmp"], ["usr"], ["usr", "bin"], ["var"]].map
      (·, .directory) ++ [(["dev", "null"], .nullDevice)])
  workingDirectory := []

/-- The number of bytes that a name may have. -/
def nameLimit : Nat := 255

/-- The number of bytes that is too much for a path. -/
def pathLimit : Nat := 4096

/-- The location one piece of a path further, from a location that must be a directory. -/
def descend (t : FileTree) (location : Location) (piece : String) :
    Except SystemError Location :=
  match t.entry? location with
  | none => .error .notFound
  | some (.file _ _) | some (.link _) | some .nullDevice => .error .notDirectory
  | some .directory =>
    if piece = "" ∨ piece = "." then .ok location
    else if piece = ".." then .ok location.dropLast
    else if nameLimit < piece.utf8ByteSize then .error .nameTooLong
    else .ok (location ++ [piece])

/-- How many links a path may lead through. -/
def linkLimit : Nat := 40

/-- The location several pieces of a path further. `follow` goes on where a link leads; a link at
the end is followed only with `followsLast`. -/
def descendAll (t : FileTree) (followsLast : Bool)
    (follow : Location → List String → Except SystemError Location) :
    Location → List String → Except SystemError Location
  | location, [] => .ok location
  | location, piece :: rest =>
    match t.descend location piece with
    | .error e => .error e
    | .ok next =>
      match t.entry? next with
      | some (.link target) =>
        if rest = [] && !followsLast then .ok next
        else
          follow (if Path.isAbsolute target then [] else location) (Path.pieces target ++ rest)
      | _ => descendAll t followsLast follow next rest

/-- The location several pieces of a path further, where at most so many links lead to. -/
def walk (t : FileTree) (followsLast : Bool) :
    (links : Nat) → Location → List String → Except SystemError Location
  | 0 => t.descendAll followsLast fun _ _ => .error .linkLoop
  | links + 1 => t.descendAll followsLast (t.walk followsLast links)

/-- Why a path leads nowhere, whatever the tree holds. -/
def refusal? (path : String) : Option SystemError :=
  if path.toList.contains '\x00' then some .nulInPath
  else if path = "" then some .notFound
  else if pathLimit ≤ path.utf8ByteSize then some .nameTooLong
  else none

/-- The location to which the given pieces of a path lead. -/
def locatePieces (t : FileTree) (followsLast : Bool) (path : String) (pieces : List String) :
    Except SystemError Location :=
  match refusal? path with
  | some e => .error e
  | none =>
    t.walk followsLast linkLimit (if Path.isAbsolute path then [] else t.workingDirectory) pieces

/-- The location that a path leads to. All of it but the last name exists. -/
def locate (t : FileTree) (path : String) : Except SystemError Location :=
  t.locatePieces true path (Path.pieces path)

/-- The location of the entry at a path, which may be a link. -/
def locateEntry (t : FileTree) (path : String) : Except SystemError Location :=
  t.locatePieces false path (Path.pieces path)

/-- The location of the name at a path, whether or not a slash stands at its end. -/
def locateName (t : FileTree) (path : String) : Except SystemError Location :=
  t.locatePieces false path (Path.piecesFromEnd path).reverse

/-- The location of a file that is to be written, which no slash may follow. -/
def locateFile (t : FileTree) (path : String) : Except SystemError Location :=
  if Path.wantsDirectory path then
    match t.locatePieces true path ((Path.piecesFromEnd path).tail.reverse ++ ["."]) with
    | .error e => .error e
    | .ok _ => .error .isDirectory
  else t.locate path

/-- The entry that a path leads to. -/
def stat (t : FileTree) (path : String) : Except SystemError FileEntry :=
  match t.locate path with
  | .error e => .error e
  | .ok location =>
    match t.entry? location with
    | none => .error .notFound
    | some entry => .ok entry

/-- The entry at a path, which may be a link. -/
def statEntry (t : FileTree) (path : String) : Except SystemError FileEntry :=
  match t.locateEntry path with
  | .error e => .error e
  | .ok location =>
    match t.entry? location with
    | none => .error .notFound
    | some entry => .ok entry

/-- Whether a path leads to something. -/
def pathExists (t : FileTree) (path : String) : Bool :=
  (t.stat path).toOption.isSome

/-- Whether a path leads to a file. -/
def isFile (t : FileTree) (path : String) : Bool :=
  match t.stat path with
  | .ok (.file _ _) => true
  | _ => false

/-- Whether a path leads to a directory. -/
def isDirectory (t : FileTree) (path : String) : Bool :=
  match t.stat path with
  | .ok .directory => true
  | _ => false

/-- The content of the file that a path leads to. -/
def readFile (t : FileTree) (path : String) : Except SystemError FileContent :=
  match t.stat path with
  | .error e => .error e
  | .ok .directory => .error .isDirectory
  | .ok (.file content _) => .ok content
  | .ok .nullDevice => .ok (.text "")
  | .ok (.link _) => .error .linkLoop

/-- The text of the file that a path leads to. -/
def readText (t : FileTree) (path : String) : Except SystemError String :=
  match t.readFile path with
  | .error e => .error e
  | .ok (.binary _) => .error .notText
  | .ok (.text text) => .ok text

/-- The names of the entries of a directory, in ascending order. -/
def childNames (t : FileTree) (location : Location) : List String :=
  t.entries.keys.filterMap fun key =>
    if key ≠ [] ∧ key.dropLast = location then key.getLast? else none

/-- The names of the entries of the directory that a path leads to. -/
def listDirectory (t : FileTree) (path : String) : List String :=
  match t.locate path with
  | .error _ => []
  | .ok location => if t.isDirectory path then t.childNames location else []

/-- What leads from a location to each entry below it. -/
def below (t : FileTree) (location : Location) : List (Location × FileEntry) :=
  t.entries.entries.filterMap fun e =>
    match location.isPrefixOf? e.1 with
    | some (name :: names) => some (name :: names, e.2)
    | _ => none

/-- The files below the directory that a path leads to, each by the names that lead to it. -/
def filesBelow (t : FileTree) (path : String) : List Location :=
  match t.locate path with
  | .error _ => []
  | .ok location =>
    (t.below location).filterMap fun e =>
      match e.2 with
      | .file _ _ => some e.1
      | _ => none

/-- The tree with an entry put at a location. -/
def put (t : FileTree) (location : Location) (entry : FileEntry) : FileTree :=
  { t with entries := t.entries.insert location entry }

/-- Writes a content into the file at a location, which is created when there is none. -/
def writeAt (t : FileTree) (location : Location) (content : FileContent) :
    Except SystemError FileTree :=
  match t.entry? location with
  | some .directory => .error .isDirectory
  | some (.file _ executable) => .ok (t.put location (.file content executable))
  | some .nullDevice => .ok t
  | some (.link _) | none => .ok (t.put location (.file content false))

/-- Writes a text into the file that a path leads to, which is created when there is none. -/
def writeText (t : FileTree) (path text : String) : Except SystemError FileTree :=
  match t.locateFile path with
  | .error e => .error e
  | .ok location => t.writeAt location (.text text)

/-- Creates one directory. -/
def createDirectory (t : FileTree) (path : String) : Except SystemError FileTree :=
  match t.locateName path with
  | .error e => .error e
  | .ok location =>
    match t.entry? location with
    | some _ => .error .fileExists
    | none => .ok (t.put location .directory)

/-- Creates one directory, which may also be there already. -/
def ensureDirectory (t : FileTree) (path : String) : Except SystemError Unit × FileTree :=
  match t.createDirectory path with
  | .ok t => (.ok (), t)
  | .error e => (if t.isDirectory path then .ok () else .error e, t)

/-- Creates a directory with at most `depth` of those around it, and answers the tree that is left
also when it fails. -/
def createWithin : (depth : Nat) → FileTree → String → Except SystemError Unit × FileTree
  | 0, t, path => t.ensureDirectory path
  | depth + 1, t, path =>
    if path = "" then (.ok (), t)
    else
      match t.createDirectory path, Path.parent? path with
      | .error .notFound, some parent =>
        match createWithin depth t parent with
        | (.error e, t) => (.error e, t)
        | (.ok (), t) => t.ensureDirectory path
      | _, _ => t.ensureDirectory path

/-- Creates a directory with those around it that are missing. -/
def createDirectories (t : FileTree) (path : String) : Except SystemError Unit × FileTree :=
  createWithin (path.length + 1) t path

/-- The tree without what is at a location and below it. -/
def remove (t : FileTree) (location : Location) : FileTree :=
  { t with entries := t.entries.filterKeys fun key => !location.isPrefixOf key }

/-- The tree with a directory, and what is below it, at another location. -/
def move (t : FileTree) (source target : Location) : FileTree :=
  (t.below source).foldl (fun moved e => moved.put (target ++ e.1) e.2)
    ((t.remove source).put target .directory)

/-- Gives a file or a directory a new path, where it replaces a file or an empty directory. -/
def rename (t : FileTree) (path newPath : String) : Except SystemError FileTree :=
  match t.locateName path, t.locateName newPath with
  | .error e, _ => .error e
  | _, .error e => .error e
  | .ok source, .ok target =>
    match t.entry? source, t.entry? target with
    | none, _ => .error .notFound
    | some .directory, none | some .directory, some .directory =>
      if source = target then .ok t
      else if source.isPrefixOf target then .error .invalidMove
      else if !(t.below target).isEmpty then .error .directoryNotEmpty
      else .ok (t.move source target)
    | some .directory, some _ => .error .notDirectory
    | some _, some .directory => .error .isDirectory
    | some entry, _ =>
      if Path.wantsDirectory path || Path.wantsDirectory newPath then .error .notDirectory
      else if source = target then .ok t
      else .ok ((t.remove source).put target entry)

/-- A bound on the number of characters of all texts of the tree. -/
def textSize (t : FileTree) : Nat :=
  t.entries.total fun
    | .file (.text text) _ => text.length
    | _ => 0

end FileTree
end SchemaGraph
