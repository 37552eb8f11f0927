import SchemaGraph.Shell.Utility.Basic
/-!
# Listing directories

The program that shows the names of files and of the entries of directories, and what they are.
-/

namespace SchemaGraph.Shell.Utility.Listing

/-- A name that is listed, and what it stands for. -/
structure Listed where
  name : String
  entry : FileEntry
  /-- How many other names an entry has: those of the directories in it. -/
  links : Nat

/-- How names are listed. -/
abbrev Setting : Type :=
  Selected

/-! ## Entries -/

/-- What is listed of a location. -/
def ofLocation (t : FileTree) (name : String) (location : Location) : Option Listed :=
  (t.entry? location).map fun entry =>
    let directories := (t.childNames location).filter fun child =>
      t.entry? (location ++ [child]) = some .directory
    ⟨name, entry, if entry = .directory then 2 + directories.length else 1⟩

/-- How many blocks of 1024 bytes an entry takes. -/
def blocksOf (entry : FileEntry) : Nat :=
  match entry with
  | .link _ => 0
  | entry => (sizeOf entry + 4095) / 4096 * 4

/-- The sign behind a name that says what it is. -/
def signOf (s : Setting) (entry : FileEntry) : String :=
  match entry with
  | .directory => if s.has 'F' || s.has 'p' then "/" else ""
  | .file _ true => if s.has 'F' then "*" else ""
  | .link _ => if s.has 'F' && !s.has 'l' then "@" else ""
  | _ => ""

/-- The part of a name from its last dot on. -/
def extensionOf (name : String) : String :=
  let tail := name.toList.reverse.takeWhile (· ≠ '.')
  if tail.length = name.length then "" else String.ofList ('.' :: tail.reverse)

/-- The names in the order in which they are listed. -/
def ordered (s : Setting) (entries : List Listed) : List Listed :=
  let byName := entries.mergeSort fun a b => !decide (b.name < a.name)
  let sorted :=
    match s.last? ['S', 'X', 'U', 'f', 't'] with
    | some 'S' => byName.mergeSort fun a b => sizeOf b.entry ≤ sizeOf a.entry
    | some 'X' => byName.mergeSort fun a b => !decide (extensionOf b.name < extensionOf a.name)
    | _ => byName
  let sorted := if s.has 'r' then sorted.reverse else sorted
  if s.has 'D' then
    sorted.filter (·.entry = .directory) ++ sorted.filter (·.entry ≠ .directory)
  else sorted

/-! ## Lines -/

/-- A name as it is shown. -/
def nameOf (s : Setting) (name : String) : String :=
  if s.has 'Q' then "\"" ++ String.ofList (name.toList.flatMap fun c =>
    if !isShown c then escaped c else if c = '"' ∨ c = '\\' then ['\\', c] else [c]) ++ "\""
  else if s.has 'b' then String.ofList (name.toList.flatMap fun c =>
    if !isShown c then escaped c else if c = ' ' ∨ c = '\\' then ['\\', c] else [c])
  else name

/-- A number of bytes in the largest unit in which it is at least one. -/
def humanSize (n : Nat) : String :=
  let rec go : (fuel : Nat) → Nat → List String → String
    | 0, n, _ | _, n, [] => toString n
    | fuel + 1, n, unit :: units =>
      let tenths := (n * 10 + 1023) / 1024
      if n < 1024 * 1024 || units = [] then
        if tenths < 100 then toString (tenths / 10) ++ "." ++ toString (tenths % 10) ++ unit
        else toString ((n + 1023) / 1024) ++ unit
      else go fuel ((n + 1023) / 1024) units
  if n < 1024 then toString n else go 5 n ["K", "M", "G", "T"]

/-- The lines that list names. The times of changes are not kept, so all are the first one. -/
def rows (s : Setting) (entries : List Listed) : List String :=
  let shown (e : Listed) : String :=
    let target :=
      match e.entry with
      | .link target => if s.has 'l' then " -> " ++ Text.toByteText target else ""
      | _ => ""
    nameOf s e.name ++ signOf s e.entry ++ target
  let size (e : Listed) : String :=
    if s.has 'h' then humanSize (sizeOf e.entry) else toString (sizeOf e.entry)
  let widest (texts : List String) : Nat := (texts.map String.length).foldl max 0
  let isLong := s.has 'l' || s.has 'n' || s.has 'g' || s.has 'o'
  let linkWidth := widest (entries.map fun e => toString e.links)
  let sizeWidth := widest (entries.map size)
  let owner := if s.has 'n' then "0" else "root"
  let long (e : Listed) : String :=
    modeText e.entry ++ " " ++ padLeft linkWidth (toString e.links) ++ " " ++
      (if s.has 'g' then "" else owner ++ " ") ++ (if s.has 'o' then "" else owner ++ " ") ++
      padLeft sizeWidth (size e) ++ " Jan  1  1970 " ++ shown e
  let blockWidth := widest (entries.map fun e => toString (blocksOf e.entry))
  let lines := entries.map fun e =>
    (if s.has 's' then padLeft blockWidth (toString (blocksOf e.entry)) ++ " " else "") ++
      (if isLong then long e else shown e)
  if s.last? ['m', 'l', '1'] = some 'm' && lines ≠ [] then [String.intercalate ", " lines]
  else lines

/-- The number of blocks of a directory, if it is shown. -/
def totalOf (s : Setting) (entries : List Listed) : List String :=
  if s.has 'l' || s.has 'n' || s.has 'g' || s.has 'o' || s.has 's' then
    ["total " ++ toString ((entries.map fun e => blocksOf e.entry).foldl (· + ·) 0)]
  else []

/-! ## Directories -/

/-- The entries of a directory that are listed. -/
def entriesOf (s : Setting) (t : FileTree) (location : Location) : List Listed :=
  let isAll := s.has 'a' || s.has 'f'
  let names := (t.childNames location).filter fun name =>
    isAll || s.has 'A' || name.toList.head? ≠ some '.'
  let children := names.filterMap fun name =>
    let here := location ++ [name]
    let target : Location :=
      if s.has 'L' then
        ((t.locatePieces true "/" here).toOption.filter fun l => (t.entry? l).isSome).getD here
      else here
    ofLocation t (Text.toByteText name) target
  let dots : List Listed :=
    if isAll then
      (ofLocation t "." location).toList ++ (ofLocation t ".." location.dropLast).toList
    else []
  ordered s (dots ++ children)

/-- The lists of a directory and of those below it, each by its path with its lines. Every
directory has a longer path than the one around it, so `fuel` bounds the depth. -/
def listsOf (s : Setting) (t : FileTree) : (fuel : Nat) → (path : String) → Location →
    List (String × List String)
  | 0, _, _ => []
  | fuel + 1, path, location =>
    let entries := entriesOf s t location
    let below := entries.filter fun e =>
      e.entry = .directory && e.name ≠ "." && e.name ≠ ".."
    (path, totalOf s entries ++ rows s entries) ::
      if s.has 'R' then
        below.flatMap fun e =>
          listsOf s t fuel (inDirectory path e.name) (location ++ [Text.ofByteText e.name])
      else []

/-- The options. -/
def table : OptionTable where
  letters := "aAdRrFp1lLHnogishtSXUfkGNQbqmCxcuBvZD".toList
  valued := "wIT".toList
  optional := ['K']
  long := [("all", 'a'), ("almost-all", 'A'), ("directory", 'd'), ("recursive", 'R'),
    ("reverse", 'r'), ("classify", 'F'), ("dereference", 'L'), ("human-readable", 'h'),
    ("size", 's'), ("color", 'K'), ("group-directories-first", 'D'), ("quote-name", 'Q'),
    ("escape", 'b'), ("literal", 'N'), ("no-group", 'G'), ("numeric-uid-gid", 'n'),
    ("width", 'w'), ("ignore", 'I')]
  stopsEarly := false

end Listing

open Listing in
/-- Lists files and the entries of directories. -/
def ls : Utility := withTable Listing.table 2 fun r s =>
  let t := r.tree
  let words := if s.operands = [] then ["."] else s.operands
  let isDirectory (word : String) : Bool :=
    let path := Request.path word
    let followsLinks :=
      s.has 'L' || s.has 'H' || !(s.has 'l' || s.has 'n' || s.has 'g' || s.has 'o' || s.has 'F')
    !s.has 'd' &&
      (if followsLinks then t.isDirectory path else t.statEntry path matches .ok .directory)
  let found := words.map fun word =>
    let path := Request.path word
    let location : Except SystemError Location := do
      let entry ← t.statEntry path
      match entry with
      | .link _ =>
        if s.has 'L' || isDirectory word then
          let _ ← t.stat path
          t.locate path
        else t.locateEntry path
      | _ => t.locateEntry path
    (word, location)
  let complaints := found.filterMap fun
    | (word, .error e) =>
      some (r.telling ("cannot access " ++ shellQuoted word ++ ": " ++ e.reason))
    | _ => none
  let files := found.filterMap fun
    | (word, .ok location) => if isDirectory word then none else ofLocation t word location
    | _ => none
  let directories := found.filterMap fun
    | (word, .ok location) => if isDirectory word then ofLocation t word location else none
    | _ => none
  let fileLines := rows s (ordered s files)
  let lists := (ordered s directories).flatMap fun e =>
    match t.locate (Request.path e.name) with
    | .ok location => listsOf s t FileTree.pathLimit e.name location
    | .error _ => []
  let isNamed := 1 < words.length || s.has 'R'
  let blocks := (if fileLines = [] then [] else [fileLines]) ++
    lists.map fun list => (if isNamed then [list.1 ++ ":"] else []) ++ list.2
  (Effect.lines t (([""] : List String).intercalate blocks)).withComplaints 2 complaints

/-! ## Single entries -/

/-- The name of the kind of an entry. -/
def kindName : FileEntry → String
  | .directory => "directory"
  | .file content _ => if content.bytes = [] then "regular empty file" else "regular file"
  | .link _ => "symbolic link"
  | .nullDevice => "character special file"

/-- The text that a format shows of an entry. -/
def statText (word : String) (e : Listing.Listed) : List Char → String
  | '%' :: c :: cs =>
    let target :=
      match e.entry with
      | .link target => " -> " ++ shellQuoted (Text.toByteText target)
      | _ => ""
    let found :=
      [('n', word), ('N', shellQuoted word ++ target), ('s', toString (sizeOf e.entry)),
        ('F', kindName e.entry), ('a', String.ofList (Nat.toDigits 8 (permissionsOf e.entry))),
        ('A', modeText e.entry), ('U', "root"), ('G', "root"), ('u', "0"), ('g', "0"),
        ('h', toString e.links), ('%', "%")].lookup c
    found.getD (String.ofList ['%', c]) ++ statText word e cs
  | c :: cs => String.singleton c ++ statText word e cs
  | [] => ""

/-- Shows what is known of files. -/
def stat : Utility :=
  withOptions "Lft" "cY" [("format", 'c'), ("printf", 'Y'), ("dereference", 'L')] <|
    needing "operand" fun r s =>
      forEach (fun t word =>
        let path := Request.path word
        let found : Except SystemError (Option Listing.Listed) := do
          let _ ← if s.has 'L' then t.stat path else t.statEntry path
          let location ← if s.has 'L' then t.locate path else t.locateEntry path
          return Listing.ofLocation t word location
        match found, s.value? 'c', s.value? 'Y' with
        | .error e, _, _ =>
          .failure t 1 r.program ("cannot statx " ++ shellQuoted word ++ ": " ++ e.reason)
        | .ok (some e), some format, _ => .lines t [statText word e format.toList]
        | .ok (some e), none, some format =>
          .output t ((statText word e format.toList).replace "\\n" "\n").toList
        | _, _, _ => .lines t [word]) r.tree s.operands

end SchemaGraph.Shell.Utility
