import SchemaGraph.Shell.Bracket
import SchemaGraph.Shell.Regex.Reader
import SchemaGraph.Shell.Utility.Basic
/-!
# Searching files

The program that shows the lines of files in which patterns occur. What it shows of a line, and of
the lines around it, is asked for by options.
-/

namespace SchemaGraph.Shell.Utility.Searching

/-- What is searched, and what is shown of it. -/
structure Search where
  pattern : Regex
  mode : MatchMode
  selected : Selected
  /-- Whether the name of a file stands before its lines. -/
  showsNames : Bool
  /-- How many lines are shown at most. -/
  limit : Option Nat
  /-- How many lines are shown after and before each of them. -/
  after : Nat
  before : Nat

/-- A line of a file. -/
structure Line where
  number : Nat
  /-- The number of characters before it. -/
  offset : Nat
  /-- The line without its end. -/
  text : List Char
  isChosen : Bool

/-- A line, and whether it is shown because of another one. -/
abbrev ShownLine : Type :=
  Line × Bool

namespace Search

/-- Whether an option was given. -/
def has (s : Search) (letter : Char) : Bool :=
  s.selected.has letter

/-- The character at the ends of lines. -/
def lineEnd (s : Search) : Char :=
  if s.has 'z' then '\x00' else '\n'

/-- The lines of a text, with their numbers and offsets. -/
def linesOf (s : Search) (text : List Char) : List Line :=
  let pieces := Text.splitAt (· == s.lineEnd) text
  let pieces := if pieces.getLast? = some [] then pieces.dropLast else pieces
  let step (run : Nat × Nat × Nat × List Line) (piece : List Char) : Nat × Nat × Nat × List Line :=
    let (number, offset, count, lines) := run
    let isChosen :=
      s.limit.all (count < ·) && (s.pattern.occursIn s.mode piece != s.has 'v')
    (number + 1, offset + piece.length + 1, if isChosen then count + 1 else count,
      ⟨number, offset, piece, isChosen⟩ :: lines)
  (pieces.foldl step (1, 0, 0, [])).2.2.2.reverse

/-- The lines with a mark for those among the given number after a chosen one. -/
def markAfter (size : Nat) (ends : Line → Bool) : (left : Nat) → List ShownLine → List ShownLine
  | _, [] => []
  | left, (line, isMarked) :: rest =>
    if line.isChosen then (line, isMarked) :: markAfter size ends size rest
    else if ends line then (line, isMarked) :: markAfter size ends 0 rest
    else (line, isMarked || 0 < left) :: markAfter size ends (left - 1) rest

/-- The lines that are shown, each with what says whether it is chosen itself. -/
def shownLines (s : Search) (lines : List Line) : List Line :=
  let isPast (line : Line) : Bool :=
    s.limit.isSome && !line.isChosen && (s.pattern.occursIn s.mode line.text != s.has 'v')
  let forwards := markAfter s.after isPast 0 (lines.map (·, false))
  let backwards := (markAfter s.before (fun _ => false) 0 forwards.reverse).reverse
  (backwards.filter fun entry => entry.1.isChosen || entry.2).map (·.1)

/-- What stands before a line: the name of its file, its number and its offset. -/
def front (s : Search) (name : String) (line : Line) (offset : Nat) : List Char :=
  let sign := if line.isChosen then ':' else '-'
  let named :=
    if s.showsNames then name.toList ++ [if s.has 'Z' then '\x00' else sign] else []
  let wide (n width : Nat) : List Char :=
    (if s.has 'T' then padLeft width (toString n) else toString n).toList
  let numbered := if s.has 'n' then wide line.number 4 ++ [sign] else []
  let placed := if s.has 'b' then wide offset 3 ++ [sign] else []
  let all := named ++ numbered ++ placed
  if s.has 'T' && all ≠ [] then all ++ ['\t'] else all

/-- The parts of a line that match, each with its place. -/
def parts (s : Search) : (fuel : Nat) → Place → List (Nat × List Char)
  | 0, _ => []
  | fuel + 1, p =>
    match s.pattern.find? s.mode p with
    | none => []
    | some found =>
      if found.text = [] then
        if found.start.rest = [] then [] else parts s fuel found.start.advance
      else (found.start.position, found.text) :: parts s fuel found.stop

/-- The text in which a line is shown. -/
def lineText (s : Search) (name : String) (line : Line) : List Char :=
  if s.has 'o' then
    if line.isChosen && !s.has 'v' then
      (s.parts (line.text.length + 1) (.start line.text)).flatMap fun part =>
        s.front name line (line.offset + part.1) ++ part.2 ++ [s.lineEnd]
    else []
  else s.front name line line.offset ++ line.text ++ [s.lineEnd]

/-- The text in which lines are shown, with a sign between those that do not follow each other. -/
def allText (s : Search) (name : String) : (latest : Nat) → List Line → List Char
  | _, [] => []
  | latest, line :: rest =>
    let gap :=
      if 0 < s.after + s.before && latest ≠ 0 && latest + 1 ≠ line.number then ['-', '-', '\n']
      else []
    gap ++ s.lineText name line ++ s.allText name line.number rest

/-- What is shown of a file, and whether anything was found in it. -/
def show_ (s : Search) (program name : String) (text : List Char) : List Char × Bool :=
  let lines := s.linesOf text
  let count := (lines.filter (·.isChosen)).length
  let nameEnd := if s.has 'Z' then '\x00' else '\n'
  let isBinary := !s.has 'a' && !s.has 'z' && text.contains '\x00'
  let shown : List Char :=
    if s.has 'q' then []
    else if s.has 'l' then if 0 < count then name.toList ++ [nameEnd] else []
    else if s.has 'L' then if 0 < count then [] else name.toList ++ [nameEnd]
    else if s.has 'c' then
      (if s.showsNames then name.toList ++ [if s.has 'Z' then '\x00' else ':'] else []) ++
        (toString count).toList ++ ['\n']
    else if isBinary then
      if 0 < count && !s.has 'I' then
        (program ++ ": " ++ name ++ ": binary file matches\n").toList
      else []
    else s.allText name 0 (s.shownLines lines)
  (shown, if s.has 'L' then count = 0 else 0 < count && !(isBinary && s.has 'I'))

end Search

/-! ## Words of the program -/

/-- The options. -/
def table : OptionTable where
  letters := "EFGPiyvwxclLqsonbHhrRzZaITUu".toList
  valued := "efmABCDdXNS".toList
  optional := ['K']
  long := [("extended-regexp", 'E'), ("fixed-strings", 'F'), ("basic-regexp", 'G'),
    ("perl-regexp", 'P'), ("regexp", 'e'), ("file", 'f'), ("ignore-case", 'i'),
    ("invert-match", 'v'), ("word-regexp", 'w'), ("line-regexp", 'x'), ("count", 'c'),
    ("files-with-matches", 'l'), ("files-without-match", 'L'), ("quiet", 'q'), ("silent", 'q'),
    ("no-messages", 's'), ("only-matching", 'o'), ("line-number", 'n'), ("byte-offset", 'b'),
    ("with-filename", 'H'), ("no-filename", 'h'), ("recursive", 'r'),
    ("dereference-recursive", 'R'), ("null-data", 'z'), ("null", 'Z'), ("text", 'a'),
    ("max-count", 'm'), ("after-context", 'A'), ("before-context", 'B'), ("context", 'C'),
    ("color", 'K'), ("colour", 'K'), ("include", 'N'), ("exclude", 'X'), ("exclude-dir", 'S'),
    ("initial-tab", 'T'), ("binary", 'U'), ("directories", 'd')]
  stopsEarly := false

/-- The words in which a number of lines after a hyphen is an option with a value. -/
def withNumbers (words : List String) : List String :=
  let before := words.takeWhile (· ≠ "--")
  (before.map fun word =>
    match word.toList with
    | '-' :: c :: cs => if (c :: cs).all Char.isDigit then "-C" ++ String.ofList (c :: cs) else word
    | _ => word) ++ words.drop before.length

/-- The patterns in a text, one on each line. -/
def patternsIn (text : List Char) : List (List Char) :=
  Text.splitAt (· == '\n') text

/-- The expression that any of several patterns matches. -/
def anyOf (selected : Selected) (patterns : List (List Char)) : Except String Regex := do
  let style := selected.last? ['E', 'F', 'G', 'P']
  let expressions ← patterns.mapM fun pattern =>
    if style = some 'F' then pure (Regex.ofText pattern)
    else
      Regex.read (if style = some 'E' ∨ style = some 'P' then .extended else .basic) pattern
  let whole (e : Regex) : Regex :=
    if selected.has 'x' then .sequence (.edge .lineStart) (.sequence e (.edge .lineEnd))
    else if selected.has 'w' then .sequence (.edge .noWordBefore) (.sequence e (.edge .noWordAfter))
    else e
  match expressions.map whole with
  | [] => return .oneOf ⟨false, []⟩
  | e :: rest => return rest.foldl Regex.either e

/-- Whether the name of a file or a directory is left out of a search below a directory. -/
def isExcluded (selected : Selected) (isDirectory : Bool) (name : String) : Bool :=
  let matchesAny (patterns : List String) : Bool := patterns.any fun pattern =>
    (NamePattern.read (pattern.toList.map (·, false))).accepts name.toList
  if isDirectory then matchesAny (selected.allValues 'S')
  else
    matchesAny (selected.allValues 'X') ||
      (!(selected.allValues 'N').isEmpty && !matchesAny (selected.allValues 'N'))

/-- The files below a directory, each by its path. -/
def filesBelow (t : FileTree) (selected : Selected) (directory : String) : List String :=
  match t.locate (Request.path directory) with
  | .error _ => []
  | .ok location =>
    (t.below location).filterMap fun entry =>
      let names := entry.1.map Text.toByteText
      match entry.2 with
      | .file _ _ =>
        if names.dropLast.any (isExcluded selected true) ||
          isExcluded selected false (names.getLast?.getD "") then none
        else
          some (inDirectory directory (Path.ofPieces names))
      | _ => none

/-- What is to be searched for each word: the word itself, or the files below a directory. -/
def targets (t : FileTree) (selected : Selected) (operands : List String) : List String :=
  if selected.has 'r' || selected.has 'R' then
    (if operands = [] then [""] else operands).flatMap fun word =>
      if word = "" then
        (filesBelow t selected ".").map fun path => String.ofList (path.toList.drop 2)
      else if t.isDirectory (Request.path word) then filesBelow t selected word
      else [word]
  else sources operands

/-- A number that an option has, or what is wrong with it. -/
def numberOf (selected : Selected) (letter : Char) (complaint : String → String) :
    Except String (Option Nat) :=
  match selected.value? letter with
  | none => .ok none
  | some text =>
    match text.toNat? with
    | some n => .ok (some n)
    | none => .error (complaint text)

/-- The patterns that the options or the first operand give, and the other operands. -/
def patternsOf (r : Request) (selected : Selected) :
    Except String (Option (List (List Char)) × List String) := do
  let given := selected.options.filter fun option => option.1 == 'e' || option.1 == 'f'
  if given = [] then
    match selected.operands with
    | [] => return (none, [])
    | pattern :: operands => return (some (patternsIn pattern.toList), operands)
  else
    let patterns ← given.mapM fun option =>
      if option.1 = 'e' then .ok (patternsIn option.2.toList)
      else
        match r.read r.tree option.2 with
        | .ok text => .ok (bareLines text)
        | .error e => .error (complaintAbout option.2 e)
    return (some patterns.flatten, selected.operands)

/-- How the program is to be called. -/
def usage (r : Request) : String :=
  "Usage: " ++ r.program ++ " [OPTION]... PATTERNS [FILE]...\nTry '" ++ r.program ++
    " --help' for more information.\n"

/-- Searches files. -/
def search (s : Search) (r : Request) (words : List String) : Effect :=
  let step (run : Bool × Bool × List Shown) (word : String) : Bool × Bool × List Shown :=
    let (isFound, isWrong, shown) := run
    if isFound && s.has 'q' then run
    else
      match r.read r.tree word with
      | .ok text =>
        let name := if Request.isInput word then "(standard input)" else word
        let (output, found) := s.show_ r.program name text
        (isFound || found, isWrong, .output output :: shown)
      | .error e =>
        let complaint := r.telling (word ++ ": " ++ e.reason ++ "\n")
        (isFound, true, if s.has 's' then shown else .errors complaint :: shown)
  let (isFound, isWrong, shown) := words.foldl step (false, false, [])
  r.taking words
    ⟨r.tree, shown.reverse, 0,
      if isWrong && !(isFound && s.has 'q') then 2 else if isFound then 0 else 1⟩

/-- Searches files for patterns. The exit code says whether anything was found. -/
def run (fixed : List String) : Utility := fun r =>
  let r := { r with program := "grep" }
  let stop (complaint : String) : Effect := .failure r.tree 2 r.program complaint
  match table.read (fixed ++ withNumbers r.arguments) with
  | .error e =>
    ⟨r.tree, [.errors (r.telling (e.message ++ "\n") ++ usage r)], 0, 2⟩
  | .ok selected =>
    let asked : Except String Effect := do
      let (patterns?, operands) ← patternsOf r selected
      match patterns? with
      | none => return ⟨r.tree, [.errors (usage r)], 0, 2⟩
      | some patterns =>
        let limit ← numberOf selected 'm' fun _ => "invalid max count"
        let wrong (text : String) : String := text ++ ": invalid context length argument"
        let around ← numberOf selected 'C' wrong
        let after ← numberOf selected 'A' wrong
        let before ← numberOf selected 'B' wrong
        let pattern ← anyOf selected patterns
        let words := targets r.tree selected operands
        let isDeep := selected.has 'r' || selected.has 'R'
        let isMany := 1 < operands.length ||
          (isDeep && (operands = [] || operands.any fun w => r.tree.isDirectory (Request.path w)))
        let showsNames :=
          match selected.last? ['H', 'h'] with
          | some letter => letter = 'H'
          | none => isMany
        let mode : MatchMode := ⟨selected.has 'i' || selected.has 'y', false⟩
        let count (n : Option Nat) : Nat := n.getD (around.getD 0)
        let s : Search :=
          ⟨pattern, mode, selected, showsNames, limit, count after, count before⟩
        return search s r words
    match asked with
    | .ok e => e
    | .error complaint => stop complaint

end Searching

/-- Shows the lines in which patterns occur. -/
def grep : Utility :=
  Searching.run []

/-- Shows the lines in which extended patterns occur. -/
def egrep : Utility :=
  Searching.run ["-E"]

/-- Shows the lines in which texts occur. -/
def fgrep : Utility :=
  Searching.run ["-F"]

end SchemaGraph.Shell.Utility
