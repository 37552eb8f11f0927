import SchemaGraph.Files.Tree
import SchemaGraph.Shell.Options
import SchemaGraph.Shell.Quoting
import SchemaGraph.Text.Blank
import SchemaGraph.Text.Bytes
/-!
# Programs on files

The programs that scripts call to copy, move, remove, create, show and change files. Each takes a
request, which has the file tree, the words and what can be read, to an effect: the tree that is
left, what is written and an exit code. Texts of programs are byte texts.
-/

namespace SchemaGraph.Shell

/-- What a program gets. -/
structure Request where
  /-- The name by which the program was called. -/
  program : String
  arguments : List String
  tree : FileTree
  /-- What can be read. -/
  input : List Char
  /-- Whether what was read can be put back. -/
  isFile : Bool

/-- A text that a program writes. -/
inductive Shown where
  | output (text : List Char)
  | errors (text : String)
  deriving DecidableEq, Repr

/-- What a program does. -/
structure Effect where
  tree : FileTree
  /-- What is written, in its order. -/
  shown : List Shown
  /-- How many characters have been read. -/
  taken : Nat
  status : Nat

/-- A program. -/
abbrev Utility : Type :=
  Request → Effect

namespace Effect

/-- Nothing, with success. -/
def none (t : FileTree) : Effect :=
  ⟨t, [], 0, 0⟩

/-- A text as output. -/
def output (t : FileTree) (text : List Char) : Effect :=
  ⟨t, [.output text], 0, 0⟩

/-- Lines as output. -/
def lines (t : FileTree) (lines : List String) : Effect :=
  output t (lines.flatMap fun line => line.toList ++ ['\n'])

/-- A failure with what a program complains of. -/
def failure (t : FileTree) (status : Nat) (program complaint : String) : Effect :=
  ⟨t, [.errors (program ++ ": " ++ complaint ++ "\n")], 0, status⟩

/-- A failure because of wrong words. -/
def misuse (t : FileTree) (status : Nat) (program complaint : String) : Effect :=
  failure t status program (complaint ++ "\nTry '" ++ program ++ " --help' for more information.")

/-- One effect after another; a failure of one of them stays. -/
def andThen (e : Effect) (next : FileTree → Effect) : Effect :=
  let e' := next e.tree
  ⟨e'.tree, e.shown ++ e'.shown, max e.taken e'.taken, max e.status e'.status⟩

/-- Complaints before an effect, which is a failure if there are any. -/
def withComplaints (status : Nat) (complaints : List String) (e : Effect) : Effect :=
  { e with
    shown := complaints.map (fun complaint => .errors (complaint ++ "\n")) ++ e.shown
    status := if complaints = [] then e.status else max status e.status }

end Effect

namespace Request

/-- The path that a word is. -/
def path (word : String) : String :=
  Text.ofByteText word

/-- Whether a word stands for what can be read. -/
def isInput (word : String) : Bool :=
  word = "-" || word = "/dev/stdin" || word = "/dev/fd/0"

/-- The characters of a file, one for each byte. -/
def charsOf (content : FileContent) : List Char :=
  content.bytes.map fun byte => Char.ofNat byte.toNat

/-- The file content of some characters. -/
def contentOf (text : List Char) : FileContent :=
  .ofBytes (text.map fun c => UInt8.ofNat c.toNat)

/-- The text of a file, or what can be read in its place. -/
def read (r : Request) (t : FileTree) (word : String) : Except SystemError (List Char) :=
  if isInput word then .ok r.input else (t.readFile (path word)).map charsOf

/-- Whether what can be read is read for some words. -/
def readsInput (words : List String) : Bool :=
  words.any isInput

/-- The effect with what has been read for some words. -/
def taking (r : Request) (words : List String) (e : Effect) : Effect :=
  { e with taken := if readsInput words then r.input.length else e.taken }

/-- A failure with what the program complains of. -/
def fail (r : Request) (complaint : String) : Effect :=
  .failure r.tree 1 r.program complaint

/-- A failure because of wrong words. -/
def misuse (r : Request) (complaint : String) : Effect :=
  .misuse r.tree 1 r.program complaint

/-- A line of complaint. -/
def telling (r : Request) (complaint : String) : String :=
  r.program ++ ": " ++ complaint

end Request

namespace Utility

/-- The same for every word, one after the other. -/
def forEach (each : FileTree → String → Effect) : FileTree → List String → Effect
  | t, [] => .none t
  | t, word :: words => (each t word).andThen fun t => forEach each t words

/-- A program with options, which wrong ones end with an exit code. -/
def withTable (table : OptionTable) (status : Nat) (run : Request → Selected → Effect) : Utility :=
    fun r =>
  match table.read r.arguments with
  | .error e => .misuse r.tree status r.program e.message
  | .ok selected => run r selected

/-- A program with options. -/
def withOptions (letters valued : String) (long : List (String × Char))
    (run : Request → Selected → Effect) : Utility :=
  withTable (.ofLetters letters valued long) 1 run

/-- A program that needs at least one operand. -/
def needing (what : String) (run : Request → Selected → Effect) :
    Request → Selected → Effect := fun r selected =>
  if selected.operands = [] then r.misuse ("missing " ++ what) else run r selected

/-- A program that takes at most so many operands. -/
def limiting (count : Nat) (run : Request → Selected → Effect) :
    Request → Selected → Effect := fun r selected =>
  match selected.operands[count]? with
  | some word => r.misuse ("extra operand " ++ plainQuoted word)
  | none => run r selected

/-- A line of output. -/
def line (text : String) : Shown :=
  .output (text.toList ++ ['\n'])

/-- A remark for each change, if remarks are asked for. -/
def remark (isAsked : Bool) (t : FileTree) (text : String) : Effect :=
  if isAsked then ⟨t, [line text], 0, 0⟩ else .none t

/-- Characters in front of a text up to a width. -/
def padLeft (width : Nat) (text : String) : String :=
  String.ofList (List.replicate (width - text.length) ' ') ++ text

/-- The last component of a path, as programs name it. -/
def baseName (path : String) : String :=
  match Path.piecesFromEnd path with
  | [] => if path = "" then "" else "/"
  | name :: _ => if name = "" then "/" else name

/-- The path around the last component, as programs name it. -/
def directoryName (path : String) : String :=
  match (Path.piecesFromEnd path).tail.dropWhile (· == "") with
  | [] => if Path.isAbsolute path then "/" else "."
  | around => Path.ofPieces around.reverse

/-- The path of an entry in a directory, as programs name it. -/
def inDirectory (directory name : String) : String :=
  if directory.toList.getLast? = some '/' then directory ++ name else directory ++ "/" ++ name

/-- The words that name what is read; what can be read takes their place when there are none. -/
def sources (operands : List String) : List String :=
  if operands = [] then ["-"] else operands

/-- A complaint about a file. -/
def complaintAbout (name : String) (e : SystemError) : String :=
  quotedIfNeeded name ++ ": " ++ e.reason

/-- The permissions of an entry: what its owner, its group and all others may do with it. -/
def permissionsOf : FileEntry → Nat
  | .directory | .file _ true => 0o755
  | .file _ false => 0o644
  | .link _ => 0o777
  | .nullDevice => 0o666

/-- The letter of the kind of an entry. -/
def kindOf : FileEntry → Char
  | .directory => 'd'
  | .file _ _ => '-'
  | .link _ => 'l'
  | .nullDevice => 'c'

/-- The kind of an entry and what may be done with it. -/
def modeText (entry : FileEntry) : String :=
  let bits := permissionsOf entry
  let letter (place : Nat) (c : Char) : Char := if bits.testBit place then c else '-'
  let part (place : Nat) : List Char :=
    [letter (place + 2) 'r', letter (place + 1) 'w', letter place 'x']
  String.ofList (kindOf entry :: part 6 ++ part 3 ++ part 0)

/-- The number of bytes of an entry. -/
def sizeOf : FileEntry → Nat
  | .file content _ => content.bytes.length
  | .link target => target.utf8ByteSize
  | .directory => 4096
  | .nullDevice => 0

/-- The texts of several files, each with its name, or what is wrong with it. -/
def texts (r : Request) (operands : List String) :
    List (String × Except SystemError (List Char)) :=
  (sources operands).map fun word => (word, r.read r.tree word)

/-- The texts of several files one after the other, and what is complained of. -/
def joinedTexts (r : Request) (operands : List String) : List Char × List String :=
  let found := texts r operands
  ((found.filterMap fun entry => entry.2.toOption).flatten,
    found.filterMap fun
      | (word, .error e) => some (r.telling (complaintAbout word e))
      | _ => none)

/-- The lines of a text, each with its end. -/
def linesOf (text : List Char) : List (List Char) :=
  let lines := Text.splitAt (· == '\n') text
  lines.dropLast.map (· ++ ['\n']) ++ (lines.getLast?.filter (· ≠ [])).toList

/-- A line without its end. -/
def withoutEnd (line : List Char) : List Char :=
  if line.getLast? = some '\n' then line.dropLast else line

/-- The lines of a text without their ends. -/
def bareLines (text : List Char) : List (List Char) :=
  (linesOf text).map withoutEnd

/-- A program that takes the text of all its files together to another one. -/
def filter (change : Request → Selected → List Char → List Char) :
    Request → Selected → Effect := fun r selected =>
  let (text, complaints) := joinedTexts r selected.operands
  r.taking (sources selected.operands)
    ((Effect.output r.tree (change r selected text)).withComplaints 1 complaints)

/-- Writes a text into the file of a word. -/
def writeFile (t : FileTree) (word : String) (text : List Char) :
    Except SystemError FileTree := do
  t.writeAt (← t.locateFile (Request.path word)) (Request.contentOf text)

end Utility
end SchemaGraph.Shell
