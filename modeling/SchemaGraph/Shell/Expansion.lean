import SchemaGraph.Shell.Arithmetic
import SchemaGraph.Shell.Bracket
import SchemaGraph.Shell.State
/-!
# Expansion of words

Before a command runs its words become fields: parameters, the output of commands and arithmetic
values take the place of what names them, what they give outside quotes is split, and a field with
wildcards becomes the paths that it matches.
-/

namespace SchemaGraph.Shell

/-- Where a character of an expanded word comes from. -/
inductive Origin where
  | quoted
  /-- It stands in the word. -/
  | written
  /-- It stands in a value outside quotes, where fields may end. -/
  | value
  deriving DecidableEq, Repr

/-- A step in the text that a word becomes. -/
inductive Mark where
  | char (c : Char) (origin : Origin)
  /-- Something that makes a field, even when no character does. -/
  | presence
  /-- The end of a field. -/
  | gap
  deriving DecidableEq, Repr

/-- The marks of a text. -/
def marksOf (origin : Origin) (text : String) : List Mark :=
  text.toList.map fun c => .char c origin

/-- The characters of marks, with the mark of those that only stand for themselves. -/
def charsOfMarks (marks : List Mark) : List PatternChar :=
  marks.filterMap fun
    | .char c origin => some (c, origin = .quoted)
    | .presence => none
    | .gap => some (' ', true)

/-- The marks in which what stands in a word is a part of a value. -/
def asValue (marks : List Mark) : List Mark :=
  marks.map fun
    | .char c .written => .char c .value
    | mark => mark

/-- The text of marks that are not split. -/
def textOfMarks (marks : List Mark) : String :=
  String.ofList ((charsOfMarks marks).map (·.1))

/-! ## Splitting -/

/-- Fields on the way, the latest first, each with its latest character first. -/
structure Splitting where
  fields : List (List PatternChar)
  /-- The present field, if there is one. -/
  field : Option (List PatternChar)
  /-- Whether blanks have ended the latest field. -/
  afterBlanks : Bool

namespace Splitting

/-- Ends the present field. -/
def close (s : Splitting) (afterBlanks : Bool) : Splitting :=
  match s.field with
  | some field => ⟨field :: s.fields, none, afterBlanks⟩
  | none => s

/-- Goes on with the present field, or begins one. -/
def extend (s : Splitting) (chars : List PatternChar) : Splitting :=
  ⟨s.fields, some (chars ++ s.field.getD []), false⟩

/-- Takes a mark. Blanks around another separator belong to it; two such separators have an empty
field between them. -/
def take (separators : List Char) (s : Splitting) : Mark → Splitting
  | .presence => s.extend []
  | .gap => s.close false
  | .char c origin =>
    if origin ≠ .value || !separators.contains c then s.extend [(c, origin = .quoted)]
    else if isSpace c || c == '\n' then s.close true
    else if s.field.isSome then s.close false
    else if s.afterBlanks then { s with afterBlanks := false }
    else ⟨[] :: s.fields, none, false⟩

end Splitting

/-- The fields of marks. -/
def fieldsOfMarks (separators : List Char) (marks : List Mark) : List (List PatternChar) :=
  let split := (marks.foldl (Splitting.take separators) ⟨[], none, false⟩).close false
  (split.fields.map List.reverse).reverse

/-! ## Paths -/

/-- The names of the entries of a directory, as byte texts. -/
def namesIn (t : FileTree) (path : String) : List String :=
  (t.listDirectory (Text.ofByteText path)).map Text.toByteText

/-- The paths that go on from `base` along the components of a field. A name that starts with a dot
must be asked for. -/
def pathsAlong (t : FileTree) : (base : String) → List (List PatternChar) → List String
  | base, [] => [base]
  | base, component :: rest =>
    let goOn (name : String) : List String :=
      pathsAlong t (base ++ name ++ if rest = [] then "" else "/") rest
    let pattern := NamePattern.read component
    if pattern.hasWildcard then
      let showsDots := pattern.head? = some (.char '.')
      ((namesIn t (if base = "" then "." else base)).filter fun name =>
        pattern.accepts name.toList && (showsDots || name.toList.head? ≠ some '.')).flatMap goOn
    else goOn (String.ofList (component.map (·.1)))

/-- The paths that a field matches; the field itself when there are none. -/
def pathsOf (t : FileTree) (field : List PatternChar) : List String :=
  let text := String.ofList (field.map (·.1))
  if (NamePattern.read field).hasWildcard then
    let found := (pathsAlong t "" (Text.splitAt (·.1 == '/') field)).filter fun path =>
      (t.statEntry (Text.ofByteText path)).toOption.isSome
    if found = [] then [text] else found
  else [text]

/-- A value without its beginning that matches a pattern. -/
def withoutStart (longest : Bool) (pattern : NamePattern) (value : List Char) : List Char :=
  let sizes := List.range (value.length + 1)
  let found := (if longest then sizes.reverse else sizes).find? fun n =>
    pattern.accepts (value.take n)
  value.drop (found.getD 0)

/-- A value without its end that matches a pattern. -/
def withoutEnd (longest : Bool) (pattern : NamePattern) (value : List Char) : List Char :=
  let sizes := List.range (value.length + 1)
  let found := (if longest then sizes else sizes.reverse).find? fun n =>
    pattern.accepts (value.drop n)
  value.take (found.getD value.length)

/-! ## Home directories -/

/-- The home directories of users that every system has. -/
def homes : List (String × String) :=
  [("root", "/root"), ("daemon", "/usr/sbin"), ("bin", "/bin"), ("sys", "/dev"), ("sync", "/bin"),
    ("games", "/usr/games"), ("man", "/var/cache/man"), ("lp", "/var/spool/lpd"),
    ("mail", "/var/mail"), ("news", "/var/spool/news"), ("www-data", "/var/www"),
    ("backup", "/var/backups"), ("nobody", "/nonexistent")]

/-- Where in a word tildes stand for home directories. -/
inductive Tildes where
  | nowhere
  | front
  /-- In front and after colons. -/
  | everywhere
  /-- Only after colons. -/
  | later
  deriving DecidableEq, Repr

namespace Tildes

/-- Where tildes stand for home directories after the first part of a word. -/
def afterFront : Tildes → Tildes
  | nowhere | front => nowhere
  | everywhere | later => later

/-- The marks of a text in front of which a tilde may stand for the home directory of the present
user, or of the one whose name follows. `isEnd` says whether the word ends with the text, so that
nothing else belongs to that name. -/
def homeMarks (home : Option String) (isEnd : Bool) (text : List Char) : List Mark :=
  let asWritten := text.map fun c => Mark.char c .written
  match text with
  | '~' :: cs =>
    let name := String.ofList (cs.takeWhile (· != '/'))
    let rest := cs.dropWhile (· != '/')
    if rest = [] && !isEnd then asWritten
    else
      match (if name = "" then home else homes.lookup name) with
      | some home => marksOf .quoted home ++ rest.map fun c => .char c .written
      | none => asWritten
  | _ => asWritten

/-- The marks of a text that stands in a word. -/
def marks (tildes : Tildes) (home : Option String) (isEnd : Bool) (text : String) : List Mark :=
  match tildes with
  | nowhere => marksOf .written text
  | front => homeMarks home isEnd text.toList
  | everywhere | later =>
    let pieces := Text.splitAt (· == ':') text.toList
    let marked := pieces.zipIdx.map fun (piece, i) =>
      if i = 0 && tildes = later then piece.map fun c => .char c .written
      else homeMarks home (i + 1 < pieces.length || isEnd) piece
    List.intercalate [.char ':' .written] marked

end Tildes

/-! ## Words -/

/-- What a word is expanded for. -/
inductive WordUse where
  /-- It becomes fields. -/
  | fields
  /-- It becomes a single text. -/
  | text
  /-- It becomes the value of a variable. -/
  | value
  deriving DecidableEq, Repr

/-- What expands words: how scripts are run for their output, what surrounds the words, and what
they are for. -/
structure Expander where
  outputOf : Script → State → String × State
  frame : Frame
  use : WordUse

namespace Expander

/-- Whether values are split. -/
def splits (x : Expander) : Bool :=
  x.use = .fields

/-- The marks of a value. -/
def marks (x : Expander) (inQuotes : Bool) (value : String) : List Mark :=
  if inQuotes then .presence :: marksOf .quoted value
  else marksOf (if x.splits then .value else .written) value

/-- The marks of all arguments, each of them a field. -/
def argumentMarks (x : Expander) (s : State) (inQuotes : Bool) : List Mark :=
  List.intercalate [.gap] (s.arguments.map (x.marks inQuotes))

/-- Where tildes stand for home directories in a part of a word that another text may replace. -/
def operandTildes (x : Expander) (inQuotes : Bool) : Tildes :=
  if inQuotes then .nowhere else if x.use = .value then .everywhere else .front

/-- Ends the script with a complaint. -/
def refuse (x : Expander) (s : State) (complaint : String) : State :=
  (s.complain x.frame complaint).refuse x.frame.variety.failureCode

/-- The number that a variable is in an arithmetic expression. -/
def number (x : Expander) (s : State) (name : String) : Except Arithmetic.Problem Int :=
  Arithmetic.ofVariable ((s.value? x.frame name).getD "")

/-- The value of an arithmetic expression, and the state with what it assigns. -/
def calculate (x : Expander) (expression : String) (s : State) : String × State :=
  match Arithmetic.value (x.number s) expression with
  | .ok (value, assigned) =>
    (toString value, assigned.foldr (fun e s => s.assign x.frame e.1 (toString e.2)) s)
  | .error e => ("", x.refuse s (e.complaint expression))

/-- The marks of the value of a parameter that is not changed. -/
def plainMarks (x : Expander) (s : State) (name : String) (inQuotes : Bool) :
    List Mark × State :=
  let isList := name = "@" ∨ name = "*"
  if isList && x.splits && (name = "@" || !inQuotes) then (x.argumentMarks s inQuotes, s)
  else
    match s.value? x.frame name with
    | some value => (x.marks inQuotes value, s)
    | none =>
      if s.has 'u' && !isList then
        ([], x.refuse s (name ++ match x.frame.variety with
          | .plain => ": parameter not set"
          | .extended => ": unbound variable"))
      else (x.marks inQuotes "", s)

mutual

/-- The marks of a part of a word and the state that its expansion leaves. -/
def expandPart (x : Expander) : WordPart → State → List Mark × State
  | .bare text, s => (marksOf .written text, s)
  | .quoted text, s => (.presence :: marksOf .quoted text, s)
  | .output body inQuotes, s =>
    let (text, s) := x.outputOf body s
    (x.marks inQuotes text, s)
  | .value expression inQuotes, s =>
    let (marks, s) := expand x .nowhere expression s
    let (value, s) := x.calculate (textOfMarks marks) s
    (x.marks inQuotes value, s)
  | .parameter name change operand inQuotes, s =>
    let value? := s.value? x.frame name
    let isSet (alsoEmpty : Bool) : Bool :=
      match value? with
      | none => false
      | some value => !alsoEmpty || value ≠ ""
    let unsplit : Expander := { x with use := .text }
    let present : List Mark × State := x.plainMarks s name inQuotes
    let other : List Mark × State :=
      let (marks, s) := expand x (x.operandTildes inQuotes) operand s
      (if x.splits then asValue marks else marks, s)
    let cutting (cut : NamePattern → List Char → List Char) : List Mark × State :=
      match value? with
      | none => present
      | some value =>
        let (marks, s) := expand unsplit .front operand s
        let kept := cut (.read (charsOfMarks marks)) value.toList
        (x.marks inQuotes (String.ofList kept), s)
    match change with
    | .plain => present
    | .length =>
      match value? with
      | none => if s.has 'u' then present else (x.marks inQuotes "0", s)
      | some value => (x.marks inQuotes (toString value.length), s)
    | .default alsoEmpty => if isSet alsoEmpty then present else other
    | .alternative alsoEmpty =>
      if isSet alsoEmpty then other else (x.marks inQuotes "", s)
    | .assign alsoEmpty =>
      if isSet alsoEmpty then present
      else
        let (marks, s) := expand unsplit (unsplit.operandTildes inQuotes) operand s
        let text := textOfMarks marks
        if isName name then (x.marks inQuotes text, s.assign x.frame name text)
        else ([], x.refuse s (name ++ ": bad variable name"))
    | .refuse alsoEmpty =>
      if isSet alsoEmpty then present
      else
        let (marks, s) := expand unsplit (unsplit.operandTildes inQuotes) operand s
        let standard :=
          if alsoEmpty then "parameter not set or null" else "parameter not set"
        let text := if operand.isEmpty then standard else textOfMarks marks
        ([], x.refuse s (name ++ ": " ++ text))
    | .withoutStart longest => cutting (withoutStart longest)
    | .withoutEnd longest => cutting (withoutEnd longest)
    | .unknown => ([], x.refuse s "Bad substitution")

/-- The marks of a word and the state that its expansion leaves. -/
def expand (x : Expander) : Tildes → List WordPart → State → List Mark × State
  | _, [], s => ([], s)
  | tildes, .bare text :: rest, s =>
    let first := tildes.marks (s.value? x.frame "HOME") rest.isEmpty text
    let (more, s) := expand x tildes.afterFront rest s
    (first ++ more, s)
  | tildes, part :: rest, s =>
    let (first, s) := expandPart x part s
    let (more, s) := expand x tildes.afterFront rest s
    (first ++ more, s)

end

/-- The text of a word that is not split. -/
def text (x : Expander) (word : Word) (s : State) : String × State :=
  let (marks, s) := { x with use := .text }.expand .front word s
  (textOfMarks marks, s)

/-- The value that a word is for a variable. -/
def value (x : Expander) (word : Word) (s : State) : String × State :=
  let (marks, s) := { x with use := .value }.expand .everywhere word s
  (textOfMarks marks, s)

/-- The pattern that a word is. -/
def pattern (x : Expander) (word : Word) (s : State) : NamePattern × State :=
  let (marks, s) := { x with use := .text }.expand .front word s
  (.read (charsOfMarks marks), s)

/-- The fields that words become. -/
def fields (x : Expander) : List Word → State → List String × State
  | [], s => ([], s)
  | word :: words, s =>
    let (marks, s) := { x with use := .fields }.expand .front word s
    let paths (field : List PatternChar) : List String :=
      if s.has 'f' then [String.ofList (field.map (·.1))] else pathsOf s.tree field
    let found := (fieldsOfMarks s.separators marks).flatMap paths
    let (more, s) := x.fields words s
    (found ++ more, s)

/-- The texts of words that are not split. -/
def texts (x : Expander) : List Word → State → List String × State
  | [], s => ([], s)
  | word :: words, s =>
    let (first, s) := x.text word s
    let (more, s) := x.texts words s
    (first :: more, s)

/-- Whether words of the form `name=value` are not split that follow the given ones. -/
def declares (words : List String) : Bool :=
  (words.dropWhile (["command", "-p", "--"].contains ·)).head?.any
    (["alias", "export", "local", "readonly"].contains ·)

/-- The words of a command. Between double brackets an extended shell does not split them. -/
def commandWords (x : Expander) (words : List Word) (s : State) : List String × State :=
  match x.frame.variety, words.head?.bind bareText? with
  | .extended, some "[[" => x.texts words s
  | _, _ =>
    words.foldl (fun (run : List String × State) word =>
      let (before, s) := run
      match (if declares before then assignment? word else none) with
      | some (name, value) =>
        let (text, s) := x.value value s
        (before ++ [name ++ "=" ++ text], s)
      | none =>
        let (found, s) := x.fields [word] s
        (before ++ found, s)) ([], s)

/-- Gives variables the values of assignments. -/
def assignAll (x : Expander) (assignments : List (String × Word)) (s : State) : State :=
  assignments.foldl (fun s assignment =>
    let (text, s) := x.value assignment.2 s
    s.assign x.frame assignment.1 text) s

end Expander
end SchemaGraph.Shell
