import SchemaGraph.Shell.Bracket
import SchemaGraph.Shell.Launching.Basic
import SchemaGraph.Shell.Regex.Reader
/-!
# Finding files

The program that goes through the files below some paths and does something with those for which
conditions hold. Its words are one expression: conditions and actions, each of which is true or
false of a file. An action is done when the expression asks for its value.
-/

namespace SchemaGraph.Shell.Launcher.Finding

/-- How a number compares with a given one. -/
inductive Comparison where
  | less | equal | more
  deriving DecidableEq, Repr

/-- What the bits of permissions have to be. -/
inductive ModeTest where
  | exactly | all | any
  deriving DecidableEq, Repr

/-- An expression of conditions and actions. -/
inductive Expression where
  | always (value : Bool)
  | both (first second : Expression)
  | either (first second : Expression)
  | negated (body : Expression)
  /-- The second one counts. -/
  | after (first second : Expression)
  | named (ignoresCase : Bool) (pattern : NamePattern)
  | onPath (ignoresCase : Bool) (pattern : NamePattern)
  | wholePath (mode : MatchMode) (regex : Regex)
  | linkedTo (pattern : NamePattern)
  | kind (letters : List Char) (followsLinks : Bool)
  | size (comparison : Comparison) (count unit : Nat)
  | links (comparison : Comparison) (count : Nat)
  | empty
  | mode (test : ModeTest) (bits : Nat)
  | executable
  | sameFile (location : Location)
  | prune
  | quit
  | delete
  | print (stop : Char)
  | format (text : List Char)
  | run (words : List String) (isInside : Bool)
  /-- Runs words at the end, with the paths of all files for which this was asked. -/
  | collect (number : Nat) (words : List String)
  deriving Repr

/-- How files are gone through. -/
structure Setting where
  mostDepth? : Option Nat
  leastDepth : Nat
  /-- Whether what is in a directory comes before it. -/
  isDepthFirst : Bool
  followsLinks : Bool

/-- What has been read of the words, and what is left of them. -/
structure Reading where
  words : List String
  /-- The latest condition or action. -/
  latest : String
  setting : Setting
  /-- How many actions collect paths. -/
  collectors : Nat
  hasAction : Bool
  isExtended : Bool
  tree : FileTree
  warnings : List String

/-- A function that takes something from the front of the words, or complains. -/
abbrev ExpressionReader : Type → Type :=
  StateT Reading (Except String)

namespace ExpressionReader

/-- Takes the value of a condition or an action. -/
def value (name : String) : ExpressionReader String := do
  let r ← get
  match r.words with
  | [] => throw ("missing argument to `" ++ name ++ "'")
  | word :: words =>
    set { r with words }
    return word

/-- The pattern of a text. -/
def patternOf (ignoresCase : Bool) (text : String) : NamePattern :=
  NamePattern.read (text.toList.map fun c => (if ignoresCase then c.toLower else c, false))

/-- A number with a sign that says how it is compared. -/
def compared? (text : String) : Option (Comparison × Nat) :=
  match text.toList with
  | '+' :: digits => (String.ofList digits).toNat?.map (.more, ·)
  | '-' :: digits => (String.ofList digits).toNat?.map (.less, ·)
  | _ => text.toNat?.map (.equal, ·)

/-- Takes a number that is compared. -/
def compared (name : String) : ExpressionReader (Comparison × Nat) := do
  let text ← value name
  match compared? text with
  | some found => return found
  | none => throw ("invalid argument `" ++ text ++ "' to `" ++ name ++ "'")

/-- The number of bytes of the unit of a size. -/
def unitOf (c : Char) : Option Nat :=
  [('c', 1), ('w', 2), ('b', 512), ('k', 1024), ('M', 1048576), ('G', 1073741824)].lookup c

/-- Takes a size. -/
def size : ExpressionReader Expression := do
  let text ← value "-size"
  let letter := text.toList.getLast?.getD ' '
  let (digits, unit) :=
    match unitOf letter with
    | some unit => (String.ofList text.toList.dropLast, unit)
    | none => (text, 512)
  match compared? digits with
  | some (comparison, count) => return .size comparison count unit
  | none => throw ("Invalid argument `" ++ text ++ "' to -size")

/-- The permissions that a part of a text gives. -/
def permissionsOf? (text : List Char) : Option Nat :=
  let who := text.takeWhile fun c => "ugoa".toList.contains c
  let what := text.drop who.length
  let rights := what.drop 1
  let isRight (c : Char) : Bool := "rwx".toList.contains c
  if (what.head? = some '+' ∨ what.head? = some '=') && rights.all isRight then
    let bits := rights.foldl (fun bits c =>
      bits ||| if c = 'r' then 4 else if c = 'w' then 2 else 1) 0
    let who := if who = [] || who.contains 'a' then ['u', 'g', 'o'] else who
    some (who.foldl (fun sum c =>
      sum ||| (bits <<< if c = 'u' then 6 else if c = 'g' then 3 else 0)) 0)
  else none

/-- Takes permissions. -/
def mode : ExpressionReader Expression := do
  let text ← value "-perm"
  let (test, rest) :=
    match text.toList with
    | '-' :: rest => (ModeTest.all, rest)
    | '/' :: rest => (ModeTest.any, rest)
    | rest => (ModeTest.exactly, rest)
  let isOctal := rest ≠ [] && rest.all fun c => '0' ≤ c && c ≤ '7'
  let parts := (Text.splitAt (· == ',') rest).map permissionsOf?
  if isOctal then return .mode test (Arithmetic.ofDigits 8 rest)
  else if parts.all Option.isSome then
    return .mode test ((parts.filterMap id).foldl (· ||| ·) 0)
  else throw ("invalid mode " ++ shellQuoted text)

/-- Takes the words that an action runs. -/
def command (name : String) (isInside : Bool) : ExpressionReader Expression := do
  let r ← get
  let words := r.words.takeWhile (· ≠ ";")
  let plus := (r.words.zip r.words.tail).findIdx? fun pair => pair.1 = "\x7b\x7d" && pair.2 = "+"
  match plus with
  | some index =>
    if index < words.length then
      set { r with
        words := r.words.drop (index + 2), hasAction := true, collectors := r.collectors + 1 }
      return .collect r.collectors (r.words.take index)
  | none => pure ()
  if words.length = r.words.length then throw ("missing argument to `" ++ name ++ "'")
  else if words = [] then throw ("invalid argument `;' to `" ++ name ++ "'")
  else
    set { r with words := r.words.drop (words.length + 1), hasAction := true }
    return .run words isInside

/-- An expression on whole paths, in which some signs stand without a backslash. -/
def plainSigns : List Char → List Char
  | '\\' :: c :: cs =>
    if c = '+' ∨ c = '?' then c :: plainSigns cs else '\\' :: c :: plainSigns cs
  | c :: cs => if c = '+' ∨ c = '?' then '\\' :: c :: plainSigns cs else c :: plainSigns cs
  | [] => []

/-- Takes an expression on whole paths. -/
def wholePath (name : String) (ignoresCase : Bool) : ExpressionReader Expression := do
  let text ← value name
  let isExtended := (← get).isExtended
  let chars := if isExtended then text.toList else plainSigns text.toList
  match Regex.read (if isExtended then .extended else .basic) chars with
  | .ok regex =>
    return .wholePath ⟨ignoresCase, false⟩
      (.sequence (.edge .textStart) (.sequence (.group 0 regex) (.edge .textEnd)))
  | .error e => throw ("failed to compile regular expression '" ++ text ++ "': " ++ e)

/-- Takes the depth of an option. -/
def depth (name : String) : ExpressionReader Nat := do
  let text ← value name
  match text.toNat? with
  | some n => return n
  | none =>
    throw ("Expected a positive decimal integer argument to " ++ name ++ ", but got " ++
      shellQuoted text)

/-- Changes the setting. -/
def setting (change : Setting → Setting) : ExpressionReader Expression := do
  modify fun r => { r with setting := change r.setting }
  return .always true

/-- An action that shows something. -/
def action (e : Expression) : ExpressionReader Expression := do
  modify fun r => { r with hasAction := true }
  return e

/-- What is wrong with the directives of a format. -/
def formatWarnings : List Char → List String
  | '%' :: c :: cs =>
    (if "pfhPsdyYmMnlugUGHb%k".toList.contains c then []
      else ["warning: unrecognized format directive `%" ++ String.singleton c ++ "'"]) ++
        formatWarnings cs
  | '\\' :: c :: cs =>
    (if "abfnrtv0\\c".toList.contains c || ('0' ≤ c && c ≤ '7') then []
      else ["warning: unrecognized escape `\\" ++ String.singleton c ++ "'"]) ++ formatWarnings cs
  | _ :: cs => formatWarnings cs
  | [] => []

/-- Takes a condition or an action of which the name has been taken. -/
def primary (name : String) : ExpressionReader Expression := do
  match name with
  | "-name" => return .named false (patternOf false (← value name))
  | "-iname" => return .named true (patternOf true (← value name))
  | "-path" | "-wholename" => return .onPath false (patternOf false (← value name))
  | "-ipath" | "-iwholename" => return .onPath true (patternOf true (← value name))
  | "-lname" => return .linkedTo (patternOf false (← value name))
  | "-regex" => wholePath name false
  | "-iregex" => wholePath name true
  | "-regextype" =>
    let text ← value name
    modify fun r => { r with
      isExtended := text = "posix-extended" || text = "egrep" || text = "posix-egrep" }
    return .always true
  | "-type" | "-xtype" =>
    let text ← value name
    let letters := (Text.splitAt (· == ',') text.toList).flatten
    match letters.find? fun c => !("bcdpflsD".toList.contains c) with
    | some c => throw ("Unknown argument to " ++ name ++ ": " ++ String.singleton c)
    | none =>
      if letters = [] then throw ("Arguments to " ++ name ++ " should contain at least one letter")
      else return .kind letters (name = "-xtype")
  | "-size" => size
  | "-empty" => return .empty
  | "-links" =>
    let (comparison, count) ← compared name
    return .links comparison count
  | "-perm" => mode
  | "-executable" => return .executable
  | "-readable" | "-writable" | "-true" | "-xdev" | "-mount" | "-noleaf" | "-daystart" |
    "-warn" | "-nowarn" | "-ignore_readdir_race" => return .always true
  | "-false" | "-nouser" | "-nogroup" => return .always false
  | "-follow" => setting fun s => { s with followsLinks := true }
  | "-depth" | "-d" => setting fun s => { s with isDepthFirst := true }
  | "-maxdepth" =>
    let n ← depth name
    setting fun s => { s with mostDepth? := some n }
  | "-mindepth" =>
    let n ← depth name
    setting fun s => { s with leastDepth := n }
  | "-mtime" | "-atime" | "-ctime" | "-mmin" | "-amin" | "-cmin" =>
    let (comparison, count) ← compared name
    return .always (match comparison with
      | .less => 0 < count
      | .equal => count = 0
      | .more => false)
  | "-newer" | "-anewer" | "-cnewer" =>
    let path ← value name
    match (← get).tree.stat (Request.path path) with
    | .ok _ => return .always false
    | .error e => throw (shellQuoted path ++ ": " ++ e.reason)
  | "-samefile" =>
    let path ← value name
    match (← get).tree.locateEntry (Request.path path), (← get).tree.statEntry (Request.path path)
      with
    | .ok location, .ok _ => return .sameFile location
    | _, .error e | .error e, _ => throw (shellQuoted path ++ ": " ++ e.reason)
  | "-user" =>
    let text ← value name
    if text = "root" ∨ text = "0" then return .always true
    else throw (shellQuoted text ++ " is not the name of a known user")
  | "-group" =>
    let text ← value name
    if text = "root" ∨ text = "0" then return .always true
    else throw (shellQuoted text ++ " is not the name of an existing group")
  | "-prune" => return .prune
  | "-quit" => action .quit
  | "-delete" =>
    modify fun r => { r with setting := { r.setting with isDepthFirst := true } }
    action .delete
  | "-print" => action (.print '\n')
  | "-print0" => action (.print '\x00')
  | "-printf" =>
    let text ← value name
    modify fun r => { r with warnings := r.warnings ++ formatWarnings text.toList }
    action (.format text.toList)
  | "-exec" => command name false
  | "-execdir" => command name true
  | _ => throw ("unknown predicate `" ++ name ++ "'")

/-- What is read. -/
inductive Goal where
  /-- Expressions one after the other, of which the last one counts. -/
  | list
  | choice
  | conjunction
  | single

/-- Whether a word is a part of an expression. -/
def isExpression (word : String) : Bool :=
  word = "(" || word = ")" || word = "!" || word = "," ||
    (match word.toList with
      | '-' :: _ :: _ => true
      | _ => false)

/-- Takes a word. -/
def skip : ExpressionReader Unit :=
  modify fun r => { r with words := r.words.tail }

/-- Reads what a goal asks for, behind a word that stands for a complaint, in at most `fuel` nested
steps. -/
def read : (fuel : Nat) → Goal → (behind : String) → ExpressionReader Expression
  | 0, _, _ => throw "expression is nested too deeply"
  | fuel + 1, .list, behind => do
    let first ← read fuel .choice behind
    if (← get).words.head? = some "," then
      skip
      return .after first (← read fuel .list ",")
    else return first
  | fuel + 1, .choice, behind => do
    let first ← read fuel .conjunction behind
    match (← get).words.head? with
    | some word =>
      if word = "-o" ∨ word = "-or" then
        skip
        return .either first (← read fuel .choice word)
      else return first
    | none => return first
  | fuel + 1, .conjunction, behind => do
    let first ← read fuel .single behind
    match (← get).words.head? with
    | none | some "," | some ")" | some "-o" | some "-or" => return first
    | some word =>
      if word = "-a" ∨ word = "-and" then
        skip
        return .both first (← read fuel .conjunction word)
      else return .both first (← read fuel .conjunction "")
  | fuel + 1, .single, behind => do
    let r ← get
    match r.words with
    | [] =>
      throw (if behind = "" then "expected an expression"
        else "expected an expression after '" ++ behind ++ "'")
    | "!" :: words | "-not" :: words =>
      set { r with words }
      return .negated (← read fuel .single (r.words.headD ""))
    | "(" :: words =>
      set { r with words }
      if words.head? = some ")" then
        throw "invalid expression; empty parentheses are not allowed."
      else if words = [] then
        throw ("invalid expression; I was expecting to find a ')' somewhere but did not see one.")
      else
        let body ← read fuel .list "("
        if (← get).words.head? = some ")" then
          skip
          return body
        else
          throw "invalid expression; I was expecting to find a ')' somewhere but did not see one."
    | ")" :: _ => throw "invalid expression; you have too many ')'"
    | word :: words =>
      if word = "-o" ∨ word = "-or" ∨ word = "-a" ∨ word = "-and" ∨ word = "," then
        throw ("invalid expression; you have used a binary operator '" ++ word ++
          "' with nothing before it.")
      else if !isExpression word then
        let hint :=
          if r.latest ≠ "" && r.tree.pathExists (Request.path word) then
            "\nfind: possible unquoted pattern after predicate `" ++ r.latest ++ "'?"
          else ""
        throw ("paths must precede expression: `" ++ word ++ "'" ++ hint)
      else
        set { r with words, latest := word }
        primary word

/-- Reads the whole expression. What it finds is shown if it has no action. -/
def readAll : ExpressionReader Expression := do
  let r ← get
  let e ←
    if r.words = [] then pure (.always true) else read (4 * r.words.length + 4) .list ""
  let r ← get
  match r.words with
  | ")" :: _ => throw "you have too many ')'"
  | word :: _ => throw ("paths must precede expression: `" ++ word ++ "'")
  | [] => return if r.hasAction then e else .both e (.print '\n')

end ExpressionReader

/-! ## Going through files -/

/-- A file that is looked at. -/
structure File where
  /-- The path that the program was given. -/
  origin : String
  path : String
  depth : Nat
  location : Location
  entry : FileEntry

/-- What has happened so far. -/
structure Visit where
  state : State
  /-- Whether what is in the present directory is left out. -/
  isPruned : Bool
  isOver : Bool
  hasFailed : Bool
  /-- The paths that actions collect, each with the number of its action, the latest first. -/
  collected : List (Nat × List String × String)

namespace File

/-- The name of a file. -/
def name (f : File) : String :=
  Utility.baseName f.path

/-- How many names an entry has. -/
def links (f : File) (t : FileTree) : Nat :=
  if f.entry = .directory then
    2 + ((t.childNames f.location).filter fun child =>
      t.entry? (f.location ++ [child]) = some .directory).length
  else 1

/-- The letter of the kind of an entry. -/
def kindOf (entry : FileEntry) : Char :=
  match entry with
  | .file _ _ => 'f'
  | entry => Utility.kindOf entry

/-- The entry to which a link leads. -/
def target (f : File) (t : FileTree) : FileEntry :=
  ((t.stat (Request.path f.path)).toOption).getD f.entry

/-- Whether a number compares as it should. -/
def isAs (comparison : Comparison) (count n : Nat) : Bool :=
  match comparison with
  | .less => n < count
  | .equal => n = count
  | .more => count < n

/-- The text that a directive of a format stands for. -/
def directive (f : File) (t : FileTree) (c : Char) : String :=
  match c with
  | 'p' => f.path
  | 'f' => f.name
  | 'h' => if f.path.toList.contains '/' then Utility.directoryName f.path else "."
  | 'P' =>
    let rest := f.path.toList.drop f.origin.length
    String.ofList (if rest.head? = some '/' then rest.tail else rest)
  | 'H' => f.origin
  | 's' => toString (Utility.sizeOf f.entry)
  | 'd' => toString f.depth
  | 'y' => String.singleton (kindOf f.entry)
  | 'Y' =>
    match t.stat (Request.path f.path) with
    | .ok entry => String.singleton (kindOf entry)
    | .error _ => "N"
  | 'm' => String.ofList (Nat.toDigits 8 (Utility.permissionsOf f.entry))
  | 'M' => Utility.modeText f.entry
  | 'n' => toString (f.links t)
  | 'l' =>
    match f.entry with
    | .link target => Text.toByteText target
    | _ => ""
  | 'u' | 'g' => "root"
  | 'U' | 'G' => "0"
  | 'k' => toString ((Utility.sizeOf f.entry + 4095) / 4096 * 4)
  | 'b' => toString ((Utility.sizeOf f.entry + 4095) / 4096 * 8)
  | '%' => "%"
  | c => String.ofList ['%', c]

/-- The text that a format stands for. Every step takes a character, so `fuel` is their number. -/
def formatted (f : File) (t : FileTree) : (fuel : Nat) → List Char → List Char
  | 0, _ => []
  | fuel + 1, '%' :: c :: cs => (f.directive t c).toList ++ formatted f t fuel cs
  | fuel + 1, '\\' :: c :: cs =>
    if c = 'c' then []
    else if '0' ≤ c && c ≤ '7' then
      let digits := (c :: cs).take 3 |>.takeWhile fun d => '0' ≤ d && d ≤ '7'
      Char.ofNat (Arithmetic.ofDigits 8 digits % 256) ::
        formatted f t fuel ((c :: cs).drop digits.length)
    else
      match [('a', '\x07'), ('b', '\x08'), ('f', '\x0c'), ('n', '\n'), ('r', '\r'), ('t', '\t'),
        ('v', '\x0b'), ('\\', '\\')].lookup c with
      | some d => d :: formatted f t fuel cs
      | none => '\\' :: c :: formatted f t fuel cs
  | fuel + 1, c :: cs => c :: formatted f t fuel cs
  | _, [] => []

/-- Whether nothing is in a file or a directory. -/
def isEmpty (f : File) (t : FileTree) : Bool :=
  match f.entry with
  | .directory => (t.childNames f.location).isEmpty
  | .file content _ => content.bytes.isEmpty
  | _ => false

end File

/-- A word in which the path of a file stands for a mark. -/
def wordFor (path word : String) : String :=
  String.ofList (go word.length word.toList)
where
  /-- The characters get fewer with every step, so `fuel` is their number. -/
  go : (fuel : Nat) → List Char → List Char
    | 0, cs => cs
    | fuel + 1, '\x7b' :: '\x7d' :: cs => path.toList ++ go fuel cs
    | fuel + 1, c :: cs => c :: go fuel cs
    | _, [] => []

namespace Visit

/-- Complains of something that has gone wrong. -/
def complain (v : Visit) (complaint : String) : Visit :=
  { v with state := v.state.put 2 ("find: " ++ complaint ++ "\n"), hasFailed := true }

/-- Runs words, and says whether they have succeeded. -/
def run (v : Visit) (l : Launch) (words : List String) : Bool × Visit :=
  match l.await words v.state with
  | (.error e, _) =>
    let complaint := "find: " ++ shellQuoted (words.headD "") ++ ": " ++ e.reason ++ "\n"
    (false, { v with state := v.state.put 2 complaint })
  | (.ok ended, state) => (ended = .code 0, { v with state })

/-- Removes a file or an empty directory. -/
def remove (v : Visit) (f : File) : Bool × Visit :=
  let t := v.state.tree
  if f.path = "." then (true, v)
  else if f.entry = .directory && !(t.childNames f.location).isEmpty then
    (false, v.complain ("cannot delete " ++ shellQuoted f.path ++ ": " ++
      SystemError.directoryNotEmpty.reason))
  else
    (true, { v with state := { v.state with tree := t.remove f.location } })

/-- The value of an expression for a file, and what has happened. -/
def evaluate (l : Launch) (f : File) : Expression → Visit → Bool × Visit
  | .always value, v => (value, v)
  | .both first second, v =>
    let (value, v) := evaluate l f first v
    if value && !v.isOver then evaluate l f second v else (false, v)
  | .either first second, v =>
    let (value, v) := evaluate l f first v
    if value || v.isOver then (true, v) else evaluate l f second v
  | .negated body, v =>
    let (value, v) := evaluate l f body v
    (!value, v)
  | .after first second, v =>
    let (_, v) := evaluate l f first v
    if v.isOver then (false, v) else evaluate l f second v
  | .named ignoresCase pattern, v =>
    let name := f.name.toList
    (pattern.accepts (if ignoresCase then name.map Char.toLower else name), v)
  | .onPath ignoresCase pattern, v =>
    let path := f.path.toList
    (pattern.accepts (if ignoresCase then path.map Char.toLower else path), v)
  | .wholePath mode regex, v => (regex.occursIn mode f.path.toList, v)
  | .linkedTo pattern, v =>
    match f.entry with
    | .link target => (pattern.accepts (Text.toByteText target).toList, v)
    | _ => (false, v)
  | .kind letters followsLinks, v =>
    let entry := if followsLinks then f.target v.state.tree else f.entry
    (letters.contains (File.kindOf entry), v)
  | .size comparison count unit, v =>
    (File.isAs comparison count ((Utility.sizeOf f.entry + unit - 1) / unit), v)
  | .links comparison count, v => (File.isAs comparison count (f.links v.state.tree), v)
  | .empty, v => (f.isEmpty v.state.tree, v)
  | .mode test bits, v =>
    let found := Utility.permissionsOf f.entry
    (match test with
      | .exactly => found = bits
      | .all => found &&& bits = bits
      | .any => bits = 0 || found &&& bits ≠ 0, v)
  | .executable, v => (Utility.permissionsOf (f.target v.state.tree) &&& 0o111 ≠ 0, v)
  | .sameFile location, v => (f.location = location, v)
  | .prune, v => (true, { v with isPruned := true })
  | .quit, v => (true, { v with isOver := true })
  | .delete, v => v.remove f
  | .print stop, v =>
    (true, { v with state := v.state.put 1 (f.path ++ String.singleton stop) })
  | .format text, v =>
    let shown := f.formatted v.state.tree text.length text
    (true, { v with state := v.state.put 1 (String.ofList shown) })
  | .run words isInside, v =>
    if isInside then
      let path := "./" ++ f.name
      let directory := f.location.dropLast
      let before := v.state
      let inside := { v with state := { before with
        toSystem := before.toSystem.inDirectory directory } }
      let (value, after) := inside.run l (words.map (wordFor path))
      (value, { after with state := { after.state with
        toSystem := after.state.toSystem.inDirectory before.tree.workingDirectory } })
    else v.run l (words.map (wordFor f.path))
  | .collect number words, v =>
    (true, { v with collected := (number, words, f.path) :: v.collected })

/-- Goes through a file and what is below it. Every step leads to a longer path, so `fuel` bounds
the depth. -/
def walk (l : Launch) (setting : Setting) (e : Expression) (origin : String) :
    (fuel : Nat) → (path : String) → (depth : Nat) → Visit → Visit
  | 0, _, _, v => v
  | fuel + 1, path, depth, v =>
    let t := v.state.tree
    let follows := setting.followsLinks
    let found : Except SystemError (Location × FileEntry) := do
      let plain ← t.statEntry (Request.path path)
      match plain with
      | .link _ =>
        match follows, t.stat (Request.path path), t.locate (Request.path path) with
        | true, .ok entry, .ok location => return (location, entry)
        | _, _, _ => return (← t.locateEntry (Request.path path), plain)
      | _ => return (← t.locateEntry (Request.path path), plain)
    match found with
    | .error e => v.complain (shellQuoted path ++ ": " ++ e.reason)
    | .ok (location, entry) =>
      let file : File := ⟨origin, path, depth, location, entry⟩
      let look (v : Visit) : Visit :=
        if v.isOver || depth < setting.leastDepth then v
        else (evaluate l file e v).2
      let v := { v with isPruned := false }
      let v := if setting.isDepthFirst then v else look v
      let goesOn :=
        entry = .directory && !setting.mostDepth?.any (· ≤ depth) && !v.isPruned && !v.isOver
      let names := if goesOn then v.state.tree.childNames location else []
      let v := names.foldl (fun v name =>
        if v.isOver then v
        else
          walk l setting e origin fuel (Utility.inDirectory path (Text.toByteText name)) (depth + 1)
            v) v
      if setting.isDepthFirst then look { v with isPruned := false } else v

/-- Runs the words of the actions that collect paths. -/
def finish (l : Launch) (collectors : Nat) (v : Visit) : Visit :=
  (List.range collectors).foldl (fun v number =>
    let mine := (v.collected.filter (·.1 == number)).reverse
    match mine with
    | [] => v
    | (_, words, _) :: _ =>
      let (value, v) := v.run l (words ++ mine.map fun item => item.2.2)
      if value then v else { v with hasFailed := true }) v

end Visit

/-- The words in front that are options, and the others. -/
def splitOptions : List String → List String × List String
  | word :: words =>
    if word = "-H" ∨ word = "-L" ∨ word = "-P" then
      let (options, rest) := splitOptions words
      (word :: options, rest)
    else ([], word :: words)
  | [] => ([], [])

end Finding

open Finding in
/-- Goes through files, and does something with those for which conditions hold. -/
def find : Launcher := fun l s =>
  let (options, words) := splitOptions l.arguments
  let paths := words.takeWhile fun word => !ExpressionReader.isExpression word
  let start : Reading :=
    ⟨words.drop paths.length, "", ⟨none, 0, false, options.getLast? = some "-L"⟩, 0, false, false,
      s.tree, []⟩
  match ExpressionReader.readAll.run start with
  | .error complaint => l.fail s 1 complaint
  | .ok (e, r) =>
    let s := r.warnings.foldl (fun s warning => s.put 2 ("find: " ++ warning ++ "\n")) s
    let paths := if paths = [] then ["."] else paths
    let v : Visit := ⟨s, false, false, false, []⟩
    let v := paths.foldl (fun v path =>
      if v.isOver then v else v.walk l r.setting e path FileTree.pathLimit path 0) v
    let v := v.finish l r.collectors
    v.state.finish (if v.hasFailed then 1 else 0)

end SchemaGraph.Shell.Launcher
