import SchemaGraph.Shell.Launching.Basic
/-!
# Running a program for items

The program that reads items and runs another program with them as its last words, or in the place
of a mark. Items stand between blanks, and quotes and backslashes protect characters of theirs.
-/

namespace SchemaGraph.Shell.Launcher.Items

/-- How items are read, and how many are taken at once. -/
structure Setting where
  /-- The character between items; blanks and quotes mean nothing then. -/
  delimiter? : Option Char
  /-- What is replaced by an item; every line is one item then. -/
  mark? : Option String
  mostItems? : Option Nat
  mostLines? : Option Nat
  /-- The item behind which nothing is read. -/
  last? : Option String
  /-- Whether the words are shown before they run. -/
  shows : Bool
  /-- Whether nothing runs without items. -/
  needsItems : Bool
  words : List String

/-- A piece of what is read. -/
inductive Piece where
  | item (text : String)
  /-- The end of a line that has items and does not go on. -/
  | lineEnd
  deriving DecidableEq, Repr

/-- Whether a character separates items. -/
def isBlank (c : Char) : Bool :=
  c == ' ' || c == '\t' || c == '\n'

/-- The pieces of a text, and the quote that is not closed in its line, if there is one: nothing
behind it is read. `open?` is the item that has begun, its latest character first, `quote?` the
quote that is open. -/
def pieces (isByLine : Bool) : (quote? : Option Char) → (open? : Option (List Char)) →
    (hasItems isAfterBlank : Bool) → List Char → List Piece × Option Char
  | _, open?, _, _, [] =>
    ((open?.map fun cs => Piece.item (String.ofList cs.reverse)).toList, none)
  | quote?, open?, hasItems, isAfterBlank, c :: cs =>
    let close : List Piece :=
      (open?.map fun cs => Piece.item (String.ofList cs.reverse)).toList
    let add (found : List Piece) (rest : List Piece × Option Char) : List Piece × Option Char :=
      (found ++ rest.1, rest.2)
    match quote?, c, cs with
    | some '\\', c, cs =>
      pieces isByLine none (some (c :: open?.getD [])) hasItems false cs
    | some q, c, cs =>
      if c = q then pieces isByLine none (some (open?.getD [])) hasItems false cs
      else if c = '\n' then ([], some q)
      else pieces isByLine (some q) (some (c :: open?.getD [])) hasItems false cs
    | none, '\n', cs =>
      let has := hasItems || open?.isSome
      if has && !(isAfterBlank && !isByLine) then
        add (close ++ [.lineEnd]) (pieces isByLine none none false false cs)
      else add close (pieces isByLine none none has false cs)
    | none, '\\', cs => pieces isByLine (some '\\') (some (open?.getD [])) hasItems false cs
    | none, c, cs =>
      if c = '"' ∨ c = '\'' then
        pieces isByLine (some c) (some (open?.getD [])) hasItems false cs
      else if isBlank c && (open?.isNone || !isByLine) then
        add close (pieces isByLine none none (hasItems || open?.isSome) true cs)
      else pieces isByLine none (some (c :: open?.getD [])) hasItems false cs

/-- The pieces of a text with a character between them. -/
def plainPieces (delimiter : Char) (text : List Char) : List Piece :=
  let items := Text.splitAt (· == delimiter) text
  let items := if items.getLast? = some [] then items.dropLast else items
  items.flatMap fun item => [.item (String.ofList item), .lineEnd]

/-- The items that are taken at once, one list after the other. `present` are those that have been
taken, the latest first. -/
def groups (s : Setting) : (present : List String) → (lines : Nat) → List Piece →
    List (List String)
  | present, _, [] => if present = [] then [] else [present.reverse]
  | present, lines, .item text :: rest =>
    if s.mostItems?.any (· ≤ present.length + 1) then
      (text :: present).reverse :: groups s [] 0 rest
    else groups s (text :: present) lines rest
  | present, lines, .lineEnd :: rest =>
    if s.mostLines?.any (· ≤ lines + 1) && present ≠ [] then
      present.reverse :: groups s [] 0 rest
    else groups s present (lines + 1) rest

/-- A text in which another one is replaced everywhere. The text gets shorter with every step, so
`fuel` is its length. -/
def replaced (mark item : List Char) : (fuel : Nat) → List Char → List Char
  | 0, cs => cs
  | _, [] => []
  | fuel + 1, c :: cs =>
    match mark.isPrefixOf? (c :: cs) with
    | some rest =>
      if mark = [] then c :: replaced mark item fuel cs
      else item ++ replaced mark item fuel rest
    | none => c :: replaced mark item fuel cs

/-- The words that run with some items. -/
def wordsFor (s : Setting) (items : List String) : List String :=
  match s.mark? with
  | none => s.words ++ items
  | some mark =>
    let item := (items.headD "").toList
    s.words.take 1 ++ (s.words.drop 1).map fun word =>
      String.ofList (replaced mark.toList item word.length word.toList)

/-- Runs words for several lists of items. The exit code says what has gone wrong; some of it ends
the program at once. -/
def run (l : Launch) (setting : Setting) : (status : Nat) → List (List String) → State → State
  | status, [], s => s.finish status
  | status, items :: rest, s =>
    let words := wordsFor setting items
    let name := words.headD ""
    let s := if setting.shows then s.put 2 (String.intercalate " " words ++ "\n") else s
    match l.await words (s.openAt 0 .nowhere) with
    | (.error e, _) =>
      l.fail s (if e = .notFound then 127 else 126) (name ++ ": " ++ e.reason)
    | (.ok ended, after) =>
      let s := { after with descriptors := s.descriptors }
      match ended with
      | .signal number =>
        l.fail s 125 (name ++ ": terminated by signal " ++ toString number)
      | .code code =>
        if code = 255 then l.fail s 124 (name ++ ": exited with status 255; aborting")
        else run l setting (if code = 0 then status else 123) rest s

/-- The character that a text names. -/
def delimiterOf (text : String) : Char :=
  match text.toList with
  | ['\\', 'n'] => '\n'
  | ['\\', 't'] => '\t'
  | ['\\', '0'] => '\x00'
  | ['\\', '\\'] => '\\'
  | c :: _ => c
  | [] => '\x00'

/-- A number that an option has, or what is wrong with it. -/
def numberOf (letter : Char) (least : Nat) (text : String) : Except String Nat :=
  match text.toInt? with
  | none =>
    .error ("invalid number \"" ++ text ++ "\" for -" ++ String.singleton letter ++ " option")
  | some n =>
    if n < least then
      .error ("value " ++ toString n ++ " for -" ++ String.singleton letter ++
        " option should be >= " ++ toString least)
    else .ok n.toNat

/-- The options. -/
def table : OptionTable where
  letters := "0rtpxo".toList
  valued := "dInLPsaE".toList
  optional := ['i', 'e', 'l']
  long := [("null", '0'), ("no-run-if-empty", 'r'), ("verbose", 't'), ("delimiter", 'd'),
    ("max-args", 'n'), ("max-lines", 'l'), ("max-procs", 'P'), ("replace", 'i'), ("arg-file", 'a'),
    ("eof", 'e'), ("exit", 'x'), ("max-chars", 's'), ("interactive", 'p'), ("open-tty", 'o')]
  stopsEarly := true

/-- The setting that options give. Of those that say how many items are taken, the last one
counts. -/
def settingOf (selected : Selected) : Except String Setting := do
  let number (letter : Char) (least : Nat) (text : String) : Except String (Option Nat) :=
    some <$> numberOf letter least text
  for (letter, value) in selected.options do
    if letter = 'P' then
      let _ ← number 'P' 0 value
  let replaces := selected.has 'I' || selected.has 'i'
  let kind? := selected.options.reverse.find? fun option =>
    "nLlIi".toList.contains option.1 && !(replaces && option = ('n', "1"))
  let mark? := kind?.bind fun
    | ('I', mark) => some mark
    | ('i', mark) => some (if mark = "" then "\x7b\x7d" else mark)
    | _ => none
  let mostItems? ←
    match kind? with
    | some ('n', text) => number 'n' 1 text
    | some ('I', _) | some ('i', _) => pure (some 1)
    | _ => pure none
  let mostLines? ←
    match kind? with
    | some ('L', text) => number 'L' 1 text
    | some ('l', text) => if text = "" then pure (some 1) else number 'l' 1 text
    | _ => pure none
  let delimiter? :=
    match selected.last? ['0', 'd'] with
    | some 'd' => (selected.value? 'd').map delimiterOf
    | some _ => some '\x00'
    | none => none
  return ⟨delimiter?, mark?, mostItems?, mostLines?,
    (selected.value? 'E').filter (· ≠ ""), selected.has 't',
    selected.has 'r' || mark?.isSome,
    if selected.operands = [] then ["echo"] else selected.operands⟩

end Items

/-- Runs a program with the items that are read as its last words. -/
def xargs : Launcher := fun l s =>
  match Items.table.read l.arguments with
  | .error e => l.misuse s 1 e.message
  | .ok selected =>
    match Items.settingOf selected with
    | .error complaint => l.misuse s 1 complaint
    | .ok setting =>
      let input : Except SystemError (List Char × State) :=
        match selected.value? 'a' with
        | some name =>
          (s.tree.readFile (Request.path name)).map fun content => (Request.charsOf content, s)
        | none =>
          let bytes := s.readable 0
          .ok (bytes.map fun byte => Char.ofNat byte.toNat, s.skip 0 bytes.length)
      match input with
      | .error e =>
        l.fail s 1 ("Cannot open input file " ++
          shellQuoted ((selected.value? 'a').getD "") ++ ": " ++ e.reason)
      | .ok (text, s) =>
        let (pieces, quote?) :=
          match setting.delimiter? with
          | some delimiter => (Items.plainPieces delimiter text, none)
          | none => Items.pieces setting.mark?.isSome none none false false text
        let pieces :=
          match setting.last? with
          | some last => pieces.takeWhile (· ≠ .item last)
          | none => pieces
        let groups := Items.groups setting [] 0 pieces
        let groups := if groups = [] && !setting.needsItems && quote?.isNone then [[]] else groups
        let after := Items.run l setting 0 groups s
        match quote? with
        | some quote =>
          let kind := if quote = '"' then "double" else "single"
          if after.status ≠ 0 && after.status ≠ 123 then after
          else
            l.fail after 1 ("unmatched " ++ kind ++ " quote; by default quotes are special to " ++
              "xargs unless you use the -0 option")
        | none => after

end SchemaGraph.Shell.Launcher
