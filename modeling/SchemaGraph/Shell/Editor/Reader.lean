import SchemaGraph.Shell.Editor.Basic
import SchemaGraph.Shell.Regex.Reader
import SchemaGraph.Text.Bytes
/-!
# Reading commands of the line editor

Commands stand one after the other, each with its addresses in front, and are separated by
semicolons or ends of lines. The reader counts the characters that it has taken, because a complaint
names the place that has been reached.
-/

namespace SchemaGraph.Shell.Editor

/-- Where commands come from. -/
inductive CommandOrigin where
  /-- The expression with a number among the words of the program. -/
  | expression (number : Nat)
  | file (name : String)
  deriving DecidableEq, Repr

/-- What a text that has not ended yet belongs to: the command of a number. -/
structure OpenText where
  command : Nat
  text : List Char
  deriving DecidableEq, Repr

/-- A block that has not been closed: the number of its command, and where it was opened. -/
structure OpenBlock where
  command : Nat
  /-- The place in front of a complaint about it. -/
  place : String
  deriving DecidableEq, Repr

/-- What has been read, and what is left of the present text. -/
structure Reading where
  origin : CommandOrigin
  chars : List Char
  /-- How many characters have been taken. -/
  taken : Nat
  line : Nat
  isExtended : Bool
  program : Program
  openText? : Option OpenText
  blocks : List OpenBlock

/-- A function that takes something from the front of a text of commands, or complains. -/
abbrev CommandReader : Type → Type :=
  StateT Reading (Except String)

namespace CommandReader

/-- The place of a complaint. -/
def placeOf (origin : CommandOrigin) (taken line : Nat) : String :=
  match origin with
  | .expression number =>
    "-e expression #" ++ toString number ++ ", char " ++ toString taken ++ ": "
  | .file name => "file " ++ name ++ " line " ++ toString line ++ ": "

/-- Complains of something at the place that has been reached. -/
def complain {α : Type} (complaint : String) : CommandReader α := do
  let r ← get
  throw (placeOf r.origin r.taken r.line ++ complaint)

/-- Takes the next character. -/
def next? : CommandReader (Option Char) := do
  let r ← get
  match r.chars with
  | [] => return none
  | c :: chars =>
    set { r with chars, taken := r.taken + 1, line := if c = '\n' then r.line + 1 else r.line }
    return some c

/-- Puts a character back. -/
def putBack : Option Char → CommandReader Unit
  | none => return ()
  | some c => modify fun r => { r with
      chars := c :: r.chars
      taken := r.taken - 1
      line := if c = '\n' then r.line - 1 else r.line }

/-- Takes the characters in front that pass a test. -/
def takeWhile (test : Char → Bool) : CommandReader (List Char) := do
  let r ← get
  let found := r.chars.takeWhile test
  set { r with
    chars := r.chars.drop found.length
    taken := r.taken + found.length
    line := r.line + found.count '\n' }
  return found

/-- Whether a character is blank within a line. -/
def isBlank (c : Char) : Bool :=
  c == ' ' || c == '\t'

/-- Whether a character is blank. -/
def isSpace (c : Char) : Bool :=
  c == ' ' || (9 ≤ c.toNat && c.toNat ≤ 13)

/-- Takes the next character behind blank ones. -/
def nextBehindBlanks? : CommandReader (Option Char) := do
  let _ ← takeWhile isBlank
  next?

/-- Takes the number in front. -/
def number : CommandReader Nat := do
  return Arithmetic.ofDigits 10 (← takeWhile Char.isDigit)

/-- Takes the end of a command. -/
def endOfCommand : CommandReader Unit := do
  let c? ← nextBehindBlanks?
  match c? with
  | none | some '\n' | some ';' => return ()
  | some '\x7d' | some '#' => putBack c?
  | some _ => complain "extra characters after command"

/-! ## Texts between delimiters -/

/-- Where a text between delimiters is: outside of brackets, behind a backslash there, or in a
bracket: at its start, behind a caret there, further on, behind a backslash, behind a second
opening, in a class with its sign, or behind the second sign of a class. -/
inductive BracketPlace where
  | outside | escaped
  | start | negated | inside | escapedInside | opening
  | named (sign : Char) | namedEnd (sign : Char)
  deriving DecidableEq, Repr

/-- The place behind a character in the bracket of an expression, and what stands for it. -/
def BracketPlace.stepInside (place : BracketPlace) (c : Char) : BracketPlace × List Char :=
  let usual : BracketPlace :=
    if c = ']' then .outside
    else if c = '\\' then .escapedInside
    else if c = '[' then .opening
    else .inside
  match place with
  | .start =>
    (if c = '^' then .negated else if c = ']' then .inside else usual,
      if c = '\\' then [] else [c])
  | .negated => (if c = ']' then .inside else usual, if c = '\\' then [] else [c])
  | .escapedInside =>
    if c = 'n' then (.inside, ['\n'])
    else (usual, if c = '\\' then ['\\'] else ['\\', c])
  | .opening =>
    if [':', '.', '='].contains c then (.named c, [c])
    else (usual, if c = '\\' then [] else [c])
  | .named sign => (if c = sign then .namedEnd sign else .named sign, [c])
  | .namedEnd sign =>
    (if c = ']' then .inside else if c = sign then .namedEnd sign else .named sign, [c])
  | _ => (usual, if c = '\\' then [] else [c])

/-- The place behind a character, and what stands for it. -/
def BracketPlace.step (delimiter : Char) (isExpression : Bool) (place : BracketPlace) (c : Char) :
    BracketPlace × List Char :=
  match place with
  | .outside =>
    if c = '\\' then (.escaped, [])
    else if c = '[' && isExpression then (.start, [c])
    else (.outside, [c])
  | .escaped =>
    if c = 'n' && isExpression then (.outside, ['\n'])
    else if (c = '\n' && isExpression) || (c = delimiter && (isExpression || c ≠ '&')) then
      (.outside, [c])
    else (.outside, ['\\', c])
  | _ => place.stepInside c

/-- The text up to a delimiter, and how many characters have been taken with the delimiter; none if
it does not come. In an expression a delimiter in a bracket does not count. -/
def delimitedFrom (delimiter : Char) (isExpression : Bool) :
    BracketPlace → List Char → Option (List Char × Nat)
  | _, [] => none
  | place, c :: cs =>
    if c = '\n' && place ≠ .escaped then none
    else if c = delimiter && place = .outside then some ([], 1)
    else
      let (next, found) := place.step delimiter isExpression c
      (delimitedFrom delimiter isExpression next cs).map fun r => (found ++ r.1, r.2 + 1)

/-- Takes the text up to a delimiter. -/
def delimited (delimiter : Char) (isExpression : Bool) (complaint : String) :
    CommandReader (List Char) := do
  let r ← get
  match delimitedFrom delimiter isExpression .outside r.chars with
  | some (text, taken) =>
    let lines := (r.chars.take taken).count '\n'
    set { r with
      chars := r.chars.drop taken, taken := r.taken + taken, line := r.line + lines }
    return text
  | none =>
    set { r with taken := r.taken + (r.chars.takeWhile (· ≠ '\n')).length }
    complain complaint

/-! ## Characters by name -/

/-- A character by digits in a base, at most so many, and the text after it. -/
def byDigits? (base most : Nat) (cs : List Char) : Option (Char × List Char) :=
  let isDigit (c : Char) : Bool :=
    if base = 16 then Arithmetic.isHex c
    else c.isDigit && c.toNat < '0'.toNat + base
  let digits := (cs.take most).takeWhile isDigit
  if digits = [] then none
  else some (Char.ofNat (Arithmetic.ofDigits base digits % 256), cs.drop digits.length)

/-- The character that stands for a text behind a backslash, and the text after it. -/
def byName? : List Char → Option (Char × List Char)
  | 'a' :: cs => some ('\x07', cs)
  | 'f' :: cs => some ('\x0c', cs)
  | 'n' :: cs => some ('\n', cs)
  | 'r' :: cs => some ('\r', cs)
  | 't' :: cs => some ('\t', cs)
  | 'v' :: cs => some ('\x0b', cs)
  | 'c' :: c :: cs => some (Char.ofNat (c.toUpper.toNat ^^^ 64), cs)
  | 'd' :: cs => byDigits? 10 3 cs
  | 'o' :: cs => byDigits? 8 3 cs
  | 'x' :: cs => byDigits? 16 2 cs
  | _ => none

/-- An expression in which characters by name stand for themselves. Every step takes a character, so
`fuel` is their number. -/
def plainExpression : (fuel : Nat) → List Char → List Char
  | 0, cs => cs
  | _, [] => []
  | fuel + 1, '\\' :: cs =>
    match byName? cs with
    | some (c, rest) => c :: plainExpression fuel rest
    | none => '\\' :: cs.take 1 ++ plainExpression fuel (cs.drop 1)
  | fuel + 1, c :: cs => c :: plainExpression fuel cs

/-- The pieces of a replacement. Every step takes a character, so `fuel` is their number. -/
def pieces : (fuel : Nat) → List Char → List Piece
  | 0, _ => []
  | _, [] => []
  | fuel + 1, '&' :: cs => .group 0 :: pieces fuel cs
  | fuel + 1, '\\' :: c :: cs =>
    if c.isDigit then .group (c.toNat - '0'.toNat) :: pieces fuel cs
    else
      match [('U', Piece.allLetters .upper), ('L', .allLetters .lower), ('E', .allLetters .same),
        ('u', .nextLetter .upper), ('l', .nextLetter .lower)].lookup c with
      | some piece => piece :: pieces fuel cs
      | none =>
        match byName? (c :: cs) with
        | some (d, rest) => .char d :: pieces fuel rest
        | none => .char c :: pieces fuel cs
  | fuel + 1, c :: cs => .char c :: pieces fuel cs

/-- A text in which a backslash protects the character behind it. Every step takes a character, so
`fuel` is their number. -/
def plainText : (fuel : Nat) → List Char → List Char
  | 0, _ => []
  | _, [] => []
  | fuel + 1, '\\' :: cs =>
    match byName? cs with
    | some (c, rest) => c :: plainText fuel rest
    | none => cs.take 1 ++ plainText fuel (cs.drop 1)
  | fuel + 1, c :: cs => c :: plainText fuel cs

/-! ## Patterns and addresses -/

/-- The pattern of a text. -/
def patternOf (text : List Char) (mode : MatchMode) (groups : Nat) : CommandReader Pattern := do
  if text = [] then
    if mode = ⟨false, false⟩ then return ⟨none, mode⟩
    else complain "cannot specify modifiers on empty regexp"
  else
    let style : Regex.Style := ⟨(← get).isExtended, true, false⟩
    match Regex.read style (plainExpression text.length text) with
    | .error e => complain e
    | .ok regex =>
      if regex.groupCount < groups then
        complain ("invalid reference \\" ++ toString groups ++ " on `s' command's RHS")
      else return ⟨some regex, mode⟩

/-- Takes the letters behind the expression of an address. -/
def addressMode : (fuel : Nat) → MatchMode → CommandReader MatchMode
  | 0, mode => return mode
  | fuel + 1, mode => do
    let c? ← nextBehindBlanks?
    match c? with
    | some 'I' => addressMode fuel { mode with ignoresCase := true }
    | some 'M' => addressMode fuel { mode with hasLines := true }
    | _ =>
      putBack c?
      return mode

/-- Takes an address whose first character has been taken; none if this is no address. -/
def address? (c : Char) : CommandReader (Option RangeEnd) := do
  if c = '/' ∨ c = '\\' then
    let unended : String := "unterminated address regex"
    let delimiter ←
      if c = '/' then pure c
      else
        match ← next? with
        | some d => pure d
        | none => complain unended
    let text ← delimited delimiter true unended
    let mode ← addressMode (text.length + (← get).chars.length + 1) ⟨false, false⟩
    return some (.address (.matching (← patternOf text mode 0)))
  else if c.isDigit then
    putBack c
    let first ← number
    let d? ← nextBehindBlanks?
    if d? = some '~' then
      let e? ← nextBehindBlanks?
      putBack e?
      let step ← number
      return some (.address (if step = 0 then .line first else .every first step))
    else
      putBack d?
      return some (.address (.line first))
  else if c = '+' ∨ c = '~' then
    let d? ← nextBehindBlanks?
    putBack d?
    let n ← number
    return some (if c = '+' then .further n else .multiple n)
  else if c = '$' then return some (.address .last)
  else return none

/-- Takes the addresses of a command whose first character has been taken, and the character behind
them. -/
def selection (c? : Option Char) : CommandReader (Selection × Option Char) := do
  let first? ←
    match c? with
    | some c => address? c
    | none => pure none
  match first? with
  | none => return (.all, c?)
  | some (.further _) | some (.multiple _) =>
    complain "invalid usage of +N or ~N as first address"
  | some (.address start) =>
    let zero : String := "invalid usage of line address 0"
    let d? ← nextBehindBlanks?
    if d? = some ',' then
      let stop? ←
        match ← nextBehindBlanks? with
        | some e => address? e
        | none => pure none
      match stop? with
      | none => complain "unexpected `,'"
      | some stop =>
        let e? ← nextBehindBlanks?
        match start, stop with
        | .line 0, .address (.matching _) => return (.range start stop, e?)
        | .line 0, _ => complain zero
        | _, _ => return (.range start stop, e?)
    else if start = .line 0 then complain zero
    else return (.single start, d?)

/-! ## What commands take -/

/-- Takes the name of a file, up to the end of the line. -/
def fileName : CommandReader String := do
  let _ ← takeWhile isBlank
  let name ← takeWhile (· ≠ '\n')
  let _ ← next?
  if name = [] then complain "missing filename in r/R/w/W commands"
  else return String.ofList name

/-- Where lines for the file of a name are written. -/
def sinkOf (name : String) : Sink :=
  if name = "/dev/stdout" then .output else if name = "/dev/stderr" then .errors else .file name

/-- Takes a label. -/
def label : CommandReader String := do
  let _ ← takeWhile isBlank
  let name ← takeWhile fun c => !isSpace c && c ≠ ';' && c ≠ '\x7d'
  return String.ofList name

/-- Takes the lines of a text, up to an end of a line that no backslash protects. Whether it is open
says that the text of commands has ended behind a backslash. -/
def textLines : List Char → List Char × Nat × Bool
  | [] => ([], 0, false)
  | ['\\'] => ([], 1, true)
  | '\n' :: _ => ([], 1, false)
  | '\\' :: c :: cs =>
    let (text, taken, isOpen) := textLines cs
    ('\\' :: c :: text, taken + 2, isOpen)
  | c :: cs =>
    let (text, taken, isOpen) := textLines cs
    (c :: text, taken + 1, isOpen)

/-- Takes a text behind the part of it that has been taken before, and says whether it is open. -/
def text (before : List Char) : CommandReader (List Char × Bool) := do
  let r ← get
  let (lines, taken, isOpen) := textLines r.chars
  set { r with
    chars := r.chars.drop taken
    taken := r.taken + taken
    line := r.line + (r.chars.take taken).count '\n' }
  return (before ++ plainText lines.length lines ++ ['\n'], isOpen)

/-- Takes the text of a command that shows one, and says whether it is open. -/
def shownText : CommandReader (List Char × Bool) := do
  let _ ← takeWhile isBlank
  match (← get).chars with
  | [] => complain "expected \\ after `a', `c' or `i'"
  | ['\\'] =>
    let _ ← next?
    return ([], true)
  | '\\' :: '\n' :: _ =>
    let _ ← next?
    let _ ← next?
    text []
  | '\\' :: _ =>
    let _ ← next?
    text []
  | _ => text []

/-- What the letters behind a substitution say. -/
structure Flags where
  mode : MatchMode
  isRepeated : Bool
  shows : Bool
  first? : Option Nat
  sink? : Option Sink

/-- Takes the letters behind a substitution. -/
def flags : (fuel : Nat) → Flags → CommandReader Flags
  | 0, f => return f
  | fuel + 1, f => do
    let c? ← next?
    match c? with
    | none | some '\n' | some ';' => return f
    | some '\x7d' | some '#' =>
      putBack c?
      return f
    | some c =>
      if c = 'i' ∨ c = 'I' then flags fuel { f with mode := { f.mode with ignoresCase := true } }
      else if c = 'm' ∨ c = 'M' then
        flags fuel { f with mode := { f.mode with hasLines := true } }
      else if c = 'p' then
        if f.shows then complain "multiple `p' options to `s' command"
        else flags fuel { f with shows := true }
      else if c = 'g' then
        if f.isRepeated then complain "multiple `g' options to `s' command"
        else flags fuel { f with isRepeated := true }
      else if c = 'w' then return { f with sink? := some (sinkOf (← fileName)) }
      else if c.isDigit then
        if f.first?.isSome then complain "multiple number options to `s' command"
        else
          putBack c
          let n ← number
          if n = 0 then complain "number option to `s' command may not be zero"
          else flags fuel { f with first? := some n }
      else if isSpace c then flags fuel f
      else complain "unknown option to `s'"

/-- Takes a substitution. -/
def substitution : CommandReader Action := do
  let unended : String := "unterminated `s' command"
  match ← next? with
  | none | some '\n' | some '\\' => complain unended
  | some delimiter =>
    let expression ← delimited delimiter true unended
    let replacement ← delimited delimiter false unended
    let found := pieces replacement.length replacement
    let f ← flags ((← get).chars.length + 1) ⟨⟨false, false⟩, false, false, none, none⟩
    let groups := found.foldl (fun most piece =>
      match piece with
      | .group n => max most n
      | _ => most) 0
    let pattern ← patternOf expression f.mode groups
    return .substitute ⟨pattern, found, f.first?.getD 1, f.isRepeated, f.shows, f.sink?⟩

/-- The characters of a translation. Every step takes a character, so `fuel` is their number. -/
def translated : (fuel : Nat) → List Char → List Char
  | 0, _ => []
  | _, [] => []
  | fuel + 1, '\\' :: cs =>
    match byName? cs with
    | some (c, rest) => c :: translated fuel rest
    | none => cs.take 1 ++ translated fuel (cs.drop 1)
  | fuel + 1, c :: cs => c :: translated fuel cs

/-- Takes a translation of characters. -/
def translation : CommandReader Action := do
  let unended : String := "unterminated `y' command"
  match ← next? with
  | none | some '\n' | some '\\' => complain unended
  | some delimiter =>
    let old ← delimited delimiter false unended
    let new ← delimited delimiter false unended
    let olds := translated old.length old
    let news := translated new.length new
    if olds.length ≠ news.length then complain "strings for `y' command are different lengths"
    else
      endOfCommand
      return .translate (olds.zip news).reverse

/-! ## Commands -/

/-- The commands that are only a letter. -/
def plainActions : List (Char × Action) :=
  [('=', .showNumber), ('d', .delete), ('D', .deleteFirstLine), ('F', .showName), ('g', .fetch),
    ('G', .fetchMore), ('h', .hold), ('H', .holdMore), ('n', .nextLine), ('N', .joinNextLine),
    ('p', .showLine), ('P', .showFirstLine), ('x', .exchange), ('z', .clear)]

/-- Adds a command to the program. -/
def add (selection : Selection) (isNegated : Bool) (action : Action) : CommandReader Unit :=
  modify fun r => { r with program := { r.program with
    commands := r.program.commands.push ⟨selection, isNegated, action⟩ } }

/-- Takes a number that a command may have. -/
def number? : CommandReader (Option Nat) := do
  let c? ← nextBehindBlanks?
  putBack c?
  let found ← if c?.any Char.isDigit then some <$> number else pure none
  endOfCommand
  return found

/-- Takes a comment. In the first two characters of all commands it may ask for quiet. -/
def comment : CommandReader Unit := do
  let r ← get
  let isFirst := r.taken = 1 && r.program.commands.isEmpty &&
    (r.origin = .expression 1 || r.line = 1)
  let text ← takeWhile (· ≠ '\n')
  if isFirst && text.head? = some 'n' then
    modify fun r => { r with program := { r.program with isQuiet := true } }

/-- The action of a command that shows a text, with the text. -/
def textAction (c : Char) (text : List Char) : Action :=
  if c = 'a' then .append text else if c = 'i' then .insert text else .change text

/-- Takes the command of a letter that has been taken. -/
def command (selection : Selection) (isNegated : Bool) (c : Char) : CommandReader Unit := do
  let add (action : Action) : CommandReader Unit := add selection isNegated action
  match plainActions.lookup c with
  | some action =>
    endOfCommand
    add action
  | none =>
    match c with
    | '#' => if selection ≠ .all then complain "comments don't accept any addresses" else comment
    | '\x7b' =>
      let r ← get
      let place := placeOf r.origin 0 r.line
      set { r with blocks := ⟨r.program.commands.size, place⟩ :: r.blocks }
      add (.block 0)
    | '\x7d' =>
      let r ← get
      match r.blocks with
      | [] => complain "unexpected `\x7d'"
      | block :: blocks =>
        if selection ≠ .all then complain "`\x7d' doesn't want any addresses"
        else
          endOfCommand
          let stop := r.program.commands.size
          modify fun r => { r with
            blocks
            program := { r.program with
              commands := r.program.commands.modify block.command fun command =>
                { command with action := .block stop } } }
          add .nothing
    | 'a' | 'i' | 'c' =>
      let (text, isOpen) ← shownText
      if isOpen then
        modify fun r => { r with openText? := some ⟨r.program.commands.size, text⟩ }
      add (textAction c text)
    | ':' =>
      if selection ≠ .all then complain ": doesn't want any addresses"
      let name ← label
      if name = "" then complain "\":\" lacks a label"
      modify fun r => { r with program := { r.program with
        labels := r.program.labels ++ [(name, r.program.commands.size)] } }
      add .nothing
    | 'b' => add (.jump .always (← label))
    | 't' => add (.jump .changed (← label))
    | 'T' => add (.jump .unchanged (← label))
    | 'q' | 'Q' =>
      match selection with
      | .range _ _ => complain "command only uses one address"
      | _ => add (.quit ((← number?).getD 0) (c = 'q'))
    | 'l' => add (.list (← number?))
    | 'r' => add (.appendFile (← fileName))
    | 'R' => add (.appendLine (← fileName))
    | 'w' => add (.write (sinkOf (← fileName)))
    | 'W' => add (.writeFirstLine (sinkOf (← fileName)))
    | 's' => add (← substitution)
    | 'y' => add (← translation)
    | 'v' => let _ ← label
    | _ => complain ("unknown command: `" ++ String.singleton c ++ "'")

/-- Takes all commands. Each of them takes a character, so `fuel` is one more than their number. -/
def commands : (fuel : Nat) → CommandReader Unit
  | 0 => return ()
  | fuel + 1 => do
    let _ ← takeWhile fun c => isSpace c || c == ';'
    match ← next? with
    | none => return ()
    | some c =>
      let (selection, d?) ← selection (some c)
      let (isNegated, e?) ←
        if d? = some '!' then pure (true, ← nextBehindBlanks?) else pure (false, d?)
      match e? with
      | none => complain "missing command"
      | some e =>
        if isNegated && e = '!' then complain "multiple `!'s"
        command selection isNegated e
        commands fuel

/-- Goes on with a text that has not ended before. -/
def goOn : CommandReader Unit := do
  match (← get).openText? with
  | none => return ()
  | some ⟨index, before⟩ =>
    let (text, isOpen) ← text before
    modify fun r => { r with
      openText? := if isOpen then some ⟨index, text⟩ else none
      program := { r.program with
        commands := r.program.commands.modify index fun command => { command with
          action :=
            match command.action with
            | .append _ => .append text
            | .insert _ => .insert text
            | .change _ => .change text
            | action => action } } }

/-- Takes the commands of one more text. -/
def readText (origin : CommandOrigin) (chars : List Char) : CommandReader Unit := do
  modify fun r => { r with origin, chars, taken := 0, line := 1 }
  goOn
  commands (chars.length + 1)

end CommandReader

/-- The program of several texts of commands, or a complaint. -/
def Program.read (isExtended : Bool) (texts : List (CommandOrigin × List Char)) :
    Except String Program := do
  let start : Reading :=
    ⟨.expression 1, [], 0, 1, isExtended, ⟨#[], [], false⟩, none, []⟩
  let (_, r) ← (texts.forM fun (origin, chars) => CommandReader.readText origin chars).run start
  match r.blocks with
  | block :: _ => throw (block.place ++ "unmatched `\x7b'")
  | [] =>
    let isMissing (command : Command) : Option String :=
      match command.action with
      | .jump _ label =>
        if label = "" ∨ (r.program.labels.lookup label).isSome then none else some label
      | _ => none
    match r.program.commands.toList.findSome? isMissing with
    | some label => throw ("can't find label for jump to `" ++ label ++ "'")
    | none => return r.program

end SchemaGraph.Shell.Editor
