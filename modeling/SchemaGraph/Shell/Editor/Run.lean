import SchemaGraph.Shell.Editor.Session
/-!
# Running commands of the line editor

For every line of the input the commands run one after the other, unless one of them jumps or ends
the work on the line. Then the pattern space is shown, if it is not to be kept quiet.
-/

namespace SchemaGraph.Shell.Editor

/-- What happens after a command. -/
inductive Flow where
  | on
  /-- Goes on with the command of a number. -/
  | goTo (index : Nat)
  /-- Ends the work on the line, which is shown first if `shows`. -/
  | ended (shows : Bool)
  /-- Starts again with what is left in the pattern space. -/
  | again
  | quit

namespace Session

/-! ## Addresses -/

/-- Whether a pattern matches the pattern space. A pattern without an expression stands for the
latest one. -/
def matchesPattern (s : Session) (pattern : Pattern) : Bool × Session :=
  match pattern.regex?.map (·, pattern.mode) <|> s.latest? with
  | some (regex, mode) =>
    (regex.occursIn mode s.space.text, { s with latest? := some (regex, mode) })
  | none => (false, { s.complain 1 "-e expression #1, char 0: no previous regular expression" with
      isStopped := true })

/-- Whether the present line has an address. -/
def isAt (s : Session) (setting : Setting) : Address → Bool × Session
  | .line number => (s.number = number, s)
  | .every first step => (first ≤ s.number && (s.number - first) % step = 0, s)
  | .last => s.isAtEnd setting
  | .matching pattern => s.matchesPattern pattern

/-- The last line of a range that starts at a line, if its number is known. -/
def lastOf (number : Nat) : RangeEnd → Option Nat
  | .address (.line last) => some last
  | .address _ => none
  | .further count => some (number + count)
  | .multiple step => some (if step = 0 then number else (number + step - 1) / step * step)

/-- Forgets that the range of a command has begun. -/
def endRange (s : Session) (index : Nat) : Session :=
  { s with ranges := s.ranges.filter (·.1 != index) }

/-- Whether a command with a range runs for the present line. -/
def isWithin (s : Session) (setting : Setting) (index : Nat) (start : Address) (stop : RangeEnd) :
    Bool × Session :=
  let begun? : Option (Option Nat) :=
    match s.ranges.lookup index with
    | some last? => some last?
    | none => if start = .line 0 && s.number = 1 then some none else none
  match begun? with
  | some (some last) =>
    (s.number ≤ last, if last ≤ s.number then s.endRange index else s)
  | some none =>
    match stop with
    | .address a =>
      let (isStop, s) := s.isAt setting a
      (true, if isStop then s.endRange index
        else { s.endRange index with ranges := (index, none) :: (s.endRange index).ranges })
    | _ => (true, s)
  | none =>
    let (isStart, s) := s.isAt setting start
    if !isStart then (false, s)
    else
      let last? := lastOf s.number stop
      if last?.any (· ≤ s.number) then (true, s)
      else (true, { s with ranges := (index, last?) :: s.ranges })

/-- Whether a command runs for the present line. -/
def isSelected (s : Session) (setting : Setting) (index : Nat) (command : Command) :
    Bool × Session :=
  let (isIn, s) : Bool × Session :=
    match command.selection with
    | .all => (true, s)
    | .single a => s.isAt setting a
    | .range start stop => s.isWithin setting index start stop
  (isIn != command.isNegated, s)

/-! ## Commands -/

/-- A line behind another one. -/
def joined (setting : Setting) (first second : Line) : Line :=
  ⟨first.text ++ setting.lineEnd :: second.text, second.isEnded⟩

/-- The first line of the pattern space, and what stands behind it if there is more than one. -/
def firstLine (s : Session) (setting : Setting) : List Char × Option (List Char) :=
  let first := s.space.text.takeWhile (· ≠ setting.lineEnd)
  match s.space.text.drop first.length with
  | [] => (first, none)
  | _ :: rest => (first, some rest)

/-- A character as it is listed. -/
def listedChar (c : Char) : List Char :=
  if c = '\\' then ['\\', '\\'] else if isShown c then [c] else escaped c

/-- The rows in which characters are listed: at most so many in a row if there is a limit, and
between two rows a backslash. -/
def listedRows (limit? : Option Nat) : (used : Nat) → List (List Char) → List Char
  | _, [] => ['$', '\n']
  | used, cs :: rest =>
    if limit?.any (· < used + cs.length) then
      '\\' :: '\n' :: cs ++ listedRows limit? cs.length rest
    else cs ++ listedRows limit? (used + cs.length) rest

/-- Puts something behind the present line. -/
def putBehind (s : Session) (item : Appended) : Session :=
  { s with appended := s.appended ++ [item] }

/-- Makes a substitution in the pattern space. -/
def substitute (s : Session) (setting : Setting) (sub : Substitution) : Session :=
  match sub.pattern.regex?.map (·, sub.pattern.mode) <|> s.latest? with
  | none => (s.matchesPattern sub.pattern).2
  | some (regex, mode) =>
    let (text, isChanged) := sub.apply regex mode s.space.text
    let s := { s with latest? := some (regex, mode) }
    if !isChanged then s
    else
      let s := { s with space := { s.space with text }, hasChanged := true }
      let s := if sub.shows then s.showLine setting s.space else s
      match sub.sink? with
      | some .output => s.showLine setting s.space
      | some sink => s.writeLine setting sink s.space
      | none => s

/-- Runs a command. -/
def run (s : Session) (setting : Setting) (program : Program) (index : Nat) (command : Command) :
    Flow × Session :=
  let isQuiet := setting.isQuiet || program.isQuiet
  let showUnlessQuiet (s : Session) : Session :=
    if isQuiet then s else s.showLine setting s.space
  match command.action with
  | .block _ | .nothing => (.on, s)
  | .append text => (.on, s.putBehind (.text text))
  | .insert text => (.on, s.showText setting text)
  | .change text =>
    let isWithin := (s.ranges.lookup index).isSome && !command.isNegated
    (.ended false, if isWithin then s else s.showText setting text)
  | .appendFile name => (.on, s.putBehind (.file name))
  | .appendLine name =>
    let (line?, s) := s.takeFrom setting name
    match line? with
    | some line => (.on, s.putBehind (.text (textOf setting line)))
    | none => (if s.isStopped then .quit else .on, s)
  | .delete => (.ended false, s)
  | .deleteFirstLine =>
    match s.firstLine setting with
    | (_, some rest) => (.again, { s with space := { s.space with text := rest } })
    | (_, none) => (.ended false, s)
  | .showLine => (.on, s.showLine setting s.space)
  | .showFirstLine => (.on, s.showText setting ((s.firstLine setting).1 ++ [setting.lineEnd]))
  | .list width? =>
    let width := width?.getD setting.width
    let limit? := if width = 0 then none else some (width - 1)
    (.on, s.showText setting (listedRows limit? 0 (s.space.text.map listedChar)))
  | .showNumber => (.on, s.showText setting ((toString s.number).toList ++ ['\n']))
  | .showName => (.on, s.showText setting (s.latestName.toList ++ ['\n']))
  | .hold => (.on, { s with holdSpace := s.space })
  | .holdMore => (.on, { s with holdSpace := joined setting s.holdSpace s.space })
  | .fetch => (.on, { s with space := s.holdSpace })
  | .fetchMore => (.on, { s with space := joined setting s.space s.holdSpace })
  | .exchange => (.on, { s with space := s.holdSpace, holdSpace := s.space })
  | .nextLine =>
    let (isAtEnd, s) := s.isAtEnd setting
    if isAtEnd then (.ended true, s)
    else
      let (line?, s) := (showUnlessQuiet s).take setting
      match line? with
      | some line => (.on, { s with space := line })
      | none => (.ended false, s)
  | .joinNextLine =>
    let (isAtEnd, s) := s.isAtEnd setting
    if isAtEnd then (.ended true, s)
    else
      let (line?, s) := s.take setting
      match line? with
      | some line => (.on, { s with space := joined setting s.space line })
      | none => (.ended true, s)
  | .clear => (.on, { s with space := { s.space with text := [] } })
  | .quit status shows =>
    let s := if shows then (showUnlessQuiet s).flush setting else s
    (.quit, { s with status := status % 256 })
  | .substitute sub => (.on, s.substitute setting sub)
  | .translate pairs =>
    (.on, { s with space := { s.space with
      text := s.space.text.map fun c => (pairs.lookup c).getD c } })
  | .jump condition label =>
    let jumps : Bool :=
      match condition with
      | .always => true
      | .changed => s.hasChanged
      | .unchanged => !s.hasChanged
    let s := if condition = .always then s else { s with hasChanged := false }
    if !jumps then (.on, s)
    else
      match program.labels.lookup label with
      | some target => (.goTo target, s)
      | none => (.ended true, s)
  | .write .output => (.on, s.showLine setting s.space)
  | .write sink => (.on, s.writeLine setting sink s.space)
  | .writeFirstLine sink =>
    let line : Line := ⟨(s.firstLine setting).1, true⟩
    match sink with
    | .output => (.on, s.showLine setting line)
    | sink => (.on, s.writeLine setting sink line)

/-- Ends the session: what is left to be shown is shown, and the present file is closed. -/
def finish (s : Session) (setting : Setting) : Session :=
  if s.isStopped then s else (s.flush setting).close setting

/-- Runs commands from the one with a number on, for the present line and all after it, in at most
`fuel` steps. -/
def runFrom (setting : Setting) (program : Program) : (fuel index : Nat) → Session → Session
  | 0, _, s => s.finish setting
  | fuel + 1, index, s =>
    let nextLine (shows : Bool) (s : Session) : Option Session :=
      let s :=
        if shows && !(setting.isQuiet || program.isQuiet) then s.showLine setting s.space else s
      match s.take setting with
      | (some line, s) => some { s with space := line }
      | (none, _) => none
    let atEnd (shows : Bool) (s : Session) : Session :=
      let s :=
        if shows && !(setting.isQuiet || program.isQuiet) then s.showLine setting s.space else s
      (s.take setting).2.finish setting
    if s.isStopped then s
    else
      match program.commands[index]? with
      | none =>
        match nextLine true s with
        | some s => runFrom setting program fuel 0 s
        | none => atEnd true s
      | some command =>
        let (isSelected, s) := s.isSelected setting index command
        if s.isStopped then s
        else if !isSelected then
          match command.action with
          | .block stop => runFrom setting program fuel (stop + 1) s
          | _ => runFrom setting program fuel (index + 1) s
        else
          match s.run setting program index command with
          | (.on, s) => runFrom setting program fuel (index + 1) s
          | (.goTo target, s) => runFrom setting program fuel target s
          | (.again, s) => runFrom setting program fuel 0 (s.flush setting)
          | (.ended shows, s) =>
            match nextLine shows s with
            | some s => runFrom setting program fuel 0 s
            | none => atEnd shows s
          | (.quit, s) => s.close setting

/-- How many steps an editor makes at most. -/
def stepLimit : Nat :=
  1000000

/-- Edits files. -/
def edit (s : Session) (setting : Setting) (program : Program) : Session :=
  match s.take setting with
  | (some line, s) => runFrom setting program stepLimit 0 { s with space := line }
  | (none, s) => s.finish setting

end Session
end SchemaGraph.Shell.Editor
