import SchemaGraph.Shell.Source
/-!
# The grammar of shell scripts

`readLine` reads the commands up to the end of a line. A line is read as a whole before any of it
runs, so a script with an error runs up to the line before it.
-/

namespace SchemaGraph.Shell

/-- Whether a character ends a word. -/
def endsWord (c : Char) : Bool :=
  isSpace c || c == '\n' || c == ';' || c == '&' || c == '|' || c == '<' || c == '>' || c == '(' ||
    c == ')'

/-- One more character as it stands, in front of the parts of a word. -/
def consBare (c : Char) : Word → Word
  | .bare text :: rest => .bare (String.ofList (c :: text.toList)) :: rest
  | parts => .bare (String.singleton c) :: parts

/-- One more quoted character in front of the parts of a word. -/
def consQuoted (c : Char) : Word → Word
  | .quoted text :: rest => .quoted (String.ofList (c :: text.toList)) :: rest
  | parts => .quoted (String.singleton c) :: parts

/-- Where a word ends. -/
inductive WordEnd where
  /-- Before a character that ends words. -/
  | separator
  /-- After a double quote. -/
  | quote
  /-- After a closing brace. -/
  | brace (inQuotes : Bool)
  /-- After two closing parentheses, and the given number of others before them. -/
  | parentheses (depth : Nat)
  /-- At the end of the text. -/
  | text
  deriving DecidableEq, Repr

namespace WordEnd

/-- Whether everything up to an end is quoted. -/
def isQuoted : WordEnd → Bool
  | separator | brace false => false
  | quote | brace true | parentheses _ | text => true

/-- What is wrong with a text that stops before an end. -/
def problem? : WordEnd → Option String
  | separator | text => none
  | quote | brace true => some "Unterminated quoted string"
  | brace false => some "Missing '\x7d'"
  | parentheses _ => some "Missing '))'"

/-- Whether a backslash takes the meaning of the character that follows it. -/
def protects (goal : WordEnd) (c : Char) : Bool :=
  c == '$' || c == '`' || c == '\\' || (c == '"' && goal ≠ .text) ||
    (c == '\x7d' && goal = .brace true)

end WordEnd

/-- What has been read of a simple command. -/
structure CommandParts where
  assignments : List (String × Word)
  words : List Word
  redirects : List Redirect

/-- A part of the grammar. -/
inductive Goal where
  /-- Commands up to a word or an operator that ends a list. -/
  | list
  /-- Commands up to the end of a line. -/
  | line
  /-- Commands joined by `&&` and `||`, of which the first ones have been read. -/
  | chain (first : Script)
  | pipeline
  /-- Commands joined by `|`. -/
  | pipe
  | command
  /-- What follows the condition and the body of a choice. -/
  | otherwise
  /-- The branches of a selection after those that have been read. -/
  | branches (subject : Word) (before : List (List Word × Script))

namespace ScriptReader

/-- Looks at the lexeme in front. -/
def peek (lexeme : ScriptReader Lexeme) : ScriptReader Lexeme := do
  match ← ahead with
  | some l => return l
  | none =>
    let l ← lexeme
    setAhead (some l)
    return l

/-- Takes the lexeme that has been looked at. -/
def advance : ScriptReader Unit :=
  setAhead none

section Lexemes

variable (next : ScriptReader Lexeme)

/-- Refuses the lexeme in front, where another one may be expected. -/
def refuse (expected : Option String) : ScriptReader α := do
  let l ← next
  let line := if l.token.isNewline then l.line + 1 else l.line
  let expectation :=
    match expected with
    | some text => " (expecting " ++ text ++ ")"
    | none => ""
  throw ⟨line, l.token.text ++ " unexpected" ++ expectation⟩

/-- Takes the given word if it is in front, and answers whether it was. -/
def takesWord (text : String) : ScriptReader Bool := do
  if (← next).token.isWord text then
    advance
    return true
  else return false

/-- Takes the given operator if it is in front, and answers whether it was. -/
def takesOperator (text : String) : ScriptReader Bool := do
  if (← next).token.isOperator text then
    advance
    return true
  else return false

/-- Takes the given word. -/
def takeWord (text : String) : ScriptReader Unit := do
  unless ← takesWord next text do refuse next (some ("\"" ++ text ++ "\""))

/-- Takes the given operator. -/
def takeOperator (text : String) : ScriptReader Unit := do
  unless ← takesOperator next text do refuse next (some ("\"" ++ text ++ "\""))

/-- Takes any word, and refuses anything else. -/
def anyWord (expected : Option String) : ScriptReader Word := do
  match (← next).token with
  | .word word =>
    advance
    return word
  | _ => refuse next expected

/-- Takes line ends, at most `fuel` of them. -/
def skipNewlines : (fuel : Nat) → ScriptReader Unit
  | 0 => return ()
  | fuel + 1 => do
    if (← next).token.isNewline then
      advance
      skipNewlines fuel

/-- The redirection in front, if there is one. -/
def redirect? : ScriptReader (Option Redirect) := do
  match (← next).token with
  | .document descriptor text =>
    advance
    return some (.document descriptor text)
  | .redirect descriptor mode =>
    advance
    return some (.file descriptor mode (← anyWord next none))
  | _ => return none

/-- Redirections, at most `fuel` of them. -/
def redirects : (fuel : Nat) → ScriptReader (List Redirect)
  | 0 => return []
  | fuel + 1 => do
    match ← redirect? next with
    | none => return []
    | some redirect => return redirect :: (← redirects fuel)

/-- Words, at most `fuel` of them. -/
def words : (fuel : Nat) → ScriptReader (List Word)
  | 0 => return []
  | fuel + 1 => do
    match (← next).token with
    | .word word =>
      advance
      return word :: (← words fuel)
    | _ => return []

/-- The rest of a simple command, in at most `fuel` lexemes. -/
def simpleCommand : (fuel : Nat) → CommandParts → ScriptReader CommandParts
  | 0, command => return command
  | fuel + 1, command => do
    match ← redirect? next with
    | some redirect =>
      simpleCommand fuel { command with redirects := command.redirects ++ [redirect] }
    | none =>
      match (← next).token with
      | .word word =>
        let isFirst := command.words.isEmpty
        let isReplaced ←
          if isFirst then replaceAlias ((bareText? word).getD "") else pure false
        if isReplaced then simpleCommand fuel command
        else
          advance
          match (if isFirst then assignment? word else none) with
          | some assignment =>
            simpleCommand fuel { command with assignments := command.assignments ++ [assignment] }
          | none => simpleCommand fuel { command with words := command.words ++ [word] }
      | _ => return command

/-- The patterns of a branch, at most `fuel` of them, up to the parenthesis after them. -/
def patterns : (fuel : Nat) → ScriptReader (List Word)
  | 0 => return []
  | fuel + 1 => do
    let word ← anyWord next (some "\")\"")
    if ← takesOperator next "|" then return word :: (← patterns fuel)
    else
      takeOperator next ")"
      return [word]

/-- A command that what follows it may put into the background. -/
def inBackground (script : Script) : ScriptReader Script := do
  return if (← next).token.isOperator "&" then .background script else script

end Lexemes

mutual

/-- Takes the lexeme in front. -/
def lexeme : (fuel : Nat) → ScriptReader Lexeme
  | 0 => return ⟨0, .ending⟩
  | fuel + 1 => do
    let start ← line
    let extended := (← variety) = .extended
    match ← chars with
    | [] => return ⟨start, .ending⟩
    | c :: cs =>
      let found (token : Token) (rest : List Char) : ScriptReader Lexeme := do
        goTo rest
        return ⟨start, token⟩
      let (descriptor, signs) :=
        if c.isDigit && (cs.head? = some '<' || cs.head? = some '>') then
          (some (c.toNat - '0'.toNat), cs)
        else (none, c :: cs)
      if isSpace c then
        goTo cs
        lexeme fuel
      else if c = '\\' ∧ cs.head? = some '\n' then
        goPast 1 cs.tail
        lexeme fuel
      else if c = '\n' then
        endLine cs
        return ⟨start, .newline⟩
      else if c = '#' then
        goTo (cs.dropWhile (· != '\n'))
        lexeme fuel
      else if extended && ['<', '<', '<'].isPrefixOf signs then
        goTo ((signs.drop 3).dropWhile isSpace)
        return ⟨start, .document (descriptor.getD 0) ((← parts fuel .separator) ++ [.quoted "\n"])⟩
      else if ['<', '<'].isPrefixOf signs then
        let dropTabs := signs[2]? = some '-'
        goTo ((signs.drop (if dropTabs then 3 else 2)).dropWhile isSpace)
        let last ← parts fuel .separator
        let text ← documentText dropTabs (plainText last)
        let document ←
          if hasQuotes last then pure [.quoted (String.ofList text)]
          else within text (start + 1) (parts fuel .text)
        return ⟨start, .document (descriptor.getD 0) document⟩
      else if extended && ['&', '>'].isPrefixOf signs then
        found (.redirect 1 .writeAll) (signs.drop 2)
      else
        match takeSign redirectSigns (·.1) signs with
        | some ((_, standard, mode), rest) =>
          found (.redirect (descriptor.getD standard) mode) rest
        | none =>
          match takeSign operators id (c :: cs) with
          | some (operator, rest) => found (.operator operator) rest
          | none => return ⟨start, .word (← parts fuel .separator)⟩

/-- Takes the parts of a word up to its end. -/
def parts : (fuel : Nat) → WordEnd → ScriptReader Word
  | 0, _ => return []
  | fuel + 1, goal => do
    let q := goal.isQuoted
    let before (part : WordPart) : ScriptReader Word := do
      return part :: (← parts fuel goal)
    let plain (c : Char) (goal : WordEnd) : ScriptReader Word := do
      let word ← parts fuel goal
      return if q then consQuoted c word else consBare c word
    match ← chars with
    | [] =>
      match goal.problem? with
      | some problem => fail problem
      | none => return []
    | c :: cs =>
      if goal = .separator ∧ endsWord c then return []
      else
        goPast (if c = '\n' then 1 else 0) cs
        match c, goal with
        | '"', .quote | '\x7d', .brace _ => return []
        | ')', .parentheses 0 =>
          match cs with
          | ')' :: rest =>
            goTo rest
            return []
          | _ => plain c goal
        | ')', .parentheses (depth + 1) => plain c (.parentheses depth)
        | '(', .parentheses depth => plain c (.parentheses (depth + 1))
        | '"', .brace true | '"', .parentheses _ => parts fuel goal
        | '$', _ =>
          match ← dollar fuel q with
          | some part => before part
          | none => plain c goal
        | '`', _ =>
          let text ← untilBackquote (goal = .quote)
          before (.output (← within text 1 (commands fuel)) q)
        | '\\', _ =>
          match cs with
          | [] => plain c goal
          | d :: rest =>
            if d = '\n' then
              goPast 1 rest
              parts fuel goal
            else if !q then
              goTo rest
              return consQuoted d (← parts fuel goal)
            else if goal.protects d then
              goTo rest
              plain d goal
            else plain c goal
        | _, _ =>
          if q then plain c goal
          else if c = '"' then
            let inner ← parts fuel .quote
            return (if inner.isEmpty then [.quoted ""] else inner) ++ (← parts fuel goal)
          else if c = '\'' then before (.quoted (← untilQuote))
          else plain c goal

/-- Takes what a dollar sign opens; none when the sign stands for itself. -/
def dollar : (fuel : Nat) → (inQuotes : Bool) → ScriptReader (Option WordPart)
  | 0, _ => return none
  | fuel + 1, q => do
    match ← chars with
    | '(' :: '(' :: cs =>
      goTo cs
      return some (.value (← parts fuel (.parentheses 0)) q)
    | '(' :: cs =>
      goTo cs
      let body ← commands fuel
      takeOperator (peek (lexeme fuel)) ")"
      return some (.output body q)
    | '\x7b' :: cs =>
      let (name, change, rest) := parameterAt cs
      goTo rest
      let takesPattern : Bool :=
        match change with
        | .withoutStart _ | .withoutEnd _ => true
        | _ => false
      return some (.parameter name change (← parts fuel (.brace (q && !takesPattern))) q)
    | c :: cs =>
      if startsName c then
        goTo (cs.dropWhile isNameChar)
        let name := String.ofList (c :: cs.takeWhile isNameChar)
        return some (.parameter name .plain [] q)
      else if isSpecialName c then
        goTo cs
        return some (.parameter (String.singleton c) .plain [] q)
      else return none
    | [] => return none

/-- Takes the commands of a substitution, of which there may be none. -/
def commands : (fuel : Nat) → ScriptReader Script
  | 0 => return .nothing
  | fuel + 1 => do
    let next := peek (lexeme fuel)
    skipNewlines next fuel
    if (← next).token.isOperator ")" || (← next).token.isEnding then return .nothing
    else goal fuel .list

/-- Takes a part of the grammar. -/
def goal : (fuel : Nat) → Goal → ScriptReader Script
  | 0, _ => return .nothing
  | fuel + 1, .list => do
    let next := peek (lexeme fuel)
    skipNewlines next fuel
    if (← next).token.isEnding then return .nothing
    else
      let first ← inBackground next (← goal fuel (.chain (← goal fuel .pipeline)))
      if (← next).token.separates then
        advance
        skipNewlines next fuel
        if (← next).token.endsList then return first
        else return .sequence first (← goal fuel .list)
      else return first
  | fuel + 1, .line => do
    let next := peek (lexeme fuel)
    let first ← inBackground next (← goal fuel (.chain (← goal fuel .pipeline)))
    let separated := (← next).token.separates && !(← next).token.isNewline
    if separated then advance
    let token := (← next).token
    if token.isNewline || token.isEnding then return first
    else if separated then return .sequence first (← goal fuel .line)
    else refuse next none
  | fuel + 1, .chain first => do
    let next := peek (lexeme fuel)
    if ← takesOperator next "&&" then
      skipNewlines next fuel
      goal fuel (.chain (.both first (← goal fuel .pipeline)))
    else if ← takesOperator next "||" then
      skipNewlines next fuel
      goal fuel (.chain (.either first (← goal fuel .pipeline)))
    else return first
  | fuel + 1, .pipeline => do
    if ← takesWord (peek (lexeme fuel)) "!" then return .negation (← goal fuel .pipe)
    else goal fuel .pipe
  | fuel + 1, .pipe => do
    let next := peek (lexeme fuel)
    let first ← withAllAliases (goal fuel .command)
    if ← takesOperator next "|" then
      skipNewlines next fuel
      return .pipe first (← goal fuel .pipe)
    else return first
  | fuel + 1, .otherwise => do
    let next := peek (lexeme fuel)
    if ← takesWord next "elif" then
      let condition ← goal fuel .list
      takeWord next "then"
      let body ← goal fuel .list
      return .choose condition body (← goal fuel .otherwise)
    else if ← takesWord next "else" then
      let body ← goal fuel .list
      takeWord next "fi"
      return body
    else
      takeWord next "fi"
      return .nothing
  | fuel + 1, .branches subject before => do
    let next := peek (lexeme fuel)
    skipNewlines next fuel
    if ← takesWord next "esac" then return .select subject before
    else
      let _ ← takesOperator next "("
      let patterns ← patterns next fuel
      skipNewlines next fuel
      let body ← if (← next).token.endsList then pure .nothing else goal fuel .list
      let branches := before ++ [(patterns, body)]
      if ← takesWord next "esac" then return .select subject branches
      else
        takeOperator next ";;"
        goal fuel (.branches subject branches)
  | fuel + 1, .command => do
    let next := peek (lexeme fuel)
    let ⟨line, token⟩ ← next
    let finish (body : Script) : ScriptReader Script := do
      let redirects ← redirects next fuel
      return if redirects.isEmpty then body else .redirected body redirects line
    if ← takesOperator next "(" then
      let body ← goal fuel .list
      takeOperator next ")"
      finish (.subshell body)
    else if ← takesWord next "\x7b" then
      let body ← goal fuel .list
      takeWord next "\x7d"
      finish body
    else if ← takesWord next "if" then
      let condition ← goal fuel .list
      takeWord next "then"
      let body ← goal fuel .list
      finish (.choose condition body (← goal fuel .otherwise))
    else if token.isWord "while" || token.isWord "until" then
      advance
      let condition ← goal fuel .list
      takeWord next "do"
      let body ← goal fuel .list
      takeWord next "done"
      finish (.loop (token.isWord "until") condition body)
    else if ← takesWord next "for" then
      let name := (← next).token.bare?.getD ""
      unless isName name do fail "Bad for loop variable"
      advance
      skipNewlines next fuel
      let isGiven ← takesWord next "in"
      let words ← words next (if isGiven then fuel else 0)
      if isGiven && !(← next).token.isNewline && !(← next).token.isOperator ";" then
        refuse next none
      let _ ← takesOperator next ";"
      skipNewlines next fuel
      takeWord next "do"
      let body ← goal fuel .list
      takeWord next "done"
      finish (.each name (if isGiven then some words else none) body)
    else if ← takesWord next "case" then
      let subject ← anyWord next (some "word")
      skipNewlines next fuel
      takeWord next "in"
      finish (← goal fuel (.branches subject []))
    else if token.endsList || token.bare?.any reservedWords.contains then refuse next none
    else
      let command ← simpleCommand next fuel ⟨[], [], []⟩
      match command with
      | ⟨[], [word], []⟩ =>
        if ← takesOperator next "(" then
          takeOperator next ")"
          unless (bareText? word).any (fun name => isName name && name ∉ specialCommands) do
            fail "Bad function name"
          skipNewlines next fuel
          return .function (plainText word) (← goal fuel .command)
        else return .simple [] [word] [] line
      | ⟨[], [], []⟩ => refuse next none
      | ⟨assignments, words, redirects⟩ => return .simple assignments words redirects line

end

/-- The commands up to the end of the line in front; none at the end of the text. Every step takes
a character or one of at most sixteen nested parts of the grammar. -/
def command? : ScriptReader (Option Script) := do
  let fuel := 16 * (← size)
  let next := peek (lexeme fuel)
  skipNewlines next fuel
  if (← next).token.isEnding then return none
  else return some (← goal fuel .line)

end ScriptReader

/-- The word that a text is between quotes, if it is one. -/
def Source.quotedWord? (variety : Variety) (text : String) : Option Word :=
  let source := Source.ofText variety text
  ((ScriptReader.parts (16 * (source.chars.length + 1)) .text source).toOption).map (·.1)

/-- Reads the next commands of a script. -/
def Source.next (source : Source) : Except ScriptError (Option Script × Source) :=
  ScriptReader.command? source

end SchemaGraph.Shell
