import SchemaGraph.Shell.Script
import SchemaGraph.Text.Blank
/-!
# Script texts

A `Source` is what is left of the text of a script. It is read character by character inside words
and lexeme by lexeme between them; a reader takes something from its front, or says why that is no
script.
-/

namespace SchemaGraph.Shell

/-- What a lexeme is. -/
inductive Token where
  | word (word : Word)
  | operator (text : String)
  /-- The sign of a redirection, whose target is the next word. -/
  | redirect (descriptor : Nat) (mode : RedirectMode)
  /-- A text that is to be read from a descriptor. -/
  | document (descriptor : Nat) (text : Word)
  | newline
  /-- The end of the script. -/
  | ending

/-- A token with the line on which it stands. -/
structure Lexeme where
  line : Nat
  token : Token

/-- Why a text is no script. -/
structure ScriptError where
  line : Nat
  message : String
  deriving DecidableEq, Repr

/-- What is left of the text of a script. -/
structure Source where
  chars : List Char
  /-- The line on which it starts. -/
  line : Nat
  /-- How many lines have been read ahead, as documents. -/
  skipped : Nat
  /-- The lexeme in front of the text, if one has been looked at. -/
  ahead : Option Lexeme
  /-- The names that other texts take the place of where a command starts. -/
  aliases : List (String × String)
  variety : Variety

/-- The whole text of a script. -/
def Source.ofText (variety : Variety) (text : String) : Source :=
  ⟨text.toList, 1, 0, none, [], variety⟩

/-! ## Tokens -/

/-- The words that have a meaning where a command may start. -/
def reservedWords : List String :=
  ["!", "\x7b", "\x7d", "case", "do", "done", "elif", "else", "esac", "fi", "for", "if", "in",
    "then", "until", "while"]

/-- The commands whose assignments stay, that end a plain shell when they fail, and whose names no
function can have. -/
def specialCommands : List String :=
  [".", ":", "break", "continue", "eval", "exec", "exit", "export", "local", "readonly", "return",
    "set", "shift", "times", "trap", "unset"]

/-- The words that end a list of commands. -/
def closingWords : List String :=
  ["\x7d", "do", "done", "elif", "else", "esac", "fi", "then"]

/-- The signs of redirections, a longer one before its beginnings, with the descriptor that each
means by default. -/
def redirectSigns : List (String × Nat × RedirectMode) :=
  [(">>", 1, .append), (">&", 1, .duplicate), (">|", 1, .overwrite), (">", 1, .write),
    ("<&", 0, .duplicate), ("<>", 0, .update), ("<", 0, .read)]

/-- The operators, a longer one before its beginnings. -/
def operators : List String :=
  ["&&", "||", ";;", "&", "|", ";", "(", ")"]

/-- The member of a list whose text stands at the front of `cs`, and the text after it. -/
def takeSign (signs : List α) (text : α → String) (cs : List Char) : Option (α × List Char) :=
  signs.findSome? fun sign => ((text sign).toList.isPrefixOf? cs).map fun rest => (sign, rest)

namespace Token

/-- The text of a token that is a word without quotes and parameters. -/
def bare? : Token → Option String
  | .word parts => bareText? parts
  | _ => none

/-- Whether a token is the given word. -/
def isWord (text : String) (token : Token) : Bool :=
  token.bare? = some text

/-- Whether a token is the given operator. -/
def isOperator (text : String) : Token → Bool
  | .operator sign => sign = text
  | _ => false

/-- Whether a token ends a line. -/
def isNewline : Token → Bool
  | .newline => true
  | _ => false

/-- Whether a token is the end of the script. -/
def isEnding : Token → Bool
  | .ending => true
  | _ => false

/-- What a message calls a token. -/
def text : Token → String
  | .newline => "newline"
  | .operator sign => "\"" ++ sign ++ "\""
  | .redirect _ _ | .document _ _ => "redirection"
  | .ending => "end of file"
  | .word parts =>
    match bareText? parts with
    | some s => if s ∈ reservedWords then "\"" ++ s ++ "\"" else "word"
    | none => "word"

/-- Whether a token stands between two commands of a list. -/
def separates (token : Token) : Bool :=
  token.isNewline || token.isOperator ";" || token.isOperator "&"

/-- Whether a token ends a list of commands. -/
def endsList (token : Token) : Bool :=
  token.isEnding || token.isOperator ")" || token.isOperator ";;" ||
    token.bare?.any closingWords.contains

end Token

/-! ## Characters -/

/-- A function that takes something from the front of a source, or refuses it. -/
abbrev ScriptReader : Type → Type :=
  StateT Source (Except ScriptError)

namespace ScriptReader

/-- Refuses the text at the front. -/
def fail (message : String) : ScriptReader α := fun source =>
  .error ⟨source.line, message⟩

/-- The characters in front, which are not taken. -/
def chars : ScriptReader (List Char) := fun source =>
  .ok (source.chars, source)

/-- More than the number of characters that can be read, with those of aliases. -/
def size : ScriptReader Nat := fun source =>
  .ok (source.aliases.foldr (fun entry n => entry.2.length + n) (source.chars.length + 1), source)

/-- Goes on before the given characters. -/
def goTo (cs : List Char) : ScriptReader Unit := fun source =>
  .ok ((), { source with chars := cs })

/-- Goes on before the given characters, where so many lines have ended on the way. -/
def goPast (lines : Nat) (cs : List Char) : ScriptReader Unit := fun source =>
  .ok ((), { source with chars := cs, line := source.line + lines })

/-- The line at which the text starts. -/
def line : ScriptReader Nat := fun source =>
  .ok (source.line, source)

/-- The variety of the shell that reads. -/
def variety : ScriptReader Variety := fun source =>
  .ok (source.variety, source)

/-- The lexeme in front, if one has been looked at. -/
def ahead : ScriptReader (Option Lexeme) := fun source =>
  .ok (source.ahead, source)

/-- Puts a lexeme in front, or takes it away. -/
def setAhead (lexeme : Option Lexeme) : ScriptReader Unit := fun source =>
  .ok ((), { source with ahead := lexeme })

/-- Reads all of another text. -/
def within (text : List Char) (line : Nat) (reader : ScriptReader α) : ScriptReader α :=
    fun source =>
  (reader { source with chars := text, line, skipped := 0, ahead := none }).map fun found =>
    (found.1, source)

/-- Takes the text up to the next single quote, with that quote. -/
def untilQuote : ScriptReader String := do
  let cs ← chars
  let text := cs.takeWhile (· != '\'')
  match cs.dropWhile (· != '\'') with
  | [] =>
    goPast (text.count '\n') []
    fail "Unterminated quoted string"
  | _ :: rest =>
    goPast (text.count '\n') rest
    return String.ofList text

/-- The text up to the next backquote, without the backslashes that protect characters in it, and
the text after it. In double quotes a double quote is protected too. -/
def splitBackquote (inQuotes : Bool) : List Char → Option (List Char × List Char)
  | [] => none
  | ['\\'] => none
  | '`' :: cs => some ([], cs)
  | '\\' :: c :: cs =>
    (splitBackquote inQuotes cs).map fun (text, rest) =>
      let isProtected := c = '`' ∨ c = '\\' ∨ c = '$' ∨ (c = '"' ∧ inQuotes)
      (if isProtected then c :: text else '\\' :: c :: text, rest)
  | c :: cs => (splitBackquote inQuotes cs).map fun (text, rest) => (c :: text, rest)

/-- Takes the text up to the next backquote, with that backquote. -/
def untilBackquote (inQuotes : Bool) : ScriptReader (List Char) := do
  let cs ← chars
  match splitBackquote inQuotes cs with
  | none =>
    goPast (cs.count '\n') []
    fail "EOF in backquote substitution"
  | some (text, rest) =>
    goPast ((cs.take (cs.length - rest.length)).count '\n') rest
    return text

/-- The change that stands after the name of a parameter, and what follows its sign. A character
that is no sign is taken for one. -/
def changeOf : List Char → ParameterChange × List Char
  | '\x7d' :: cs => (.plain, '\x7d' :: cs)
  | ':' :: '-' :: cs => (.default true, cs)
  | '-' :: cs => (.default false, cs)
  | ':' :: '=' :: cs => (.assign true, cs)
  | '=' :: cs => (.assign false, cs)
  | ':' :: '?' :: cs => (.refuse true, cs)
  | '?' :: cs => (.refuse false, cs)
  | ':' :: '+' :: cs => (.alternative true, cs)
  | '+' :: cs => (.alternative false, cs)
  | '#' :: '#' :: cs => (.withoutStart true, cs)
  | '#' :: cs => (.withoutStart false, cs)
  | '%' :: '%' :: cs => (.withoutEnd true, cs)
  | '%' :: cs => (.withoutEnd false, cs)
  | ':' :: _ :: cs | _ :: cs => (.unknown, cs)
  | [] => (.unknown, [])

/-- The name of a parameter at the start of a text, and the text after it. -/
def nameAt? : List Char → Option (String × List Char)
  | [] => none
  | c :: cs =>
    if startsName c then
      some (String.ofList (c :: cs.takeWhile isNameChar), cs.dropWhile isNameChar)
    else if c.isDigit then
      some (String.ofList (c :: cs.takeWhile Char.isDigit), cs.dropWhile Char.isDigit)
    else if isSpecialName c then some (String.singleton c, cs)
    else none

/-- The parameter after an opening brace: its name, its change, and the text of the operand, which
the closing brace follows. -/
def parameterAt (cs : List Char) : String × ParameterChange × List Char :=
  let ofName : String × ParameterChange × List Char :=
    match nameAt? cs with
    | none => ("", .unknown, cs)
    | some (name, rest) =>
      let (change, rest) := changeOf rest
      (name, change, rest)
  match cs with
  | '#' :: rest =>
    match nameAt? rest with
    | some (name, '\x7d' :: after) => (name, .length, '\x7d' :: after)
    | some (name, after) =>
      if name.toList.all isNameChar then (name, .unknown, after) else ofName
    | none => ofName
  | _ => ofName

/-- The lines up to the one that is the given text, and the text after that line. `dropTabs` takes
the tabs away at the start of every line. -/
def splitDocument (dropTabs : Bool) (last : List Char) :
    List (List Char) → List Char × List Char
  | [] => ([], [])
  | line :: lines =>
    let line := if dropTabs then line.dropWhile (· == '\t') else line
    if line = last then ([], List.intercalate ['\n'] lines)
    else if lines = [] then (line, [])
    else
      let (text, rest) := splitDocument dropTabs last lines
      (line ++ '\n' :: text, rest)

/-- Takes the lines after the present one up to the one that is the given text. -/
def documentText (dropTabs : Bool) (last : String) : ScriptReader (List Char) := fun source =>
  let present := source.chars.takeWhile (· != '\n')
  let after := (source.chars.dropWhile (· != '\n')).drop 1
  let (text, rest) := splitDocument dropTabs last.toList (Text.splitAt (· == '\n') after)
  .ok (text,
    { source with
      chars := present ++ '\n' :: rest
      skipped := source.skipped + text.count '\n' + 1 })

/-- Takes the end of a line, with the documents that follow it. -/
def endLine (cs : List Char) : ScriptReader Unit := fun source =>
  .ok ((), { source with chars := cs, line := source.line + 1 + source.skipped, skipped := 0 })

/-- Puts the text of an alias in the place of its name, which is not replaced again. -/
def replaceAlias (name : String) : ScriptReader Bool := fun source =>
  match source.aliases.lookup name with
  | none => .ok (false, source)
  | some text =>
    .ok (true,
      { source with
        chars := text.toList ++ source.chars
        aliases := source.aliases.filter (·.1 != name)
        ahead := none })

/-- Reads a command in which no alias has been replaced. -/
def withAllAliases (reader : ScriptReader α) : ScriptReader α := fun source =>
  (reader source).map fun found => (found.1, { found.2 with aliases := source.aliases })

end ScriptReader
end SchemaGraph.Shell
