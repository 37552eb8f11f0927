/-!
# Shell scripts

A `Script` is what commands are made of: simple commands, joined by operators or put into the
constructs of the language. The words of a command have parts that stand for themselves and parts
that other texts take the place of when the command runs, among them the output of scripts.
-/

namespace SchemaGraph.Shell

/-! ## Names -/

/-- Whether a character is a space or a tab. -/
def isSpace (c : Char) : Bool :=
  c == ' ' || c == '\t'

/-- Whether the name of a variable may start with a character. -/
def startsName (c : Char) : Bool :=
  c.isAlpha || c == '_'

/-- Whether a character may stand in the name of a variable. -/
def isNameChar (c : Char) : Bool :=
  c.isAlphanum || c == '_'

/-- Whether a text is the name of a variable. -/
def isName (s : String) : Bool :=
  match s.toList with
  | [] => false
  | c :: cs => startsName c && cs.all isNameChar

/-- Whether a character is the name of a parameter of its own. -/
def isSpecialName (c : Char) : Bool :=
  c.isDigit || c == '@' || c == '*' || c == '#' || c == '?' || c == '$' || c == '!' || c == '-'

/-- How a shell words its complaints, and how much of the language it knows. -/
inductive Variety where
  | plain | extended
  deriving DecidableEq, Repr

/-- The exit code after a redirection or an expansion that fails. -/
def Variety.failureCode : Variety → Nat
  | plain => 2
  | extended => 1

/-! ## Commands -/

/-- What happens to the value of a parameter before it stands in its word. -/
inductive ParameterChange where
  | plain
  /-- The number of its characters. -/
  | length
  /-- Another text, if the parameter is not set or, with `alsoEmpty`, if it is empty. -/
  | default (alsoEmpty : Bool)
  /-- As `default`, and the parameter is set to it. -/
  | assign (alsoEmpty : Bool)
  /-- A message that ends the script, under the same condition. -/
  | refuse (alsoEmpty : Bool)
  /-- Another text, if the parameter is set. -/
  | alternative (alsoEmpty : Bool)
  /-- The value without the shortest or the longest beginning that matches a pattern. -/
  | withoutStart (longest : Bool)
  /-- The value without the shortest or the longest end that matches a pattern. -/
  | withoutEnd (longest : Bool)
  /-- Nothing that the language has. -/
  | unknown
  deriving DecidableEq, Repr

/-- What a redirection does with its target. -/
inductive RedirectMode where
  | read | write | append
  /-- The target is emptied even where that is not allowed by default. -/
  | overwrite
  /-- The target is read and written, and not emptied. -/
  | update
  /-- The target is another descriptor. -/
  | duplicate
  /-- The output and the errors go to the target. -/
  | writeAll
  deriving DecidableEq, Repr

mutual

/-- A part of a word. -/
inductive WordPart where
  | bare (text : String)
  | quoted (text : String)
  | parameter (name : String) (change : ParameterChange) (operand : List WordPart)
    (inQuotes : Bool)
  /-- What a script writes. -/
  | output (body : Script) (inQuotes : Bool)
  /-- The value of an arithmetic expression. -/
  | value (expression : List WordPart) (inQuotes : Bool)

/-- A redirection of a descriptor. -/
inductive Redirect where
  | file (descriptor : Nat) (mode : RedirectMode) (target : List WordPart)
  | document (descriptor : Nat) (text : List WordPart)

/-- A command of any kind. -/
inductive Script where
  | nothing
  | simple (assignments : List (String × List WordPart)) (words : List (List WordPart))
    (redirects : List Redirect) (line : Nat)
  | sequence (first second : Script)
  /-- The second command runs if the first one succeeds. -/
  | both (first second : Script)
  /-- The second command runs if the first one fails. -/
  | either (first second : Script)
  | negation (body : Script)
  | pipe (source target : Script)
  /-- The command runs beside those after it. -/
  | background (body : Script)
  | redirected (body : Script) (redirects : List Redirect) (line : Nat)
  | subshell (body : Script)
  | choose (condition body otherwise : Script)
  /-- The body runs while the condition succeeds, or until it does. -/
  | loop (isUntil : Bool) (condition body : Script)
  /-- The body runs for every field of the words, or of the arguments. -/
  | each (name : String) (words : Option (List (List WordPart))) (body : Script)
  /-- The first branch runs of which a pattern matches the subject. -/
  | select (subject : List WordPart) (branches : List (List (List WordPart) × Script))
  | function (name : String) (body : Script)

end

/-- A word before it is expanded. -/
abbrev Word : Type :=
  List WordPart

/-- The descriptor that a redirection changes. -/
def Redirect.descriptor : Redirect → Nat
  | file descriptor _ _ | document descriptor _ => descriptor

/-- The text of a word whose parts all stand for themselves, without its quotes. -/
def plainText (word : Word) : String :=
  String.join (word.map fun
    | .bare text | .quoted text => text
    | _ => "")

/-- Whether a part of a word is quoted. -/
def hasQuotes (word : Word) : Bool :=
  word.any fun
    | .quoted _ => true
    | _ => false

/-- The text of a word that is a single text as it stands. -/
def bareText? : Word → Option String
  | [.bare text] => some text
  | _ => none

/-- The parts of an assignment, if a word is one. -/
def assignment? : Word → Option (String × Word)
  | .bare text :: parts =>
    let name := String.ofList (text.toList.takeWhile (· != '='))
    match text.toList.dropWhile (· != '=') with
    | '=' :: value =>
      if isName name then
        some (name, if value = [] then parts else .bare (String.ofList value) :: parts)
      else none
    | _ => none
  | _ => none

end SchemaGraph.Shell
