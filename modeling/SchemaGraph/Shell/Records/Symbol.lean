import SchemaGraph.Shell.Records.Basic
import SchemaGraph.Shell.Regex.Reader
import SchemaGraph.Shell.Source
/-!
# Symbols of programs for records

The text of a program is a list of symbols: numbers, texts, patterns, names and signs. A slash
starts a pattern unless a value stands before it, which is divided then.
-/

namespace SchemaGraph.Shell.Records

/-- A symbol of a program. -/
inductive Symbol where
  | number (value : RealNumber)
  | text (text : String)
  | pattern (text : List Char)
  /-- A name, and whether an opening parenthesis follows at once. -/
  | name (name : String) (isCalled : Bool)
  | routine (name : String)
  | keyword (text : String)
  | sign (text : String)
  | newline
  deriving DecidableEq, Repr

namespace Symbol

/-- The words that have a meaning of their own. -/
def keywords : List String :=
  ["BEGIN", "END", "function", "func", "if", "else", "while", "for", "do", "break", "continue",
    "next", "nextfile", "exit", "return", "delete", "in", "getline", "print", "printf"]

/-- The signs, a longer one before its beginnings. -/
def signs : List String :=
  ["&&", "||", "++", "--", "+=", "-=", "*=", "/=", "%=", "^=", "==", "<=", ">=", "!=", "!~", ">>",
    "\x7b", "\x7d", "(", ")", "[", "]", ";", ",", "+", "-", "*", "/", "%", "^", "!", ">", "<", "|",
    "?", ":", "~", "$", "="]

/-- Whether a value may end with a symbol, so that a slash behind it divides. -/
def endsValue : Symbol → Bool
  | number _ | text _ | pattern _ | name _ _ => true
  | keyword word => word = "getline"
  | sign s => [")", "]", "++", "--"].contains s
  | routine _ | newline => false

/-- What a complaint calls a symbol. -/
def shown : Symbol → String
  | number value => (value.integerText?).getD "number"
  | text s | name s _ | routine s | keyword s | sign s => s
  | pattern cs => String.ofList ('/' :: cs ++ ['/'])
  | newline => "end of line"

/-- The characters of a text whose opening quote has been taken, and what follows its closing quote;
none if it has no end in its line. Every step takes a character, so `fuel` is their number. -/
def takeText : (fuel : Nat) → List Char → Option (List Char × List Char)
  | 0, _ | _, [] => none
  | fuel + 1, c :: cs =>
    let add (c : Char) (rest : List Char) : Option (List Char × List Char) :=
      (takeText fuel rest).map fun found => (c :: found.1, found.2)
    if c = '"' then some ([], cs)
    else if c = '\n' then none
    else if c = '\\' then
      match cs with
      | [] => none
      | '\n' :: rest => takeText fuel rest
      | 'x' :: rest =>
        let digits := (rest.take 2).takeWhile Arithmetic.isHex
        if digits = [] then add '\\' cs
        else add (Char.ofNat (Arithmetic.ofDigits 16 digits)) (rest.drop digits.length)
      | d :: _ =>
        if "\"\\/abfnrtv".toList.contains d || Arithmetic.isOctal d then
          let (named, rest) := Regex.namedChar cs
          add named rest
        else add '\\' cs
    else add c cs

/-- The text of a pattern whose opening slash has been taken, and what follows its closing one; none
if it has no end in its line. In brackets a slash is a character. Every step takes a character, so
`fuel` is their number. -/
def takePattern : (fuel : Nat) → (isInBracket : Bool) → List Char → Option (List Char × List Char)
  | 0, _, _ | _, _, [] => none
  | fuel + 1, isInBracket, c :: cs =>
    let add (taken : List Char) (isInBracket : Bool) (rest : List Char) :
        Option (List Char × List Char) :=
      (takePattern fuel isInBracket rest).map fun found => (taken ++ found.1, found.2)
    match c, cs with
    | '\n', _ => none
    | '\\', '/' :: rest => add ['/'] isInBracket rest
    | '\\', d :: rest => add ['\\', d] isInBracket rest
    | '[', ']' :: rest => if isInBracket then add ['['] true cs else add ['[', ']'] true rest
    | '[', '^' :: ']' :: rest =>
      if isInBracket then add ['['] true cs else add ['[', '^', ']'] true rest
    | '[', _ => add ['['] true cs
    | ']', _ => add [']'] false cs
    | '/', _ => if isInBracket then add ['/'] true cs else some ([], cs)
    | _, _ => add [c] isInBracket cs

/-- The symbol of a word that the given text follows. -/
def ofWord (word : String) (rest : List Char) : Symbol :=
  if keywords.contains word then keyword word
  else if (routines.lookup word).isSome then routine word
  else name word (rest.head? = some '(')

/-- The symbols of a text with the lines on which they stand, or a complaint. Every step takes a
character, so `fuel` is their number. -/
def readAll : (fuel line : Nat) → (latest : Symbol) → List Char →
    Except String (List (Symbol × Nat))
  | 0, _, _, _ | _, _, _, [] => .ok []
  | fuel + 1, line, latest, c :: cs => do
    let found (symbol : Symbol) (rest : List Char) : Except String (List (Symbol × Nat)) := do
      return (symbol, line) :: (← readAll fuel line symbol rest)
    let refuse (complaint : String) : Except String (List (Symbol × Nat)) :=
      .error ("line " ++ toString line ++ ": " ++ complaint)
    let front (cs : List Char) : String := String.ofList ((cs.takeWhile (· != '\n')).take 10)
    if c = ' ' || c = '\t' || c = '\r' then readAll fuel line latest cs
    else if c = '\n' then
      return (newline, line) :: (← readAll fuel (line + 1) newline cs)
    else if c = '#' then readAll fuel line latest (cs.dropWhile (· != '\n'))
    else if c = '\\' && cs.head? = some '\n' then readAll fuel (line + 1) latest cs.tail
    else if c = '"' then
      match takeText cs.length cs with
      | some (body, rest) => found (.text (String.ofList body)) rest
      | none => refuse ("runaway string constant \"" ++ front cs ++ " ...")
    else if c = '/' && !latest.endsValue then
      match takePattern cs.length false cs with
      | some (body, rest) => found (pattern body) rest
      | none => refuse ("runaway regular expression /" ++ front cs ++ " ...")
    else if startsName c then
      let word := (c :: cs).takeWhile isNameChar
      let rest := (c :: cs).dropWhile isNameChar
      found (ofWord (String.ofList word) rest) rest
    else if c.isDigit || (c = '.' && (cs.head?.map Char.isDigit).getD false) then
      match RealReading.digits? Char.isDigit (c :: cs) with
      | some (_, _, rest) =>
        let rest := (RealReading.power ['e', 'E'] rest).2
        let digits := (c :: cs).take (cs.length + 1 - rest.length)
        found (number (RealNumber.ofText digits)) rest
      | none => refuse "syntax error"
    else
      match takeSign signs id (c :: cs) with
      | some (written, rest) => found (sign written) rest
      | none =>
        .error (toString line ++ ": unexpected character '" ++ String.singleton c ++ "'")

end Symbol
end SchemaGraph.Shell.Records
