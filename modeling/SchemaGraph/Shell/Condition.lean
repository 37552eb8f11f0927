import SchemaGraph.Files.Tree
import SchemaGraph.Text.Blank
import SchemaGraph.Text.Bytes
/-!
# Conditions in shell scripts

The value of the words that `test` gets. What a word is depends on those after it, so that a word
that looks like an operator can stand where a value is due. A reader stands at a word and leaves the
last word that it has taken in front, for messages to name it.
-/

namespace SchemaGraph.Shell.Condition

/-- Why words are no condition. -/
inductive Problem where
  | unexpectedOperator (word : String)
  | noNumber (word : String)
  | missingValue (operator : String)
  | missingParenthesis
  deriving DecidableEq, Repr

/-- The text of a problem. -/
def Problem.message : Problem → String
  | unexpectedOperator word => (if word = "" then "" else word ++ ": ") ++ "unexpected operator"
  | noNumber word => "Illegal number: " ++ word
  | missingValue operator => operator ++ ": argument expected"
  | missingParenthesis => "closing paren expected"

/-- What a word is. -/
inductive Role where
  | ending | operand | unary | binary | negation | both | either | opening | closing
  deriving DecidableEq, Repr

/-- The tests of one word. -/
def unaryOperators : List String :=
  ["-n", "-z", "-e", "-f", "-d", "-r", "-w", "-x", "-s", "-h", "-L", "-p", "-S", "-b", "-c", "-t",
    "-u", "-g", "-k", "-O", "-G"]

/-- The tests of two words. -/
def binaryOperators : List String :=
  ["=", "!=", "<", ">", "-eq", "-ne", "-lt", "-le", "-gt", "-ge", "-nt", "-ot", "-ef"]

/-- What a word is by itself. -/
def roleOf (word : String) : Role :=
  if word ∈ unaryOperators then .unary
  else if word ∈ binaryOperators then .binary
  else if word = "!" then .negation
  else if word = "-a" then .both
  else if word = "-o" then .either
  else if word = "(" then .opening
  else if word = ")" then .closing
  else .operand

/-- What the first of several words is. A test of one word without that word, or before a test of
two words, is an operand. -/
def role : List String → Role
  | [] => .ending
  | [word] =>
    if roleOf word = .unary ∨ roleOf word = .opening then .operand else roleOf word
  | word :: next :: rest =>
    if roleOf word = .unary ∧ rest ≠ [] ∧ roleOf next = .binary then .operand else roleOf word

/-- The value of a test of one word. -/
def unary (t : FileTree) (operator word : String) : Bool :=
  let path := Text.ofByteText word
  let entry := (t.stat path).toOption
  if operator = "-n" then word ≠ ""
  else if operator = "-z" then word = ""
  else if operator = "-f" then t.isFile path
  else if operator = "-d" then t.isDirectory path
  else if operator = "-x" then
    match entry with
    | some (.file _ executable) => executable
    | some .directory => true
    | _ => false
  else if operator = "-s" then
    match entry with
    | some (.file content _) => content.bytes ≠ []
    | some .directory => true
    | _ => false
  else if operator = "-c" then entry = some .nullDevice
  else if operator = "-h" ∨ operator = "-L" then (t.statEntry path) matches .ok (.link _)
  else if ["-e", "-r", "-w", "-O", "-G"].contains operator then entry.isSome
  else false

/-- Whether a character may stand around a number. -/
def isBlank (c : Char) : Bool :=
  c == ' ' || (9 ≤ c.toNat && c.toNat ≤ 13)

/-- The number that a word is. -/
def integer (word : String) : Except Problem Int :=
  let digits :=
    match Text.trimBoth isBlank word.toList with
    | '+' :: digits => if digits.head? = some '-' then [] else digits
    | digits => digits
  match (String.ofList digits).toInt? with
  | some n => if digits.contains '_' then .error (.noNumber word) else .ok n
  | none => .error (.noNumber word)

/-- Whether two paths lead to the same entry. -/
def areSame (t : FileTree) (left right : String) : Bool :=
  let location? (path : String) : Option Location :=
    (t.locate (Text.ofByteText path)).toOption.filter fun location => (t.entry? location).isSome
  (location? left).isSome && location? left = location? right

/-- The value of a test of two words. -/
def binary (t : FileTree) (left operator right : String) : Except Problem Bool := do
  let compare (holds : Int → Int → Bool) : Except Problem Bool :=
    return holds (← integer left) (← integer right)
  if operator = "=" then return left = right
  else if operator = "!=" then return left ≠ right
  else if operator = "<" then return left < right
  else if operator = ">" then return right < left
  else if operator = "-eq" then compare (· = ·)
  else if operator = "-ne" then compare (· ≠ ·)
  else if operator = "-lt" then compare (· < ·)
  else if operator = "-le" then compare (· ≤ ·)
  else if operator = "-gt" then compare (· > ·)
  else if operator = "-ge" then compare (· ≥ ·)
  else if operator = "-ef" then return areSame t left right
  else return false

/-- What to read of a condition. -/
inductive Goal where
  | disjunction | conjunction | negation | primary

/-- The value of what a goal asks for, where the first word is what `role` says, and the words from
the last one that has been taken, in at most `fuel` nested steps. -/
def valueOf (t : FileTree) :
    (fuel : Nat) → Goal → Role → List String → Except Problem (Bool × List String)
  | 0, _, _, words => .ok (false, words)
  | fuel + 1, .disjunction, first, words => do
    let (left, words) ← valueOf t fuel .conjunction first words
    if role words.tail = .either then
      let words := words.drop 2
      let (right, words) ← valueOf t fuel .disjunction (role words) words
      return (left || right, words)
    else return (left, words)
  | fuel + 1, .conjunction, first, words => do
    let (left, words) ← valueOf t fuel .negation first words
    if role words.tail = .both then
      let words := words.drop 2
      let (right, words) ← valueOf t fuel .conjunction (role words) words
      return (left && right, words)
    else return (left, words)
  | fuel + 1, .negation, first, words => do
    if first = .negation then
      let next := role words.tail
      let (value, words) ←
        valueOf t fuel .negation next (if next = .ending then words else words.tail)
      return (!value, words)
    else valueOf t fuel .primary first words
  | fuel + 1, .primary, first, words => do
    if first = .ending then return (false, words)
    else if first = .opening then
      let words := words.tail
      if role words = .closing then return (false, words)
      else
        let (value, words) ← valueOf t fuel .disjunction (role words) words
        if role words.tail = .closing then return (value, words.tail)
        else throw .missingParenthesis
    else
      match words with
      | [] => return (false, [])
      | [word] => return (word ≠ "", [word])
      | word :: next :: rest =>
        if first = .unary then return (unary t word next, next :: rest)
        else if role (next :: rest) = .binary then
          match rest with
          | [] => throw (.missingValue next)
          | right :: rest => return (← binary t word next right, right :: rest)
        else return (word ≠ "", word :: next :: rest)

/-- The value of words of which the first is what `role` says. Only the last one may be left. -/
def whole (t : FileTree) (first : Role) (words : List String) : Except Problem Bool := do
  let (value, rest) ← valueOf t (4 * words.length + 4) .disjunction first words
  match rest with
  | word :: _ :: _ => throw (.unexpectedOperator word)
  | _ => return value

/-- The value of a condition. Three words around a test of two words are such a test, whatever they
look like, and parentheses around one or two words, or a negation of two or three, are taken
first. -/
def holds (t : FileTree) : (words : List String) → Except Problem Bool
  | [] => .ok false
  | "!" :: a :: b :: rest =>
    if rest = [] ∧ roleOf a = .binary then whole t .operand ("!" :: a :: b :: rest)
    else if rest.length ≤ 1 then (holds t (a :: b :: rest)).map fun value => !value
    else whole t .negation ("!" :: a :: b :: rest)
  | a :: b :: c :: rest =>
    let words := a :: b :: c :: rest
    if rest = [] ∧ roleOf b = .binary then whole t .operand words
    else if rest.length ≤ 1 ∧ a = "(" ∧ words.getLast? = some ")" then
      whole t (role words.tail.dropLast) words.tail.dropLast
    else whole t (role words) words
  | words => whole t (role words) words

end SchemaGraph.Shell.Condition
