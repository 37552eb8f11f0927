import SchemaGraph.Shell.Regex.Reader
import SchemaGraph.Shell.Utility.Basic
/-!
# Values of words

The program that shows the value of an expression that its words are. A value is a text; where a
number is due it has to be an integer.
-/

namespace SchemaGraph.Shell.Utility.Computing

/-- An expression on texts. -/
inductive Expression where
  | text (text : String)
  | either (left right : Expression)
  | both (left right : Expression)
  | comparison (operator : String) (left right : Expression)
  | calculation (operator : String) (left right : Expression)
  | matching (text pattern : Expression)
  | length (text : Expression)
  | index (text chars : Expression)
  | part (text start count : Expression)

/-! ## Reading -/

/-- What is left of the words, and the word before them. -/
structure Rest where
  words : List String
  latest : String

/-- A function that takes something from the front of words, or says what is wrong with them. -/
abbrev Reader : Type → Type :=
  StateT Rest (Except String)

/-- Takes a word, which must be there. -/
def word : Reader String := do
  match (← get).words with
  | w :: words =>
    set (⟨words, w⟩ : Rest)
    return w
  | [] => throw ("syntax error: missing argument after " ++ plainQuoted (← get).latest)

/-- Takes the word in front if it is one of some words. -/
def oneOf? (words : List String) : Reader (Option String) := do
  match (← get).words with
  | w :: rest =>
    if words.contains w then
      set (⟨rest, w⟩ : Rest)
      return some w
    else return none
  | [] => return none

/-- The operators, by how weakly they bind. -/
def levels : List (List String) :=
  [["|"], ["&"], ["<", "<=", "=", "==", "!=", ">=", ">"], ["+", "-"], ["*", "/", "%"], [":"]]

/-- The expression of an operator with its sides. -/
def joined (operator : String) (left right : Expression) : Expression :=
  if operator = "|" then .either left right
  else if operator = "&" then .both left right
  else if operator = ":" then .matching left right
  else if ["+", "-", "*", "/", "%"].contains operator then .calculation operator left right
  else .comparison operator left right

/-- Reads an expression whose operators are in `levels`, in at most `fuel` nested steps. With a left
side only what follows it is read. -/
def expression : (fuel : Nat) → List (List String) → Option Expression → Reader Expression
  | 0, _, _ => throw "syntax error"
  | fuel + 1, operators :: levels, none => do
    let first ← expression fuel levels none
    expression fuel (operators :: levels) (some first)
  | fuel + 1, operators :: levels, some left => do
    match ← oneOf? operators with
    | some operator =>
      let right ← expression fuel levels none
      expression fuel (operators :: levels) (some (joined operator left right))
    | none => return left
  | fuel + 1, [], _ => do
    let first ← word
    let operand : Reader Expression := expression fuel [] none
    if first = "+" then return .text (← word)
    else if first = "length" then return .length (← operand)
    else if first = "match" then return .matching (← operand) (← operand)
    else if first = "index" then return .index (← operand) (← operand)
    else if first = "substr" then return .part (← operand) (← operand) (← operand)
    else if first = "(" then
      let inner ← expression fuel levels none
      match ← oneOf? [")"] with
      | some _ => return inner
      | none =>
        match (← get).words with
        | [] => throw ("syntax error: expecting ')' after " ++ plainQuoted (← get).latest)
        | w :: _ => throw ("syntax error: expecting ')' instead of " ++ plainQuoted w)
    else if first = ")" then throw "syntax error: unexpected ')'"
    else return .text first

/-! ## Values -/

/-- The integer that a text is. -/
def integer? (text : String) : Option Int :=
  let (negative, digits) :=
    match text.toList with
    | '-' :: digits => (true, digits)
    | digits => (false, digits)
  if digits ≠ [] && digits.all Char.isDigit then
    let n : Int := Arithmetic.ofDigits 10 digits
    some (if negative then -n else n)
  else none

/-- Whether a value counts as none: an empty text, or zero. -/
def isNull (text : String) : Bool :=
  text = "" || integer? text = some 0

/-- The value of one or of zero. -/
def truth (holds : Bool) : String :=
  if holds then "1" else "0"

/-- The value of a comparison, of numbers where both sides are such. -/
def compare (operator left right : String) : String :=
  let (less, same) : Bool × Bool :=
    match integer? left, integer? right with
    | some a, some b => (a < b, a = b)
    | _, _ => (left < right, left = right)
  truth (
    if operator = "<" then less
    else if operator = "<=" then less || same
    else if operator = "!=" then !same
    else if operator = ">=" then !less
    else if operator = ">" then !less && !same
    else same)

/-- The value of a calculation. -/
def calculate (operator : String) (a b : Int) : Except String Int :=
  if operator = "+" then .ok (a + b)
  else if operator = "-" then .ok (a - b)
  else if operator = "*" then .ok (a * b)
  else if b = 0 then .error "division by zero"
  else if operator = "/" then .ok (a.tdiv b)
  else .ok (a.tmod b)

/-- What a pattern matches at the start of a text: the first group if it has one, else the number of
characters. -/
def matchStart (text pattern : String) : Except String String := do
  let e ← Regex.read .basic pattern.toList
  let mode : MatchMode := ⟨false, false⟩
  let found := Regex.findEnd mode e (.start text.toList) some
  if e.groupCount = 0 then return toString ((found.map (·.position)).getD 0)
  else return String.ofList ((found.bind (·.groupText? 1)).getD [])

/-- The value of an expression. -/
def value : Expression → Except String String
  | .text text => .ok text
  | .either left right => do
    let l ← value left
    if !isNull l then return l
    else
      let r ← value right
      return if isNull r then "0" else r
  | .both left right => do
    let l ← value left
    if isNull l then return "0"
    else return if isNull (← value right) then "0" else l
  | .comparison operator left right => do return compare operator (← value left) (← value right)
  | .calculation operator left right => do
    match integer? (← value left), integer? (← value right) with
    | some a, some b => return toString (← calculate operator a b)
    | _, _ => throw "non-integer argument"
  | .matching text pattern => do matchStart (← value text) (← value pattern)
  | .length text => do return toString (← value text).length
  | .index text chars => do
    let chars := (← value chars).toList
    let text := (← value text).toList
    let before := text.takeWhile fun c => !chars.contains c
    return if before.length = text.length then "0" else toString (before.length + 1)
  | .part text start count => do
    let cs := (← value text).toList
    match integer? (← value start), integer? (← value count) with
    | some start, some count =>
      if start < 1 ∨ count < 1 then return ""
      else return String.ofList ((cs.drop (start.toNat - 1)).take count.toNat)
    | _, _ => return ""

/-- The value of the expression that words are. -/
def ofWords (words : List String) : Except String String := do
  let (e, rest) ← expression (16 * (words.length + 1)) levels none ⟨words, ""⟩
  match rest.words with
  | w :: _ => throw ("syntax error: unexpected argument " ++ plainQuoted w)
  | [] => value e

end Computing

/-- Shows the value of an expression. The exit code says whether it counts as none. -/
def expr : Utility := fun r =>
  let words := if r.arguments.head? = some "--" then r.arguments.tail else r.arguments
  if words = [] then .misuse r.tree 2 r.program "missing operand"
  else
    match Computing.ofWords words with
    | .ok value =>
      { Effect.lines r.tree [value] with status := if Computing.isNull value then 1 else 0 }
    | .error complaint => .failure r.tree 2 r.program complaint

end SchemaGraph.Shell.Utility
