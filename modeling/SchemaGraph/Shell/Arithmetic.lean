import SchemaGraph.Shell.Source
/-!
# Arithmetic in shell scripts

An expression on integers has numbers, variables, signs, parentheses, the operators on two values by
their binding strength, choices and assignments. It is read as a whole and then evaluated; of a
choice only the part that counts is.
-/

namespace SchemaGraph.Shell.Arithmetic

/-- Why an expression has no value. -/
inductive Problem where
  | divisionByZero
  /-- A value is due where there is none. -/
  | noPrimary
  /-- More text follows the expression. -/
  | noEnd
  | noColon
  | noParenthesis
  /-- The value of a variable is no number. -/
  | noNumber (text : String)
  deriving DecidableEq, Repr

/-- What is wrong with the expression of the given text. -/
def Problem.complaint (expression : String) (p : Problem) : String :=
  let about (problem : String) : String :=
    "arithmetic expression: " ++ problem ++ ": \"" ++ expression ++ "\""
  match p with
  | divisionByZero => about "division by zero"
  | noPrimary => about "expecting primary"
  | noEnd => about "expecting EOF"
  | noColon => about "expecting ':'"
  | noParenthesis => about "expecting ')'"
  | noNumber text => "Illegal number: " ++ text

/-! ## Numbers -/

/-- Whether a character stands between the parts of an expression. -/
def isBlank (c : Char) : Bool :=
  isSpace c || c == '\n'

/-- The value of a digit. -/
def digitValue (c : Char) : Nat :=
  if c.isDigit then c.toNat - '0'.toNat else c.toLower.toNat - 'a'.toNat + 10

/-- The number of the given digits. -/
def ofDigits (base : Nat) (digits : List Char) : Nat :=
  digits.foldl (fun n c => n * base + digitValue c) 0

/-- Whether a character is a hexadecimal digit. -/
def isHex (c : Char) : Bool :=
  c.isDigit || ('a' ≤ c.toLower && c.toLower ≤ 'f')

/-- Whether a character is an octal digit. -/
def isOctal (c : Char) : Bool :=
  '0' ≤ c && c ≤ '7'

/-- The greatest number, which stands for all that are greater. -/
def greatest : Nat := 0x7FFFFFFFFFFFFFFF

/-- The number at the front of a text, and the text after it: decimal, hexadecimal after `0x`, octal
after `0`. -/
def takeNumber (cs : List Char) : Option (Nat × List Char) :=
  let take (base : Nat) (isDigit : Char → Bool) (cs : List Char) : Nat × List Char :=
    (min greatest (ofDigits base (cs.takeWhile isDigit)), cs.dropWhile isDigit)
  match cs with
  | '0' :: x :: c :: rest =>
    if (x = 'x' ∨ x = 'X') ∧ isHex c then some (take 16 isHex (c :: rest))
    else some (take 8 isOctal cs)
  | '0' :: _ => some (take 8 isOctal cs)
  | c :: _ => if c.isDigit then some (take 10 Char.isDigit cs) else none
  | [] => none

/-- The number that a whole text is. -/
def number? (cs : List Char) : Option Nat :=
  match takeNumber cs with
  | some (n, []) => some n
  | _ => none

/-- The number that the value of a variable is, with blanks around it; of an empty value, zero. -/
def ofVariable (text : String) : Except Problem Int :=
  let cs := Text.trimBoth isBlank text.toList
  let signed (change : Int → Int) (cs : List Char) : Except Problem Int :=
    match number? cs with
    | some n => .ok (change n)
    | none => .error (.noNumber text)
  match cs with
  | [] => if text = "" then .ok 0 else .error (.noNumber text)
  | '-' :: cs => signed (-·) cs
  | '+' :: cs => signed id cs
  | cs => signed id cs

/-! ## Expressions -/

/-- An operator on two values. -/
inductive Operator where
  | or | xor | and | equal | unequal | atMost | atLeast | less | greater | shiftLeft | shiftRight
  | add | subtract | multiply | divide | remainder
  deriving DecidableEq, Repr

/-- A sign before a value. -/
inductive Sign where
  | plus | minus | not | complement
  deriving DecidableEq, Repr

/-- An expression. -/
inductive Expression where
  | number (n : Int)
  | named (name : String)
  | signed (sign : Sign) (e : Expression)
  | joined (operator : Operator) (a b : Expression)
  | both (a b : Expression)
  | either (a b : Expression)
  | choice (condition a b : Expression)
  /-- The variable gets the value, which an operator may join with the one before. -/
  | assign (name : String) (operator : Option Operator) (e : Expression)

/-- The operators by their signs, a longer one before its beginnings. -/
def operators : List (String × Operator) :=
  [("==", .equal), ("!=", .unequal), ("<=", .atMost), (">=", .atLeast), ("<<", .shiftLeft),
    (">>", .shiftRight), ("|", .or), ("^", .xor), ("&", .and), ("<", .less), (">", .greater),
    ("+", .add), ("-", .subtract), ("*", .multiply), ("/", .divide), ("%", .remainder)]

/-- The operators that an assignment may have. -/
def assigning : List Operator :=
  [.or, .xor, .and, .shiftLeft, .shiftRight, .add, .subtract, .multiply, .divide, .remainder]

/-- How operators join: those that bind least are first. -/
inductive Level where
  | disjunction | conjunction
  | joining (operators : List Operator)
  deriving DecidableEq, Repr

/-- The levels of operators, from those that bind least to those that bind most. -/
def levels : List Level :=
  [.disjunction, .conjunction, .joining [.or], .joining [.xor], .joining [.and],
    .joining [.equal, .unequal], .joining [.atMost, .atLeast, .less, .greater],
    .joining [.shiftLeft, .shiftRight], .joining [.add, .subtract],
    .joining [.multiply, .divide, .remainder]]

/-! ## Reading -/

/-- What to read. -/
inductive Goal where
  /-- An assignment, or what can stand in its place. -/
  | assignment
  /-- A choice, or one value. -/
  | choice
  /-- Values joined by the operators of the given levels. -/
  | joined (levels : List Level)
  /-- What follows the first of several values. -/
  | more (first : Expression) (level : Level) (levels : List Level)

/-- The sign of an operator of a level in front, with how it joins two values, and the text after
it. -/
def takeOperator (level : Level) (cs : List Char) :
    Option ((Expression → Expression → Expression) × List Char) :=
  match level, cs with
  | .disjunction, '|' :: '|' :: rest => some (.either, rest)
  | .conjunction, '&' :: '&' :: rest => some (.both, rest)
  | .joining operators', cs =>
    match takeSign (("||", none) :: ("&&", none) :: operators.map fun o => (o.1, some o.2)) (·.1) cs
      with
    | some ((_, some operator), rest) =>
      if operators'.contains operator then
        if rest.head? = some '=' && assigning.contains operator then none
        else some (.joined operator, rest)
      else none
    | _ => none
  | _, _ => none

/-- The sign of an assignment in front, with the operator in it, and the text after it. -/
def takeAssignment (cs : List Char) : Option (Option Operator × List Char) :=
  match cs with
  | '=' :: rest => if rest.head? = some '=' then none else some (none, rest)
  | cs =>
    match takeSign operators (·.1) cs with
    | some ((_, operator), '=' :: rest) =>
      if assigning.contains operator then some (some operator, rest) else none
    | _ => none

/-- Reads what a goal asks for, and answers the text after it, in at most `fuel` nested steps. -/
def read : (fuel : Nat) → Goal → List Char → Except Problem (Expression × List Char)
  | 0, _, _ => .error .noPrimary
  | fuel + 1, goal, cs => do
    let cs := cs.dropWhile isBlank
    match goal with
    | .assignment =>
      let name := String.ofList (cs.takeWhile isNameChar)
      let after := (cs.dropWhile isNameChar).dropWhile isBlank
      match (if isName name then takeAssignment after else none) with
      | some (operator, rest) =>
        let (value, rest) ← read fuel .assignment rest
        return (.assign name operator value, rest)
      | none => read fuel .choice cs
    | .choice =>
      let (condition, cs) ← read fuel (.joined levels) cs
      match cs with
      | '?' :: cs =>
        let (a, cs) ← read fuel .assignment cs
        match cs with
        | ':' :: cs =>
          let (b, cs) ← read fuel .choice cs
          return (.choice condition a b, cs)
        | _ => throw .noColon
      | cs => return (condition, cs)
    | .joined (level :: levels) =>
      let (first, cs) ← read fuel (.joined levels) cs
      read fuel (.more first level levels) cs
    | .more first level levels =>
      match takeOperator level cs with
      | some (join, rest) =>
        let (second, rest) ← read fuel (.joined levels) rest
        read fuel (.more (join first second) level levels) rest
      | none => return (first, cs)
    | .joined [] =>
      let signed (sign : Sign) (cs : List Char) : Except Problem (Expression × List Char) := do
        let (value, cs) ← read fuel (.joined []) cs
        return (.signed sign value, cs)
      match cs with
      | '(' :: cs =>
        match ← read fuel .assignment cs with
        | (value, ')' :: cs) => return (value, cs.dropWhile isBlank)
        | _ => throw .noParenthesis
      | '-' :: cs => signed .minus cs
      | '+' :: cs => signed .plus cs
      | '!' :: cs => signed .not cs
      | '~' :: cs => signed .complement cs
      | cs =>
        match takeNumber cs with
        | some (n, rest) => return (.number n, rest.dropWhile isBlank)
        | none =>
          let name := String.ofList (cs.takeWhile isNameChar)
          if isName name then
            return (.named name, (cs.dropWhile isNameChar).dropWhile isBlank)
          else throw .noPrimary

/-- The expression that a whole text is; an empty one is zero. -/
def ofText (text : String) : Except Problem Expression :=
  if text.toList.all isBlank then .ok (.number 0)
  else
    match read (32 * (text.length + 1)) .assignment text.toList with
    | .ok (e, []) => .ok e
    | .ok _ => .error .noEnd
    | .error e => .error e

/-! ## Values -/

/-- One for what is true, zero for what is not. -/
def ofBool (b : Bool) : Int :=
  if b then 1 else 0

/-- The value of an operator on two values. Quotients are cut off toward zero. -/
def Operator.apply (operator : Operator) (a b : Int) : Except Problem Int :=
  let wrap (n : Int) : Int := (Int64.ofInt n).toInt
  match operator with
  | or => .ok (Int64.ofInt a ||| Int64.ofInt b).toInt
  | xor => .ok (Int64.ofInt a ^^^ Int64.ofInt b).toInt
  | and => .ok (Int64.ofInt a &&& Int64.ofInt b).toInt
  | equal => .ok (ofBool (a = b))
  | unequal => .ok (ofBool (a ≠ b))
  | atMost => .ok (ofBool (a ≤ b))
  | atLeast => .ok (ofBool (a ≥ b))
  | less => .ok (ofBool (a < b))
  | greater => .ok (ofBool (a > b))
  | shiftLeft => .ok (Int64.ofInt a <<< Int64.ofInt b).toInt
  | shiftRight => .ok (Int64.ofInt a >>> Int64.ofInt b).toInt
  | add => .ok (wrap (a + b))
  | subtract => .ok (wrap (a - b))
  | multiply => .ok (wrap (a * b))
  | divide => if b = 0 then .error .divisionByZero else .ok (wrap (a.tdiv b))
  | remainder => if b = 0 then .error .divisionByZero else .ok (a.tmod b)

/-- The value of a signed value. -/
def Sign.apply (sign : Sign) (a : Int) : Int :=
  match sign with
  | plus => a
  | minus => (Int64.ofInt (-a)).toInt
  | not => ofBool (a = 0)
  | complement => -a - 1

/-- What has been assigned, the latest first. -/
abbrev Assigned : Type :=
  List (String × Int)

/-- The value of an expression, and what has been assigned when it is known. -/
def Expression.value (lookup : String → Except Problem Int) :
    Expression → Assigned → Except Problem (Int × Assigned)
  | number n, assigned => .ok (n, assigned)
  | named name, assigned =>
    match assigned.lookup name with
    | some n => .ok (n, assigned)
    | none => (lookup name).map fun n => (n, assigned)
  | signed sign e, assigned => do
    let (n, assigned) ← e.value lookup assigned
    return (sign.apply n, assigned)
  | joined operator a b, assigned => do
    let (x, assigned) ← a.value lookup assigned
    let (y, assigned) ← b.value lookup assigned
    return (← operator.apply x y, assigned)
  | both a b, assigned => do
    let (x, assigned) ← a.value lookup assigned
    if x = 0 then return (0, assigned)
    else
      let (y, assigned) ← b.value lookup assigned
      return (ofBool (y ≠ 0), assigned)
  | either a b, assigned => do
    let (x, assigned) ← a.value lookup assigned
    if x ≠ 0 then return (1, assigned)
    else
      let (y, assigned) ← b.value lookup assigned
      return (ofBool (y ≠ 0), assigned)
  | choice condition a b, assigned => do
    let (x, assigned) ← condition.value lookup assigned
    if x ≠ 0 then a.value lookup assigned else b.value lookup assigned
  | assign name operator e, assigned => do
    let (n, assigned) ← e.value lookup assigned
    match operator with
    | none => return (n, (name, n) :: assigned)
    | some operator =>
      let before ←
        match assigned.lookup name with
        | some n => pure n
        | none => lookup name
      let n ← operator.apply before n
      return (n, (name, n) :: assigned)

/-- The value of the expression that a text is, and what has been assigned, the latest first. -/
def value (lookup : String → Except Problem Int) (text : String) :
    Except Problem (Int × Assigned) := do
  (← ofText text).value lookup []

end SchemaGraph.Shell.Arithmetic
