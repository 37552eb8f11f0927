import SchemaGraph.Shell.Records.Symbol
/-!
# Reading programs for records

Expressions are read by levels, from choices down to single values: a level whose signs bind more
closely lies deeper. Outside parentheses what is printed ends before a sign that says where it goes.
-/

namespace SchemaGraph.Shell.Records

/-- A function that takes something from the front of a list of symbols, or refuses it. -/
abbrev ProgramReader : Type → Type :=
  StateT (List (Symbol × Nat)) (Except String)

namespace ProgramReader

/-- The symbol in front, if there is one. -/
def ahead : ProgramReader (Option Symbol) := do
  return (← get).head?.map (·.1)

/-- Takes the symbol in front. -/
def advance : ProgramReader Unit :=
  modify List.tail

/-- Refuses the symbol in front. -/
def refuse : ProgramReader α := do
  match ← get with
  | (symbol, line) :: _ =>
    throw ("line " ++ toString line ++ ": syntax error at or near " ++ symbol.shown)
  | [] => throw "line 1: syntax error at or near end of file"

/-- Takes a symbol if it is in front, and answers whether it was. -/
def takes (symbol : Symbol) : ProgramReader Bool := do
  if (← ahead) = some symbol then
    advance
    return true
  else return false

/-- Takes a symbol, which has to be in front. -/
def expect (symbol : Symbol) : ProgramReader Unit := do
  unless ← takes symbol do refuse

/-- Takes line ends. -/
def skipNewlines : ProgramReader Unit :=
  modify fun symbols => symbols.dropWhile (·.1 = .newline)

/-- Takes line ends and semicolons. -/
def skipEnds : ProgramReader Unit :=
  modify fun symbols => symbols.dropWhile fun s => s.1 = .newline || s.1 = .sign ";"

/-- The name in front, which is taken. -/
def anyName : ProgramReader String := do
  match ← ahead with
  | some (.name name _) =>
    advance
    return name
  | _ => refuse

/-- Whether a symbol ends a simple statement. -/
def endsStatement : Option Symbol → Bool
  | none | some .newline | some (.sign ";") | some (.sign "\x7d") => true
  | _ => false

/-- Whether a symbol ends what is printed. -/
def endsPrint (symbol : Option Symbol) : Bool :=
  endsStatement symbol || [some (.sign ">"), some (.sign ">>"), some (.sign "|")].contains symbol

/-- Whether a value may start with a symbol that stands behind another value. -/
def startsOperand : Symbol → Bool
  | .number _ | .text _ | .pattern _ | .name _ _ | .routine _ => true
  | .sign s => ["$", "!", "(", "++", "--"].contains s
  | .keyword _ | .newline => false

/-- What the signs of a level do with two values. -/
def operationAt (level : Nat) (isPrinted : Bool) (symbol : Symbol) :
    Option (Expression → Expression → Expression) :=
  match level, symbol with
  | 1, .sign "||" => some .either
  | 2, .sign "&&" => some .both
  | 4, .sign "~" => some (.search false)
  | 4, .sign "!~" => some (.search true)
  | 5, .sign "<" => some (.binary .less)
  | 5, .sign "<=" => some (.binary .atMost)
  | 5, .sign "==" => some (.binary .equal)
  | 5, .sign "!=" => some (.binary .different)
  | 5, .sign ">=" => some (.binary .atLeast)
  | 5, .sign ">" => if isPrinted then none else some (.binary .greater)
  | 7, .sign "+" => some (.binary .add)
  | 7, .sign "-" => some (.binary .subtract)
  | 8, .sign "*" => some (.binary .multiply)
  | 8, .sign "/" => some (.binary .divide)
  | 8, .sign "%" => some (.binary .remainder)
  | _, _ => none

/-- What an assignment does besides, if a symbol is the sign of one. -/
def assignmentOf? : Symbol → Option (Option Operation)
  | .sign "=" => some none
  | .sign "+=" => some (some .add)
  | .sign "-=" => some (some .subtract)
  | .sign "*=" => some (some .multiply)
  | .sign "/=" => some (some .divide)
  | .sign "%=" => some (some .remainder)
  | .sign "^=" => some (some .power)
  | _ => none

section Expressions

variable (functions : List String)

mutual

/-- An expression. What is printed has no comparison that looks like the sign of a file. -/
def expression : (fuel : Nat) → (isPrinted : Bool) → ProgramReader Expression
  | 0, _ => refuse
  | fuel + 1, isPrinted => do
    let condition ← level fuel 1 isPrinted
    if ← takes (.sign "?") then
      skipNewlines
      let first ← expression fuel isPrinted
      skipNewlines
      expect (.sign ":")
      skipNewlines
      return .choose condition first (← expression fuel isPrinted)
    else return condition

/-- An expression of a level. -/
def level : (fuel : Nat) → (n : Nat) → (isPrinted : Bool) → ProgramReader Expression
  | 0, _, _ => refuse
  | fuel + 1, n, isPrinted => do
    if 9 ≤ n then unary fuel isPrinted
    else furtherAt fuel n isPrinted (← level fuel (n + 1) isPrinted)

/-- What follows an expression on its level. -/
def furtherAt : (fuel : Nat) → (n : Nat) → (isPrinted : Bool) → Expression →
    ProgramReader Expression
  | 0, _, _, e => return e
  | fuel + 1, n, isPrinted, e => do
    match ← ahead with
    | none => return e
    | some symbol =>
      match operationAt n isPrinted symbol with
      | some combine =>
        advance
        if n ≤ 2 then skipNewlines
        furtherAt fuel n isPrinted (combine e (← level fuel (n + 1) isPrinted))
      | none =>
        if n = 3 && symbol = .keyword "in" then
          advance
          furtherAt fuel n isPrinted (.contains [e] (← anyName))
        else if n = 6 && startsOperand symbol then
          furtherAt fuel n isPrinted (.binary .join e (← level fuel (n + 1) isPrinted))
        else return e

/-- An expression with signs in front that change it. -/
def unary : (fuel : Nat) → (isPrinted : Bool) → ProgramReader Expression
  | 0, _ => refuse
  | fuel + 1, isPrinted => do
    if ← takes (.sign "!") then return .negation (← unary fuel isPrinted)
    else if ← takes (.sign "-") then return .minus (← unary fuel isPrinted)
    else if ← takes (.sign "+") then return .plus (← unary fuel isPrinted)
    else
      let base ← withSteps fuel isPrinted
      if ← takes (.sign "^") then return .binary .power base (← unary fuel isPrinted)
      else return base

/-- A value that is stepped, assigned or passed to a reading command. -/
def withSteps : (fuel : Nat) → (isPrinted : Bool) → ProgramReader Expression
  | 0, _ => refuse
  | fuel + 1, isPrinted => do
    if ← takes (.sign "++") then readers fuel (.step (← target fuel) true false)
    else if ← takes (.sign "--") then readers fuel (.step (← target fuel) false false)
    else
      match ← single fuel with
      | .value target =>
        match (← ahead).bind assignmentOf? with
        | some operation =>
          advance
          skipNewlines
          return .assign target operation (← expression fuel isPrinted)
        | none =>
          if ← takes (.sign "++") then readers fuel (.step target true true)
          else if ← takes (.sign "--") then readers fuel (.step target false true)
          else readers fuel (.value target)
      | e => readers fuel e

/-- A command from which records are read, perhaps more than once. -/
def readers : (fuel : Nat) → Expression → ProgramReader Expression
  | 0, e => return e
  | fuel + 1, e => do
    match ← get with
    | (.sign "|", _) :: (.keyword "getline", _) :: rest =>
      set rest
      let target ← target? fuel
      readers fuel (.readRecord (.command e) target)
    | _ => return e

/-- The place of a value, if one is in front. -/
def target? : (fuel : Nat) → ProgramReader (Option Target)
  | 0 => return none
  | fuel + 1 => do
    match ← ahead with
    | some (.name _ false) | some (.sign "$") => return some (← target fuel)
    | _ => return none

/-- The place of a value. -/
def target : (fuel : Nat) → ProgramReader Target
  | 0 => refuse
  | fuel + 1 => do
    match ← single fuel with
    | .value target => return target
    | _ => refuse

/-- Expressions with commas between them. -/
def expressions : (fuel : Nat) → (isPrinted : Bool) → ProgramReader (List Expression)
  | 0, _ => refuse
  | fuel + 1, isPrinted => do
    let first ← expression fuel isPrinted
    if ← takes (.sign ",") then
      skipNewlines
      return first :: (← expressions fuel isPrinted)
    else return [first]

/-- The arguments of a call up to the closing parenthesis. -/
def arguments : (fuel : Nat) → ProgramReader (List Expression)
  | 0 => refuse
  | fuel + 1 => do
    if ← takes (.sign ")") then return []
    else
      let found ← expressions fuel false
      expect (.sign ")")
      return found

/-- A single value. -/
def single : (fuel : Nat) → ProgramReader Expression
  | 0 => refuse
  | fuel + 1 => do
    let line := ((← get).head?.map (·.2)).getD 1
    match ← ahead with
    | some (.number value) =>
      advance
      return .number value
    | some (.text text) =>
      advance
      return .text text
    | some (.pattern text) =>
      advance
      match Regex.read .named text with
      | .ok pattern => return .pattern pattern
      | .error _ =>
        throw ("line " ++ toString line ++
          ": regular expression compile failed (missing operand)\n" ++ String.ofList text)
    | some (.sign "$") =>
      advance
      if ← takes (.sign "++") then return .value (.field (.step (← target fuel) true false))
      else if ← takes (.sign "--") then return .value (.field (.step (← target fuel) false false))
      else if ← takes (.sign "-") then return .value (.field (.minus (← single fuel)))
      else return .value (.field (← single fuel))
    | some (.sign "(") =>
      advance
      let found ← expressions fuel false
      expect (.sign ")")
      match found with
      | [e] => return e
      | keys =>
        expect (.keyword "in")
        return .contains keys (← anyName)
    | some (.name name isCalled) =>
      advance
      if isCalled || (functions.contains name && (← ahead) = some (.sign "(")) then
        expect (.sign "(")
        return .call name (← arguments fuel)
      else if ← takes (.sign "[") then
        let keys ← expressions fuel false
        expect (.sign "]")
        return .value (.element name keys)
      else return .value (.named name)
    | some (.routine name) =>
      advance
      match routines.lookup name with
      | none => refuse
      | some (routine, least, most) =>
        let found ←
          if ← takes (.sign "(") then arguments fuel
          else if routine = .length then pure []
          else refuse
        if found.length < least || most < found.length then
          throw ("line " ++ toString line ++ ": wrong number of arguments in call to " ++ name)
        else return .routine routine found
    | some (.keyword "getline") =>
      advance
      let target ← target? fuel
      if ← takes (.sign "<") then return .readRecord (.file (← single fuel)) target
      else return .readRecord .input target
    | _ => refuse

end

/-- The values of a statement that prints. A parenthesis around all of them belongs to the
statement. -/
def printed (fuel : Nat) : ProgramReader (List Expression) := do
  if endsPrint (← ahead) then return []
  else
    let start ← get
    let enclosed : ProgramReader (List Expression) := do
      expect (.sign "(")
      let found ← expressions functions fuel false
      expect (.sign ")")
      if endsPrint (← ahead) then return found else refuse
    match enclosed start with
    | .ok (found, rest) =>
      set rest
      return found
    | .error _ => expressions functions fuel true

/-- Where a statement prints. -/
def printout (fuel : Nat) : ProgramReader Printout := do
  if ← takes (.sign ">") then return .file false (← level functions fuel 6 true)
  else if ← takes (.sign ">>") then return .file true (← level functions fuel 6 true)
  else if ← takes (.sign "|") then return .command (← level functions fuel 6 true)
  else return .output

/-- An expression that may be missing. -/
def expression? (fuel : Nat) : ProgramReader (Option Expression) := do
  if endsStatement (← ahead) then return none
  else return some (← expression functions fuel false)

/-- A statement that has no others in it. -/
def simple (fuel : Nat) : ProgramReader Statement := do
  match ← ahead with
  | some (.keyword "print") =>
    advance
    let values ← printed functions fuel
    return .print values (← printout functions fuel)
  | some (.keyword "printf") =>
    advance
    let values ← printed functions fuel
    if values = [] then refuse
    else return .printFormat values (← printout functions fuel)
  | some (.keyword "break") =>
    advance
    return .leave
  | some (.keyword "continue") =>
    advance
    return .resume
  | some (.keyword "next") =>
    advance
    return .next
  | some (.keyword "nextfile") =>
    advance
    return .nextFile
  | some (.keyword "exit") =>
    advance
    return .exit (← expression? functions fuel)
  | some (.keyword "return") =>
    advance
    return .return (← expression? functions fuel)
  | some (.keyword "delete") =>
    advance
    let name ← anyName
    if ← takes (.sign "[") then
      let keys ← expressions functions fuel false
      expect (.sign "]")
      return .delete name (some keys)
    else return .delete name none
  | _ => return .evaluate (← expression functions fuel false)

/-- The end of a simple statement, which a closing brace is too. -/
def statementEnd : ProgramReader Unit := do
  match ← ahead with
  | none | some (.sign "\x7d") => return ()
  | some symbol => if endsStatement (some symbol) then advance else refuse

/-- A condition between parentheses. -/
def enclosedCondition (fuel : Nat) : ProgramReader Expression := do
  expect (.sign "(")
  let condition ← expression functions fuel false
  expect (.sign ")")
  return condition

/-- A part of the head of a loop, which may be missing, and the symbol behind it. -/
def headPart (fuel : Nat) (last : Symbol) : ProgramReader Statement := do
  if ← takes last then return .block []
  else
    let found ← simple functions fuel
    expect last
    return found

mutual

/-- A statement. -/
def statement : (fuel : Nat) → ProgramReader Statement
  | 0 => refuse
  | fuel + 1 => do
    skipNewlines
    match ← ahead with
    | some (.sign "\x7b") =>
      advance
      return .block (← statements fuel)
    | some (.sign ";") =>
      advance
      return .block []
    | some (.keyword "if") =>
      advance
      let condition ← enclosedCondition functions fuel
      let body ← statement fuel
      let start ← get
      skipEnds
      if ← takes (.keyword "else") then return .choose condition body (← statement fuel)
      else
        set start
        return .choose condition body (.block [])
    | some (.keyword "while") =>
      advance
      let condition ← enclosedCondition functions fuel
      return .loop false condition (.block []) (← statement fuel)
    | some (.keyword "do") =>
      advance
      let body ← statement fuel
      skipEnds
      expect (.keyword "while")
      let condition ← enclosedCondition functions fuel
      statementEnd
      return .loop true condition (.block []) body
    | some (.keyword "for") =>
      advance
      expect (.sign "(")
      match ← get with
      | (.name name _, _) :: (.keyword "in", _) :: (.name array _, _) :: (.sign ")", _) :: rest =>
        set rest
        return .each name array (← statement fuel)
      | _ =>
        let start ← headPart functions fuel (.sign ";")
        skipNewlines
        let condition ←
          if (← ahead) = some (.sign ";") then pure (.number (RealNumber.ofInt 1))
          else expression functions fuel false
        expect (.sign ";")
        skipNewlines
        let step ← headPart functions fuel (.sign ")")
        return .block [start, .loop false condition step (← statement fuel)]
    | _ =>
      let found ← simple functions fuel
      statementEnd
      return found

/-- Statements up to the closing brace. -/
def statements : (fuel : Nat) → ProgramReader (List Statement)
  | 0 => refuse
  | fuel + 1 => do
    skipEnds
    if ← takes (.sign "\x7d") then return []
    else
      match ← get with
      | [] => throw "line 2: missing \x7d near end of file"
      | _ =>
        let first ← statement fuel
        return first :: (← statements fuel)

end

/-- What a rule does: by default it prints the record. -/
def action (fuel : Nat) : ProgramReader Statement := do
  if ← takes (.sign "\x7b") then return .block (← statements functions fuel)
  else return .print [] .output

/-- The names of parameters up to the closing parenthesis. -/
def parameters : (fuel : Nat) → ProgramReader (List String)
  | 0 => refuse
  | fuel + 1 => do
    if ← takes (.sign ")") then return []
    else
      let name ← anyName
      unless (← ahead) = some (.sign ")") do
        expect (.sign ",")
        skipNewlines
      return name :: (← parameters fuel)

/-- The rules and functions of a program. -/
def program : (fuel : Nat) → ProgramReader Program
  | 0 => refuse
  | fuel + 1 => do
    skipEnds
    let adding (condition : Condition) (action : Statement) : ProgramReader Program := do
      let rest ← program fuel
      return { rest with rules := ⟨condition, action⟩ :: rest.rules }
    match ← ahead with
    | none => return ⟨[], []⟩
    | some (.keyword "BEGIN") =>
      advance
      expect (.sign "\x7b")
      adding .first (.block (← statements functions fuel))
    | some (.keyword "END") =>
      advance
      expect (.sign "\x7b")
      adding .last (.block (← statements functions fuel))
    | some (.keyword "function") | some (.keyword "func") =>
      advance
      let name ← anyName
      expect (.sign "(")
      let parameters ← parameters fuel
      skipNewlines
      expect (.sign "\x7b")
      let body ← statements functions fuel
      let rest ← program fuel
      return { rest with functions := (name, ⟨parameters, .block body⟩) :: rest.functions }
    | some (.sign "\x7b") => adding .always (← action functions fuel)
    | some _ =>
      let condition ← expression functions fuel false
      if ← takes (.sign ",") then
        skipNewlines
        let last ← expression functions fuel false
        adding (.range condition last) (← action functions fuel)
      else adding (.when condition) (← action functions fuel)

end Expressions

/-- The names of the functions that symbols define. -/
def functionNames : List (Symbol × Nat) → List String
  | (.keyword word, _) :: (.name name isCalled, line) :: rest =>
    if word = "function" ∨ word = "func" then name :: functionNames rest
    else functionNames ((.name name isCalled, line) :: rest)
  | _ :: rest => functionNames rest
  | [] => []

end ProgramReader

/-- The program that a text is, or a complaint. Every step takes a symbol or one of at most twenty
nested parts of the grammar. -/
def Program.read (text : List Char) : Except String Program := do
  let symbols ← Symbol.readAll (text.length + 1) 1 .newline text
  let functions := ProgramReader.functionNames symbols
  let (program, _) ←
    ProgramReader.program functions (20 * (symbols.length + 2)) symbols
  return program

end SchemaGraph.Shell.Records
