import SchemaGraph.Schema.Reader
/-!
# The grammar of schema texts

One reader for each construct, in the order literals, options, fields, messages, enums, services,
files. `parseSchema` reads a whole text and gives each refusal its line.

A keyword is a keyword only where a declaration can start: `message`, `enum`, `oneof`, `extend`,
`option`, `reserved`, `extensions`, `map` and `group` are also names of types and fields, and the
tokens that follow decide.
-/

namespace SchemaGraph

namespace Reader

/-! ## Numbers -/

/-- The value of a digit in a base up to sixteen. -/
def digitValue? (base : Nat) (c : Char) : Option Nat :=
  let value? :=
    if '0' ≤ c ∧ c ≤ '9' then some (c.toNat - '0'.toNat)
    else if 'a' ≤ c ∧ c ≤ 'f' then some (c.toNat - 'a'.toNat + 10)
    else if 'A' ≤ c ∧ c ≤ 'F' then some (c.toNat - 'A'.toNat + 10)
    else none
  value?.filter (· < base)

/-- The value of a text of digits that goes on after `value`. -/
def digitsValueFrom? (base : Nat) (value : Nat) : List Char → Option Nat
  | [] => some value
  | c :: cs => (digitValue? base c).bind fun d => digitsValueFrom? base (value * base + d) cs

/-- The value of a text of one or more digits. -/
def digitsValue? (base : Nat) (cs : List Char) : Option Nat :=
  if cs.isEmpty then none else digitsValueFrom? base 0 cs

/-- The largest integer that a literal may denote: that of 63 bits. -/
def maxInteger : Nat := 0x7fffffffffffffff

/-- The value of an integer literal: hexadecimal after `0x`, octal when it has more than one digit
and starts with a zero, decimal otherwise. -/
def integerValue? (digits : String) : Option Nat :=
  let value? :=
    match digits.toList with
    | '0' :: 'x' :: cs => digitsValue? 16 cs
    | '0' :: 'X' :: cs => digitsValue? 16 cs
    | '0' :: c :: cs => digitsValue? 8 (c :: cs)
    | cs => digitsValue? 10 cs
  value?.filter (· ≤ maxInteger)

/-- An integer, with an optional minus. -/
def integer : Reader Int := do
  let negative ← eat .minus
  match ← next with
  | some (.int digits) => do
    advance
    match integerValue? digits with
    | some value => return if negative then -(value : Int) else value
    | none => refuse (.invalidInteger digits)
  | _ => refuseNext .expectedInteger

/-- The number of a field: an integer of 32 bits without sign. -/
def fieldNumber : Reader UInt32 := do
  let value ← integer
  if 0 ≤ value ∧ value < UInt32.size then return UInt32.ofNat value.toNat
  else refuse (.fieldNumberOutOfRange value)

/-! ## Options -/

/-- An option statement. Its name is kept without spaces. -/
def optionDecl : Reader OptionDecl := do
  expectKeyword "option"
  let name ← rawText .equals
  expect .equals
  let value ← rawText .semi
  expect .semi
  return ⟨String.ofList (name.toList.filter (· != ' ')), value⟩

/-- The bracketed options after a number, if there are any. -/
def bracketedOptions : Reader (Option String) := do
  if ← eat .leftBracket then
    let text ← rawText .rightBracket
    expect .rightBracket
    return some text
  else
    return none

/-! ## Ranges -/

/-- What stands for the end of a range that goes up to `max`: the largest number of 29 bits. -/
def maxRangeEnd : Int := 0x1fffffff

/-- A number, a range of numbers or a name. -/
def reservedItem : Reader ReservedItem := do
  match ← next with
  | some (.str name) => do
    advance
    return .name name
  | some (.ident name) => do
    if name = "max" then refuseNext .expectedInteger
    else
      advance
      return .name name
  | _ => do
    let start ← integer
    if ← atKeyword "to" then
      advance
      if ← atKeyword "max" then
        advance
        return .range start (some maxRangeEnd)
      else
        let stop ← integer
        return .range start (some stop)
    else
      return .range start none

/-- One or more items, with commas between them. -/
def reservedItems : Reader (List ReservedItem) := do
  let first ← reservedItem
  let others ← repeated do
    if ← eat .comma then some <$> reservedItem else return none
  return first :: others

/-! ## Fields -/

/-- A label is a label only when a type follows it. -/
def fieldLabel : Reader FieldLabel := do
  let label : FieldLabel :=
    match ← lookahead 2 with
    | .ident keyword :: following =>
      let typeFollows :=
        match following with
        | [.ident _] => true
        | [.mark .dot] => true
        | _ => false
      if typeFollows then
        if keyword = "repeated" then .repeated
        else if keyword = "optional" then .optional
        else if keyword = "required" then .required
        else .unlabelled
      else .unlabelled
    | _ => .unlabelled
  if label ≠ .unlabelled then advance
  return label

/-- What follows the label of a field that starts on the given line. -/
def fieldAfterLabel (label : FieldLabel) (line : Nat) : Reader Field := do
  let typeName ← dottedName
  let name ← ident
  expect .equals
  let number ← fieldNumber
  let options ← bracketedOptions
  expect .semi
  return ⟨label, typeName, name, number, options, line⟩

/-- A map field. -/
def mapField : Reader MapField := do
  let line ← line
  expectKeyword "map"
  expect .leftAngle
  let keyType ← dottedName
  expect .comma
  let valueType ← dottedName
  expect .rightAngle
  let name ← ident
  expect .equals
  let number ← fieldNumber
  let options ← bracketedOptions
  expect .semi
  return ⟨keyType, valueType, name, number, options, line⟩

/-! ## Enums -/

/-- Whether a keyword of an enum body is the name of a value. -/
def namesValue : List Token → Bool
  | [_, .mark .equals] => true
  | _ => false

/-- An element of an enum body other than a comment. -/
def enumElement : Reader EnumElement := do
  let start ← lookahead 2
  if start.head? = some (.ident "option") ∧ ¬ namesValue start then
    return .option (← optionDecl)
  else if start.head? = some (.ident "reserved") ∧ ¬ namesValue start then
    advance
    let items ← reservedItems
    expect .semi
    return .reserved items
  else
    let name ← ident
    expect .equals
    let number ← integer
    let _ ← bracketedOptions
    expect .semi
    return .value ⟨name, number⟩

/-- An enum declaration. -/
def enumDecl : Reader EnumDecl := do
  let line ← line
  expectKeyword "enum"
  let name ← ident
  let elements ← body .enum .comment enumElement
  return ⟨name, elements, line⟩

/-! ## Messages -/

/-- Whether the tokens open a declaration: the keyword, a name and a brace. -/
def opensDeclaration (keyword : String) : List Token → Bool
  | .ident word :: .ident _ :: .mark .leftBrace :: _ => word == keyword
  | _ => false

/-- Whether the tokens after a keyword go on as those of a field whose type is that keyword. -/
def continuesField : List Token → Bool
  | _ :: .ident _ :: .mark .equals :: .int _ :: _ => true
  | _ => false

/-- Whether the tokens are a dotted name and a brace. -/
def isNameThenBrace : List Token → Bool
  | .ident _ :: .mark .dot :: rest => isNameThenBrace rest
  | .ident _ :: .mark .leftBrace :: _ => true
  | _ => false

/-- Whether the tokens open an extension: the keyword, a dotted name and a brace. -/
def opensExtend : List Token → Bool
  | .ident "extend" :: .mark .dot :: rest => isNameThenBrace rest
  | .ident "extend" :: rest => isNameThenBrace rest
  | _ => false

/-- Whether an extension comes next. Its name can be of any length, and so is the look ahead. -/
def atExtend : Reader Bool := do
  if ← atKeyword "extend" then return opensExtend (← allAhead) else return false

/-- Whether the tokens open a group: the keyword, a name and an equals sign. -/
def opensGroup : List Token → Bool
  | .ident "group" :: .ident _ :: .mark .equals :: _ => true
  | _ => false

/-- What follows the label of a group that starts on the given line; the elements are read by
`element`. -/
def groupAfterLabel (element : Reader MessageElement) :
    Reader (String × UInt32 × List MessageElement) := do
  expectKeyword "group"
  let name ← ident
  expect .equals
  let number ← fieldNumber
  let _ ← bracketedOptions
  let elements ← body .message .comment element
  return (name, number, elements)

/-- An element of the body of a oneof other than a comment; the elements of groups are read by
`element`. -/
def oneofElement (element : Reader MessageElement) : Reader OneofElement := do
  let start ← lookahead 4
  if start.head? = some (.ident "option") ∧ ¬ continuesField start then
    return .option (← optionDecl)
  else
    let line ← line
    let label ← fieldLabel
    if opensGroup (← lookahead 3) then
      let (name, number, elements) ← groupAfterLabel element
      return .group label name number elements line
    else
      return .field (← fieldAfterLabel label line)

/-- An extension, whose elements are read by `element`. -/
def extendDecl (element : Reader MessageElement) : Reader Extend := do
  let line ← line
  expectKeyword "extend"
  let target ← dottedName
  let elements ← body .message .comment element
  return ⟨target, elements, line⟩

/-- A message, whose elements are read by `element`. -/
def messageDecl (element : Reader MessageElement) : Reader Message := do
  let line ← line
  expectKeyword "message"
  let name ← ident
  let elements ← body .message .comment element
  return ⟨name, elements, line⟩

/-- An element of a message body other than a comment, whose own elements are read by `element`. -/
def messageElementWith (element : Reader MessageElement) : Reader MessageElement := do
  let start ← lookahead 4
  let keyword := start.head?
  if opensDeclaration "message" start then
    let ⟨name, elements, line⟩ ← messageDecl element
    return .message name elements line
  else if opensDeclaration "enum" start then
    return .enum (← enumDecl)
  else if opensDeclaration "oneof" start then
    expectKeyword "oneof"
    let name ← ident
    let members ← body .oneof .comment (oneofElement element)
    return .oneof name members
  else if ← atExtend then
    let ⟨target, elements, line⟩ ← extendDecl element
    return .extend target elements line
  else if keyword = some (.ident "option") ∧ ¬ continuesField start then
    return .option (← optionDecl)
  else if keyword = some (.ident "reserved") ∧ ¬ continuesField start then
    advance
    let items ← reservedItems
    expect .semi
    return .reserved items
  else if keyword = some (.ident "extensions") ∧ ¬ continuesField start then
    advance
    let items ← reservedItems
    let _ ← bracketedOptions
    expect .semi
    return .extensions items
  else if start.take 2 = [.ident "map", .mark .leftAngle] then
    return .map (← mapField)
  else
    let line ← line
    let label ← fieldLabel
    if opensGroup (← lookahead 3) then
      let (name, number, elements) ← groupAfterLabel element
      return .group label name number elements line
    else
      return .field (← fieldAfterLabel label line)

/-- An element of a message body in which at most `depth` bodies are nested. -/
def messageElement : (depth : Nat) → Reader MessageElement
  | 0 => refuse (.endOfBody .message)
  | depth + 1 => messageElementWith (messageElement depth)

/-! ## Services -/

/-- Whether the next token is the keyword `stream` rather than a type of that name or the first
part of one: a name follows, or a dot that does not stand right behind it. -/
def atStream (ts : List Lexeme) : Bool :=
  match (ts.filter (!·.token.isComment)).take 2 with
  | [keyword, following] =>
    keyword.token == .ident "stream" &&
      match following.token with
      | .ident _ => true
      | .mark .dot => following.span.start != keyword.span.stop
      | _ => false
  | _ => false

/-- The type of a request or a response in its parentheses, and whether it is streamed. -/
def rpcType : Reader (Bool × String) := do
  expect .leftParen
  let streaming ← (fun ts => .ok (atStream ts, ts) : Reader Bool)
  if streaming then advance
  let typeName ← dottedName
  expect .rightParen
  return (streaming, typeName)

/-- The options in the braces after a method, or none after a semicolon. -/
def rpcOptions : Reader (List OptionDecl) := do
  if ← eat .leftBrace then
    let items ← elements .rpc (fun _ => none) (some <$> optionDecl)
    let _ ← eat .semi
    return items.filterMap id
  else
    expect .semi
    return []

/-- A method of a service. -/
def rpc : Reader Rpc := do
  let line ← line
  expectKeyword "rpc"
  let name ← ident
  let (clientStreaming, requestType) ← rpcType
  expectKeyword "returns"
  let (serverStreaming, responseType) ← rpcType
  let options ← rpcOptions
  return ⟨name, requestType, responseType, clientStreaming, serverStreaming, options, line⟩

/-- An element of a service body other than a comment. -/
def serviceElement : Reader ServiceElement := do
  if ← atKeyword "option" then return .option (← optionDecl)
  else if ← atKeyword "rpc" then return .rpc (← rpc)
  else refuseNext .strayInService

/-- A service declaration. -/
def service : Reader Service := do
  let line ← line
  expectKeyword "service"
  let name ← ident
  let elements ← body .service .comment serviceElement
  return ⟨name, elements, line⟩

/-! ## Files -/

end Reader

/-- A statement at the top level of a file. -/
inductive Statement where
  | dialect (dialect : Dialect)
  | package (name : String)
  | imports (decl : Import)
  | element (element : FileElement)

namespace Reader

/-- The value of a statement that names the dialect: an equals sign, a string and a semicolon. -/
def dialectValue : Reader String := do
  expect .equals
  let value ← str
  expect .semi
  return value

/-- The statement that names one of the two numbered dialects. -/
def numberedDialect : Reader Dialect := do
  expectKeyword "syntax"
  let value ← dialectValue
  if value = "proto2" then return .proto2
  else if value = "proto3" then return .proto3
  else refuse (.unknownDialect value)

/-- An import statement. -/
def importDecl : Reader Import := do
  let line ← line
  expectKeyword "import"
  let modifier : ImportModifier :=
    match ← next with
    | some (.ident "weak") => .weak
    | some (.ident "public") => .exported
    | _ => .plain
  if modifier ≠ .plain then advance
  let path ← str
  expect .semi
  return ⟨path, modifier, line⟩

/-- A statement at the top level, which starts with the given keyword. -/
def statementOf (depth : Nat) (keyword : String) : Reader Statement := do
  match keyword with
  | "syntax" => return .dialect (← numberedDialect)
  | "edition" =>
    advance
    return .dialect (.edition (← dialectValue))
  | "package" =>
    advance
    let name ← dottedName
    expect .semi
    return .package name
  | "import" => return .imports (← importDecl)
  | "option" => return .element (.option (← optionDecl))
  | "message" => return .element (.message (← messageDecl (messageElement depth)))
  | "enum" => return .element (.enum (← enumDecl))
  | "service" => return .element (.service (← service))
  | "extend" => return .element (.extend (← extendDecl (messageElement depth)))
  | other => refuse (.strayAtTopLevel (.ident other))

/-- The next statement at the top level: none at the end of the text, and an empty list for a
semicolon. -/
def statement? (depth : Nat) : Reader (Option (List Statement)) := do
  match ← nextOrComment with
  | none => return none
  | some (.mark .semi) => do
    advance
    return some []
  | some (.ident keyword) => return some [← statementOf depth keyword]
  | some token =>
    match token.comment? with
    | some text => do
      advanceOne
      return some [.element (.comment text)]
    | none => refuse (.strayAtTopLevel token)

/-- The statements of a whole text in which at most `depth` bodies are nested. -/
def statementsWithin (depth : Nat) : Reader (List Statement) := do
  let groups ← repeated (statement? depth)
  return groups.flatten

/-- The statements of a whole text. No more bodies are nested than there are lexemes. -/
def statements : Reader (List Statement) :=
  fun ts => statementsWithin ts.length ts

end Reader

namespace SchemaFile

/-- The file with one more statement; a later dialect or package replaces an earlier one. -/
def add (file : SchemaFile) : Statement → SchemaFile
  | .dialect dialect => { file with dialect }
  | .package name => { file with package := some name }
  | .imports decl => { file with imports := file.imports ++ [decl] }
  | .element element => { file with elements := file.elements ++ [element] }

/-- The file that the statements declare. -/
def ofStatements (statements : List Statement) : SchemaFile :=
  statements.foldl add empty

end SchemaFile

/-- A refusal of a schema text, with the path of the text and the line of the complaint, which is
below `2 ^ 32` if the text has fewer than `2 ^ 32 - 1` line feeds. -/
structure ParseError where
  complaint : Complaint
  path : String
  line : Nat
  deriving DecidableEq, Repr

/-- Reads a schema text. `path` stands in complaints only. -/
def parseSchema (path source : String) : Except ParseError SchemaFile :=
  match tokenize source with
  | .error place => .error ⟨.unreadable place.text, path, place.line⟩
  | .ok lexemes =>
    match Reader.statements lexemes with
    | .error refusal =>
      .error ⟨refusal.complaint, path, (nextLine? refusal.rest).getD (endLine source)⟩
    | .ok (statements, _) => .ok (SchemaFile.ofStatements statements)

end SchemaGraph
