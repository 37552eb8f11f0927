import SchemaGraph.Schema.Basic
import SchemaGraph.Token.Scan
/-!
# Readers of lexemes

A `Reader α` takes lexemes from the front of a list and answers a value with the lexemes left, or
refuses. A `Refusal` holds the complaint and the lexemes that were not yet taken, so that the place
of the complaint is the first of them. Every reader passes over comments, except `nextOrComment`,
which the bodies use to keep the comments between statements.
-/

namespace SchemaGraph

/-- The bodies that must be closed before the text ends. -/
inductive BodyPlace where
  | message | oneof | enum | service | rpc
  deriving DecidableEq, Repr

/-- How messages call a body. -/
def BodyPlace.text : BodyPlace → String
  | message => "message body"
  | oneof => "oneof"
  | enum => "enum"
  | service => "service"
  | rpc => "rpc body"

/-- Why a text is refused. The token found is absent at the end of the text. -/
inductive Complaint where
  /-- No token can be read at this text. -/
  | unreadable (text : String)
  | expectedMark (mark : Mark) (found : Option Token)
  | expectedKeyword (keyword : String) (found : Option Token)
  | expectedIdent (found : Option Token)
  | expectedString (found : Option Token)
  | expectedInteger (found : Option Token)
  | invalidInteger (digits : String)
  | fieldNumberOutOfRange (value : Int)
  | unknownDialect (name : String)
  /-- A closing mark that no opening mark belongs to. -/
  | unbalanced (mark : Mark)
  | endOfText
  | endOfBody (place : BodyPlace)
  | strayAtTopLevel (token : Token)
  | strayInService (found : Option Token)
  deriving DecidableEq, Repr

namespace Complaint

/-- How messages show the token found. -/
def describe : Option Token → String
  | some token => "'" ++ token.text ++ "'"
  | none => "end of file"

/-- The text of a complaint. -/
def message : Complaint → String
  | unreadable text => "unexpected character '" ++ text ++ "'"
  | expectedMark mark found =>
    "expected '" ++ (Token.mark mark).text ++ "', found " ++ describe found
  | expectedKeyword keyword found => "expected '" ++ keyword ++ "', found " ++ describe found
  | expectedIdent found => "expected identifier, found " ++ describe found
  | expectedString found => "expected string, found " ++ describe found
  | expectedInteger found => "expected integer, found " ++ describe found
  | invalidInteger digits => "invalid integer literal '" ++ digits ++ "'"
  | fieldNumberOutOfRange value => "field number " ++ toString value ++ " out of range"
  | unknownDialect name => "unknown syntax '" ++ name ++ "'"
  | unbalanced mark => "unbalanced '" ++ (Token.mark mark).text ++ "'"
  | endOfText => "unexpected end of file"
  | endOfBody place => "unexpected end of file in " ++ place.text
  | strayAtTopLevel token => "unexpected '" ++ token.text ++ "' at top level"
  | strayInService found => "unexpected " ++ describe found ++ " in service body"

end Complaint

/-- A complaint, with the lexemes that were not yet taken when it arose. -/
structure Refusal where
  complaint : Complaint
  rest : List Lexeme

/-- The lexemes from the first one that is no comment. -/
def skipComments (ts : List Lexeme) : List Lexeme :=
  ts.dropWhile (·.token.isComment)

/-- The first `n` tokens that are no comments. -/
def ahead : Nat → List Lexeme → List Token
  | 0, _ => []
  | _, [] => []
  | n + 1, t :: ts => if t.token.isComment then ahead (n + 1) ts else t.token :: ahead n ts

/-- The next token that is no comment. -/
def peek (ts : List Lexeme) : Option Token :=
  (skipComments ts).head?.map (·.token)

/-- The line of the next token that is no comment; none at the end of the text. -/
def nextLine? (ts : List Lexeme) : Option Nat :=
  (skipComments ts).head?.map (·.line)

/-- A function that takes lexemes from the front of a list, or refuses. -/
def Reader (α : Type) : Type :=
  List Lexeme → Except Refusal (α × List Lexeme)

namespace Reader

instance : Monad Reader where
  pure a := fun ts => .ok (a, ts)
  bind x f := fun ts =>
    match x ts with
    | .error refusal => .error refusal
    | .ok (a, rest) => f a rest

/-- The reader that complains at the present place. -/
def refuse (complaint : Complaint) : Reader α :=
  fun ts => .error ⟨complaint, ts⟩

/-- The reader that complains about the next token. -/
def refuseNext (complaint : Option Token → Complaint) : Reader α :=
  fun ts => .error ⟨complaint (peek ts), ts⟩

/-- The next token, which is not taken. -/
def next : Reader (Option Token) :=
  fun ts => .ok (peek ts, ts)

/-- The next token, a comment included, which is not taken. -/
def nextOrComment : Reader (Option Token) :=
  fun ts => .ok (ts.head?.map (·.token), ts)

/-- The next `n` tokens, or all of them when there are fewer; none is taken. -/
def lookahead (n : Nat) : Reader (List Token) :=
  fun ts => .ok (ahead n ts, ts)

/-- All the tokens to come; none is taken. -/
def allAhead : Reader (List Token) :=
  fun ts => .ok (ahead ts.length ts, ts)

/-- The line of the next token. -/
def line : Reader Nat :=
  fun ts => .ok ((nextLine? ts).getD 0, ts)

/-- Takes the next token. -/
def advance : Reader Unit :=
  fun ts => .ok ((), (skipComments ts).tail)

/-- Takes the next lexeme, a comment or not. -/
def advanceOne : Reader Unit :=
  fun ts => .ok ((), ts.tail)

/-- Takes the mark if it comes next, and says whether it did. -/
def eat (mark : Mark) : Reader Bool := do
  if (← next) = some (.mark mark) then
    advance
    return true
  else
    return false

/-- Takes the mark, which must come next. -/
def expect (mark : Mark) : Reader Unit := do
  if (← next) = some (.mark mark) then advance else refuseNext (.expectedMark mark)

/-- Whether the keyword comes next. -/
def atKeyword (keyword : String) : Reader Bool := do
  return (← next) = some (.ident keyword)

/-- Takes the keyword, which must come next. -/
def expectKeyword (keyword : String) : Reader Unit := do
  if (← next) = some (.ident keyword) then advance else refuseNext (.expectedKeyword keyword)

/-- Takes an identifier. -/
def ident : Reader String := do
  match ← next with
  | some (.ident name) => do
    advance
    return name
  | _ => refuseNext .expectedIdent

/-- Takes a string literal. -/
def str : Reader String := do
  match ← next with
  | some (.str value) => do
    advance
    return value
  | _ => refuseNext .expectedString

/-- Repeats a reader until it answers none, at most once for each member of `bound`. -/
def repeatWithin (step : Reader (Option α)) : (bound : List Lexeme) → Reader (List α)
  | [] => return []
  | _ :: bound => do
    match ← step with
    | none => return []
    | some a => do
      let rest ← repeatWithin step bound
      return a :: rest

/-- Repeats a reader, which takes at least one lexeme whenever it answers something, until it
answers none. -/
def repeated (step : Reader (Option α)) : Reader (List α) :=
  fun ts => repeatWithin step ts ts

/-- A dotted name, with an optional dot before it. -/
def dottedName : Reader String := do
  let absolute ← eat .dot
  let first ← ident
  let others ← repeated do
    if ← eat .dot then some <$> ident else return none
  return (if absolute then "." else "") ++ String.intercalate "." (first :: others)

/--
The elements of a body up to its closing brace, in at most one step for each member of `bound`:
comments become elements, semicolons are passed over.
-/
def elementsWithin (place : BodyPlace) (comment : String → α) (element : Reader α) :
    (bound : List Lexeme) → Reader (List α)
  | [] => refuse (.endOfBody place)
  | _ :: bound => do
    match ← nextOrComment with
    | none => refuse (.endOfBody place)
    | some (.mark .rightBrace) => do
      advanceOne
      return []
    | some (.mark .semi) => do
      advanceOne
      elementsWithin place comment element bound
    | some token =>
      match token.comment? with
      | some text => do
        advanceOne
        let rest ← elementsWithin place comment element bound
        return comment text :: rest
      | none => do
        let first ← element
        let rest ← elementsWithin place comment element bound
        return first :: rest

/-- The elements of a body whose opening brace has been taken, up to its closing brace. Each step
takes a lexeme. -/
def elements (place : BodyPlace) (comment : String → α) (element : Reader α) : Reader (List α) :=
  fun ts => elementsWithin place comment element ts ts

/-- The elements of a body between braces. -/
def body (place : BodyPlace) (comment : String → α) (element : Reader α) : Reader (List α) := do
  expect .leftBrace
  elements place comment element

/-- How deep the tokens after `token` are nested, when it stands at depth `depth`; refused is a
closing mark at depth zero. -/
def depthAfter (depth : Nat) : Token → Except Mark Nat
  | .mark m =>
    if m.isOpener then .ok (depth + 1)
    else if m.isCloser then (if depth = 0 then .error m else .ok (depth - 1))
    else .ok depth
  | _ => .ok depth

/-- The tokens up to the first terminator at depth zero, which is not taken. The marks that open
and close groups nest. -/
def rawTokens (terminator : Mark) : (depth : Nat) → Reader (List Token)
  | _, [] => .error ⟨.endOfText, []⟩
  | depth, t :: ts =>
    if t.token.isComment then rawTokens terminator depth ts
    else if depth = 0 ∧ t.token = .mark terminator then .ok ([], t :: ts)
    else
      match depthAfter depth t.token with
      | .error m => .error ⟨.unbalanced m, t :: ts⟩
      | .ok depth =>
        match rawTokens terminator depth ts with
        | .error refusal => .error refusal
        | .ok (tokens, rest) => .ok (t.token :: tokens, rest)

/-- The texts of the tokens up to the terminator, with one space between two of them. -/
def rawText (terminator : Mark) : Reader String := do
  let tokens ← rawTokens terminator 0
  return String.intercalate " " (tokens.map Token.text)

end Reader
end SchemaGraph
