import SchemaGraph.Text.Quoted
/-!
# Tokens

The words of a schema text. A comment is a token too, because a comment between two statements is
an element of the declaration tree.
-/

namespace SchemaGraph

/-- The punctuation marks. -/
inductive Mark where
  | semi | comma | dot | equals | colon | minus | plus | slash
  | leftBrace | rightBrace | leftBracket | rightBracket
  | leftParen | rightParen | leftAngle | rightAngle
  deriving DecidableEq, Repr

namespace Mark

/-- Every mark. -/
def all : List Mark :=
  [semi, comma, dot, equals, colon, minus, plus, slash, leftBrace, rightBrace, leftBracket,
    rightBracket, leftParen, rightParen, leftAngle, rightAngle]

/-- The character of a mark. -/
def char : Mark → Char
  | semi => ';'
  | comma => ','
  | dot => '.'
  | equals => '='
  | colon => ':'
  | minus => '-'
  | plus => '+'
  | slash => '/'
  | leftBrace => '\x7b'
  | rightBrace => '\x7d'
  | leftBracket => '['
  | rightBracket => ']'
  | leftParen => '('
  | rightParen => ')'
  | leftAngle => '<'
  | rightAngle => '>'

/-- Whether a mark opens a nested group. -/
def isOpener : Mark → Bool
  | leftBrace | leftBracket | leftParen | leftAngle => true
  | _ => false

/-- Whether a mark closes a nested group. -/
def isCloser : Mark → Bool
  | rightBrace | rightBracket | rightParen | rightAngle => true
  | _ => false

end Mark

/-- A word of a schema text, with its decoded payload. -/
inductive Token where
  /-- A comment to the end of its line, trimmed. -/
  | lineComment (text : String)
  /-- A comment between `/*` and `*/`, trimmed. -/
  | blockComment (text : String)
  | ident (name : String)
  /-- An integer as written, without a sign. -/
  | int (digits : String)
  /-- A floating-point number as written, without a sign. -/
  | float (digits : String)
  /-- A string literal, its escapes decoded. -/
  | str (value : String)
  | mark (mark : Mark)
  deriving DecidableEq, Repr

namespace Token

/-- Whether the token is a comment. -/
def isComment : Token → Bool
  | lineComment _ | blockComment _ => true
  | _ => false

/-- The text of a comment. -/
def comment? : Token → Option String
  | lineComment text | blockComment text => some text
  | _ => none

/-- A text of the token as it could stand in a source. -/
def text : Token → String
  | lineComment s => "// " ++ s
  | blockComment s => "/* " ++ s ++ " */"
  | ident s | int s | float s => s
  | str s => Text.quote s
  | mark m => String.singleton m.char

end Token
end SchemaGraph
