import SchemaGraph.Lexical.Pattern
import SchemaGraph.Text.Blank
import SchemaGraph.Token.Basic
/-!
# From text to tokens

`TokenClass.pattern` declares the texts of each class of tokens. `munch` takes the longest match of
any class at the start of a text, and `tokenize` takes one token after the other, skipping blanks
between them. A `Lexeme` is a token with the place where it stands.

The line of a place is one more than the number of line feeds before it, as a natural number. With
32 bits the line is the same in a text with fewer than `2 ^ 32 - 1` line feeds.
-/

namespace SchemaGraph

open Lexical

/-- Bytes `start` to `stop` of a text, the last one excluded. -/
structure Span where
  start : Nat
  stop : Nat
  deriving DecidableEq, Repr

/-- A token, the bytes it takes in the source, and the line on which it starts; the line has 32 bits
if the source has fewer than `2 ^ 32 - 1` line feeds. -/
structure Lexeme where
  token : Token
  span : Span
  line : Nat
  deriving DecidableEq, Repr

/-- The classes of tokens. -/
inductive TokenClass where
  | lineComment
  /-- The two characters that open a block comment. -/
  | blockOpener
  | ident
  | int
  | float
  /-- A string literal between two of the given quotes. -/
  | str (quote : Char)
  | mark (mark : Mark)
  deriving DecidableEq, Repr

namespace TokenClass

/-- A decimal digit. -/
def isDigit (c : Char) : Bool :=
  '0' ≤ c && c ≤ '9'

/-- A hexadecimal digit. -/
def isHexDigit (c : Char) : Bool :=
  isDigit c || ('a' ≤ c && c ≤ 'f') || ('A' ≤ c && c ≤ 'F')

/-- A character that may start a name. -/
def isWordStart (c : Char) : Bool :=
  ('A' ≤ c && c ≤ 'Z') || ('a' ≤ c && c ≤ 'z') || c == '_'

/-- A character that may continue a name. -/
def isWordChar (c : Char) : Bool :=
  isWordStart c || isDigit c

/-- One or more decimal digits. -/
def digits : Pattern :=
  .some1 (.one isDigit)

/-- The exponent of a floating-point number. -/
def exponent : Pattern :=
  .seq (.one fun c => c == 'e' || c == 'E')
    (.seq (.opt (.one fun c => c == '+' || c == '-')) digits)

/-- One character inside a string literal, or a backslash with the character it escapes. -/
def strItem (quote : Char) : Pattern :=
  .either (.one fun c => c != quote && c != '\\' && c != '\n')
    (.seq (.exactly '\\') (.one (· != '\n')))

/-- The texts of a class. -/
def pattern : TokenClass → Pattern
  | lineComment => .seq (.word "//") (.many (.one (· != '\n')))
  | blockOpener => .word "/*"
  | ident => .seq (.one isWordStart) (.many (.one isWordChar))
  | int =>
    .either
      (.seq (.exactly '0') (.seq (.one fun c => c == 'x' || c == 'X') (.some1 (.one isHexDigit))))
      digits
  | float =>
    .either (.seq digits (.seq (.exactly '.') (.seq (.many (.one isDigit)) (.opt exponent))))
      (.either (.seq digits exponent) (.seq (.exactly '.') (.seq digits (.opt exponent))))
  | str quote => .seq (.exactly quote) (.seq (.many (strItem quote)) (.exactly quote))
  | mark m => .exactly m.char

/-- Every class. -/
def all : List TokenClass :=
  [lineComment, blockOpener, ident, int, float, str '"', str '\''] ++ Mark.all.map mark

end TokenClass

/-- The better of two matches: the longer one, and of two of one length the first. -/
def betterMatch (a b : Option (TokenClass × Nat)) : Option (TokenClass × Nat) :=
  match a, b with
  | none, b => b
  | a, none => a
  | some (ca, na), some (cb, nb) => if na < nb then some (cb, nb) else some (ca, na)

/-- The class and the length of the longest match of any class at the start of a text. -/
def munch (cs : List Char) : Option (TokenClass × Nat) :=
  (TokenClass.all.map fun k => (k.pattern.longest cs).map (k, ·)).foldr betterMatch none

/-- The text of a block comment up to its first `*/`, if there is one. -/
def commentBody : List Char → Option (List Char)
  | [] => none
  | '*' :: '/' :: _ => some []
  | c :: cs => (commentBody cs).map (c :: ·)

/-- The characters that a string literal stands for: an escaped letter `n`, `t` or `r` and an
escaped zero are control characters, every other escaped character stands for itself. -/
def unescape : List Char → List Char
  | '\\' :: c :: cs =>
    (match c with
      | 'n' => '\n'
      | 't' => '\t'
      | 'r' => '\r'
      | '0' => '\x00'
      | other => other) :: unescape cs
  | ['\\'] => []
  | c :: cs => c :: unescape cs
  | [] => []

/-- The token of a class whose text is `cs`. -/
def decodeToken (k : TokenClass) (cs : List Char) : Token :=
  match k with
  | .lineComment => .lineComment (Text.trim (String.ofList (cs.drop 2)))
  | .blockOpener => .blockComment (Text.trim (String.ofList ((cs.drop 2).take (cs.length - 4))))
  | .ident => .ident (String.ofList cs)
  | .int => .int (String.ofList cs)
  | .float => .float (String.ofList cs)
  | .str _ => .str (String.ofList (unescape ((cs.drop 1).dropLast)))
  | .mark m => .mark m

/--
The first token of a text and its length. When there is none, the length of the text that cannot
be read: an opener whose comment has no end; a quote that opens no complete literal, with the
longest run of literal characters after it; and otherwise one character.
-/
def firstToken (cs : List Char) : Except Nat (Token × Nat) :=
  match munch cs with
  | some (.blockOpener, n) =>
    match commentBody (cs.drop n) with
    | none => .error n
    | some body =>
      let length := n + body.length + 2
      .ok (decodeToken .blockOpener (cs.take length), length)
  | some (k, n) => .ok (decodeToken k (cs.take n), n)
  | none =>
    match cs with
    | c :: rest =>
      if c == '"' || c == '\'' then
        .error (1 + ((Pattern.many (TokenClass.strItem c)).longest rest).getD 0)
      else .error 1
    | [] => .error 0

/-- The blanks between tokens. -/
def isSeparator (c : Char) : Bool :=
  c == ' ' || c == '\t' || c == '\r' || c == '\n' || c == '\x0c'

/-- The number of bytes of a text. -/
def byteLength (cs : List Char) : Nat :=
  cs.foldr (fun c n => c.utf8Size + n) 0

/-- The line after the character `c` on line `line`. -/
def nextLine (c : Char) (line : Nat) : Nat :=
  if c = '\n' then line + 1 else line

/-- A place of a text where no token can be read. -/
structure Unreadable where
  span : Span
  /-- The line on which the place starts. -/
  line : Nat
  /-- The text of the place. -/
  text : String
  deriving DecidableEq, Repr

/--
The lexemes of a text that starts at byte `offset` on line `line`, after `skip` characters that
belong to a token already taken; or the first place where no token can be read.
-/
def lexemesFrom : (offset line skip : Nat) → List Char → Except Unreadable (List Lexeme)
  | _, _, _, [] => .ok []
  | offset, line, skip + 1, c :: cs =>
    lexemesFrom (offset + c.utf8Size) (nextLine c line) skip cs
  | offset, line, 0, c :: cs =>
    if isSeparator c then lexemesFrom (offset + c.utf8Size) (nextLine c line) 0 cs
    else
      match firstToken (c :: cs) with
      | .error n =>
        let place := (c :: cs).take n
        .error ⟨⟨offset, offset + byteLength place⟩, line, String.ofList place⟩
      | .ok (token, n) =>
        (lexemesFrom (offset + c.utf8Size) (nextLine c line) (n - 1) cs).map fun rest =>
          ⟨token, ⟨offset, offset + byteLength ((c :: cs).take n)⟩, line⟩ :: rest

/-- The lexemes of a source text, or the first place where no token can be read. -/
def tokenize (source : String) : Except Unreadable (List Lexeme) :=
  lexemesFrom 0 1 0 source.toList

/-- The line on which a source text ends. -/
def endLine (source : String) : Nat :=
  source.toList.foldl (fun line c => nextLine c line) 1

end SchemaGraph
