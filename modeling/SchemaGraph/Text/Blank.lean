/-!
# White space of text

`isBlank` is the Unicode property `White_Space`; `trim` removes such characters at both ends of a
text. `lines` cuts a text at its line feeds.
-/

namespace SchemaGraph.Text

/-- The characters with the Unicode property `White_Space`. -/
def isBlank (c : Char) : Bool :=
  let n := c.toNat
  (0x9 ≤ n && n ≤ 0xD) || n == 0x20 || n == 0x85 || n == 0xA0 || n == 0x1680 ||
    (0x2000 ≤ n && n ≤ 0x200A) || n == 0x2028 || n == 0x2029 || n == 0x202F || n == 0x205F ||
    n == 0x3000

/-- A list without the leading and trailing members that satisfy `p`. -/
def trimBoth (p : α → Bool) (xs : List α) : List α :=
  ((xs.dropWhile p).reverse.dropWhile p).reverse

/-- A text without leading and trailing white space. -/
def trim (s : String) : String :=
  String.ofList (trimBoth isBlank s.toList)

/-- The pieces of a list between the members that satisfy `p`; there is always at least one. -/
def splitAt (p : α → Bool) : List α → List (List α)
  | [] => [[]]
  | x :: xs =>
    if p x then [] :: splitAt p xs
    else match splitAt p xs with
      | [] => [[x]]
      | piece :: pieces => (x :: piece) :: pieces

/-- The pieces of a text between the characters that satisfy `p`. -/
def split (p : Char → Bool) (s : String) : List String :=
  (splitAt p s.toList).map String.ofList

/-- A piece without one carriage return at its end. -/
def dropReturn (cs : List Char) : List Char :=
  match cs.getLast? with
  | some '\r' => cs.dropLast
  | _ => cs

/-- The lines that pieces between line feeds make up. The last piece has no line feed, so it keeps a
carriage return, and it is no line when it is empty. -/
def linesOfPieces : List (List Char) → List (List Char)
  | [] => []
  | [last] => if last.isEmpty then [] else [last]
  | piece :: pieces => dropReturn piece :: linesOfPieces pieces

/--
The lines of a text: the pieces between line feeds, each without a carriage return before its line
feed. A line feed at the end of the text opens no further line, and the empty text has no line.
-/
def lines (s : String) : List String :=
  (linesOfPieces (splitAt (· == '\n') s.toList)).map String.ofList

/-- The first line of a text, empty when there is none. -/
def firstLine (s : String) : String :=
  (lines s).head?.getD ""

end SchemaGraph.Text
