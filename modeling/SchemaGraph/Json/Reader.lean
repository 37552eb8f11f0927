import SchemaGraph.Json.Basic
/-!
# Reading JSON

`JsonValue.read` takes a whole text: one value with blanks around it. The reader is strict: no
comments, no commas before a closing bracket, no control characters in strings, no leading zeros.
-/

namespace SchemaGraph.JsonValue

/-- The blanks between tokens. -/
def isSpace (c : Char) : Bool :=
  c == ' ' || c == '\t' || c == '\n' || c == '\r'

/-- The text from the first character that is no blank. -/
def skipSpace (cs : List Char) : List Char :=
  cs.dropWhile isSpace

/-- The value of a hexadecimal digit. -/
def hexValue? (c : Char) : Option Nat :=
  if '0' ≤ c ∧ c ≤ '9' then some (c.toNat - '0'.toNat)
  else if 'a' ≤ c ∧ c ≤ 'f' then some (c.toNat - 'a'.toNat + 10)
  else if 'A' ≤ c ∧ c ≤ 'F' then some (c.toNat - 'A'.toNat + 10)
  else none

/-- A piece of a string: a character, or half of a surrogate pair. -/
inductive Piece where
  | char (c : Char)
  | half (unit : Nat)

/-- The piece of a code unit. -/
def Piece.ofUnit (unit : Nat) : Piece :=
  if 0xD800 ≤ unit ∧ unit < 0xE000 then half unit else char (Char.ofNat unit)

/-- The text of pieces, in which each high half must be followed by a low one. -/
def textOfPieces : List Piece → Option (List Char)
  | [] => some []
  | .char c :: rest => (textOfPieces rest).map (c :: ·)
  | .half high :: .half low :: rest =>
    if high < 0xDC00 ∧ 0xDC00 ≤ low then
      (textOfPieces rest).map
        (Char.ofNat (0x10000 + (high - 0xD800) * 0x400 + (low - 0xDC00)) :: ·)
    else none
  | .half _ :: _ => none

/-- The piece after a backslash, and what follows it. -/
def readEscape : List Char → Option (Piece × List Char)
  | 'u' :: a :: b :: c :: d :: rest => do
    let a ← hexValue? a
    let b ← hexValue? b
    let c ← hexValue? c
    let d ← hexValue? d
    return (.ofUnit (((a * 16 + b) * 16 + c) * 16 + d), rest)
  | '"' :: rest => some (.char '"', rest)
  | '\\' :: rest => some (.char '\\', rest)
  | '/' :: rest => some (.char '/', rest)
  | 'b' :: rest => some (.char '\x08', rest)
  | 'f' :: rest => some (.char '\x0c', rest)
  | 'n' :: rest => some (.char '\n', rest)
  | 'r' :: rest => some (.char '\r', rest)
  | 't' :: rest => some (.char '\t', rest)
  | _ => none

/-- The pieces of a string up to its closing quote, and what follows it. -/
def readPieces : (fuel : Nat) → List Char → Option (List Piece × List Char)
  | 0, _ => none
  | _, [] => none
  | fuel + 1, c :: cs =>
    if c = '"' then some ([], cs)
    else if c = '\\' then do
      let (piece, rest) ← readEscape cs
      let (pieces, rest) ← readPieces fuel rest
      return (piece :: pieces, rest)
    else if c.toNat < 0x20 then none
    else do
      let (pieces, rest) ← readPieces fuel cs
      return (.char c :: pieces, rest)

/-- A string whose opening quote has been taken. -/
def readString (cs : List Char) : Option (Option String × List Char) := do
  let (pieces, rest) ← readPieces (cs.length + 1) cs
  return ((textOfPieces pieces).map String.ofList, rest)

/-- One or more digits, and what follows them. -/
def readDigits (cs : List Char) : Option (List Char × List Char) :=
  let digits := cs.takeWhile Char.isDigit
  if digits.isEmpty then none else some (digits, cs.dropWhile Char.isDigit)

/-- The whole part of a number: a zero alone, or digits that start with another one. -/
def readWhole : List Char → Option (List Char × List Char)
  | '0' :: rest => some (['0'], rest)
  | cs => readDigits cs

/-- The fraction of a number, which may be empty. -/
def readFraction : List Char → Option (List Char × List Char)
  | '.' :: rest => (readDigits rest).map fun found => ('.' :: found.1, found.2)
  | cs => some ([], cs)

/-- The exponent of a number, which may be empty. -/
def readExponent : List Char → Option (List Char × List Char)
  | c :: rest =>
    if c = 'e' ∨ c = 'E' then
      match rest with
      | '+' :: digits => (readDigits digits).map fun found => (c :: '+' :: found.1, found.2)
      | '-' :: digits => (readDigits digits).map fun found => (c :: '-' :: found.1, found.2)
      | digits => (readDigits digits).map fun found => (c :: found.1, found.2)
    else some ([], c :: rest)
  | [] => some ([], [])

/-- A number as it is written, and what follows it. -/
def readNumber (cs : List Char) : Option (String × List Char) := do
  let (sign, cs) :=
    match cs with
    | '-' :: rest => (['-'], rest)
    | _ => ([], cs)
  let (whole, cs) ← readWhole cs
  let (fraction, cs) ← readFraction cs
  let (exponent, cs) ← readExponent cs
  return (String.ofList (sign ++ whole ++ fraction ++ exponent), cs)

/-- What follows a word, if the text starts with it. -/
def readWord (word : String) (cs : List Char) : Option (List Char) :=
  word.toList.isPrefixOf? cs

/-- Items with commas between them up to `close`, which have been opened, each read by `item`. -/
def readItems (item : List Char → Option (α × List Char)) (close : Char) :
    (fuel : Nat) → List Char → Option (List α × List Char)
  | 0, _ => none
  | fuel + 1, cs => do
    let (first, cs) ← item cs
    match skipSpace cs with
    | [] => none
    | c :: rest =>
      if c = close then return ([first], rest)
      else if c = ',' then
        let (others, rest) ← readItems item close fuel rest
        return (first :: others, rest)
      else none

/-- The items of an array or object, which may have none. -/
def readSequence (item : List Char → Option (α × List Char)) (close : Char) (cs : List Char) :
    Option (List α × List Char) :=
  match skipSpace cs with
  | [] => none
  | c :: rest => if c = close then some ([], rest) else readItems item close cs.length cs

/-- A member of an object, whose value is read by `value`. -/
def readMember (value : List Char → Option (JsonValue × List Char)) (cs : List Char) :
    Option ((Option String × JsonValue) × List Char) :=
  match skipSpace cs with
  | '"' :: cs => do
    let (key, cs) ← readString cs
    match skipSpace cs with
    | ':' :: cs => do
      let (value, cs) ← value cs
      return ((key, value), cs)
    | _ => none
  | _ => none

/-- A value in which at most `depth` arrays and objects are nested, and what follows it. -/
def readValue : (depth : Nat) → List Char → Option (JsonValue × List Char)
  | 0, _ => none
  | depth + 1, cs =>
    match skipSpace cs with
    | [] => none
    | c :: rest =>
      if c = '"' then (readString rest).map fun found => (.string found.1, found.2)
      else if c = '[' then
        (readSequence (readValue depth) ']' rest).map fun found => (.array found.1, found.2)
      else if c = '\x7b' then
        (readSequence (readMember (readValue depth)) '\x7d' rest).map
          fun found => (.object found.1, found.2)
      else if c = 'n' then (readWord "null" (c :: rest)).map fun rest => (.null, rest)
      else if c = 't' then (readWord "true" (c :: rest)).map fun rest => (.bool true, rest)
      else if c = 'f' then (readWord "false" (c :: rest)).map fun rest => (.bool false, rest)
      else (readNumber (c :: rest)).map fun found => (.number found.1, found.2)

/-- The value of a whole text. -/
def read (s : String) : Option JsonValue :=
  match readValue (s.length + 1) s.toList with
  | some (value, rest) => if (skipSpace rest).isEmpty then some value else none
  | none => none

end SchemaGraph.JsonValue
