/-!
# JSON values

A `JsonValue` keeps what a reader of settings needs: numbers as they are written, and the members of
an object in their order. A string that escapes half of a surrogate pair stands for no text.
-/

namespace SchemaGraph

/-- A JSON value. -/
inductive JsonValue where
  | null
  | bool (value : Bool)
  | number (written : String)
  /-- A string; there is no value when its escapes stand for no text. -/
  | string (value : Option String)
  | array (items : List JsonValue)
  | object (members : List (Option String × JsonValue))

namespace JsonValue

/-- The text of a string. -/
def text? : JsonValue → Option String
  | string value => value
  | _ => none

/-- The value of a Boolean. -/
def bool? : JsonValue → Option Bool
  | bool value => some value
  | _ => none

/-- The texts of an array of strings. -/
def texts? : JsonValue → Option (List String)
  | array items => items.mapM text?
  | _ => none

/-- The value of a number of 32 bits that is written as digits alone. -/
def word? : JsonValue → Option UInt32
  | number written =>
    if written.toList.all Char.isDigit then
      let value := written.toList.foldl (fun n c => 10 * n + (c.toNat - '0'.toNat)) 0
      if value < UInt32.size then some (UInt32.ofNat value) else none
    else none
  | _ => none

/-! ## Written strings -/

/-- The two hexadecimal digits of a number below 256. -/
def hexPair (n : Nat) : List Char :=
  [Nat.digitChar (n / 16), Nat.digitChar (n % 16)]

/-- The written form of one character of a string. -/
def writeChar (c : Char) : List Char :=
  if c = '"' then ['\\', '"']
  else if c = '\\' then ['\\', '\\']
  else if c = '\x08' then ['\\', 'b']
  else if c = '\x0c' then ['\\', 'f']
  else if c = '\n' then ['\\', 'n']
  else if c = '\r' then ['\\', 'r']
  else if c = '\t' then ['\\', 't']
  else if c.toNat < 0x20 then ['\\', 'u', '0', '0'] ++ hexPair c.toNat
  else [c]

/-- The written form of a string. -/
def writeString (s : String) : String :=
  String.ofList ('"' :: s.toList.flatMap writeChar ++ ['"'])

end JsonValue
end SchemaGraph
