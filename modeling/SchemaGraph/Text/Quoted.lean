import SchemaGraph.Text.Printable
/-!
# Quoted text

How messages show a text between double quotes: a quote and a backslash get a backslash, the usual
control characters their letter, every other character that does not print on its own becomes
its code point in lower-case hexadecimal digits within braces.
-/

namespace SchemaGraph.Text

/-- The written form of one character inside quotes. -/
def quoteChar (c : Char) : List Char :=
  if c = '"' then ['\\', '"']
  else if c = '\\' then ['\\', '\\']
  else if c = '\n' then ['\\', 'n']
  else if c = '\r' then ['\\', 'r']
  else if c = '\t' then ['\\', 't']
  else if c = '\x00' then ['\\', '0']
  else if isPrintable c then [c]
  else ['\\', 'u', '\x7b'] ++ Nat.toDigits 16 c.toNat ++ ['\x7d']

/-- A text between double quotes. -/
def quote (s : String) : String :=
  String.ofList ('"' :: s.toList.flatMap quoteChar ++ ['"'])

/-- A list of texts, quoted, between brackets. -/
def quoteList (xs : List String) : String :=
  "[" ++ String.intercalate ", " (xs.map quote) ++ "]"

/-- An optional text: `None`, or `Some` with the quoted text in parentheses. -/
def quoteOption : Option String → String
  | none => "None"
  | some s => "Some(" ++ quote s ++ ")"

end SchemaGraph.Text
