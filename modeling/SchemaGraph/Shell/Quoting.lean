/-!
# Names in messages

Programs write names in quotes, so that a name that is read in a shell means the same again. A
character that cannot be shown is written by its number.
-/

namespace SchemaGraph.Shell

/-- Whether a character can be shown. -/
def isShown (c : Char) : Bool :=
  32 ≤ c.toNat && c.toNat ≤ 126

/-- A character by its name or its number in octal digits, after a backslash. -/
def escaped (c : Char) : List Char :=
  match [('\x07', 'a'), ('\x08', 'b'), ('\t', 't'), ('\n', 'n'), ('\x0b', 'v'), ('\x0c', 'f'),
    ('\r', 'r')].lookup c with
  | some letter => ['\\', letter]
  | none =>
    let digits := Nat.toDigits 8 c.toNat
    '\\' :: (List.replicate (3 - digits.length) '0' ++ digits)

/-- The characters of a name between single quotes. `isOpen` says whether the characters before are
written by their numbers. -/
def shellPieces : (isOpen : Bool) → List Char → List Char
  | _, [] => ['\'']
  | isOpen, c :: cs =>
    if !isShown c then
      (if isOpen then [] else ['\'', '$', '\'']) ++ escaped c ++ shellPieces true cs
    else
      (if isOpen then ['\'', '\''] else []) ++
        (if c = '\'' then ['\'', '\\', '\'', '\''] else [c]) ++ shellPieces false cs

/-- A name in the quotes of a shell. -/
def shellQuoted (name : String) : String :=
  let cs := name.toList
  if cs.contains '\'' && cs.all isShown && !cs.any (fun c => "\"$`\\".toList.contains c) then
    "\"" ++ name ++ "\""
  else String.ofList ('\'' :: shellPieces false cs)

/-- Whether a shell would take a name for something else. -/
def needsQuotes (name : String) : Bool :=
  match name.toList with
  | [] => true
  | ['\x7b'] | ['\x7d'] => true
  | c :: cs =>
    c == '#' || c == '~' ||
      (c :: cs).any fun c => !isShown c || " !\"$&'()*:;<=>?[\\]^`|".toList.contains c

/-- A name, in the quotes of a shell where it needs them. -/
def quotedIfNeeded (name : String) : String :=
  if needsQuotes name then shellQuoted name else name

/-- A text in single quotes, where backslashes protect the characters that have a meaning. -/
def plainQuoted (text : String) : String :=
  "'" ++ String.ofList (text.toList.flatMap fun c =>
    if !isShown c then escaped c else if c = '\'' ∨ c = '\\' then ['\\', c] else [c]) ++ "'"

end SchemaGraph.Shell
