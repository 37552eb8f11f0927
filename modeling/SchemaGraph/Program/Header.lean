/-!
# The first line of a program file

A file with a text can be run when its first line names, after `#!`, the program that reads it. One
more argument may follow the name. Only the first bytes of a file are looked at, and a name must end
within them.
-/

namespace SchemaGraph

/-- What the first line of a program file names. -/
structure ProgramHeader where
  interpreter : String
  argument : Option String
  deriving DecidableEq, Repr

namespace ProgramHeader

/-- How many bytes of a file are looked at. -/
def limit : Nat := 256

/-- The characters of which the bytes fit into the given number. -/
def takeBytes : (count : Nat) → List Char → List Char
  | _, [] => []
  | count, c :: cs =>
    if c.utf8Size ≤ count then c :: takeBytes (count - c.utf8Size) cs else []

/-- Whether a character stands between the name and its argument. -/
def isSpace (c : Char) : Bool :=
  c == ' ' || c == '\t'

/-- The header on a line: the name up to a space, and what follows the spaces. An empty name leads
to the working directory. -/
def ofLine (line : List Char) : Option ProgramHeader :=
  let text := line.dropWhile isSpace
  let name := text.takeWhile fun c => !isSpace c && c != '\x00'
  let rest := text.dropWhile fun c => !isSpace c && c != '\x00'
  if text = [] then none
  else
    let argument := (rest.dropWhile isSpace).takeWhile (· != '\x00')
    let isGiven := (rest.head?.map isSpace).getD false
    let interpreter := if name = [] then "." else String.ofList name
    some ⟨interpreter, if isGiven then some (String.ofList argument) else none⟩

/-- A line without the spaces at its end. -/
def trimEnd (line : List Char) : List Char :=
  (line.reverse.dropWhile isSpace).reverse

/-- The header of a file with the given text. -/
def read? (text : String) : Option ProgramHeader :=
  match text.toList with
  | '#' :: '!' :: cs =>
    let seen := takeBytes (limit - 2) cs
    if seen.contains '\n' then ofLine (trimEnd (seen.takeWhile (· != '\n')))
    else if text.utf8ByteSize < limit then ofLine (cs ++ ['\x00'])
    else
      let seen := takeBytes (limit - 3) cs
      if (seen.dropWhile isSpace).any fun c => isSpace c || c == '\x00' then ofLine (trimEnd seen)
      else none
  | _ => none

end ProgramHeader
end SchemaGraph
