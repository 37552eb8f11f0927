import SchemaGraph.Error
/-!
# File patterns

A `GlobPattern` is a list of tokens: `?` stands for any character, `*` for any text, `**` for any
number of whole path components, and a bracket for one of a set of characters. A pattern is matched
against a whole text, separators included.
-/

namespace SchemaGraph

/-- A character or a range of characters inside brackets. -/
inductive CharSpecifier where
  | single (c : Char)
  | range (first last : Char)
  deriving DecidableEq, Repr

/-- Whether a character is meant. -/
def CharSpecifier.admits (c : Char) : CharSpecifier → Bool
  | single d => c = d
  | range first last => first ≤ c && c ≤ last

/-- A part of a file pattern. -/
inductive GlobToken where
  | char (c : Char)
  | anyChar
  | anyText
  /-- Any number of whole path components. -/
  | anyComponents
  | oneOf (specifiers : List CharSpecifier)
  | noneOf (specifiers : List CharSpecifier)
  deriving DecidableEq, Repr

/-- A file pattern. -/
abbrev GlobPattern : Type :=
  List GlobToken

namespace GlobPattern

/-! ## Reading patterns -/

/-- The specifiers between brackets: a hyphen between two characters makes a range. -/
def specifiers : List Char → List CharSpecifier
  | first :: '-' :: last :: rest => .range first last :: specifiers rest
  | c :: rest => .single c :: specifiers rest
  | [] => []

/-- The characters up to the first `]` and those after it. -/
def untilBracket : List Char → Option (List Char × List Char)
  | [] => none
  | ']' :: rest => some ([], rest)
  | c :: rest => (untilBracket rest).map fun found => (c :: found.1, found.2)

/-- The token of a bracket whose opening has been taken, and the characters after it. The first
character inside is never the closing one. -/
def bracket? : List Char → Option (GlobToken × List Char)
  | '!' :: first :: rest =>
    (untilBracket rest).map fun found => (.noneOf (specifiers (first :: found.1)), found.2)
  | '!' :: [] => none
  | first :: rest =>
    (untilBracket rest).map fun found => (.oneOf (specifiers (first :: found.1)), found.2)
  | [] => none

/-- How many stars stand at the front. -/
def countStars (cs : List Char) : Nat :=
  (cs.takeWhile (· == '*')).length

/--
Reads the rest `cs` of a pattern, of which the first `position` characters gave the tokens `tokens`
and ended with `previous`. Two stars must make up a whole path component. The list gets shorter
with every step, so `fuel` is its length.
-/
def readFrom : (fuel : Nat) → (position : Nat) → (previous : Option Char) →
    (tokens : List GlobToken) → List Char → Except PatternError GlobPattern
  | 0, _, _, tokens, _ => .ok tokens
  | _, _, _, tokens, [] => .ok tokens
  | fuel + 1, position, previous, tokens, c :: cs =>
    if c = '?' then readFrom fuel (position + 1) (some c) (tokens ++ [.anyChar]) cs
    else if c = '*' then
      let stars := countStars (c :: cs)
      let rest := (c :: cs).drop stars
      if 2 < stars then .error ⟨position + 2, .tooManyStars⟩
      else if stars = 2 then
        if previous.isSome ∧ previous ≠ some '/' then .error ⟨position - 1, .starsInComponent⟩
        else
          let tokens :=
            if 1 < tokens.length ∧ tokens.getLast? = some .anyComponents then tokens
            else tokens ++ [.anyComponents]
          match rest with
          | [] => .ok tokens
          | d :: rest =>
            if d = '/' then readFrom fuel (position + 3) (some '/') tokens rest
            else .error ⟨position + 2, .starsInComponent⟩
      else readFrom fuel (position + 1) (some c) (tokens ++ [.anyText]) cs
    else if c = '[' then
      match bracket? cs with
      | some (token, rest) =>
        readFrom fuel (position + 1 + (cs.length - rest.length)) (some ']') (tokens ++ [token]) rest
      | none => .error ⟨position, .badRange⟩
    else readFrom fuel (position + 1) (some c) (tokens ++ [.char c]) cs

/-- Reads a pattern. -/
def read (s : String) : Except PatternError GlobPattern :=
  readFrom s.length 0 none [] s.toList

/-! ## Matching -/

/-- The outcome of matching a pattern against a text. -/
inductive Outcome where
  | found
  /-- Nothing is found from here on, but a longer text for an earlier token may still do. -/
  | notHere
  /-- The text is too short, so that a longer text for an earlier token cannot help. -/
  | never
  deriving DecidableEq, Repr

/-- Whether a token that stands for one character stands for this one. -/
def admitsChar (c : Char) : GlobToken → Bool
  | .char d => c = d
  | .anyChar => true
  | .oneOf specifiers => specifiers.any (·.admits c)
  | .noneOf specifiers => !specifiers.any (·.admits c)
  | .anyText | .anyComponents => false

/-- Tries `next` on what remains after each character; if `wholeComponents` only after
separators. -/
def tryAfterEach (wholeComponents : Bool) (next : List Char → Outcome) : List Char → Outcome
  | [] => .notHere
  | c :: cs =>
    if wholeComponents && c != '/' then tryAfterEach wholeComponents next cs
    else
      match next cs with
      | .notHere => tryAfterEach wholeComponents next cs
      | outcome => outcome

/-- Tries `next` on a text, then on what remains after each character, and last on nothing. -/
def tryEverywhere (wholeComponents : Bool) (next : List Char → Outcome) (cs : List Char) :
    Outcome :=
  match next cs with
  | .notHere =>
    match tryAfterEach wholeComponents next cs with
    | .notHere => next []
    | outcome => outcome
  | outcome => outcome

/-- Matches a pattern against a text. -/
def matchFrom : GlobPattern → List Char → Outcome
  | [], [] => .found
  | [], _ :: _ => .notHere
  | .anyText :: rest, cs => tryEverywhere false (matchFrom rest) cs
  | .anyComponents :: rest, cs => tryEverywhere true (matchFrom rest) cs
  | _ :: _, [] => .never
  | token :: rest, c :: cs => if admitsChar c token then matchFrom rest cs else .notHere

/-- Whether a pattern matches a whole text. -/
def accepts (pattern : GlobPattern) (s : String) : Bool :=
  matchFrom pattern s.toList = .found

/-- The text that a pattern without wildcards stands for. -/
def literal? : GlobPattern → Option (List Char)
  | [] => some []
  | .char c :: rest => (literal? rest).map (c :: ·)
  | _ :: _ => none

/-- Whether a pattern has a part that stands for whole components. -/
def isRecursive (pattern : GlobPattern) : Bool :=
  pattern.contains .anyComponents

end GlobPattern
end SchemaGraph
