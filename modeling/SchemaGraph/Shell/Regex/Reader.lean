import SchemaGraph.Shell.Arithmetic
import SchemaGraph.Shell.Regex.Basic
/-!
# Reading regular expressions

There are two ways to write an expression: in the basic one the signs for groups, choices and
repetitions other than the star have a backslash in front, in the extended one they do not. Some
programs take a sign of repetition with nothing to repeat for a plain character or leave it out; for
strict ones it is wrong. What a backslash does in front of other characters depends on the program
too: it asks for places and classes, or it gives characters by their names.
-/

namespace SchemaGraph.Shell.Regex

/-- How expressions are written. -/
structure Style where
  /-- Whether signs stand without a backslash. -/
  isExtended : Bool
  /-- Whether signs that stand at a wrong place are refused. -/
  isStrict : Bool
  /-- Whether a backslash gives characters by their names or numbers, in brackets too. -/
  namesCharacters : Bool
  deriving DecidableEq, Repr

/-- Signs have a backslash in front. -/
def Style.basic : Style :=
  ⟨false, false, false⟩

/-- Signs stand without a backslash. -/
def Style.extended : Style :=
  ⟨true, false, false⟩

/-- Signs stand without a backslash, which gives characters by their names. -/
def Style.named : Style :=
  ⟨true, false, true⟩

/-- Whether wrong signs of the extended way stand for characters. -/
def Style.isLenient (style : Style) : Bool :=
  style.isExtended && !style.isStrict

/-- A sign of a written expression. -/
inductive Sign where
  | opening | closing | bar | star | plus | question | brace
  deriving DecidableEq, Repr

/-- What is left of a written expression, and how many groups have been opened. -/
structure Rest where
  chars : List Char
  groups : Nat

/-- A function that takes something from the front of a written expression, or says what is wrong
with it. -/
abbrev RegexReader : Type → Type :=
  StateT Rest (Except String)

/-- The signs with their characters. -/
def signs : List (Char × Sign) :=
  [('(', .opening), (')', .closing), ('|', .bar), ('+', .plus), ('?', .question), ('\x7b', .brace)]

/-- The sign in front, and the text after it. -/
def Style.sign? (style : Style) (cs : List Char) : Option (Sign × List Char) :=
  match cs with
  | '*' :: rest => some (.star, rest)
  | '\\' :: c :: rest =>
    if style.isExtended then none else (signs.lookup c).map fun sign => (sign, rest)
  | c :: rest =>
    if style.isExtended then (signs.lookup c).map fun sign => (sign, rest) else none
  | [] => none

/-- The bounds of a repetition whose brace has been taken, and the text after them. -/
def bounds? (style : Style) (cs : List Char) : Option (Nat × Option Nat × List Char) :=
  let number (cs : List Char) : Option Nat :=
    if cs = [] then none else some (Arithmetic.ofDigits 10 cs)
  let low := cs.takeWhile Char.isDigit
  let finish (most : Option Nat) (rest : List Char) : Option (Nat × Option Nat × List Char) :=
    match style.isExtended, rest with
    | true, '\x7d' :: rest => some ((number low).getD 0, most, rest)
    | false, '\\' :: '\x7d' :: rest => some ((number low).getD 0, most, rest)
    | _, _ => none
  match cs.dropWhile Char.isDigit with
  | ',' :: rest => finish (number (rest.takeWhile Char.isDigit)) (rest.dropWhile Char.isDigit)
  | rest => if low = [] then none else finish (number low) rest

/-- What is wrong with a sign of repetition that has nothing to repeat. -/
def repetitionError : String :=
  "Invalid preceding regular expression"

/-- The expression with the repetitions that follow it, and the text after them. Every step takes a
character, so `fuel` is their number. -/
def repeated (style : Style) : (fuel : Nat) → Regex → List Char → Except String (Regex × List Char)
  | 0, e, cs => .ok (e, cs)
  | fuel + 1, e, cs =>
    let goOn (least : Nat) (most : Option Nat) (rest : List Char) :
        Except String (Regex × List Char) :=
      match style.sign? rest with
      | some (.star, _) | some (.brace, _) =>
        if style.isStrict && !style.isExtended then .error repetitionError
        else repeated style fuel (.many least most e) rest
      | _ => repeated style fuel (.many least most e) rest
    match style.sign? cs with
    | some (.star, rest) => goOn 0 none rest
    | some (.plus, rest) => goOn 1 none rest
    | some (.question, rest) => goOn 0 (some 1) rest
    | some (.brace, rest) =>
      match bounds? style rest with
      | some (least, most, rest) =>
        if most.any (· < least) then .error "Invalid content of \\\x7b\\\x7d"
        else if most.any (32767 < ·) || 32767 < least then .error "Regular expression too big"
        else goOn least most rest
      | none =>
        if style.isLenient then .ok (e, cs)
        else if rest.any (· == '\x7d') then .error "Invalid content of \\\x7b\\\x7d"
        else .error "Unmatched \\\x7b"
    | _ => .ok (e, cs)

/-- What a backslash and a character stand for. -/
def escapedAtom (c : Char) : Regex :=
  let words : List BracketMember := [.named "alnum", .range '_' '_']
  match c with
  | 'w' => .oneOf ⟨false, words⟩
  | 'W' => .oneOf ⟨true, words⟩
  | 's' => .oneOf ⟨false, [.named "space"]⟩
  | 'S' => .oneOf ⟨true, [.named "space"]⟩
  | 'b' => .edge .wordEdge
  | 'B' => .edge .noWordEdge
  | '<' => .edge .wordStart
  | '>' => .edge .wordEnd
  | '`' => .edge .textStart
  | '\'' => .edge .textEnd
  | c =>
    if c.isDigit && c ≠ '0' then .back (c.toNat - '0'.toNat)
    else .char c

/-- Whether a sequence ends before a text: at its end, before a choice, or before the end of a
group. -/
def endsSequence (style : Style) (isInside : Bool) (cs : List Char) : Bool :=
  cs = [] ||
    match style.sign? cs with
    | some (.bar, _) => true
    | some (.closing, _) => isInside
    | _ => false

/-- Whether the text of a bracket has a class that is not known. -/
def hasUnknownClass : List Char → Bool
  | '[' :: ':' :: cs =>
    let name := cs.takeWhile Char.isAlpha
    ([':', ']'].isPrefixOf (cs.drop name.length) &&
      (Bracket.classes.lookup (String.ofList name)).isNone) || hasUnknownClass cs
  | _ :: cs => hasUnknownClass cs
  | [] => false

/-- What is wrong with a bracket that has the given text and stands for something. -/
def bracketError? (text : List Char) (b : Bracket) : Option String :=
  let isBackwards : BracketMember → Bool
    | .range low high => high < low
    | .named _ => false
  if text.length > 3 && text.head? = some ':' && [']', ':'].isPrefixOf text.reverse then
    some "character class syntax is [[:space:]], not [:space:]"
  else if hasUnknownClass text then some "Invalid character class name"
  else if b.members.any isBackwards then some "Invalid range end"
  else none

/-- The character that a name or a number after a backslash stands for, and the text after it. -/
def namedChar (cs : List Char) : Char × List Char :=
  match cs with
  | [] => ('\\', [])
  | c :: rest =>
    let digits := (cs.take 3).takeWhile Arithmetic.isOctal
    if digits ≠ [] then
      (Char.ofNat (Arithmetic.ofDigits 8 digits % 256), cs.drop digits.length)
    else
      let names : List (Char × Nat) :=
        [('a', 7), ('b', 8), ('t', 9), ('n', 10), ('v', 11), ('f', 12), ('r', 13)]
      (((names.lookup c).map Char.ofNat).getD c, rest)

/-- The characters of a text, each with the text after it. A backslash gives characters by their
names, which then stand for themselves. Every step takes a character, so `fuel` is their number. -/
def namedChars : (fuel : Nat) → List Char → List (PatternChar × List Char)
  | 0, _ | _, [] => []
  | fuel + 1, c :: cs =>
    let (marked, rest) : PatternChar × List Char :=
      if c = '\\' && cs ≠ [] then
        let (d, rest) := namedChar cs
        ((d, true), rest)
      else ((c, false), cs)
    (marked, rest) :: namedChars fuel rest

/-- The bracket whose opening has been taken, and the text after it. -/
def bracket (style : Style) (cs : List Char) : Except String (Regex × List Char) :=
  let units :=
    if style.namesCharacters then namedChars cs.length cs
    else cs.zipIdx.map fun (c, i) => ((c, false), cs.drop (i + 1))
  match Bracket.read ['^'] (units.map (·.1)) with
  | some (b, rest) =>
    let taken := units.length - rest.length
    let rest := ((units[taken - 1]?).map (·.2)).getD []
    match bracketError? (cs.take (cs.length - rest.length)) b with
    | some complaint => .error complaint
    | none => .ok (.oneOf b, rest)
  | none =>
    if cs = [] ∨ cs = ['^'] then .error "Invalid regular expression"
    else .error "Unmatched [, [^, [:, [., or [="

/-- What to read. -/
inductive Goal where
  /-- A choice, up to the end of the text or of a group. -/
  | choice (isInside : Bool)
  /-- Expressions one after the other. -/
  | sequence (isInside isFirst : Bool)

/-- Reads what a goal asks for, in at most `fuel` nested steps. -/
def readGoal (style : Style) : (fuel : Nat) → Goal → RegexReader Regex
  | 0, _ => throw "Regular expression too big"
  | fuel + 1, .choice isInside => do
    let first ← readGoal style fuel (.sequence isInside true)
    match style.sign? (← get).chars with
    | some (.bar, rest) =>
      modify fun r => { r with chars := rest }
      return .either first (← readGoal style fuel (.choice isInside))
    | _ => return first
  | fuel + 1, .sequence isInside isFirst => do
    let cs := (← get).chars
    if endsSequence style isInside cs then return .empty
    else
      let goOn (atom : Regex) (rest : List Char) : RegexReader Regex := do
        let (e, rest) ← repeated style rest.length atom rest
        modify fun r => { r with chars := rest }
        return .sequence e (← readGoal style fuel (.sequence isInside false))
      match style.sign? cs, cs with
      | some (.opening, rest), _ =>
        let number := (← get).groups + 1
        set (⟨rest, number⟩ : Rest)
        let body ← readGoal style fuel (.choice true)
        match style.sign? (← get).chars with
        | some (.closing, rest) => goOn (.group number body) rest
        | _ => throw "Unmatched ( or \\("
      | some (.closing, rest), _ =>
        if style.isLenient then goOn (.char ')') rest else throw "Unmatched ) or \\)"
      | some (.star, rest), _ =>
        if style.isExtended && style.isStrict then throw repetitionError
        else if style.isExtended || !isFirst then
          modify fun r => { r with chars := rest }
          readGoal style fuel (.sequence isInside false)
        else goOn (.char '*') rest
      | some (.brace, rest), _ =>
        if style.isStrict then throw repetitionError else goOn (.char '\x7b') rest
      | some (_, rest), _ =>
        if style.isExtended && style.isStrict then throw repetitionError
        else if style.isExtended then
          modify fun r => { r with chars := rest }
          readGoal style fuel (.sequence isInside false)
        else goOn (.char (cs.tail.headD '+')) rest
      | none, '\\' :: c :: rest =>
        if style.namesCharacters then
          let (c, rest) := namedChar (c :: rest)
          goOn (.char c) rest
        else goOn (escapedAtom c) rest
      | none, ['\\'] => throw "Trailing backslash"
      | none, '.' :: rest => goOn .anyChar rest
      | none, '[' :: rest =>
        let (atom, rest) ← bracket style rest
        goOn atom rest
      | none, '^' :: rest =>
        if style.isExtended || isFirst then
          if !style.isExtended && rest.head? = some '*' then
            modify fun r => { r with chars := rest.tail }
            let (e, rest) ← repeated style rest.length (.char '*') rest.tail
            modify fun r => { r with chars := rest }
            return .sequence (.edge .lineStart)
              (.sequence e (← readGoal style fuel (.sequence isInside false)))
          else
            modify fun r => { r with chars := rest }
            return .sequence (.edge .lineStart)
              (← readGoal style fuel (.sequence isInside false))
        else goOn (.char '^') rest
      | none, '$' :: rest =>
        if style.isExtended || endsSequence style isInside rest then
          modify fun r => { r with chars := rest }
          return .sequence (.edge .lineEnd) (← readGoal style fuel (.sequence isInside false))
        else goOn (.char '$') rest
      | none, c :: rest => goOn (.char c) rest
      | none, [] => return .empty

/-- The references back in an expression. -/
def references : Regex → List Nat
  | .empty | .anyChar | .char _ | .oneOf _ | .edge _ => []
  | .back number => [number]
  | .sequence first second | .either first second => first.references ++ second.references
  | .many _ _ body | .group _ body => body.references

/-- The expression that a text is. -/
def read (style : Style) (text : List Char) : Except String Regex := do
  let (e, rest) ← readGoal style (4 * (text.length + 1)) (.choice false) ⟨text, 0⟩
  if rest.chars ≠ [] then throw "Unmatched ) or \\)"
  else if e.references.any (e.groupCount < ·) then throw "Invalid back reference"
  else return e

end SchemaGraph.Shell.Regex
