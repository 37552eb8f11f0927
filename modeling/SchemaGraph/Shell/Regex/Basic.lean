import SchemaGraph.Shell.Bracket
/-!
# Regular expressions

The patterns of programs that look for texts in lines or change them. A match is the first one, and
of the matches at one place the longest. What stands in the groups of a pattern is kept, for
references back to it and for what takes the place of the match.
-/

namespace SchemaGraph.Shell

/-- A place between two characters that a pattern can ask for. -/
inductive Edge where
  | lineStart | lineEnd
  /-- The start and the end of the whole text, also where it has several lines. -/
  | textStart | textEnd
  | wordStart | wordEnd | wordEdge | noWordEdge
  /-- A place that no character of a word stands before, or after. -/
  | noWordBefore | noWordAfter
  deriving DecidableEq, Repr

/-- A regular expression. -/
inductive Regex where
  | empty
  | anyChar
  | char (c : Char)
  | oneOf (bracket : Bracket)
  | sequence (first second : Regex)
  | either (first second : Regex)
  | many (least : Nat) (most : Option Nat) (body : Regex)
  | group (number : Nat) (body : Regex)
  /-- The text of a group before. -/
  | back (number : Nat)
  | edge (edge : Edge)
  deriving DecidableEq, Repr

/-- How characters and lines count. -/
structure MatchMode where
  ignoresCase : Bool
  /-- Whether the text has several lines. -/
  hasLines : Bool
  deriving DecidableEq, Repr

/-- The text of a group: where it starts and where it ends. -/
structure GroupSpan where
  number : Nat
  start : Nat
  stop : Nat
  deriving DecidableEq, Repr

/-- A place in a text: the characters before it, the latest first, and those after it. -/
structure Place where
  before : List Char
  rest : List Char
  position : Nat
  /-- The groups that have been passed, the latest first. -/
  groups : List GroupSpan
  deriving DecidableEq, Repr

namespace Place

/-- The place at the start of a text. -/
def start (text : List Char) : Place :=
  ⟨[], text, 0, []⟩

/-- The place behind the next character. -/
def advance (p : Place) : Place :=
  match p.rest with
  | [] => p
  | c :: rest => { p with before := c :: p.before, rest, position := p.position + 1 }

/-- The place behind so many characters. -/
def advanceBy (p : Place) : Nat → Place
  | 0 => p
  | n + 1 => p.advance.advanceBy n

/-- Whether a character can stand in a word. -/
def isWordChar (c : Char) : Bool :=
  c.isAlphanum || c == '_'

/-- Whether a place is one that a pattern asks for. -/
def isAt (p : Place) (mode : MatchMode) (edge : Edge) : Bool :=
  let wordBefore := (p.before.head?.map isWordChar).getD false
  let wordAfter := (p.rest.head?.map isWordChar).getD false
  match edge with
  | .lineStart => p.before = [] || (mode.hasLines && p.before.head? = some '\n')
  | .lineEnd => p.rest = [] || (mode.hasLines && p.rest.head? = some '\n')
  | .textStart => p.before = []
  | .textEnd => p.rest = []
  | .wordStart => !wordBefore && wordAfter
  | .wordEnd => wordBefore && !wordAfter
  | .wordEdge => wordBefore != wordAfter
  | .noWordEdge => wordBefore == wordAfter
  | .noWordBefore => !wordBefore
  | .noWordAfter => !wordAfter

/-- The text of a group that has been passed. -/
def groupText? (p : Place) (number : Nat) : Option (List Char) :=
  (p.groups.find? (·.number == number)).map fun span =>
    (p.before.reverse.drop span.start).take (span.stop - span.start)

end Place

namespace Regex

/-- Whether two characters are the same. -/
def sameChar (mode : MatchMode) (a b : Char) : Bool :=
  a == b || (mode.ignoresCase && a.toLower == b.toLower)

/-- Whether a bracket stands for a character. -/
def bracketAdmits (mode : MatchMode) (b : Bracket) (c : Char) : Bool :=
  if mode.ignoresCase then
    (b.members.any (Bracket.memberAdmits c.toLower) ||
      b.members.any (Bracket.memberAdmits c.toUpper)) != b.isNegated
  else b.admits c

/-- The place that is further behind. Nothing is further than the end of the text. -/
def further (first : Option Place) (second : Unit → Option Place) : Option Place :=
  match first with
  | none => second ()
  | some p =>
    if p.rest = [] then some p
    else
      match second () with
      | some q => if p.position < q.position then some q else some p
      | none => some p

/-- The furthest place that `next` finds after several steps. A step that goes nowhere is not taken
again. Every other step takes a character, so `fuel` is their number and that of the steps that have
to be taken. -/
def iterate (step : Place → (Place → Option Place) → Option Place) (least : Nat)
    (most : Option Nat) : (fuel taken : Nat) → Place → (Place → Option Place) → Option Place
  | 0, taken, p, next => if least ≤ taken then next p else none
  | fuel + 1, taken, p, next =>
    let more (_ : Unit) : Option Place :=
      if most.any (· ≤ taken) then none
      else
        step p fun q =>
          if q.position = p.position && least ≤ taken then none
          else iterate step least most fuel (taken + 1) q next
    if taken < least then more () else further (more ()) fun _ => next p

/-- The furthest place that `next` finds behind a match of an expression. -/
def findEnd (mode : MatchMode) : Regex → Place → (Place → Option Place) → Option Place
  | .empty, p, next => next p
  | .anyChar, p, next =>
    if p.rest.head?.all fun c => mode.hasLines && c == '\n' then none else next p.advance
  | .char c, p, next => if p.rest.head?.any (sameChar mode c) then next p.advance else none
  | .oneOf bracket, p, next =>
    let admits (c : Char) : Bool :=
      bracketAdmits mode bracket c && !(mode.hasLines && bracket.isNegated && c == '\n')
    if p.rest.head?.any admits then next p.advance else none
  | .sequence first second, p, next =>
    findEnd mode first p fun q => findEnd mode second q next
  | .either first second, p, next =>
    further (findEnd mode first p next) fun _ => findEnd mode second p next
  | .many least most body, p, next =>
    iterate (findEnd mode body) least most (p.rest.length + least + 1) 0 p next
  | .group number body, p, next =>
    findEnd mode body p fun q =>
      next { q with groups := ⟨number, p.position, q.position⟩ :: q.groups }
  | .back number, p, next =>
    match p.groupText? number with
    | none => none
    | some text =>
      let found := p.rest.take text.length
      if found.length = text.length && (found.zip text).all (fun e => sameChar mode e.1 e.2) then
        next (p.advanceBy text.length)
      else none
  | .edge e, p, next => if p.isAt mode e then next p else none

/-- A match: the place where it starts and the one where it ends. -/
structure Found where
  start : Place
  stop : Place

namespace Found

/-- The text of a match. -/
def text (f : Found) : List Char :=
  f.start.rest.take (f.stop.position - f.start.position)

/-- The text of a group; the whole match has the number zero. -/
def groupText (f : Found) (number : Nat) : List Char :=
  if number = 0 then f.text else (f.stop.groupText? number).getD []

end Found

/-- The first match from a place on. Every step takes a character, so `fuel` is one more than their
number. -/
def findFrom (mode : MatchMode) (e : Regex) : (fuel : Nat) → Place → Option Found
  | 0, _ => none
  | fuel + 1, p =>
    match findEnd mode e { p with groups := [] } some with
    | some stop => some ⟨p, stop⟩
    | none => if p.rest = [] then none else findFrom mode e fuel p.advance

/-- The first match from a place on. -/
def find? (mode : MatchMode) (e : Regex) (p : Place) : Option Found :=
  e.findFrom mode (p.rest.length + 1) p

/-- Whether an expression matches some part of a text. -/
def occursIn (mode : MatchMode) (e : Regex) (text : List Char) : Bool :=
  (e.find? mode (.start text)).isSome

/-- The expression of exactly a text. -/
def ofText (text : List Char) : Regex :=
  text.foldr (fun c rest => .sequence (.char c) rest) .empty

/-- The greatest number of a group. -/
def groupCount : Regex → Nat
  | .empty | .anyChar | .char _ | .oneOf _ | .back _ | .edge _ => 0
  | .sequence first second | .either first second => max first.groupCount second.groupCount
  | .many _ _ body => body.groupCount
  | .group number body => max number body.groupCount

end Regex
end SchemaGraph.Shell
