import SchemaGraph.Shell.Regex.Basic
/-!
# Commands of the line editor

The line editor runs a list of commands on every line of its input. The line that is being edited
stands in the pattern space; a second text, the hold space, stays from line to line. A command may
have addresses, which say for which lines it runs.
-/

namespace SchemaGraph.Shell.Editor

/-- An expression with the way in which it is matched. Without an expression it stands for the one
that was used last. -/
structure Pattern where
  regex? : Option Regex
  mode : MatchMode
  deriving DecidableEq, Repr

/-- A line of the input. -/
inductive Address where
  | line (number : Nat)
  /-- The lines from a first one on, with a step. -/
  | every (first step : Nat)
  | last
  | matching (pattern : Pattern)
  deriving DecidableEq, Repr

/-- Where a range of lines ends. -/
inductive RangeEnd where
  | address (a : Address)
  /-- So many lines after the first one. -/
  | further (count : Nat)
  /-- The next line whose number is a multiple. -/
  | multiple (step : Nat)
  deriving DecidableEq, Repr

/-- The lines for which a command runs. -/
inductive Selection where
  | all
  | single (a : Address)
  | range (start : Address) (stop : RangeEnd)
  deriving DecidableEq, Repr

/-- Where lines are written. -/
inductive Sink where
  | output | errors
  | file (name : String)
  deriving DecidableEq, Repr

/-- What happens to letters of a replacement. -/
inductive LetterCase where
  | same | upper | lower
  deriving DecidableEq, Repr

/-- A piece of what takes the place of a match. -/
inductive Piece where
  | char (c : Char)
  /-- The text of a group; the whole match has the number zero. -/
  | group (number : Nat)
  /-- The case of all letters from here on. -/
  | allLetters (letters : LetterCase)
  /-- The case of the next letter. -/
  | nextLetter (letters : LetterCase)
  deriving DecidableEq, Repr

/-- The replacement of matches. -/
structure Substitution where
  pattern : Pattern
  pieces : List Piece
  /-- The number of the match that is replaced. -/
  first : Nat
  /-- Whether all matches from that one on are replaced. -/
  isRepeated : Bool
  /-- Whether a changed line is shown. -/
  shows : Bool
  /-- Where a changed line is written. -/
  sink? : Option Sink
  deriving DecidableEq, Repr

/-- When the commands go on at a label. -/
inductive JumpCondition where
  | always
  /-- A substitution has, or has not, been made since the line was read. -/
  | changed | unchanged
  deriving DecidableEq, Repr

/-- What a command does. -/
inductive Action where
  /-- Runs the commands up to the one with a number. -/
  | block (stop : Nat)
  | nothing
  | append (text : List Char)
  | insert (text : List Char)
  | change (text : List Char)
  | appendFile (name : String)
  | appendLine (name : String)
  | delete
  | deleteFirstLine
  | showLine
  | showFirstLine
  /-- Shows the line with marks for what cannot be seen, in rows of a width. -/
  | list (width : Option Nat)
  | showNumber
  | showName
  | hold | holdMore | fetch | fetchMore | exchange
  | nextLine
  | joinNextLine
  | clear
  | quit (status : Nat) (shows : Bool)
  | substitute (s : Substitution)
  | translate (pairs : List (Char × Char))
  | jump (condition : JumpCondition) (label : String)
  | write (sink : Sink)
  | writeFirstLine (sink : Sink)
  deriving DecidableEq, Repr

/-- A command with its addresses. -/
structure Command where
  selection : Selection
  /-- Whether the command runs for the other lines. -/
  isNegated : Bool
  action : Action
  deriving DecidableEq, Repr

/-- A list of commands with its labels. -/
structure Program where
  commands : Array Command
  /-- The labels, each with the number of the command behind it. -/
  labels : List (String × Nat)
  /-- Whether lines are only shown by commands. -/
  isQuiet : Bool

namespace Substitution

/-- A letter in a case. -/
def inCase (letters : LetterCase) (c : Char) : Char :=
  match letters with
  | .same => c
  | .upper => c.toUpper
  | .lower => c.toLower

/-- A text in the case of all letters and that of the next one. -/
def cased (all : LetterCase) (next? : Option LetterCase) : List Char → List Char
  | [] => []
  | c :: cs => inCase (next?.getD all) c :: cs.map (inCase all)

/-- What takes the place of a match. -/
def expand (f : Regex.Found) : (all : LetterCase) → (next? : Option LetterCase) → List Piece →
    List Char
  | _, _, [] => []
  | all, next?, .char c :: pieces => cased all next? [c] ++ expand f all none pieces
  | all, next?, .group number :: pieces =>
    let text := f.groupText number
    cased all next? text ++ expand f all (if text = [] then next? else none) pieces
  | _, _, .allLetters all :: pieces => expand f all none pieces
  | all, _, .nextLetter next :: pieces => expand f all (some next) pieces

/-- The text from a place on in which matches are replaced, and whether any has been. `count` is the
number of matches before, `latest?` the place at which the one before ended: no empty match follows
it at once. Every match or character that is passed takes a step, so `fuel` is one more than the
number of characters. -/
def replaceFrom (s : Substitution) (regex : Regex) (mode : MatchMode) :
    (fuel count : Nat) → (latest? : Option Nat) → Place → List Char × Bool
  | 0, _, _, p => (p.rest, false)
  | fuel + 1, count, latest?, p =>
    match regex.find? mode p with
    | none => (p.rest, false)
    | some f =>
      let front := p.rest.take (f.start.position - p.position)
      if f.text = [] && latest? = some f.start.position then
        let (after, isChanged) := replaceFrom s regex mode fuel count none f.start.advance
        (front ++ f.start.rest.take 1 ++ (if f.start.rest = [] then [] else after), isChanged)
      else
        let isReplaced := s.first ≤ count + 1
        let new := if isReplaced then expand f .same none s.pieces else f.text
        if isReplaced && !s.isRepeated then (front ++ new ++ f.stop.rest, true)
        else if f.text = [] then
          if f.start.rest = [] then (front ++ new, isReplaced)
          else
            let (after, isChanged) :=
              replaceFrom s regex mode fuel (count + 1) none f.start.advance
            (front ++ new ++ f.start.rest.take 1 ++ after, isReplaced || isChanged)
        else
          let (after, isChanged) :=
            replaceFrom s regex mode fuel (count + 1) (some f.stop.position) f.stop
          (front ++ new ++ after, isReplaced || isChanged)

/-- The text in which matches are replaced, and whether any has been. -/
def apply (s : Substitution) (regex : Regex) (mode : MatchMode) (text : List Char) :
    List Char × Bool :=
  s.replaceFrom regex mode (2 * text.length + 2) 0 none (.start text)

end Substitution
end SchemaGraph.Shell.Editor
