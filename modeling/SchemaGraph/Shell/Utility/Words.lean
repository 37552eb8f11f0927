import SchemaGraph.Shell.Condition
import SchemaGraph.Shell.Printing
import SchemaGraph.Shell.Utility.Basic
/-!
# Programs on their words

These programs show something of their words, or compare them, without any file.
-/

namespace SchemaGraph.Shell.Utility

/-- Does nothing, and ends with an exit code. -/
def ending (status : Nat) : Utility := fun r =>
  { Effect.none r.tree with status }

/-- Shows its words. -/
def echo : Utility := fun r =>
  .output r.tree (Printing.fullEcho r.arguments).toList

/-- Shows a format with its words in the places. -/
def printf : Utility := fun r =>
  let words := if r.arguments.head? = some "--" then r.arguments.tail else r.arguments
  match words with
  | [] => r.misuse "missing operand"
  | format :: arguments =>
    let w := Printing.printf .program format arguments
    let shown : List Shown := w.pieces.reverse.map fun
      | .text cs => .output cs
      | .complaint message => .errors (r.telling (message ++ "\n"))
    let isWrong := shown.any fun
      | .errors _ => true
      | .output _ => false
    let flaw := w.flaw.toList.map fun flaw => Shown.errors (r.telling (flaw ++ "\n"))
    let excess : List Shown :=
      match w.arguments with
      | word :: _ =>
        if w.flaw.isSome || w.stops then []
        else [.errors (r.telling ("warning: ignoring excess arguments, starting with " ++
          plainQuoted word ++ "\n"))]
      | [] => []
    ⟨r.tree, shown ++ flaw ++ excess, 0, if isWrong || w.flaw.isSome then 1 else 0⟩

/-- Says whether a condition holds. -/
def test : Utility := fun r =>
  let isBracket := r.program.toList.getLast? = some '['
  let fail (complaint : String) : Effect := .failure r.tree 2 r.program complaint
  if isBracket && r.arguments.getLast? ≠ some "]" then fail "missing ']'"
  else
    match Condition.holds r.tree (if isBracket then r.arguments.dropLast else r.arguments) with
    | .ok holds => ending (if holds then 0 else 1) r
    | .error (.noNumber word) => fail ("invalid integer " ++ plainQuoted word)
    | .error (.unexpectedOperator word) => fail (plainQuoted word ++ ": binary operator expected")
    | .error (.missingValue word) => fail ("missing argument after " ++ plainQuoted word)
    | .error .missingParenthesis => fail "')' expected"

/-- The end of a line of output, which an option makes a NUL. -/
def lineEnd (selected : Selected) : List Char :=
  if selected.has 'z' then ['\x00'] else ['\n']

/-- Shows the last components of paths, without an ending. -/
def basename : Utility :=
  withTable ⟨['a', 'z'], ['s'], [], [("multiple", 'a'), ("suffix", 's'), ("zero", 'z')], true⟩ 1 <|
    needing "operand" fun r selected =>
      let isMany := selected.has 'a' || selected.has 's'
      let shown (ending path : String) : List Char :=
        let name := baseName path
        let name :=
          if ending ≠ name ∧ ending.toList.isSuffixOf name.toList then
            String.ofList (name.toList.take (name.length - ending.length))
          else name
        name.toList ++ lineEnd selected
      if isMany then
        .output r.tree (selected.operands.flatMap (shown ((selected.value? 's').getD "")))
      else
        limiting 2 (fun r selected =>
          .output r.tree (shown (selected.operands.tail.headD "") (selected.operands.headD "")))
          r selected

/-- Shows the paths around last components. -/
def dirname : Utility :=
  withOptions "z" "" [("zero", 'z')] <| needing "operand" fun r selected =>
    .output r.tree (selected.operands.flatMap fun path =>
      (directoryName path).toList ++ lineEnd selected)

/-- Shows the path of the working directory. -/
def pwd : Utility :=
  withOptions "LP" "" [("logical", 'L'), ("physical", 'P')] fun r _ =>
    .lines r.tree ["/" ++ Text.toByteText (Path.ofPieces r.tree.workingDirectory)]

/-! ## Time -/

/-- The milliseconds that a text means: a number of seconds, or of what the letter after it
says. -/
def milliseconds? (text : String) : Option Nat :=
  let cs := text.toList
  let (number, unit) : List Char × Nat :=
    match cs.getLast? with
    | some 's' => (cs.dropLast, 1)
    | some 'm' => (cs.dropLast, 60)
    | some 'h' => (cs.dropLast, 3600)
    | some 'd' => (cs.dropLast, 86400)
    | _ => (cs, 1)
  let whole := number.takeWhile Char.isDigit
  let places := (number.dropWhile Char.isDigit).drop 1
  let isNumber :=
    (whole ≠ [] || places ≠ []) && places.all Char.isDigit &&
      ["", "."].contains (String.ofList ((number.dropWhile Char.isDigit).take 1))
  let thousandths := Arithmetic.ofDigits 10 ((places ++ ['0', '0', '0']).take 3)
  if isNumber then some ((Arithmetic.ofDigits 10 whole * 1000 + thousandths) * unit) else none

/-- Waits. -/
def sleep : Utility :=
  withOptions "" "" [] <| needing "operand" fun r selected =>
    match selected.operands.filter fun word => (milliseconds? word).isNone with
    | [] => .none r.tree
    | wrong =>
      { r.misuse (String.intercalate ("\n" ++ r.program ++ ": ")
          (wrong.map fun word => "invalid time interval " ++ plainQuoted word)) with status := 1 }

/-! ## Texts without end -/

/-- How often a text is shown that is shown again and again until nobody reads it. -/
def repetitions : Nat := 4096

/-- Shows its words again and again. -/
def yes : Utility := fun r =>
  let words := if r.arguments.head? = some "--" then r.arguments.tail else r.arguments
  let line := if words = [] then "y" else String.intercalate " " words
  .output r.tree (List.replicate repetitions (line.toList ++ ['\n'])).flatten

/-! ## Sequences of numbers -/

/-- A decimal number: an integer in units of which ten to the power of `places` make one. -/
structure Decimal where
  units : Int
  places : Nat

namespace Decimal

/-- The number that a text is. -/
def read? (text : String) : Option Decimal :=
  let (sign, cs) : Int × List Char :=
    match text.toList with
    | '-' :: cs => (-1, cs)
    | '+' :: cs => (1, cs)
    | cs => (1, cs)
  let whole := cs.takeWhile Char.isDigit
  let rest := cs.dropWhile Char.isDigit
  let (places, rest) : List Char × List Char :=
    match rest with
    | '.' :: rest => (rest.takeWhile Char.isDigit, rest.dropWhile Char.isDigit)
    | rest => ([], rest)
  let exponent? : Option Int :=
    match rest with
    | [] => some 0
    | 'e' :: digits | 'E' :: digits => (String.ofList digits).toInt?
    | _ => none
  if whole = [] ∧ places = [] then none
  else
    exponent?.map fun exponent =>
      let units := sign * (Arithmetic.ofDigits 10 (whole ++ places) : Int)
      let count := (places.length : Int) - exponent
      if count < 0 then ⟨units * (Nat.pow 10 (-count).toNat : Int), 0⟩ else ⟨units, count.toNat⟩

/-- The same number in smaller units. -/
def scaled (d : Decimal) (places : Nat) : Int :=
  d.units * (Nat.pow 10 (places - d.places) : Int)

/-- The text of a number of units. -/
def text (places : Nat) (units : Int) : String :=
  let digits := (toString units.natAbs).toList
  let digits := List.replicate (places + 1 - digits.length) '0' ++ digits
  let sign := if units < 0 then ['-'] else []
  let whole := digits.take (digits.length - places)
  String.ofList (sign ++ whole ++ if places = 0 then [] else '.' :: digits.drop whole.length)

/-- A text of a number in so many columns, with zeros behind its sign. -/
def wide (width : Nat) (text : String) : String :=
  let zeros := String.ofList (List.replicate (width - text.length) '0')
  match text.toList with
  | '-' :: cs => "-" ++ zeros ++ String.ofList cs
  | _ => zeros ++ text

end Decimal

/-- What is wrong with a format for numbers, which needs one place for one of them. -/
def formatFlaw? (format : String) : Option String :=
  let rec places : List Char → List (List Char)
    | [] => []
    | ['%'] => [[]]
    | '%' :: '%' :: cs => places cs
    | '%' :: c :: cs => (c :: cs) :: places (c :: cs)
    | _ :: cs => places cs
  let quoted := plainQuoted format
  match places format.toList with
  | [] => some ("format " ++ quoted ++ " has no % directive")
  | [cs] =>
    match cs.dropWhile fun c => "-+#0 '.".toList.contains c || c.isDigit with
    | [] => some ("format " ++ quoted ++ " ends in %")
    | c :: _ =>
      if "aAeEfFgG".toList.contains c then none
      else some ("format " ++ quoted ++ " has unknown %" ++ String.singleton c ++ " directive")
  | _ => some ("format " ++ quoted ++ " has too many % directives")

/-- The words of a program in which a number below zero is no option. -/
def withNumbers : List String → List String
  | [] => []
  | word :: words =>
    match word.toList with
    | ['-', 's'] | ['-', 'f'] =>
      match words with
      | value :: words => word :: value :: withNumbers words
      | [] => [word]
    | '-' :: c :: _ =>
      if c.isDigit || c = '.' then "--" :: word :: words else word :: withNumbers words
    | _ => "--" :: word :: words

/-- Shows the numbers from one to another. -/
def seq : Utility := fun r =>
  let run : Utility :=
    withOptions "w" "sf" [("separator", 's'), ("equal-width", 'w'), ("format", 'f')] <|
      needing "operand" <| limiting 3 fun r selected =>
        let words := selected.operands
        match words.find? fun word => (Decimal.read? word).isNone with
        | some word => r.misuse ("invalid floating point argument: " ++ plainQuoted word)
        | none =>
          let one : Decimal := ⟨1, 0⟩
          let (first, step, last) : Decimal × Decimal × Decimal :=
            match words.filterMap Decimal.read? with
            | [last] => (one, one, last)
            | [first, last] => (first, one, last)
            | first :: step :: last :: _ => (first, step, last)
            | [] => (one, one, one)
          if step.units = 0 then
            r.misuse ("invalid Zero increment value: " ++ plainQuoted (words.tail.headD "0"))
          else
            match (selected.value? 'f').bind formatFlaw? with
            | some flaw => r.fail flaw
            | none =>
              let scale := max (max first.places step.places) last.places
              let places := max first.places step.places
              let start := first.scaled scale
              let step := step.scaled scale
              let distance := last.scaled scale - start
              let count := if distance * step < 0 then 0 else (distance.tdiv step).toNat + 1
              let unit : Int := Nat.pow 10 (scale - places)
              let plain (n : Int) : String := Decimal.text places (n.tdiv unit)
              let width := max (plain start).length (plain (start + distance)).length
              let text (n : Int) : String :=
                match selected.value? 'f' with
                | some format =>
                  (Printing.printf .program format [plain n]).separated.2
                | none =>
                  if selected.has 'w' then Decimal.wide width (plain n) else plain n
              let numbers := (List.range count).map fun (n : Nat) => text (start + (n : Int) * step)
              let separator := (selected.value? 's').getD "\n"
              .output r.tree
                (if count = 0 then [] else (String.intercalate separator numbers ++ "\n").toList)
  run { r with arguments := withNumbers r.arguments }

/-! ## The system -/

/-- Shows the name of the user. -/
def whoami : Utility :=
  withOptions "" "" [] fun r _ => .lines r.tree ["root"]

/-- Shows the numbers or the names of the user and the group. -/
def id : Utility :=
  withOptions "ugGnr" "" [("user", 'u'), ("group", 'g'), ("name", 'n')] fun r selected =>
    .lines r.tree [
      if selected.options = [] then "uid=0(root) gid=0(root) groups=0(root)"
      else if selected.has 'n' then "root"
      else "0"]

/-- Shows the name of the system. -/
def uname : Utility :=
  withOptions "asnrvmpio" "" [] fun r selected =>
    .lines r.tree [
      if selected.has 'm' then "x86_64" else if selected.has 'o' then "GNU/Linux" else "Linux"]

/-- Shows the name of the terminal, of which there is none. -/
def tty : Utility := fun r =>
  if r.arguments = ["-s"] then ending 1 r
  else { Effect.lines r.tree ["not a tty"] with status := 1 }

end SchemaGraph.Shell.Utility
