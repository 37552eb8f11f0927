import SchemaGraph.Shell.Bracket
import SchemaGraph.Shell.Utility.Ordering
/-!
# Characters and columns of lines

The programs that cut lines into fields or put lines beside each other, break them, and exchange
their characters.
-/

namespace SchemaGraph.Shell.Utility

/-! ## Parts of lines -/

/-- Numbers from one to another; all from the first on when there is no last one. -/
structure NumberRange where
  first : Nat
  last : Option Nat

/-- Whether a number is in one of some ranges. -/
def isSelected (ranges : List NumberRange) (n : Nat) : Bool :=
  ranges.any fun range => range.first ≤ n && range.last.all (n ≤ ·)

/-- The ranges that a text names, or what is wrong with it. -/
def readRanges (isFields : Bool) (text : String) : Except String (List NumberRange) :=
  let zero := (if isFields then "fields" else "byte/character positions") ++ " are numbered from 1"
  let number (digits : List Char) : Except String Nat :=
    if digits.all Char.isDigit && digits ≠ [] then
      let n := Arithmetic.ofDigits 10 digits
      if n = 0 then .error zero else .ok n
    else
      .error ("invalid " ++ (if isFields then "field value " else "byte/character position ") ++
        plainQuoted (String.ofList digits))
  ((Text.splitAt (fun c => c == ',' || c == ' ' || c == '\t') text.toList).mapM fun piece => do
    match piece with
    | [] => throw zero
    | ['-'] => throw "invalid range with no endpoint: -"
    | piece =>
      let low := piece.takeWhile (· != '-')
      match piece.dropWhile (· != '-') with
      | [] =>
        let n ← number low
        return ⟨n, some n⟩
      | _ :: high =>
        let first ← if low = [] then pure 1 else number low
        if high = [] then return ⟨first, none⟩
        else
          let last ← number high
          if last < first then throw "invalid decreasing range"
          return ⟨first, some last⟩)

/-- The elements of a list whose places are selected. -/
def selectFrom (isKept : Nat → Bool) (l : List α) : List α :=
  (l.zip (List.range l.length)).filterMap fun e => if isKept (e.2 + 1) then some e.1 else none

/-- The characters whose places are selected, with a text between those that do not follow each
other. -/
def selectChars (ranges : List NumberRange) (isKept : Nat → Bool) (separator : List Char)
    (line : List Char) : List Char :=
  let starts (n : Nat) : Bool := ranges.any (·.first == n)
  let step (run : Nat × Bool × List Char) (c : Char) : Nat × Bool × List Char :=
    let (n, wasKept, shown) := run
    if isKept n then
      let gap := if shown ≠ [] && (!wasKept || (starts n && !isKept (n - 1))) then separator else []
      (n + 1, true, c :: gap.reverse ++ shown)
    else (n + 1, false, shown)
  (line.foldl step (1, false, [])).2.2.reverse

/-- Shows parts of lines: characters, or fields between separators. -/
def cut : Utility :=
  withOptions "snz" "bcfdO" [("bytes", 'b'), ("characters", 'c'), ("fields", 'f'),
    ("delimiter", 'd'), ("complement", 'v'), ("only-delimited", 's'), ("output-delimiter", 'O'),
    ("zero-terminated", 'z')] fun r selected =>
    let lists := selected.options.filter fun option => ['b', 'c', 'f'].contains option.1
    let isFields := lists.any (·.1 == 'f')
    let delimiter := selected.value? 'd'
    match lists with
    | [] => r.misuse "you must specify a list of bytes, characters, or fields"
    | _ :: _ :: _ => r.misuse "only one list may be specified"
    | [(_, list)] =>
      if delimiter.any (1 < ·.length) then r.misuse "the delimiter must be a single character"
      else
        match readRanges isFields list with
        | .error complaint => r.misuse complaint
        | .ok ranges =>
          if !isFields && delimiter.isSome then
            r.misuse "an input delimiter may be specified only when operating on fields"
          else if !isFields && selected.has 's' then
            r.misuse ("suppressing non-delimited lines makes sense\n" ++
              "\tonly when operating on fields")
          else
            let sign := match delimiter with
              | none => '\t'
              | some text => text.toList.headD '\x00'
            let isKept (n : Nat) : Bool := isSelected ranges n != selected.has 'v'
            let output := selected.value? 'O'
            let lineEnd := if selected.has 'z' then '\x00' else '\n'
            let shown (line : List Char) : List Char :=
              if !isFields then
                selectChars ranges isKept (output.getD "").toList line ++ [lineEnd]
              else if !line.contains sign then
                if selected.has 's' then [] else line ++ [lineEnd]
              else
                List.intercalate (output.elim [sign] String.toList)
                  (selectFrom isKept (Text.splitAt (· == sign) line)) ++ [lineEnd]
            filter (fun _ _ text => (linesEndedBy lineEnd text).flatMap shown) r selected

/-! ## Lines side by side -/

/-- The signs that a text names, where some have a backslash in front. The sign of nothing is
none. -/
def separatorsOf : List Char → List (List Char)
  | [] => []
  | '\\' :: c :: cs =>
    (match c with
      | '0' => []
      | 'n' => ['\n']
      | 't' => ['\t']
      | c => [c]) :: separatorsOf cs
  | c :: cs => [c] :: separatorsOf cs

/-- Texts with separators between them in turn. -/
def joinInTurn (separators : List (List Char)) (texts : List (List Char)) : List Char :=
  let separator (n : Nat) : List Char :=
    if separators = [] then [] else separators[n % separators.length]?.getD []
  ((texts.zip (List.range texts.length)).flatMap fun e =>
    (if e.2 = 0 then [] else separator (e.2 - 1)) ++ e.1)

/-- The lines of several files side by side. Every step takes a line of each, so `fuel` is the
number of all of them. -/
def sideBySide : (fuel : Nat) → List (List (List Char)) → List (List (List Char))
  | 0, _ => []
  | fuel + 1, files =>
    if files.all (·.isEmpty) then []
    else files.map (·.headD []) :: sideBySide fuel (files.map List.tail)

/-- The lines of what can be read, dealt out to several places in turn. -/
def dealt (places : Nat) (place : Nat) (lines : List (List Char)) : List (List Char) :=
  (lines.zip (List.range lines.length)).filterMap fun e =>
    if e.2 % places = place then some e.1 else none

/-- Shows the lines of files side by side, or the lines of each file on one line. -/
def paste : Utility :=
  withOptions "sz" "d" [("delimiters", 'd'), ("serial", 's'), ("zero-terminated", 'z')]
    fun r selected =>
      let words := sources selected.operands
      let separators := separatorsOf ((selected.value? 'd').getD "\t").toList
      let complaints := (joinedTexts r words).2
      let lines (word : String) : Option (List (List Char)) :=
        (r.read r.tree word).toOption.map (linesEndedBy '\n')
      if selected.has 's' then
        let found := words.filterMap lines
        r.taking words ((Effect.output r.tree (found.flatMap fun lines =>
          joinInTurn separators lines ++ ['\n'])).withComplaints 1 complaints)
      else if complaints ≠ [] then (Effect.none r.tree).withComplaints 1 (complaints.take 1)
      else
        let inputs := (words.filter Request.isInput).length
        let step (run : Nat × List (List (List Char))) (word : String) :
            Nat × List (List (List Char)) :=
          let found := (lines word).getD []
          if Request.isInput word then (run.1 + 1, dealt inputs run.1 found :: run.2)
          else (run.1, found :: run.2)
        let files := (words.foldl step (0, [])).2.reverse
        let size := (files.map (·.length)).foldl (· + ·) 1
        let rows := sideBySide size files
        r.taking words (.output r.tree (rows.flatMap fun row =>
          joinInTurn separators row ++ ['\n']))

/-! ## Widths -/

/-- The column after a character. -/
def columnAfter (byChars : Bool) (column : Nat) (c : Char) : Nat :=
  if byChars then column + 1
  else if c = '\t' then column + 8 - column % 8
  else if c = '\x08' then column - 1
  else if c = '\r' then 0
  else column + 1

/-- The width of some characters at the start of a line. -/
def widthOf (byChars : Bool) (cs : List Char) : Nat :=
  cs.foldl (columnAfter byChars) 0

/-- A line broken into pieces of at most the given width. `piece` is what has been taken, the latest
character first. Every step takes a character or breaks the line, so `fuel` is twice their
number. -/
def brokenLine (byChars atBlanks : Bool) (width : Nat) :
    (fuel : Nat) → (piece : List Char) → List Char → List Char
  | 0, piece, _ => piece.reverse
  | _, piece, [] => piece.reverse
  | fuel + 1, piece, c :: cs =>
    if columnAfter byChars (widthOf byChars piece.reverse) c ≤ width then
      brokenLine byChars atBlanks width fuel (c :: piece) cs
    else
      let tail := piece.takeWhile fun c => !SortKey.isBlank c
      if atBlanks && tail.length < piece.length then
        (piece.drop tail.length).reverse ++ '\n' ::
          brokenLine byChars atBlanks width fuel tail (c :: cs)
      else if piece = [] then brokenLine byChars atBlanks width fuel [c] cs
      else piece.reverse ++ '\n' :: brokenLine byChars atBlanks width fuel [] (c :: cs)

/-- The words in which a number after a hyphen is the value of an option. -/
def withNumberOption (option : String) (words : List String) : List String :=
  words.map fun word =>
    match word.toList with
    | '-' :: c :: cs =>
      if (c :: cs).all Char.isDigit then option ++ String.ofList (c :: cs) else word
    | _ => word

/-- Breaks lines. -/
def fold : Utility := fun r =>
  withOptions "bs" "w" [("bytes", 'b'), ("spaces", 's'), ("width", 'w')] (fun r selected =>
    let given := (selected.value? 'w').getD "80"
    match given.toNat? with
    | none | some 0 => r.fail ("invalid number of columns: " ++ plainQuoted given)
    | some width =>
      filter (fun _ _ text => (linesOf text).flatMap fun line =>
        let body := withoutEnd line
        brokenLine (selected.has 'b') (selected.has 's') width (2 * body.length + 2) [] body ++
          line.drop body.length) r selected)
    { r with arguments := withNumberOption "-w" r.arguments }

/-- The columns of tab stops: several of them, or the distance between them. -/
def readStops (text : String) : Except String (List Nat) :=
  (((Text.split (fun c => c == ',' || c == ' ') text).filter (· ≠ "")).mapM fun piece =>
    match piece.toNat? with
    | some n => if n = 0 then .error "tab size cannot be 0" else .ok n
    | none => .error ("tab size contains invalid character(s): " ++ plainQuoted piece))

/-- The column of the next tab stop. -/
def nextStop (stops : List Nat) (column : Nat) : Nat :=
  match stops with
  | [] => column + 8 - column % 8
  | [n] => column + n - column % n
  | stops => (stops.find? (column < ·)).getD (column + 1)

/-- A line with blanks in place of its tabs. -/
def expandLine (stops : List Nat) (onlyFirst : Bool) (line : List Char) : List Char :=
  let step (run : Nat × Bool × List Char) (c : Char) : Nat × Bool × List Char :=
    let (column, isFront, shown) := run
    if c = '\t' && (isFront || !onlyFirst) then
      let next := nextStop stops column
      (next, isFront, List.replicate (next - column) ' ' ++ shown)
    else (column + 1, isFront && c = ' ', c :: shown)
  (line.foldl step (0, true, [])).2.2.reverse

/-- Puts blanks in place of tabs. -/
def expand : Utility := fun r =>
  withOptions "i" "t" [("initial", 'i'), ("tabs", 't')] (fun r selected =>
    match readStops ((selected.value? 't').getD "8") with
    | .error complaint => r.fail complaint
    | .ok stops =>
      filter (fun _ _ text => (linesOf text).flatMap fun line =>
        expandLine stops (selected.has 'i') line) r selected)
    { r with arguments := withNumberOption "-t" r.arguments }

/-- A line with tabs in place of blanks before tab stops: of those at its start, or of all where at
least two stand together. `blanks` are those that have been passed, the latest first. -/
def unexpandLine (stops : List Nat) (all : Bool) : (column : Nat) → (isFront : Bool) →
    (blanks : List Char) → List Char → List Char
  | _, _, blanks, [] => blanks.reverse
  | column, isFront, blanks, c :: cs =>
    if (isFront || all) && (c = ' ' || c = '\t') then
      let stop := nextStop stops column
      if c = '\t' then '\t' :: unexpandLine stops all stop isFront [] cs
      else if column + 1 = stop then
        if blanks = [] && cs.head? ≠ some ' ' && !isFront then
          ' ' :: unexpandLine stops all stop isFront [] cs
        else '\t' :: unexpandLine stops all stop isFront [] cs
      else unexpandLine stops all (column + 1) isFront (c :: blanks) cs
    else blanks.reverse ++ c :: unexpandLine stops all (column + 1) false [] cs

/-- Puts tabs in place of blanks. -/
def unexpand : Utility :=
  withOptions "af" "t" [("all", 'a'), ("first-only", 'f'), ("tabs", 't')] fun r selected =>
    match readStops ((selected.value? 't').getD "8") with
    | .error complaint => r.fail complaint
    | .ok stops =>
      let all := (selected.has 'a' || selected.has 't') && !selected.has 'f'
      filter (fun _ _ text => (linesOf text).flatMap (unexpandLine stops all 0 true [])) r selected

/-! ## Exchanged characters -/

namespace CharSet

/-- A piece of a written set of characters. -/
inductive Piece where
  | chars (chars : List Char)
  | named (name : String) (chars : List Char)
  /-- A character as often as is needed. -/
  | filling (c : Char)

/-- All characters that stand for a byte. -/
def allChars : List Char :=
  (List.range 256).map Char.ofNat

/-- The first character of a text, where a backslash may give it, and the text after it. -/
def charAt? : List Char → Option (Char × List Char)
  | [] => none
  | '\\' :: c :: cs =>
    let digits := ((c :: cs).take 3).takeWhile Arithmetic.isOctal
    if digits ≠ [] then
      some (Char.ofNat (Arithmetic.ofDigits 8 digits % 256), (c :: cs).drop digits.length)
    else
      some ((([('a', '\x07'), ('b', '\x08'), ('f', '\x0c'), ('n', '\n'), ('r', '\r'), ('t', '\t'),
        ('v', '\x0b')] : List (Char × Char)).lookup c).getD c, cs)
  | c :: cs => some (c, cs)

/-- The name between colons after a bracket, and the text after it. -/
def className? (cs : List Char) : Option (String × List Char) :=
  match cs with
  | '[' :: ':' :: rest =>
    let name := rest.takeWhile (· != ':')
    match rest.dropWhile (· != ':') with
    | ':' :: ']' :: rest => some (String.ofList name, rest)
    | _ => none
  | _ => none

/-- The character between equals signs in brackets, and the text after it. -/
def sameAs? : List Char → Option (Char × List Char)
  | '[' :: '=' :: c :: '=' :: ']' :: rest => some (c, rest)
  | _ => none

/-- The character and the count between brackets around a star, and the text after them; no count
stands for as many as are needed. -/
def repeated? (cs : List Char) : Option (Char × Option Nat × List Char) :=
  match cs with
  | '[' :: rest =>
    match charAt? rest with
    | some (c, '*' :: rest) =>
      let digits := rest.takeWhile Char.isDigit
      match rest.dropWhile Char.isDigit with
      | ']' :: rest =>
        let base := if digits.head? = some '0' then 8 else 10
        let n := Arithmetic.ofDigits base digits
        some (c, if n = 0 then none else some n, rest)
      | _ => none
    | _ => none
  | _ => none

/-- The pieces of a written set. Every step takes a character, so `fuel` is their number. -/
def read : (fuel : Nat) → List Char → Except String (List Piece)
  | 0, _ => .ok []
  | fuel + 1, cs =>
    match className? cs, sameAs? cs, repeated? cs with
    | some (name, rest), _, _ =>
      match Bracket.classes.lookup name with
      | some test => return .named name (allChars.filter test) :: (← read fuel rest)
      | none => .error ("invalid character class " ++ plainQuoted name)
    | none, some (c, rest), _ => return .chars [c] :: (← read fuel rest)
    | none, none, some (c, some n, rest) =>
      return .chars (List.replicate n c) :: (← read fuel rest)
    | none, none, some (c, none, rest) => return .filling c :: (← read fuel rest)
    | none, none, none =>
      match charAt? cs with
      | none => .ok []
      | some (low, '-' :: rest) =>
        match charAt? rest with
        | none => return .chars [low, '-'] :: (← read fuel [])
        | some (high, rest) =>
          if high < low then
            .error ("range-endpoints of " ++ plainQuoted (String.ofList [low, '-', high]) ++
              " are in reverse collating sequence order")
          else
            let chars := (List.range (high.toNat - low.toNat + 1)).map fun n =>
              Char.ofNat (low.toNat + n)
            return .chars chars :: (← read fuel rest)
      | some (c, rest) => return .chars [c] :: (← read fuel rest)

/-- The characters of a piece, where as many as `size` may be needed. -/
def Piece.all (size : Nat) : Piece → List Char
  | .chars cs | .named _ cs => cs
  | .filling c => List.replicate size c

/-- The characters of a written set, which are `size` if a piece fills it. -/
def charsOf (size : Nat) (pieces : List Piece) : List Char :=
  let known := (pieces.flatMap (Piece.all 0)).length
  pieces.flatMap (Piece.all (size - known))

/-- Whether a piece is a class with a name that is not one of two cases. -/
def hasClass (isOther : Bool) (pieces : List Piece) : Bool :=
  pieces.any fun
    | .named name _ => !isOther || (name ≠ "lower" && name ≠ "upper")
    | _ => false

/-- The characters of which each stands for one of the first ones; the last one stands for all that
are left. -/
def exchange (first second : List Char) (c : Char) : Char :=
  match (first.zip (List.range first.length)).reverse.find? (·.1 == c) with
  | none => c
  | some (_, place) => second[place]?.getD (second.getLast?.getD c)

/-- A text in which some characters do not follow themselves. -/
def squeeze (isSqueezed : Char → Bool) : List Char → List Char
  | a :: b :: cs =>
    let rest := squeeze isSqueezed (b :: cs)
    if a = b && isSqueezed a then rest else a :: rest
  | cs => cs

end CharSet

open CharSet in
/-- Exchanges, removes or squeezes characters. -/
def tr : Utility :=
  withTable ⟨"cCdst".toList, [], [], [("complement", 'c'), ("delete", 'd'),
    ("squeeze-repeats", 's'), ("truncate-set1", 't')], true⟩ 1 fun r selected =>
    let deletes := selected.has 'd'
    let squeezes := selected.has 's'
    let needed := if deletes == squeezes then 2 else 1
    let most := if deletes && !squeezes then 1 else 2
    let words := selected.operands
    if words = [] then r.misuse "missing operand"
    else if words.length < needed then
      r.misuse ("missing operand after " ++ plainQuoted (words.headD "") ++ "\n" ++
        (if squeezes then "Two strings must be given when both deleting and squeezing repeats."
          else "Two strings must be given when translating."))
    else
      match words[most]? with
      | some word =>
        r.misuse ("extra operand " ++ plainQuoted word ++
          if most = 1 && words.length = 2 then
            "\nOnly one string may be given when deleting without squeezing repeats."
          else "")
      | none =>
        let set (n : Nat) : Except String (List Piece) :=
          let cs := ((words[n]?).getD "").toList
          CharSet.read (cs.length + 1) cs
        match set 0, set 1 with
        | .error complaint, _ | _, .error complaint => r.fail complaint
        | .ok one, .ok two =>
          let translates := !deletes && words.length = 2
          let given := charsOf 0 one
          let first := if selected.has 'c' || selected.has 'C' then
            allChars.filter fun c => !given.contains c else given
          let second := charsOf first.length two
          let first := if selected.has 't' then first.take second.length else first
          if translates && hasClass true two then
            r.fail ("when translating, the only character classes that may appear in\n" ++
              "string2 are 'upper' and 'lower'")
          else if translates && hasClass false two && !hasClass false one then
            r.fail "misaligned [:upper:] and/or [:lower:] construct"
          else if translates && second = [] && first ≠ [] && !selected.has 't' then
            r.fail "when not truncating set1, string2 must be non-empty"
          else
            let changed :=
              if deletes then r.input.filter fun c => !first.contains c
              else if translates then r.input.map (exchange first second)
              else r.input
            let last := if words.length = 2 then second else first
            let text := if squeezes then squeeze last.contains changed else changed
            { Effect.output r.tree text with taken := r.input.length }

end SchemaGraph.Shell.Utility
