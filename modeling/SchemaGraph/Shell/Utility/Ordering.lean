import SchemaGraph.Shell.Utility.Words
/-!
# Sorting and comparing lines

The programs that put lines in order, and those that work on lines that are in order: they drop
repeated lines, and compare or join the lines of two files.
-/

namespace SchemaGraph.Shell.Utility

/-! ## Orders of texts -/

/-- The order of two texts by their characters. -/
def compareTexts (a b : List Char) : Ordering :=
  if a < b then .lt else if b < a then .gt else .eq

/-- The integer and the decimal places at the start of a text after blanks. -/
def leadingNumber (cs : List Char) : Int × List Char × List Char :=
  let cs := cs.dropWhile fun c => c == ' ' || c == '\t'
  let (sign, cs) : Int × List Char :=
    match cs with
    | '-' :: rest => (-1, rest)
    | rest => (1, rest)
  let whole := cs.takeWhile Char.isDigit
  let rest := cs.dropWhile Char.isDigit
  match rest with
  | '.' :: rest =>
    (sign, whole ++ '.' :: rest.takeWhile Char.isDigit, rest.dropWhile Char.isDigit)
  | rest => (sign, whole, rest)

/-- The order of two numbers, each with its sign and its digits around a point. -/
def compareNumbers (a b : Int × List Char) : Ordering :=
  let places (cs : List Char) : List Char := (cs.dropWhile (· != '.')).drop 1
  let scale := max (places a.2).length (places b.2).length
  let value (n : Int × List Char) : Int :=
    let fraction := places n.2
    let digits := n.2.takeWhile (· != '.') ++ fraction ++
      List.replicate (scale - fraction.length) '0'
    n.1 * (Arithmetic.ofDigits 10 digits : Int)
  compare (value a) (value b)

/-- The order of two texts by the numbers at their starts. -/
def compareLeading (a b : List Char) : Ordering :=
  let number (cs : List Char) : Int × List Char :=
    let (sign, digits, _) := leadingNumber cs
    (sign, digits)
  compareNumbers (number a) (number b)

/-- The order of two texts by the numbers at their starts, which may have an exponent. A text
without a number comes first. -/
def compareGeneral (a b : List Char) : Ordering :=
  let number? (cs : List Char) : Option Decimal :=
    let cs := cs.dropWhile fun c => c == ' ' || c == '\t'
    let front := cs.takeWhile fun c => c.isDigit || "+-.eE".toList.contains c
    (List.range (front.length + 1)).reverse.findSome? fun n =>
      Decimal.read? (String.ofList (front.take n))
  match number? a, number? b with
  | none, none => .eq
  | none, some _ => .lt
  | some _, none => .gt
  | some x, some y =>
    let scale := max x.places y.places
    compare (x.scaled scale) (y.scaled scale)

/-- The order of two texts by the sizes at their starts, where a letter stands for a power. -/
def compareSizes (a b : List Char) : Ordering :=
  let key (cs : List Char) : Int × (Int × List Char) :=
    let (sign, digits, rest) := leadingNumber cs
    let isZero := digits.all fun c => c == '0' || c == '.'
    let power : Nat := match rest.head? with
      | some c => (("KMGTPEZY".toList.idxOf? c.toUpper).map (· + 1)).getD 0
      | none => 0
    (if isZero then 0 else sign * (power : Int), (sign, digits))
  (compare (key a).1 (key b).1).then (compareNumbers (key a).2 (key b).2)

/-- The number of the month that a text starts with; zero if it starts with none. -/
def monthOf (cs : List Char) : Nat :=
  let name := String.ofList
    (((cs.dropWhile fun c => c == ' ' || c == '\t').take 3).map Char.toUpper)
  ((["JAN", "FEB", "MAR", "APR", "MAY", "JUN", "JUL", "AUG", "SEP", "OCT", "NOV",
    "DEC"].idxOf? name).map (· + 1)).getD 0

/-- The order of two names with version numbers in them: their texts and numbers in turn. Every step
takes a character, so `fuel` is their number. -/
def compareVersions : (fuel : Nat) → List Char → List Char → Ordering
  | 0, _, _ => .eq
  | fuel + 1, a, b =>
    if a = [] ∧ b = [] then .eq
    else
      let rank (c : Char) : Nat :=
        if c = '~' then 0 else if c.isAlpha then c.toNat + 1 else c.toNat + 300
      let text (cs : List Char) : List Nat :=
        (cs.takeWhile fun c => !c.isDigit).map rank ++ [1]
      let rest (cs : List Char) : List Char := cs.dropWhile fun c => !c.isDigit
      let number (cs : List Char) : Nat := Arithmetic.ofDigits 10 ((rest cs).takeWhile Char.isDigit)
      let after (cs : List Char) : List Char := (rest cs).dropWhile Char.isDigit
      let texts : Ordering :=
        if text a < text b then .lt else if text b < text a then .gt else .eq
      (texts.then (compare (number a) (number b))).then (compareVersions fuel (after a) (after b))

/-- The order of two texts that letters ask for. -/
def compareBy (letters : List Char) (a b : List Char) : Ordering :=
  let clean (cs : List Char) : List Char :=
    let cs := if letters.contains 'd' then
      cs.filter fun c => c.isAlphanum || c == ' ' || c == '\t' else cs
    let cs := if letters.contains 'i' then cs.filter isShown else cs
    if letters.contains 'f' then cs.map Char.toUpper else cs
  if letters.contains 'n' then compareLeading a b
  else if letters.contains 'g' then compareGeneral a b
  else if letters.contains 'h' then compareSizes a b
  else if letters.contains 'M' then compare (monthOf a) (monthOf b)
  else if letters.contains 'V' then compareVersions (a.length + b.length + 1) a b
  else compareTexts (clean a) (clean b)

/-! ## Keys -/

/-- A place in a line: a field, and a character of it, both counted from one. -/
structure KeyPlace where
  field : Nat
  char : Nat
  letters : List Char

/-- A part of a line by which lines are sorted. -/
structure SortKey where
  start : KeyPlace
  stop : Option KeyPlace

namespace SortKey

/-- Whether a character stands between fields. -/
def isBlank (c : Char) : Bool :=
  c == ' ' || c == '\t'

/-- The text after some fields of a line. The separator after the last one is skipped unless
`staysBefore`. -/
def afterFields (separator : Option Char) (staysBefore : Bool) : (count : Nat) → List Char →
    List Char
  | 0, cs => cs
  | count + 1, cs =>
    match separator with
    | none =>
      afterFields separator staysBefore count ((cs.dropWhile isBlank).dropWhile fun c => !isBlank c)
    | some c =>
      let rest := cs.dropWhile (· != c)
      if count = 0 && staysBefore then rest
      else afterFields separator staysBefore count (rest.drop 1)

/-- The text from a place on. -/
def fromPlace (separator : Option Char) (skips : Bool) (field : Nat) (cs : List Char) : List Char :=
  let rest := afterFields separator false (field - 1) cs
  if skips then rest.dropWhile isBlank else rest

/-- The part of a line that a key names. -/
def text (key : SortKey) (separator : Option Char) (skips : Bool) (line : List Char) : List Char :=
  let skipsFirst := skips || key.start.letters.contains 'b'
  let rest := (fromPlace separator skipsFirst key.start.field line).drop (key.start.char - 1)
  match key.stop with
  | none => rest
  | some stop =>
    let after :=
      if stop.char = 0 then afterFields separator true stop.field line
      else
        (fromPlace separator (skips || stop.letters.contains 'b') stop.field line).drop stop.char
    rest.take (rest.length - after.length)

/-- The place at the start of a text, and the text after it. -/
def readPlace (what : String) (standard : Nat) (cs : List Char) :
    Except String (KeyPlace × List Char) := do
  let digits := cs.takeWhile Char.isDigit
  if digits = [] then
    throw ("invalid number at field " ++ what ++ ": invalid count at start of " ++
      plainQuoted (String.ofList cs))
  let rest := cs.dropWhile Char.isDigit
  let (char, rest) : Nat × List Char :=
    match rest with
    | '.' :: rest =>
      (Arithmetic.ofDigits 10 (rest.takeWhile Char.isDigit), rest.dropWhile Char.isDigit)
    | rest => (standard, rest)
  let letters := rest.takeWhile Char.isAlpha
  return (⟨Arithmetic.ofDigits 10 digits, char, letters⟩, rest.dropWhile Char.isAlpha)

/-- The key that a text is. -/
def read (text : String) : Except String SortKey := do
  let wrong (problem : String) : String :=
    problem ++ ": invalid field specification " ++ plainQuoted text
  let (start, rest) ← readPlace "start" 1 text.toList
  if start.field = 0 then throw (wrong "field number is zero")
  if start.char = 0 then throw (wrong "character offset is zero")
  match rest with
  | [] => return ⟨start, none⟩
  | ',' :: rest =>
    let (stop, rest) ← readPlace "after ','" 0 rest
    if stop.field = 0 then throw (wrong "field number is zero")
    if rest ≠ [] then throw (wrong "stray character in field spec")
    return ⟨start, some stop⟩
  | _ => throw (wrong "stray character in field spec")

end SortKey

/-! ## Sorting -/

/-- How lines are sorted. -/
structure LineOrder where
  keys : List SortKey
  separator : Option Char
  letters : List Char

namespace LineOrder

/-- The letters of an order among others. -/
def orders : List Char :=
  "bdfghiMnRrV".toList

/-- The order of two lines by the keys. A key without letters is compared as all lines are. -/
def compareKeys (o : LineOrder) (a b : List Char) : Ordering :=
  let apply (letters : List Char) (order : Ordering) : Ordering :=
    if letters.contains 'r' then order.swap else order
  if o.keys = [] then
    let skip (cs : List Char) : List Char :=
      if o.letters.contains 'b' then cs.dropWhile SortKey.isBlank else cs
    apply o.letters (compareBy o.letters (skip a) (skip b))
  else
    o.keys.foldl (fun found key =>
      let own := key.start.letters ++ (key.stop.elim [] (·.letters))
      let letters := if own = [] then o.letters else own
      let skips := own = [] && o.letters.contains 'b'
      found.then (apply letters (compareBy letters (key.text o.separator skips a)
        (key.text o.separator skips b)))) .eq

/-- The order of two lines: by the keys, and with `isLast` by all characters where these do not
tell lines apart. -/
def compare (o : LineOrder) (isLast : Bool) (a b : List Char) : Ordering :=
  (o.compareKeys a b).then (
    if !isLast then .eq
    else if o.letters.contains 'r' then (compareTexts a b).swap
    else compareTexts a b)

end LineOrder

/-- The lines of which none has the same key as the one before it. -/
def withoutSame (same : List Char → List Char → Bool) : List (List Char) → List (List Char)
  | [] => []
  | line :: lines => line :: (withoutSame same lines).dropWhile (same line)

/-- The first line that does not stand in order, with its number. -/
def disorder? (isOrdered : List Char → List Char → Bool) : (number : Nat) → List (List Char) →
    Option (Nat × List Char)
  | number, a :: b :: rest =>
    if isOrdered a b then disorder? isOrdered (number + 1) (b :: rest) else some (number + 1, b)
  | _, _ => none

/-- The lines of a text without their ends, of which the last one may be missing. -/
def linesEndedBy (lineEnd : Char) (text : List Char) : List (List Char) :=
  let lines := Text.splitAt (· == lineEnd) text
  if lines.getLast? = some [] then lines.dropLast else lines

/-- Sorts the lines of files. -/
def sort : Utility := fun r =>
  let table : OptionTable :=
    ⟨"bdfghiMnRrVcCmsuz".toList, "ktoST".toList, [], [("ignore-leading-blanks", 'b'),
      ("dictionary-order", 'd'), ("ignore-case", 'f'), ("general-numeric-sort", 'g'),
      ("human-numeric-sort", 'h'), ("ignore-nonprinting", 'i'), ("month-sort", 'M'),
      ("numeric-sort", 'n'), ("reverse", 'r'), ("version-sort", 'V'), ("check", 'c'),
      ("merge", 'm'), ("stable", 's'), ("unique", 'u'), ("zero-terminated", 'z'), ("key", 'k'),
      ("field-separator", 't'), ("output", 'o'), ("buffer-size", 'S'),
      ("temporary-directory", 'T')], false⟩
  withTable table 2 (fun r selected =>
    let fail (complaint : String) : Effect := .failure r.tree 2 r.program complaint
    let asked : Except String LineOrder := do
      let keys ← (selected.allValues 'k').mapM SortKey.read
      let separator ← match selected.value? 't' with
        | none => pure none
        | some text =>
          match text.toList with
          | [] => throw "empty tab"
          | [c] => pure (some c)
          | ['\\', '0'] => pure (some '\x00')
          | _ => throw ("multi-character tab " ++ plainQuoted text)
      return ⟨keys, separator, (selected.options.map (·.1)).filter LineOrder.orders.contains⟩
    match asked with
    | .error complaint => fail complaint
    | .ok order =>
      let words := sources selected.operands
      let found := words.map fun word => (word, r.read r.tree word)
      match found.findSome? fun entry => match entry.2 with
          | .error e => some (entry.1, e)
          | .ok _ => none with
      | some (word, e) =>
        fail (if e = .isDirectory then "read failed: " ++ complaintAbout word e
          else "cannot read: " ++ complaintAbout word e)
      | none =>
        let lineEnd := if selected.has 'z' then '\x00' else '\n'
        let lines := found.flatMap fun entry =>
          linesEndedBy lineEnd ((entry.2.toOption).getD [])
        let isLast := !selected.has 's' && !selected.has 'u'
        if selected.has 'c' || selected.has 'C' then
          let isOrdered (a b : List Char) : Bool :=
            let found := order.compare isLast a b
            if selected.has 'u' then found == .lt else found != .gt
          match disorder? isOrdered 1 lines with
          | none => .none r.tree
          | some (number, line) =>
            if selected.has 'C' then ending 1 r
            else
              r.fail (words.headD "-" ++ ":" ++ toString number ++ ": disorder: " ++
                String.ofList line)
        else
          let sorted := if selected.has 'm' && words.length = 1 then lines
            else lines.mergeSort fun a b => order.compare isLast a b != .gt
          let kept := if selected.has 'u' then
            withoutSame (fun a b => order.compareKeys a b == .eq) sorted else sorted
          let text := kept.flatMap (· ++ [lineEnd])
          r.taking words (
            match selected.value? 'o' with
            | none => .output r.tree text
            | some word =>
              match writeFile r.tree word text with
              | .ok t => .none t
              | .error e => fail ("open failed: " ++ complaintAbout word e))) r

/-! ## Repeated lines -/

/-- A line without some fields and characters in front. -/
def comparedPart (fields chars : Nat) (line : List Char) : List Char :=
  (SortKey.afterFields none false fields line).drop chars

/-- The lines in groups of those that follow each other and are the same. -/
def runs (same : List Char → List Char → Bool) : List (List Char) → List (List (List Char))
  | [] => []
  | line :: lines =>
    match runs same lines with
    | (next :: more) :: groups =>
      if same line next then (line :: next :: more) :: groups
      else [line] :: (next :: more) :: groups
    | groups => [line] :: groups

/-- Shows each of several repeated lines once. -/
def uniq : Utility :=
  withOptions "cdDiuz" "fsw" [("count", 'c'), ("repeated", 'd'), ("all-repeated", 'D'),
    ("ignore-case", 'i'), ("unique", 'u'), ("zero-terminated", 'z'), ("skip-fields", 'f'),
    ("skip-chars", 's'), ("check-chars", 'w')] <| limiting 2 fun r selected =>
    let number (letter : Char) (what : String) : Except String (Option Nat) :=
      match selected.value? letter with
      | none => .ok none
      | some text =>
        match text.toNat? with
        | some n => .ok (some n)
        | none => .error (text ++ ": invalid number of " ++ what)
    let asked : Except String (Nat × Nat × Option Nat) := do
      let fields ← number 'f' "fields to skip"
      let chars ← number 's' "bytes to skip"
      let width ← number 'w' "bytes to compare"
      return (fields.getD 0, chars.getD 0, width)
    match asked with
    | .error complaint => r.fail complaint
    | .ok (fields, chars, width) =>
      let source := selected.operands.headD "-"
      match r.read r.tree source with
      | .error e =>
        r.fail (if e = .isDirectory then "error reading " ++ shellQuoted source ++ ": " ++ e.reason
          else complaintAbout source e)
      | .ok text =>
        let lineEnd := if selected.has 'z' then '\x00' else '\n'
        let part (line : List Char) : List Char :=
          let cs := comparedPart fields chars line
          let cs := width.elim cs cs.take
          if selected.has 'i' then cs.map Char.toLower else cs
        let groups := runs (fun a b => part a = part b) (linesEndedBy lineEnd text)
        let kept := groups.filter fun group =>
          let isRepeated := 1 < group.length
          if selected.has 'd' || selected.has 'D' then isRepeated && !selected.has 'u'
          else if selected.has 'u' then !isRepeated
          else true
        let shown := kept.flatMap fun group =>
          if selected.has 'D' then group.flatMap (· ++ [lineEnd])
          else
            let front := if selected.has 'c' then padLeft 7 (toString group.length) ++ " " else ""
            front.toList ++ group.headD [] ++ [lineEnd]
        r.taking [source] (
          match selected.operands[1]? with
          | none | some "-" => .output r.tree shown
          | some target =>
            match writeFile r.tree target shown with
            | .ok t => .none t
            | .error e => r.fail (complaintAbout target e))

/-! ## Two files -/

/-- The texts of two files that operands name. -/
def withTwoFiles (run : Request → Selected → List Char → List Char → Effect) :
    Request → Selected → Effect := fun r selected =>
  match selected.operands with
  | [] => r.misuse "missing operand"
  | [word] => r.misuse ("missing operand after " ++ plainQuoted word)
  | [first, second] =>
    match r.read r.tree first, r.read r.tree second with
    | .ok a, .ok b => r.taking [first, second] (run r selected a b)
    | .error e, _ => r.fail (complaintAbout first e)
    | _, .error e => r.fail (complaintAbout second e)
  | _ :: _ :: word :: _ => r.misuse ("extra operand " ++ plainQuoted word)

/-- A comparison of lines on its way. -/
structure Merge where
  /-- What has been shown, the latest first. -/
  shown : List Shown
  /-- The lines of the first file alone, of the second one alone, and of both. -/
  counts : Nat × Nat × Nat
  /-- Whether a line of each file has been found out of order. -/
  isWrong : Bool × Bool

/-- Compares the lines of two files in order. A line out of order is complained of once lines have
been found that are in one file alone. Every step takes a line, so `fuel` is their number. -/
def mergeLines (program : String) (column : Nat → List Char → List Char) :
    (fuel : Nat) → List (List Char) → List (List Char) → Merge → Merge
  | 0, _, _, m => m
  | fuel + 1, as, bs, m =>
    let put (m : Merge) (n : Nat) (line : List Char) : Merge :=
      { m with shown := .output (column n line) :: m.shown }
    let isMixed (m : Merge) : Bool := 0 < m.counts.1 + m.counts.2.1
    let check (isFirst : Bool) (line : List Char) (rest : List (List Char)) (m : Merge) : Merge :=
      let isKnown := if isFirst then m.isWrong.1 else m.isWrong.2
      if rest.head?.any (· < line) && isMixed m && !isKnown then
        { m with
          shown := .errors (program ++ ": file " ++ (if isFirst then "1" else "2") ++
            " is not in sorted order\n") :: m.shown
          isWrong := if isFirst then (true, m.isWrong.2) else (m.isWrong.1, true) }
      else m
    match as, bs with
    | [], [] => m
    | a :: as, [] =>
      let m := { put m 0 a with counts := (m.counts.1 + 1, m.counts.2) }
      mergeLines program column fuel as [] (check true a as m)
    | [], b :: bs =>
      let m := { put m 1 b with counts := (m.counts.1, m.counts.2.1 + 1, m.counts.2.2) }
      mergeLines program column fuel [] bs (check false b bs m)
    | a :: as, b :: bs =>
      if a = b then
        let m := { put m 2 a with counts := (m.counts.1, m.counts.2.1, m.counts.2.2 + 1) }
        mergeLines program column fuel as bs (check false b bs (check true a as m))
      else if a < b then
        let m := { put m 0 a with counts := (m.counts.1 + 1, m.counts.2) }
        mergeLines program column fuel as (b :: bs) (check true a as m)
      else
        let m := { put m 1 b with counts := (m.counts.1, m.counts.2.1 + 1, m.counts.2.2) }
        mergeLines program column fuel (a :: as) bs (check false b bs m)

/-- Shows the lines of two sorted files in three columns. -/
def comm : Utility :=
  withOptions "123z" "d" [("output-delimiter", 'd'), ("total", 't'), ("check-order", 'k'),
    ("nocheck-order", 'n'), ("zero-terminated", 'z')] <|
    withTwoFiles fun r selected a b =>
      let separator := ((selected.value? 'd').getD "\t").toList
      let isHidden (n : Nat) : Bool := selected.has (Char.ofNat ('1'.toNat + n))
      let column (n : Nat) (line : List Char) : List Char :=
        if isHidden n then []
        else
          let before := ((List.range n).filter fun i => !isHidden i).length
          (List.replicate before separator).flatten ++ line ++ ['\n']
      let lines (text : List Char) : List (List Char) := linesEndedBy '\n' text
      let m := mergeLines r.program column (a.length + b.length + 2) (lines a) (lines b)
        ⟨[], (0, 0, 0), (false, false)⟩
      let number (n : Nat) : List Char := (toString n).toList ++ separator
      let total : List Shown :=
        if selected.has 't' then
          [.output (number m.counts.1 ++ number m.counts.2.1 ++ number m.counts.2.2 ++
            "total\n".toList)]
        else []
      let isWrong := m.isWrong.1 || m.isWrong.2
      let complaint : List Shown :=
        if isWrong then [.errors (r.telling "input is not in sorted order\n")] else []
      ⟨r.tree, m.shown.reverse ++ total ++ complaint, 0, if isWrong then 1 else 0⟩

/-! ## Joins -/

/-- The fields of a line, between separators or between blanks. -/
def fieldsOf (separator : Option Char) (line : List Char) : List (List Char) :=
  match separator with
  | some c => Text.splitAt (· == c) line
  | none => (Text.splitAt SortKey.isBlank line).filter (· ≠ [])

/-- How lines of two files are joined. -/
structure Join where
  separator : Option Char
  /-- The fields that have to be the same, counted from zero. -/
  first : Nat
  second : Nat
  ignoresCase : Bool
  /-- The file and the field of each field that is shown; the file zero stands for what is the
  same. -/
  format : Option (List (Nat × Nat))
  missing : List Char
  showsPairs : Bool
  /-- Whether lines of each file without a partner are shown. -/
  showsAlone : Bool × Bool

namespace Join

/-- A line of fields. -/
abbrev Row : Type :=
  List (List Char)

/-- The text of a field, or what stands for a missing one. -/
def field (j : Join) (row : Option Row) (n : Nat) : List Char :=
  let text := (row.bind fun row => row[n]?).getD []
  if text = [] then j.missing else text

/-- What has to be the same in a line of the first or the second file. -/
def key (j : Join) (isFirst : Bool) (row : Row) : List Char :=
  let text := row[if isFirst then j.first else j.second]?.getD []
  if j.ignoresCase then text.map Char.toLower else text

/-- The line that two lines make, or one of them alone. -/
def line (j : Join) (a b : Option Row) : List Char :=
  let same := match a with
    | some row => row[j.first]?.getD []
    | none => (b.bind fun row => row[j.second]?).getD []
  let fields : List (List Char) :=
    match j.format with
    | some places => places.map fun place =>
      if place.1 = 0 then same
      else if place.1 = 1 then j.field a place.2
      else j.field b place.2
    | none => same :: (a.elim [] (·.eraseIdx j.first)) ++ b.elim [] (·.eraseIdx j.second)
  List.intercalate [j.separator.getD ' '] fields ++ ['\n']

/-- Joins lines in order. Every step takes a line, so `fuel` is their number. -/
def merge (j : Join) : (fuel : Nat) → List Row → List Row → List Char
  | 0, _, _ => []
  | fuel + 1, as, bs =>
    let alone (isFirst : Bool) (row : Row) : List Char :=
      if isFirst then if j.showsAlone.1 then j.line (some row) none else []
      else if j.showsAlone.2 then j.line none (some row) else []
    match as, bs with
    | [], bs => bs.flatMap (alone false)
    | as, [] => as.flatMap (alone true)
    | a :: as, b :: bs =>
      let x := j.key true a
      let y := j.key false b
      if x = y then
        let group := (a :: as).takeWhile fun row => j.key true row = x
        let partners := (b :: bs).takeWhile fun row => j.key false row = x
        let pairs := if j.showsPairs then
          group.flatMap fun a => partners.flatMap fun b => j.line (some a) (some b) else []
        pairs ++ merge j fuel ((a :: as).drop group.length) ((b :: bs).drop partners.length)
      else if x < y then alone true a ++ merge j fuel as (b :: bs)
      else alone false b ++ merge j fuel (a :: as) bs

/-- The places of shown fields that a text names. -/
def readFormat (text : String) : List (Nat × Nat) :=
  ((Text.split (fun c => c == ',' || c == ' ') text).filter (· ≠ "")).map fun place =>
    match Text.split (· == '.') place with
    | [file, field] => (file.toNat?.getD 0, field.toNat?.getD 1 - 1)
    | _ => (0, 0)

end Join

/-- Joins the lines of two sorted files that have the same field. -/
def join : Utility :=
  withOptions "iz" "12javoet" [("ignore-case", 'i')] <| withTwoFiles fun r selected a b =>
    let number (letter : Char) : Nat :=
      (((selected.value? letter).orElse fun _ => selected.value? 'j').bind
        String.toNat?).getD 1 - 1
    let separator := (selected.value? 't').bind (·.toList.head?)
    let alone (file : String) : Bool :=
      (selected.allValues 'a' ++ selected.allValues 'v').contains file
    let j : Join :=
      ⟨separator, number '1', number '2', selected.has 'i',
        (selected.value? 'o').map Join.readFormat, ((selected.value? 'e').getD "").toList,
        !selected.has 'v', (alone "1", alone "2")⟩
    let rows (text : List Char) : List Join.Row :=
      (linesEndedBy '\n' text).map (fieldsOf separator)
    .output r.tree (j.merge (a.length + b.length + 2) (rows a) (rows b))

end SchemaGraph.Shell.Utility
