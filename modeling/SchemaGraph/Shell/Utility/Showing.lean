import SchemaGraph.Shell.Utility.Creating
/-!
# Programs that show files

These programs write the content of files as it is, parts or counts of it, or its lines in another
order.
-/

namespace SchemaGraph.Shell.Utility

/-- A program that shows something of each of its files, in their order. -/
def showEach (show_ : Request → Selected → List Char → List Char) :
    Request → Selected → Effect := fun r selected =>
  let words := sources selected.operands
  r.taking words (forEach (fun t word =>
    match r.read t word with
    | .ok text => .output t (show_ r selected text)
    | .error e => .failure t 1 r.program (complaintAbout word e)) r.tree words)

/-! ## Whole files -/

/-- A character as it is shown where it cannot be shown itself. -/
def visible (c : Char) : List Char :=
  let n := c.toNat
  if n < 32 then ['^', Char.ofNat (n + 64)]
  else if n < 127 then [c]
  else if n = 127 then ['^', '?']
  else if n < 160 then ['M', '-', '^', Char.ofNat (n - 64)]
  else if n < 255 then ['M', '-', Char.ofNat (n - 128)]
  else ['M', '-', '^', '?']

/-- A line as the options of `cat` ask for it. -/
def dressed (letters : List Char) (line : List Char) : List Char :=
  let body := (withoutEnd line).flatMap fun c =>
    if c = '\t' then if letters.contains 'T' then ['^', 'I'] else [c]
    else if letters.contains 'v' then visible c
    else [c]
  if line.getLast? = some '\n' then
    body ++ if letters.contains 'E' then ['$', '\n'] else ['\n']
  else body

/-- The lines of which several empty ones in a row become one. -/
def squeezed : List (List Char) → List (List Char)
  | a :: b :: rest =>
    if a = ['\n'] ∧ b = ['\n'] then squeezed (b :: rest) else a :: squeezed (b :: rest)
  | lines => lines

/-- A text as the options of `cat` ask for it: with numbers, without repeated empty lines, or with
signs for characters that cannot be shown. -/
def dressedText (letters : List Char) (text : List Char) : List Char :=
  let lines := if letters.contains 's' then squeezed (linesOf text) else linesOf text
  let number (n : Nat) : List Char := (padLeft 6 (toString n) ++ "\t").toList
  let step (run : Nat × List (List Char)) (line : List Char) : Nat × List (List Char) :=
    let isNumbered :=
      (letters.contains 'n' && !letters.contains 'b') || (letters.contains 'b' && line ≠ ['\n'])
    let shown := dressed letters line
    if isNumbered then (run.1 + 1, (number run.1 ++ shown) :: run.2) else (run.1, shown :: run.2)
  ((lines.foldl step (1, [])).2.reverse).flatten

/-- Shows files one after the other. -/
def cat : Utility :=
  withOptions "AbeEnstTuv" "" [("number", 'n'), ("number-nonblank", 'b'), ("squeeze-blank", 's'),
    ("show-ends", 'E'), ("show-tabs", 'T'), ("show-all", 'A'), ("show-nonprinting", 'v')]
    fun r selected =>
      let meaning : List (Char × List Char) :=
        [('A', ['v', 'E', 'T']), ('e', ['v', 'E']), ('t', ['v', 'T']), ('u', [])]
      let letters := selected.options.flatMap fun o => (meaning.lookup o.1).getD [o.1]
      if letters = [] then showEach (fun _ _ text => text) r selected
      else filter (fun _ _ => dressedText letters) r selected

/-- Shows the lines of files from the last to the first. -/
def tac : Utility :=
  withOptions "br" "s" [] fun r selected =>
    let words := sources selected.operands
    r.taking words (forEach (fun t word =>
      match r.read t word with
      | .ok text => .output t (linesOf text).reverse.flatten
      | .error .isDirectory =>
        .failure t 1 r.program (quotedIfNeeded word ++ ": read error: Invalid argument")
      | .error e =>
        .failure t 1 r.program
          ("failed to open " ++ shellQuoted word ++ " for reading: " ++ e.reason)) r.tree words)

/-- Shows the lines of files from right to left. -/
def rev : Utility :=
  withOptions "0" "" [] fun r selected =>
    let words := sources selected.operands
    r.taking words (forEach (fun t word =>
      match r.read t word with
      | .ok text =>
        .output t ((linesOf text).flatMap fun line =>
          (withoutEnd line).reverse ++ line.drop (withoutEnd line).length)
      | .error e => .failure t 1 r.program ("cannot open " ++ word ++ ": " ++ e.reason))
      r.tree words)

/-! ## Parts -/

/-- A count of lines or characters with its sign. -/
structure PartCount where
  sign : Option Char
  size : Nat

/-- The count that a text means. -/
def PartCount.read? (text : String) : Option PartCount :=
  match text.toList with
  | '+' :: digits => (sizeOf? digits).map (⟨some '+', ·⟩)
  | '-' :: digits => (sizeOf? digits).map (⟨some '-', ·⟩)
  | digits => (sizeOf? digits).map (⟨none, ·⟩)

/-- The part that a count means at the start: that many, or all but that many after a minus sign. -/
def firstPart (count : PartCount) (l : List α) : List α :=
  l.take (if count.sign = some '-' then l.length - count.size else count.size)

/-- The part that a count means at the end: that many, or all from that place on after a plus
sign. -/
def lastPart (count : PartCount) (l : List α) : List α :=
  l.drop (if count.sign = some '+' then count.size - 1 else l.length - count.size)

/-- The words of a program in which a count may stand behind a hyphen. -/
def withCountOption (words : List String) : List String :=
  match words with
  | [] => []
  | word :: rest =>
    match word.toList with
    | '-' :: c :: cs =>
      if c.isDigit then
        let digits := (c :: cs).takeWhile Char.isDigit
        match (c :: cs).dropWhile Char.isDigit with
        | [] => ("-n" ++ String.ofList digits) :: rest
        | letters => ("-" ++ String.ofList letters) :: ("-n" ++ String.ofList digits) :: rest
      else words
    | _ => words

/-- Shows a part of the lines or characters of files. Each of several files has a heading. -/
def part (keepsRest : Bool) (partOf : {α : Type} → PartCount → List α → List α) : Utility :=
    fun r =>
  let run : Utility :=
    withOptions "qvzfF" "nc" [("lines", 'n'), ("bytes", 'c'), ("quiet", 'q'), ("verbose", 'v')]
      fun r selected =>
        let words := sources selected.operands
        let byChars := selected.last? ['n', 'c'] = some 'c'
        let given := (selected.value? (if byChars then 'c' else 'n')).getD "10"
        match PartCount.read? given with
        | none =>
          r.fail ("invalid number of " ++ (if byChars then "bytes" else "lines") ++ ": " ++
            plainQuoted given)
        | some count =>
          let show_ (text : List Char) : List Char :=
            if byChars then partOf count text else (partOf count (linesOf text)).flatten
          let hasHeadings := (1 < words.length || selected.has 'v') && !selected.has 'q'
          let heading (isFirst : Bool) (word : String) : String :=
            (if isFirst then "" else "\n") ++ "==> " ++
              (if Request.isInput word then "standard input" else word) ++ " <==\n"
          let step (run : Bool × Effect) (word : String) : Bool × Effect :=
            match r.read run.2.tree word with
            | .ok text =>
              let front := if hasHeadings then heading run.1 word else ""
              (false, run.2.andThen fun t => .output t (front.toList ++ show_ text))
            | .error .isDirectory =>
              let front := if hasHeadings then heading run.1 word else ""
              (false, (run.2.andThen fun t => .output t front.toList).andThen fun t =>
                .failure t 1 r.program ("error reading " ++ shellQuoted word ++ ": " ++
                  SystemError.isDirectory.reason))
            | .error e =>
              (run.1, run.2.andThen fun t =>
                .failure t 1 r.program
                  ("cannot open " ++ shellQuoted word ++ " for reading: " ++ e.reason))
          let e := (words.foldl step (true, .none r.tree)).2
          let shownSize := (show_ r.input).length
          { e with
            taken :=
              if !Request.readsInput words then 0
              else if keepsRest && r.isFile && count.sign ≠ some '-' then shownSize
              else r.input.length }
  run { r with arguments := withCountOption r.arguments }

/-- Shows the first lines or characters. -/
def head : Utility :=
  part true firstPart

/-- Shows the last lines or characters. -/
def tail : Utility :=
  part false lastPart

/-! ## Counts -/

/-- The number of words in a text. -/
def countWords (text : List Char) : Nat :=
  let isBlank (c : Char) : Bool := c == ' ' || (9 ≤ c.toNat && c.toNat ≤ 13)
  ((Text.splitAt isBlank text).filter (· ≠ [])).length

/-- How many columns a line takes. -/
def columnsOf (line : List Char) : Nat :=
  line.foldl (fun n c =>
    if c = '\t' then n + 8 - n % 8 else if isShown c then n + 1 else n) 0

/-- The numbers of lines, words and characters of a text and the length of its longest line, as far
as letters ask for them. -/
def countsOf (selected : Selected) (text : List Char) : List Nat :=
  let all := !(['l', 'w', 'c', 'm', 'L'].any selected.has)
  (if all || selected.has 'l' then [text.count '\n'] else []) ++
  (if all || selected.has 'w' then [countWords text] else []) ++
  (if selected.has 'm' then [text.length] else []) ++
  (if all || selected.has 'c' then [text.length] else []) ++
  (if selected.has 'L' then [((bareLines text).map columnsOf).foldl max 0] else [])

/-- The counts of several files together: the longest line of all, and sums. -/
def addCounts (selected : Selected) (a b : List Nat) : List Nat :=
  let sums := List.zipWith (· + ·) a b
  if selected.has 'L' then sums.dropLast ++ [max (a.getLast?.getD 0) (b.getLast?.getD 0)]
  else sums

/-- Counts lines, words and characters of files, and of all of several files together. Numbers that
stand beside others are as wide as the size of all files. -/
def wc : Utility :=
  withOptions "clLmw" "" [("bytes", 'c'), ("chars", 'm'), ("lines", 'l'), ("words", 'w'),
    ("max-line-length", 'L')] fun r selected =>
    let lineOf (width : Nat) (name : String) (counts : List Nat) : List Char :=
      (String.intercalate " " (counts.map fun n => padLeft width (toString n)) ++ name ++
        "\n").toList
    let isSingle := (countsOf selected []).length = 1
    let words := selected.operands
    if words = [] then
      let width := if isSingle then 0 else if r.isFile then (toString r.input.length).length else 7
      { Effect.output r.tree (lineOf width "" (countsOf selected r.input)) with
        taken := r.input.length }
    else
      let found := words.map fun word => (word, r.read r.tree word)
      let texts := found.filterMap fun entry => entry.2.toOption
      let size := (texts.map (·.length)).foldl (· + ·) 0
      let isOther (word : String) : Bool :=
        (Request.isInput word && !r.isFile) || r.tree.isDirectory (Request.path word)
      let width :=
        if isSingle && words.length = 1 then 0
        else if words.any isOther then 7
        else (toString size).length
      let each := forEach (fun t word =>
        match r.read t word with
        | .ok text => .output t (lineOf width (" " ++ word) (countsOf selected text))
        | .error e =>
          let counts :=
            if e = .isDirectory then lineOf width (" " ++ word) (countsOf selected []) else []
          ⟨t, [.errors (r.telling (complaintAbout word e) ++ "\n"), .output counts], 0, 1⟩)
        r.tree words
      let add (counts : List Nat) (text : List Char) : List Nat :=
        addCounts selected counts (countsOf selected text)
      let total := texts.foldl add (countsOf selected [])
      r.taking words (each.andThen fun t =>
        .output t (if 1 < words.length then lineOf width " total" total else []))

/-- Shows lines with their numbers. -/
def nl : Utility :=
  withOptions "p" "bdfhilnsvw" [("body-numbering", 'b'), ("number-separator", 's'),
    ("number-width", 'w'), ("number-format", 'n'), ("starting-line-number", 'v'),
    ("line-increment", 'i')] <|
    filter fun _ selected text =>
      let width := ((selected.value? 'w').bind String.toNat?).getD 6
      let separator := (selected.value? 's').getD "\t"
      let numbersAll := selected.value? 'b' = some "a"
      let numbersNone := selected.value? 'b' = some "n"
      let step := ((selected.value? 'i').bind String.toNat?).getD 1
      let shape := (selected.value? 'n').getD "rn"
      let show_ (n : Nat) : String :=
        let digits := toString n
        if shape = "ln" then digits ++ String.ofList (List.replicate (width - digits.length) ' ')
        else if shape = "rz" then
          String.ofList (List.replicate (width - digits.length) '0') ++ digits
        else padLeft width digits
      let blank := String.ofList (List.replicate (width + separator.length) ' ')
      let go (run : Nat × List (List Char)) (line : List Char) : Nat × List (List Char) :=
        if numbersAll || (line ≠ [] && !numbersNone) then
          (run.1 + step, ((show_ run.1 ++ separator).toList ++ line ++ ['\n']) :: run.2)
        else (run.1, (blank.toList ++ line ++ ['\n']) :: run.2)
      let start := ((selected.value? 'v').bind String.toNat?).getD 1
      ((bareLines text).foldl go (start, [])).2.reverse.flatten

end SchemaGraph.Shell.Utility
