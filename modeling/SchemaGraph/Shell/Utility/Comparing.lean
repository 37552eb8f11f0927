import SchemaGraph.Shell.Utility.Basic
/-!
# Comparing files

The programs that say where two files differ: at which byte first, or in which lines. Of the lines
that two texts have in common as many as possible are kept.
-/

namespace SchemaGraph.Shell.Utility

/-! ## Bytes -/

/-- A byte as it is shown beside its number. -/
def visibleByte (c : Char) : String :=
  let n := c.toNat
  let (mark, n) := if 128 ≤ n then ("M-", n - 128) else ("", n)
  mark ++ (if n < 32 then String.ofList ['^', Char.ofNat (n + 64)]
    else if n = 127 then "^?" else String.singleton (Char.ofNat n))

/-- The bytes at which two texts differ, each with its place. -/
def differences : (place : Nat) → List Char → List Char → List (Nat × Char × Char)
  | place, a :: as, b :: bs =>
    if a = b then differences (place + 1) as bs
    else (place, a, b) :: differences (place + 1) as bs
  | _, _, _ => []

/-- Says at which byte two files differ. -/
def cmp : Utility := fun r =>
  let misuse (complaint : String) : Effect :=
    .failure r.tree 2 "cmp" (complaint ++ "\ncmp: Try 'cmp --help' for more information.")
  let table : OptionTable := .ofLetters "bls" "in" [("print-bytes", 'b'), ("verbose", 'l'),
    ("quiet", 's'), ("silent", 's'), ("ignore-initial", 'i'), ("bytes", 'n')]
  match table.read r.arguments with
  | .error e => misuse e.message
  | .ok selected =>
    let compare (first second : String) : Effect :=
      let refuse (word : String) (e : SystemError) : Effect :=
        if selected.has 's' then { Effect.none r.tree with status := 2 }
        else .failure r.tree 2 "cmp" (word ++ ": " ++ e.reason)
      let isSame := first = second && first ≠ "-" && r.tree.pathExists (Request.path first)
      match r.read r.tree first, r.read r.tree second with
      | .error e, _ => if isSame then .none r.tree else refuse first e
      | _, .error e => refuse second e
      | .ok a, .ok b =>
        let skipped := ((selected.value? 'i').bind String.toNat?).getD 0
        let limit? := (selected.value? 'n').bind String.toNat?
        let part (text : List Char) : List Char :=
          let rest := text.drop skipped
          (limit?.map rest.take).getD rest
        let a := part a
        let b := part b
        let found := differences 1 a b
        let short := if a.length < b.length then first else second
        let least := min a.length b.length
        let lines := (a.take least).count '\n'
        let ending : List Shown :=
          if a.length = b.length then []
          else if least = 0 then [.errors ("cmp: EOF on " ++ short ++ " which is empty\n")]
          else
            let place :=
              if selected.has 'l' then ""
              else if (a.take least).getLast? = some '\n' then ", line " ++ toString lines
              else ", in line " ++ toString (lines + 1)
            [.errors ("cmp: EOF on " ++ short ++ " after byte " ++ toString least ++ place ++ "\n")]
        let isSame := found = [] && ending = []
        let status := if isSame then 0 else 1
        let octal (c : Char) : String := padLeft 3 (String.ofList (Nat.toDigits 8 c.toNat))
        let effect (shown : List Shown) : Effect := ⟨r.tree, shown, 0, status⟩
        if selected.has 's' then effect []
        else if selected.has 'l' then
          let width := (toString (max a.length b.length)).length
          let row (entry : Nat × Char × Char) : Shown :=
            let (place, x, y) := entry
            let shownByte (c : Char) (isLast : Bool) : String :=
              if selected.has 'b' then
                let text := visibleByte c
                " " ++ text ++ if isLast then ""
                  else String.ofList (List.replicate (4 - text.length) ' ')
              else ""
            line (padLeft width (toString place) ++ " " ++ octal x ++ shownByte x false ++ " " ++
              octal y ++ shownByte y true)
          effect (found.map row ++ ending)
        else
          match found with
          | [] => effect ending
          | (place, x, y) :: _ =>
            let number := (a.take (place - 1)).count '\n' + 1
            let front := first ++ " " ++ second ++ " differ: "
            effect [line (if selected.has 'b' then
              front ++ "byte " ++ toString place ++ ", line " ++ toString number ++ " is " ++
                octal x ++ " " ++ visibleByte x ++ " " ++ octal y ++ " " ++ visibleByte y
              else front ++ "char " ++ toString place ++ ", line " ++ toString number)]
    match selected.operands with
    | [] => misuse "missing operand after 'cmp'"
    | [first] => r.taking ["-"] (compare first "-")
    | first :: second :: _ => r.taking [first, second] (compare first second)

/-! ## Lines -/

namespace Comparing

/-- A line of two texts: of both, or of one of them. -/
inductive Change where
  | same (line : List Char)
  | removed (line : List Char)
  | added (line : List Char)
  deriving DecidableEq, Repr

/-- The numbers of lines that are kept at most of the ends of two lists: for every end of the second
list, the one that starts with all of it first. -/
def keptRow (isSame : List Char → List Char → Bool) (line : List Char) :
    List (List Char) → List Nat → List Nat
  | other :: others, below :: rest =>
    let row := keptRow isSame line others rest
    let next := row.headD 0
    (if isSame line other then rest.headD 0 + 1 else max below next) :: row
  | _, _ => [0]

/-- The rows of kept numbers for every end of the first list. -/
def keptRows (isSame : List Char → List Char → Bool) (second : List (List Char)) :
    List (List Char) → List (List Nat)
  | [] => [List.replicate (second.length + 1) 0]
  | line :: lines =>
    let rows := keptRows isSame second lines
    keptRow isSame line second (rows.headD []) :: rows

/-- The changes that lead from one list of lines to another one, of which as few as possible are
kept out. Every step takes a line, so `fuel` is the number of all. -/
def changesFrom (isSame : List Char → List Char → Bool) : (fuel : Nat) →
    (rows : List (List Nat)) → List (List Char) → List (List Char) → List Change
  | 0, _, _, _ => []
  | _, _, [], [] => []
  | fuel + 1, rows, a :: as, [] => .removed a :: changesFrom isSame fuel rows.tail as []
  | fuel + 1, rows, [], b :: bs =>
    .added b :: changesFrom isSame fuel (rows.map List.tail) [] bs
  | fuel + 1, rows, a :: as, b :: bs =>
    let here := rows.headD []
    let below := rows.tail.headD []
    if isSame a b && here.headD 0 = below.tail.headD 0 + 1 then
      .same a :: changesFrom isSame fuel (rows.tail.map List.tail) as bs
    else if here.headD 0 = below.headD 0 then
      .removed a :: changesFrom isSame fuel rows.tail as (b :: bs)
    else .added b :: changesFrom isSame fuel (rows.map List.tail) (a :: as) bs

/-- The changes that lead from one list of lines to another one. -/
def changes (isSame : List Char → List Char → Bool) (first second : List (List Char)) :
    List Change :=
  changesFrom isSame (first.length + second.length) (keptRows isSame second first) first second

/-- Changes that follow each other, with the numbers of lines before them. -/
structure Hunk where
  oldBefore : Nat
  newBefore : Nat
  old : List (List Char)
  new : List (List Char)

/-- The hunks of some changes. -/
def hunks : (old new : Nat) → (present? : Option Hunk) → List Change → List Hunk
  | _, _, present?, [] => present?.toList
  | old, new, present?, change :: rest =>
    let present := present?.getD ⟨old, new, [], []⟩
    match change with
    | .same _ => present?.toList ++ hunks (old + 1) (new + 1) none rest
    | .removed line =>
      hunks (old + 1) new (some { present with old := present.old ++ [line] }) rest
    | .added line =>
      hunks old (new + 1) (some { present with new := present.new ++ [line] }) rest

/-- A line behind a sign, with a remark if it has no end. -/
def marked (sign : String) (line : List Char) : String :=
  sign ++ String.ofList (withoutEnd line) ++ "\n" ++
    if line.getLast? = some '\n' then "" else "\\ No newline at end of file\n"

/-- Numbers of lines as a range. -/
def rangeText (before count : Nat) : String :=
  if count = 0 then toString before
  else if count = 1 then toString (before + 1)
  else toString (before + 1) ++ "," ++ toString (before + count)

namespace Hunk

/-- A hunk in the usual form. -/
def text (h : Hunk) : String :=
  let letter := if h.old = [] then "a" else if h.new = [] then "d" else "c"
  rangeText h.oldBefore h.old.length ++ letter ++ rangeText h.newBefore h.new.length ++ "\n" ++
    String.join (h.old.map (marked "< ")) ++ (if letter = "c" then "---\n" else "") ++
    String.join (h.new.map (marked "> "))

end Hunk

/-- Hunks that are so near to each other that the lines around them meet. -/
def groups (around : Nat) : List Hunk → List (List Hunk)
  | [] => []
  | h :: rest =>
    match groups around rest with
    | (next :: others) :: more =>
      if next.oldBefore ≤ h.oldBefore + h.old.length + 2 * around then
        (h :: next :: others) :: more
      else [h] :: (next :: others) :: more
    | more => [h] :: more

/-- The numbers of lines in the form in which lines around changes are shown. -/
def unifiedRange (before count : Nat) : String :=
  if count = 1 then toString (before + 1)
  else toString (if count = 0 then before else before + 1) ++ "," ++ toString count

/-- Hunks that are near to each other, with the lines around them. -/
def unified (around : Nat) (lines : List (List Char)) (newCount : Nat) (group : List Hunk) :
    String :=
  match group.head?, group.getLast? with
  | some first, some last =>
    let start := first.oldBefore - around
    let stop := min lines.length (last.oldBefore + last.old.length + around)
    let newStart := first.newBefore - (first.oldBefore - start)
    let newStop :=
      min newCount (last.newBefore + last.new.length + (stop - (last.oldBefore + last.old.length)))
    let kept (from_ to_ : Nat) : String :=
      String.join (((lines.drop from_).take (to_ - from_)).map (marked " "))
    let step (run : Nat × String) (h : Hunk) : Nat × String :=
      (h.oldBefore + h.old.length, run.2 ++ kept run.1 h.oldBefore ++
        String.join (h.old.map (marked "-")) ++ String.join (h.new.map (marked "+")))
    let (place, body) := group.foldl step (start, "")
    "@@ -" ++ unifiedRange start (stop - start) ++ " +" ++
      unifiedRange newStart (newStop - newStart) ++ " @@\n" ++ body ++ kept place stop
  | _, _ => ""

/-- A line as it is compared. -/
def comparedLine (selected : Selected) (line : List Char) : List Char :=
  let lower := if selected.has 'i' then line.map Char.toLower else line
  let isBlank (c : Char) : Bool := c == ' ' || (9 ≤ c.toNat && c.toNat ≤ 13)
  if selected.has 'w' then lower.filter fun c => !isBlank c
  else if selected.has 'b' then
    let words := (Text.splitAt isBlank lower)
    let inner := words.tail.filter (· ≠ [])
    (words.headD []) ++ inner.flatMap fun word => ' ' :: word
  else lower

/-- The options. -/
def table : OptionTable where
  letters := "qsuceniwbBarNtdTyp".toList
  valued := "UCLxIF".toList
  optional := ['K']
  long := [("brief", 'q'), ("report-identical-files", 's'), ("label", 'L'), ("ignore-case", 'i'),
    ("ignore-all-space", 'w'), ("ignore-space-change", 'b'), ("ignore-blank-lines", 'B'),
    ("text", 'a'), ("recursive", 'r'), ("new-file", 'N'), ("unified", 'u'), ("normal", 'd'),
    ("minimal", 'd'), ("expand-tabs", 't'), ("color", 'K'), ("exclude", 'x')]
  stopsEarly := false

/-- How two texts with names differ: what is shown of it, and whether they do. -/
def compareTexts (selected : Selected) (firstName secondName : String) (first second : List Char) :
    String × Bool :=
  let differ (kind : String) : String × Bool :=
    (kind ++ " " ++ firstName ++ " and " ++ secondName ++ " differ\n", true)
  let isSame (a b : List Char) : Bool := comparedLine selected a == comparedLine selected b
  let found := hunks 0 0 none (changes isSame (linesOf first) (linesOf second))
  let isBlankHunk (h : Hunk) : Bool := (h.old ++ h.new).all (· == ['\n'])
  let found := if selected.has 'B' && found.all isBlankHunk then [] else found
  if found = [] then
    (if selected.has 's' then
      "Files " ++ firstName ++ " and " ++ secondName ++ " are identical\n" else "", false)
  else if selected.has 'q' then differ "Files"
  else if !selected.has 'a' && (first.contains '\x00' || second.contains '\x00') then
    differ "Binary files"
  else if selected.has 'u' || selected.has 'U' then
    let around := ((selected.value? 'U').bind String.toNat?).getD 3
    let labels := selected.allValues 'L'
    let time := "\t1970-01-01 00:00:00.000000000 +0000"
    let front (index : Nat) (name : String) : String := (labels[index]?).getD (name ++ time)
    ("--- " ++ front 0 firstName ++ "\n+++ " ++ front 1 secondName ++ "\n" ++
      String.join ((groups around found).map
        (unified around (linesOf first) (linesOf second).length)), true)
  else (String.join (found.map Hunk.text), true)

/-- What has been shown, and the exit code. -/
abbrev Comparison : Type :=
  List Shown × Nat

/-- One comparison after another. -/
def join (a b : Comparison) : Comparison :=
  (a.1 ++ b.1, max a.2 b.2)

/-- Compares two files, or what is in two directories. Every directory leads to longer paths, so
`fuel` bounds the depth. -/
def compare (r : Request) (selected : Selected) (options : String) : (fuel : Nat) →
    (isInside : Bool) → (first second : String) → Comparison
  | 0, _, _, _ => ([], 0)
  | fuel + 1, isInside, first, second =>
    let t := r.tree
    let isDirectory (word : String) : Bool := t.isDirectory (Request.path word)
    let complain (word : String) (e : SystemError) : Comparison :=
      ([.errors ("diff: " ++ word ++ ": " ++ e.reason ++ "\n")], 2)
    match isDirectory first, isDirectory second with
    | true, true =>
      if isInside && !selected.has 'r' then
        ([line ("Common subdirectories: " ++ first ++ " and " ++ second)], 0)
      else
        let names (word : String) : List String :=
          (t.listDirectory (Request.path word)).map Text.toByteText
        let all := ((names first ++ names second).mergeSort fun a b => !decide (b < a)).eraseDups
        let each (name : String) : Comparison :=
          let a := inDirectory first name
          let b := inDirectory second name
          match (names first).contains name, (names second).contains name with
          | true, true => compare r selected options fuel true a b
          | true, false =>
            if selected.has 'N' then compare r selected options fuel true a b
            else ([line ("Only in " ++ first ++ ": " ++ name)], 1)
          | _, _ =>
            if selected.has 'N' then compare r selected options fuel true a b
            else ([line ("Only in " ++ second ++ ": " ++ name)], 1)
        (all.map each).foldl join ([], 0)
    | true, false =>
      compare r selected options fuel isInside (inDirectory first (baseName second)) second
    | false, true =>
      compare r selected options fuel isInside first (inDirectory second (baseName first))
    | false, false =>
      let text (word : String) : Except SystemError (List Char) :=
        match r.read t word with
        | .error .notFound => if selected.has 'N' then .ok [] else .error .notFound
        | found => found
      match text first, text second with
      | .ok a, .ok b =>
        let (shown, differs) := compareTexts selected first second a b
        let front :=
          if isInside && differs && !selected.has 'q' && !(shown.startsWith "Binary files") then
            "diff" ++ options ++ " " ++ first ++ " " ++ second ++ "\n"
          else ""
        ([.output (front ++ shown).toList], if differs then 1 else 0)
      | .error e, .error e' => join (complain first e) (complain second e')
      | .error e, _ => complain first e
      | _, .error e => complain second e

end Comparing

open Comparing in
/-- Says in which lines files differ. -/
def diff : Utility := fun r =>
  let misuse (complaint : String) : Effect :=
    .failure r.tree 2 "diff" (complaint ++ "\ndiff: Try 'diff --help' for more information.")
  match Comparing.table.read r.arguments with
  | .error e => misuse e.message
  | .ok selected =>
    match selected.operands with
    | [] => misuse "missing operand after 'diff'"
    | [word] => misuse ("missing operand after " ++ plainQuoted word)
    | [first, second] =>
      let options := (r.arguments.filter fun word => word ≠ first && word ≠ second)
      let front := String.join (options.map (" " ++ ·))
      let (shown, status) := compare r selected front FileTree.pathLimit false first second
      r.taking [first, second] ⟨r.tree, shown, 0, status⟩
    | _ :: _ :: word :: _ => misuse ("extra operand " ++ plainQuoted word)

end SchemaGraph.Shell.Utility
