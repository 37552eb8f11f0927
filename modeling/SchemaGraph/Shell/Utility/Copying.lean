import SchemaGraph.Shell.Utility.Creating
import SchemaGraph.Shell.Utility.Words
/-!
# Programs that copy parts of files

One program copies blocks from a place of one file to a place of another one, the other cuts a file
into several files.
-/

namespace SchemaGraph.Shell.Utility

/-! ## Blocks -/

/-- The values of words of the form `name=value`; the last one of a name counts. -/
def settingOf (words : List String) (name : String) : Option String :=
  words.reverse.findSome? fun word =>
    ((name ++ "=").toList.isPrefixOf? word.toList).map String.ofList

/-- A size that a word gives, with a factor that letters name. -/
def blockSize? (text : String) : Option Nat :=
  match text.toList.reverse with
  | 'c' :: digits => if digits = [] then none else sizeOf? digits.reverse
  | 'w' :: digits => (sizeOf? digits.reverse).map (· * 2)
  | 'b' :: digits => (sizeOf? digits.reverse).map (· * 512)
  | cs => sizeOf? cs.reverse

/-- Characters as words ask for them to be changed. -/
def converted (conversions : List String) (text : List Char) : List Char :=
  if conversions.contains "ucase" then text.map Char.toUpper
  else if conversions.contains "lcase" then text.map Char.toLower
  else text

/-- How a program says how many blocks it has copied: the full ones and those that were not. -/
def blockCount (size block : Nat) : String :=
  if block = 0 then "0+0" else
    toString (size / block) ++ "+" ++ (if size % block = 0 then "0" else "1")

/-- Copies blocks. -/
def dd : Utility := fun r =>
  let words := r.arguments.filter (· ≠ "--")
  let value := settingOf words
  let names := ["if", "of", "bs", "ibs", "obs", "cbs", "count", "skip", "seek", "conv", "status",
    "iflag", "oflag"]
  let isKnown (word : String) : Bool := names.any fun name =>
    (name ++ "=").toList.isPrefixOf word.toList
  match words.find? fun word => !isKnown word with
  | some word => r.misuse ("unrecognized operand " ++ plainQuoted word)
  | none =>
    match ["bs", "ibs", "obs", "count", "skip", "seek"].find? fun name =>
        (value name).any fun text => (blockSize? text).isNone with
    | some name => r.fail ("invalid number: " ++ plainQuoted ((value name).getD ""))
    | none =>
      let number (name : String) (standard : Nat) : Nat :=
        ((value name).bind blockSize?).getD standard
      let readSize := number "bs" (number "ibs" 512)
      let writeSize := number "bs" (number "obs" 512)
      let source := (value "if").getD "-"
      match r.read r.tree source with
      | .error e =>
        r.fail ((if e = .isDirectory then "error reading " else "failed to open ") ++
          shellQuoted source ++ ": " ++ e.reason)
      | .ok text =>
        let skipped := text.drop (number "skip" 0 * readSize)
        let part := match value "count" with
          | none => skipped
          | some _ => skipped.take (number "count" 0 * readSize)
        let conversions := Text.split (· == ',') ((value "conv").getD "")
        let written := converted conversions part
        let size := part.length
        let records : List Shown :=
          if (value "status") = some "none" then []
          else
            [.errors (blockCount size readSize ++ " records in\n" ++ blockCount size writeSize ++
              " records out\n" ++
              (if (value "status") = some "noxfer" then ""
                else toString size ++ " byte" ++ (if size = 1 then "" else "s") ++ " copied, " ++
                  "0.0001 s, 1.0 MB/s\n"))]
        let taken := if Request.isInput source then
          (if (value "count").isSome then number "skip" 0 * readSize + size else r.input.length)
          else 0
        match value "of" with
        | none => ⟨r.tree, .output written :: records, taken, 0⟩
        | some target =>
          let start := number "seek" 0 * writeSize
          let before := ((r.tree.readFile (Request.path target)).toOption.map
            Request.charsOf).getD []
          let kept := before.take start ++ List.replicate (start - before.length) '\x00'
          let after := if conversions.contains "notrunc" then
            before.drop (start + written.length) else []
          match writeFile r.tree target (kept ++ written ++ after) with
          | .ok t => ⟨t, records, taken, 0⟩
          | .error e =>
            r.fail ("failed to open " ++ shellQuoted target ++ ": " ++ e.reason)

/-! ## Pieces -/

/-- The ending of the name of a piece: a number in the digits of an alphabet. -/
def pieceEnding (alphabet : List Char) (width : Nat) (n : Nat) : String :=
  let rec digits : Nat → Nat → List Char
    | 0, _ => []
    | width + 1, n =>
      digits width (n / alphabet.length) ++ [alphabet[n % alphabet.length]?.getD 'a']
  String.ofList (digits width n)

/-- A list in pieces of the given size. Every step takes an element, so `fuel` is their number. -/
def inPieces (size : Nat) : (fuel : Nat) → List α → List (List α)
  | 0, _ => []
  | fuel + 1, l => if l.isEmpty then [] else l.take size :: inPieces size fuel (l.drop size)

/-- Cuts a file into pieces of so many lines or characters, or into so many pieces. -/
def split : Utility :=
  withTable ⟨['d', 'e', 'x'], ['a', 'b', 'l', 'n', 'C', 'S'], [], [("suffix-length", 'a'),
    ("bytes", 'b'), ("lines", 'l'), ("number", 'n'), ("numeric-suffixes", 'd'),
    ("additional-suffix", 'S')], false⟩ 1 <| limiting 2 fun r selected =>
    let size (letter : Char) (what : String) : Except String (Option Nat) :=
      match selected.value? letter with
      | none => .ok none
      | some text =>
        match sizeOf? text.toList with
        | some n => if n = 0 then .error ("invalid number of " ++ what ++ ": " ++ plainQuoted text)
          else .ok (some n)
        | none => .error ("invalid number of " ++ what ++ ": " ++ plainQuoted text)
    let source := selected.operands.headD "-"
    let front := selected.operands[1]?.getD "x"
    let asked : Except String (Option Nat × Option Nat × Option Nat) := do
      return (← size 'b' "bytes", ← size 'n' "chunks", ← size 'l' "lines")
    match asked with
    | .error complaint => r.fail complaint
    | .ok (bytes, chunks, lines) =>
      match r.read r.tree source with
      | .error e =>
        r.fail (if e = .isDirectory then "error reading " ++ shellQuoted source ++ ": " ++ e.reason
          else "cannot open " ++ shellQuoted source ++ " for reading: " ++ e.reason)
      | .ok text =>
        let pieces : List (List Char) :=
          match bytes, chunks with
          | some n, _ => inPieces n (text.length + 1) text
          | none, some n =>
            let size := text.length / n
            (List.range n).map fun i =>
              if i + 1 = n then text.drop (i * size) else (text.drop (i * size)).take size
          | none, none =>
            (inPieces (lines.getD 1000) (text.length + 1) (linesOf text)).map List.flatten
        let alphabet := (if selected.has 'd' then "0123456789"
          else "abcdefghijklmnopqrstuvwxyz").toList
        let width := ((selected.value? 'a').bind String.toNat?).getD 2
        let name (n : Nat) : String :=
          front ++ pieceEnding alphabet width n ++ (selected.value? 'S').getD ""
        let start : Except String FileTree := .ok r.tree
        let written := (pieces.zip (List.range pieces.length)).foldl (fun t piece => do
          match writeFile (← t) (name piece.2) piece.1 with
          | .ok t => return t
          | .error e => throw (complaintAbout (name piece.2) e)) start
        r.taking [source] (match written with
          | .ok t => .none t
          | .error complaint => r.fail complaint)

end SchemaGraph.Shell.Utility
