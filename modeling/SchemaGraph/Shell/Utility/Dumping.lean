import SchemaGraph.Shell.Arithmetic
import SchemaGraph.Shell.Utility.Basic
/-!
# Showing bytes

The program that shows the bytes of files as numbers or by their names, with the place of every row
in front. The first byte of a number of several bytes is its lowest one.
-/

namespace SchemaGraph.Shell.Utility.Dumping

/-- How the bytes of an item are shown. -/
inductive Shape where
  | character | named | octal | hexadecimal | signed | unsigned
  deriving DecidableEq, Repr

/-- How rows are shown: the number of bytes of an item, its shape, and whether the characters stand
behind the row. -/
structure Format where
  size : Nat
  shape : Shape
  showsText : Bool
  deriving DecidableEq, Repr

/-- The names of the characters that cannot be seen. -/
def names : List String :=
  ["nul", "soh", "stx", "etx", "eot", "enq", "ack", "bel", "bs", "ht", "nl", "vt", "ff", "cr",
    "so", "si", "dle", "dc1", "dc2", "dc3", "dc4", "nak", "syn", "etb", "can", "em", "sub", "esc",
    "fs", "gs", "rs", "us", "sp"]

/-- Digits of a number in a base with zeros in front. -/
def digits (base width n : Nat) : String :=
  let text := Nat.toDigits base n
  String.ofList (List.replicate (width - text.length) '0' ++ text)

/-- A byte as a character. -/
def characterText (c : Char) : String :=
  if isShown c then String.singleton c
  else if c = '\x00' then "\\0"
  else
    match [('\x07', 'a'), ('\x08', 'b'), ('\t', 't'), ('\n', 'n'), ('\x0b', 'v'), ('\x0c', 'f'),
      ('\r', 'r')].lookup c with
    | some letter => String.ofList ['\\', letter]
    | none => digits 8 3 c.toNat

/-- A byte by its name, for which its highest bit does not count. -/
def namedText (c : Char) : String :=
  let n := c.toNat % 128
  if n = 127 then "del" else (names[n]?).getD (String.singleton (Char.ofNat n))

/-- The number of some bytes. -/
def numberOf : List Char → Nat
  | [] => 0
  | c :: cs => c.toNat + 256 * numberOf cs

namespace Format

/-- The greatest number of digits of a number of so many bytes. -/
def digitsOf (base size : Nat) : Nat :=
  (Nat.toDigits base (Nat.pow 256 size - 1)).length

/-- The width of an item. -/
def width (f : Format) : Nat :=
  match f.shape with
  | .character | .named => 3
  | .octal => digitsOf 8 f.size
  | .hexadecimal => 2 * f.size
  | .unsigned => digitsOf 10 f.size
  | .signed => (Nat.toDigits 10 (Nat.pow 256 f.size / 2)).length + 1

/-- The text of an item. -/
def itemText (f : Format) (bytes : List Char) : String :=
  let n := numberOf bytes
  match f.shape with
  | .character => characterText (bytes.headD '\x00')
  | .named => namedText (bytes.headD '\x00')
  | .octal => digits 8 f.width n
  | .hexadecimal => digits 16 f.width n
  | .unsigned => toString n
  | .signed =>
    let most := Nat.pow 256 f.size
    if most / 2 ≤ n then "-" ++ toString (most - n) else toString n

/-- The items of a row, the last one filled with zeros. The bytes get fewer with every step, so
`fuel` is their number. -/
def items (f : Format) : (fuel : Nat) → List Char → List String
  | 0, _ => []
  | _, [] => []
  | fuel + 1, bytes => f.itemText (bytes.take f.size) :: items f fuel (bytes.drop f.size)

/-- The texts of a row, with blanks in front so that a full row has a width. `left` is what is left
of the blanks that go beyond the width of its items. -/
def placed (f : Format) (blanks count : Nat) : (left index : Nat) → List String → String
  | _, _, [] => ""
  | left, index, text :: rest =>
    let after := blanks * (count - index - 1) / count
    " " ++ padLeft (left - after + f.width) text ++ placed f blanks count after (index + 1) rest

end Format

/-- How a dump is made. -/
structure Setting where
  formats : List Format
  /-- The base of places; none if they are not shown. -/
  base? : Option Nat
  rowSize : Nat
  /-- Whether rows that are the same as the one before are shown. -/
  showsAll : Bool

namespace Setting

/-- The place of a row. -/
def place (s : Setting) (offset : Nat) : String :=
  match s.base? with
  | none => ""
  | some base => digits base (if base = 16 then 6 else 7) offset

/-- The blanks that stand for a place. -/
def noPlace (s : Setting) : String :=
  String.ofList ((s.place 0).toList.map fun _ => ' ')

/-- The width of a full row without its place. -/
def width (s : Setting) : Nat :=
  (s.formats.map fun f => (f.width + 1) * (s.rowSize / f.size)).foldl max 0

/-- A row in all formats. -/
def rowText (s : Setting) (offset : Nat) (bytes : List Char) : String :=
  let lines := s.formats.mapIdx fun index f =>
    let count := s.rowSize / f.size
    let blanks := s.width - (f.width + 1) * count
    let text := f.placed blanks count blanks 0 (f.items bytes.length bytes)
    let rest :=
      if f.showsText then
        String.ofList (List.replicate (s.width - text.length) ' ') ++ "  >" ++
          String.ofList (bytes.map fun c => if isShown c then c else '.') ++ "<"
      else ""
    (if index = 0 then s.place offset else s.noPlace) ++ text ++ rest ++ "\n"
  String.join lines

/-- The rows of some bytes. `before` is the row before, and whether a row has been left out behind
it. The bytes get fewer with every step, so `fuel` is their number. -/
def rows (s : Setting) : (fuel offset : Nat) → (before : Option (List Char) × Bool) → List Char →
    List String
  | 0, _, _, _ => []
  | _, _, _, [] => []
  | fuel + 1, offset, before, bytes =>
    let row := bytes.take s.rowSize
    let rest := bytes.drop s.rowSize
    let next := offset + s.rowSize
    if !s.showsAll && before.1 = some row && rest ≠ [] then
      (if before.2 then [] else ["*\n"]) ++ rows s fuel next (before.1, true) rest
    else s.rowText offset row :: rows s fuel next (some row, false) rest

end Setting

/-- The formats that a text names. The text gets shorter with every step, so `fuel` is its
length. -/
def formatsOf? (whole : String) : (fuel : Nat) → List Char → Except String (List Format)
  | 0, _ => .ok []
  | _, [] => .ok []
  | fuel + 1, letter :: cs => do
    let shape? : Option Shape :=
      [('c', Shape.character), ('a', .named), ('o', .octal), ('x', .hexadecimal), ('d', .signed),
        ('u', .unsigned)].lookup letter
    match shape? with
    | none =>
      throw ("invalid character '" ++ String.singleton letter ++ "' in type string " ++
        shellQuoted whole)
    | some shape =>
      let isPlain := shape = .character || shape = .named
      let (size, rest) : Nat × List Char :=
        if isPlain then (1, cs)
        else
          match cs with
          | 'C' :: rest => (1, rest)
          | 'S' :: rest => (2, rest)
          | 'I' :: rest => (4, rest)
          | 'L' :: rest => (8, rest)
          | cs =>
            let size := cs.takeWhile Char.isDigit
            (if size = [] then 4 else Arithmetic.ofDigits 10 size, cs.drop size.length)
      if !([1, 2, 4, 8].contains size) then
        throw ("invalid type string " ++ shellQuoted whole ++ ";\nthis system doesn't provide a " ++
          toString size ++ "-byte integral type")
      else
        let showsText := rest.head? = some 'z'
        return ⟨size, shape, showsText⟩ ::
          (← formatsOf? whole fuel (if showsText then rest.tail else rest))

/-- The number of bytes that a text names. -/
def countOf? (text : String) : Option Nat :=
  let cs := text.toList
  let (cs, factor) :=
    match cs.getLast? with
    | some 'b' => (cs.dropLast, 512)
    | some 'k' | some 'K' => (cs.dropLast, 1024)
    | some 'm' | some 'M' => (cs.dropLast, 1048576)
    | _ => (cs, 1)
  match cs with
  | '0' :: 'x' :: rest =>
    if rest ≠ [] && rest.all Arithmetic.isHex then some (Arithmetic.ofDigits 16 rest * factor)
    else none
  | _ => if cs ≠ [] && cs.all Char.isDigit then some (Arithmetic.ofDigits 10 cs * factor) else none

/-- The options. -/
def table : OptionTable where
  letters := "abcdhilosvx".toList
  valued := "AjNSt".toList
  optional := ['w']
  long := [("address-radix", 'A'), ("skip-bytes", 'j'), ("read-bytes", 'N'), ("format", 't'),
    ("output-duplicates", 'v'), ("width", 'w'), ("strings", 'S')]
  stopsEarly := false

/-- The formats that a letter stands for. -/
def letterFormats : List (Char × Format) :=
  [('a', ⟨1, .named, false⟩), ('b', ⟨1, .octal, false⟩), ('c', ⟨1, .character, false⟩),
    ('d', ⟨2, .unsigned, false⟩), ('h', ⟨2, .hexadecimal, false⟩), ('i', ⟨4, .signed, false⟩),
    ('l', ⟨8, .signed, false⟩), ('o', ⟨2, .octal, false⟩), ('s', ⟨2, .signed, false⟩),
    ('x', ⟨2, .hexadecimal, false⟩)]

/-- The setting that options give, the number of bytes that are left out, and the limit. -/
def settingOf (selected : Selected) : Except String (Setting × Nat × Option Nat) := do
  let formats ← selected.options.mapM fun option =>
    if option.1 = 't' then formatsOf? option.2 option.2.length option.2.toList
    else .ok (letterFormats.lookup option.1).toList
  let formats := formats.flatten
  let formats := if formats = [] then [⟨2, .octal, false⟩] else formats
  let radix := (selected.value? 'A').getD "o"
  let base? ←
    match radix.toList.head? with
    | some 'o' => pure (some 8)
    | some 'd' => pure (some 10)
    | some 'x' => pure (some 16)
    | some 'n' => pure none
    | _ =>
      throw ("invalid output address radix '" ++ radix ++
        "'; it must be one character from [doxn]")
  let count (letter : Char) : Except String (Option Nat) :=
    match selected.value? letter with
    | none => .ok none
    | some text =>
      match countOf? text with
      | some n => .ok (some n)
      | none =>
        .error ("invalid -" ++ String.singleton letter ++ " argument " ++ shellQuoted text)
  let skipped ← count 'j'
  let limit ← count 'N'
  let rowSize :=
    match selected.value? 'w' with
    | none => 16
    | some "" => 32
    | some text => (countOf? text).getD 16
  let least := (formats.map (·.size)).foldl max 1
  let rowSize := if rowSize = 0 || rowSize % least ≠ 0 then least else rowSize
  return (⟨formats, base?, rowSize, selected.has 'v'⟩, skipped.getD 0, limit)

end Dumping

open Dumping in
/-- Shows the bytes of files. -/
def od : Utility := withTable Dumping.table 1 fun r selected =>
  match settingOf selected with
  | .error complaint => r.fail complaint
  | .ok (setting, skipped, limit) =>
    let (text, complaints) := joinedTexts r selected.operands
    let bytes := text.drop skipped
    let bytes := (limit.map bytes.take).getD bytes
    let rows := setting.rows bytes.length skipped (none, false) bytes
    let isOpen := (texts r selected.operands).any fun entry =>
      match entry.2 with
      | .ok _ | .error .isDirectory => true
      | .error _ => false
    let last :=
      if setting.base?.isSome && isOpen then
        setting.place (skipped + bytes.length) ++ "\n"
      else ""
    r.taking (sources selected.operands)
      ((Effect.output r.tree (String.join rows ++ last).toList).withComplaints 1 complaints)

end SchemaGraph.Shell.Utility
