import SchemaGraph.Shell.Records.Value
/-!
# Formats of programs for records

The places of a format take values one after the other. A format with more places than values, or
with a place of an unknown kind, is wrong.
-/

namespace SchemaGraph.Shell.Records

/-- What has been written of a format, the latest piece first. -/
structure Filling where
  pieces : List (List Char)
  values : List Value
  /-- How many places have been filled. -/
  count : Nat

/-- A text that could be written up to its end, or up to what is wrong with its format. -/
structure Filled where
  text : List Char
  flaw : Option String

namespace Filling

/-- One more text. -/
def put (f : Filling) (text : List Char) : Filling :=
  { f with pieces := text :: f.pieces }

/-- What has been written. -/
def finish (f : Filling) (flaw : Option String) : Filled :=
  ⟨f.pieces.reverse.flatten, flaw⟩

/-- A count in a place, which a star takes from the values, and the text after it; none if there is
no value left. -/
def count? (f : Filling) (cs : List Char) : Option (Int × List Char × Filling) :=
  match cs with
  | '*' :: cs =>
    match f.values with
    | v :: values => some (v.toNumber.clamped, cs, { f with values })
    | [] => none
  | cs => some (Arithmetic.ofDigits 10 (cs.takeWhile Char.isDigit), cs.dropWhile Char.isDigit, f)

/-- The text of a value in a place; none if no place has such a letter. `toText` says what values
are as texts. -/
def place? (toText : Value → String) (l : Printing.Layout) (letter : Char) (v : Value) :
    Option (List Char) :=
  let number := v.toNumber
  let wrapped := (number.clamped.emod (Printing.greatestUnsigned + 1)).toNat
  let size : Nat :=
    match number.truncated? with
    | some n => if 0x7FFFFFFFFFFFFFFF ≤ n then min n.toNat Printing.greatestUnsigned else wrapped
    | none => wrapped
  let marked (front : List Char) : List Char :=
    if l.flags.contains '#' && size ≠ 0 then front else []
  match letter with
  | 's' =>
    let text := (toText v).toList
    some (l.pad (match l.precision with
      | some n => text.take n
      | none => text))
  | 'c' =>
    let text : List Char :=
      if v ≠ .unset && v.isNumber then [Char.ofNat (number.clamped.emod 256).toNat]
      else
        match (toText v).toList with
        | c :: _ => [c]
        | [] => ['\x00']
    some (l.pad text)
  | 'd' | 'i' =>
    let n : Int := if 0x7FFFFFFFFFFFFFFF ≤ number.clamped then size
      else max (-0x7FFFFFFFFFFFFFFF) number.clamped
    some (l.integer (l.sign (n < 0)) 10 n.natAbs)
  | 'u' => some (l.integer [] 10 size)
  | 'o' => some (l.integer (marked ['0']) 8 size)
  | 'x' => some (l.integer (marked ['0', 'x']) 16 size)
  | 'X' => some ((l.integer (marked ['0', 'X']) 16 size).map Char.toUpper)
  | letter => if "eEfFgG".toList.contains letter then some (l.real letter number) else none

/-- Fills the places of a format. Every step takes a character, so `fuel` is their number. -/
def fill (toText : Value → String) : (fuel : Nat) → List Char → Filling → Filled
  | 0, _, f => f.finish none
  | _, [], f => f.finish none
  | fuel + 1, '%' :: '%' :: cs, f => fill toText fuel cs (f.put ['%'])
  | fuel + 1, '%' :: cs, f =>
    let missing := some "not enough arguments passed to "
    let flags := cs.takeWhile fun c => "-+ #0".toList.contains c
    match f.count? (cs.drop flags.length) with
    | none => f.finish missing
    | some (width, rest, f) =>
      let precision? : Option (Option Nat × List Char × Filling) :=
        match rest with
        | '.' :: rest =>
          (f.count? rest).map fun (n, rest, f) => (if n < 0 then none else some n.toNat, rest, f)
        | rest => some (none, rest, f)
      match precision? with
      | none => f.finish missing
      | some (precision, rest, f) =>
        match rest.dropWhile fun c => c == 'l' || c == 'h', f.values with
        | [], _ | _, [] => f.finish missing
        | letter :: rest, v :: values =>
          let flags := if width < 0 then '-' :: flags else flags
          match place? toText ⟨flags, width.natAbs, precision⟩ letter v with
          | some text =>
            fill toText fuel rest { f.put text with values, count := f.count + 1 }
          | none =>
            f.finish (some ("improper conversion(number " ++ toString (f.count + 1) ++ ") in "))
  | fuel + 1, c :: cs, f => fill toText fuel cs (f.put [c])

end Filling

/-- The text of a format whose places values fill, or what is wrong with it. -/
def filled (toText : Value → String) (format : List Char) (values : List Value) : Filled :=
  Filling.fill toText format.length format ⟨[], values, 0⟩

/-- The text that a value is. A number that is no integer has the given format. -/
def Value.toText (format : String) : Value → String
  | unset => ""
  | text s | input s => s
  | number r =>
    match r.integerText? with
    | some digits => digits
    | none => String.ofList (filled (fun _ => "") format.toList [.number r]).text

end SchemaGraph.Shell.Records
