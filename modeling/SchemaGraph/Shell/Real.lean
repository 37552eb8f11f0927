import SchemaGraph.Shell.Arithmetic
/-!
# Real numbers in texts

Programs keep a real number as an integer times a power of two, of which the integer has a bounded
number of bits. `ofRatio` finds the nearest such number, and the three notations write the digits of
exactly that number, rounded once more to as many as are asked for. Of two nearest numbers the even
one is taken.
-/

namespace SchemaGraph.Shell

/-- How many bits a number has, and between which powers of two the numbers of a format lie. -/
structure BinaryFormat where
  bits : Nat
  least : Int
  greatest : Int

/-- The format with numbers of 64 bits. -/
def BinaryFormat.double : BinaryFormat :=
  ⟨53, -1074, 1024⟩

/-- The format with numbers of 80 bits. -/
def BinaryFormat.long : BinaryFormat :=
  ⟨64, -16445, 16384⟩

/-- A number without its sign. -/
inductive Magnitude where
  /-- The integer times a power of two. -/
  | finite (mantissa : Nat) (exponent : Int)
  | infinite
  | undefined
  deriving DecidableEq, Repr

/-- A number. -/
structure RealNumber where
  isNegative : Bool
  magnitude : Magnitude
  deriving DecidableEq, Repr

/-- The integer that is nearest to a quotient. -/
def nearestQuotient (n d : Nat) : Nat :=
  let q := n / d
  let r := n % d
  if d < 2 * r ∨ (2 * r = d ∧ q % 2 = 1) then q + 1 else q

namespace Magnitude

/-- The ratio of two integers times a power of a base, as a ratio. -/
def scale (base : Nat) (exponent : Int) (n d : Nat) : Nat × Nat :=
  if 0 ≤ exponent then (n * Nat.pow base exponent.toNat, d)
  else (n, d * Nat.pow base (-exponent).toNat)

/-- The number of a format that is nearest to a ratio. -/
def ofRatio (format : BinaryFormat) (n d : Nat) : Magnitude :=
  if n = 0 then .finite 0 0
  else
    let e : Int := (Nat.log2 n : Int) - Nat.log2 d - format.bits
    let (a, b) := scale 2 (-e) n d
    let e := max format.least (if Nat.pow 2 format.bits ≤ a / b then e + 1 else e)
    let (a, b) := scale 2 (-e) n d
    let mantissa := nearestQuotient a b
    if format.greatest ≤ (Nat.log2 mantissa : Int) + e then .infinite else .finite mantissa e

/-! ## Notations -/

/-- A point, if digits follow it or it is asked for, in front of digits. -/
def afterPoint (keepsPoint : Bool) (digits : List Char) : List Char :=
  if digits = [] && !keepsPoint then [] else '.' :: digits

/-- The digits of a ratio with the given number of places after the point. -/
def fixed (keepsPoint : Bool) (places : Nat) (n d : Nat) : List Char :=
  let digits := Nat.toDigits 10 (nearestQuotient (n * Nat.pow 10 places) d)
  let digits := List.replicate (places + 1 - digits.length) '0' ++ digits
  let whole := digits.length - places
  digits.take whole ++ afterPoint keepsPoint (digits.drop whole)

/-- The power of ten of the first digit of a ratio. -/
def leadingPower (n d : Nat) : Int :=
  if n = 0 then 0
  else if d ≤ n then (Nat.toDigits 10 (n / d)).length - 1
  else
    let k := (Nat.toDigits 10 (d / n)).length - 1
    if d ≤ n * Nat.pow 10 k then -k else -(k + 1 : Nat)

/-- The first digits of a ratio, one before the point, and the power of ten of that one. -/
def leadingDigits (places : Nat) (n d : Nat) : List Char × Int :=
  let power := leadingPower n d
  let (a, b) := scale 10 (places - power) n d
  let q := nearestQuotient a b
  if q = Nat.pow 10 (places + 1) then (Nat.toDigits 10 (q / 10), power + 1)
  else
    let digits := Nat.toDigits 10 q
    (digits ++ List.replicate (places + 1 - digits.length) '0', power)

/-- A power of ten, with at least two digits. -/
def powerText (power : Int) : List Char :=
  let digits := Nat.toDigits 10 power.natAbs
  'e' :: (if power < 0 then '-' else '+') :: (List.replicate (2 - digits.length) '0' ++ digits)

/-- Digits without the zeros at their end. -/
def withoutZeros (digits : List Char) : List Char :=
  (digits.reverse.dropWhile (· == '0')).reverse

/-- The digits of a ratio with a power of ten. -/
def exponential (keepsPoint dropsZeros : Bool) (places : Nat) (n d : Nat) : List Char :=
  let (digits, power) := leadingDigits places n d
  let rest := if dropsZeros then withoutZeros digits.tail else digits.tail
  digits.take 1 ++ afterPoint keepsPoint rest ++ powerText power

/-- The given number of digits of a ratio, with a power of ten if the first digit stands far from
the point. Zeros at the end of the places after the point go. -/
def general (keepsPoint : Bool) (count : Nat) (n d : Nat) : List Char :=
  let count := max 1 count
  let power := (leadingDigits (count - 1) n d).2
  if power < -4 ∨ count ≤ power then exponential keepsPoint (!keepsPoint) (count - 1) n d
  else
    let places := (count - 1 - power).toNat
    let text := fixed keepsPoint places n d
    if keepsPoint || places = 0 then text
    else
      let kept := withoutZeros text
      if kept.getLast? = some '.' then kept.dropLast else kept

/-- The text of a number, whose digits the given notation writes. -/
def text (notation_ : Nat → Nat → List Char) : Magnitude → List Char
  | .infinite => "inf".toList
  | .undefined => "nan".toList
  | .finite mantissa exponent =>
    let (n, d) := scale 2 exponent mantissa 1
    notation_ n d

end Magnitude

/-! ## Reading -/

/-- A number that has been read, whether it is out of range, and the text after it. -/
structure RealReading where
  value : RealNumber
  isOutOfRange : Bool
  rest : List Char

namespace RealReading

/-- The power of ten or of two at the front of a text, after one of the given letters. -/
def power (letters : List Char) (cs : List Char) : Int × List Char :=
  match cs with
  | c :: rest =>
    let (negative, digits) :=
      match rest with
      | '-' :: digits => (true, digits)
      | '+' :: digits => (false, digits)
      | digits => (false, digits)
    let found := digits.takeWhile Char.isDigit
    if letters.contains c && found ≠ [] then
      let n : Int := min 100000 (Arithmetic.ofDigits 10 found)
      (if negative then -n else n, digits.dropWhile Char.isDigit)
    else (0, cs)
  | [] => (0, [])

/-- Digits with a point among them, and the text after them; none if there is no digit. -/
def digits? (isDigit : Char → Bool) (cs : List Char) :
    Option (List Char × List Char × List Char) :=
  let whole := cs.takeWhile isDigit
  match cs.dropWhile isDigit with
  | '.' :: rest =>
    let places := rest.takeWhile isDigit
    if whole = [] ∧ places = [] then none else some (whole, places, rest.dropWhile isDigit)
  | rest => if whole = [] then none else some (whole, [], rest)

/-- The number of a format without a sign at the front of a text; none if there is none. -/
def unsigned? (format : BinaryFormat) (cs : List Char) :
    Option (Magnitude × Bool × List Char) :=
  let ofParts (base exponentBase : Nat) (letters : List Char) (shift : Nat)
      (parts : List Char × List Char × List Char) : Magnitude × Bool × List Char :=
    let (whole, places, rest) := parts
    let (exponent, rest) := power letters rest
    let n := Arithmetic.ofDigits base (whole ++ places)
    let (a, b) := Magnitude.scale exponentBase (exponent - shift * places.length) n 1
    let magnitude := Magnitude.ofRatio format a b
    let isLost : Bool :=
      match magnitude with
      | .infinite => true
      | .finite mantissa _ => n ≠ 0 && mantissa < Nat.pow 2 (format.bits - 1)
      | .undefined => false
    (magnitude, isLost, rest)
  let starts (word : String) : Bool :=
    word.toList.isPrefixOf (cs.map Char.toLower)
  let hexadecimal :=
    match cs with
    | '0' :: x :: rest => if x = 'x' ∨ x = 'X' then digits? Arithmetic.isHex rest else none
    | _ => none
  if starts "infinity" then some (.infinite, false, cs.drop 8)
  else if starts "inf" then some (.infinite, false, cs.drop 3)
  else if starts "nan" then some (.undefined, false, cs.drop 3)
  else
    match hexadecimal with
    | some parts => some (ofParts 16 2 ['p', 'P'] 4 parts)
    | none => (digits? Char.isDigit cs).map (ofParts 10 10 ['e', 'E'] 1)

/-- The number of a format at the front of a text, after blanks; none if there is none. -/
def read? (format : BinaryFormat) (cs : List Char) : Option RealReading :=
  let cs := cs.dropWhile fun c => c == ' ' || (9 ≤ c.toNat && c.toNat ≤ 13)
  let (isNegative, cs) :=
    match cs with
    | '-' :: cs => (true, cs)
    | '+' :: cs => (false, cs)
    | cs => (false, cs)
  (unsigned? format cs).map fun (magnitude, isOutOfRange, rest) =>
    ⟨⟨isNegative, magnitude⟩, isOutOfRange, rest⟩

end RealReading
end SchemaGraph.Shell
