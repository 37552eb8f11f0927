import SchemaGraph.Shell.Printing
/-!
# Calculating with real numbers

Sums, products and remainders of numbers with 53 bits are calculated exactly and rounded once.
Powers with great exponents and the functions of angles and logarithms are those of the machine.
-/

namespace SchemaGraph.Shell.RealNumber

/-- Zero. -/
def zero : RealNumber :=
  ⟨false, .finite 0 0⟩

/-- What is no number. -/
def undefined : RealNumber :=
  ⟨true, .undefined⟩

/-- An integer times a power of two, rounded. -/
def ofScaled (n exponent : Int) : RealNumber :=
  let (a, d) := Magnitude.scale 2 exponent n.natAbs 1
  ⟨n < 0, .ofRatio .double a d⟩

/-- An integer, rounded. -/
def ofInt (n : Int) : RealNumber :=
  ofScaled n 0

/-- The number one or zero. -/
def ofBool (b : Bool) : RealNumber :=
  ofInt (if b then 1 else 0)

/-- The integer and the exponent of two that a number is made of; none if it is not finite. -/
def parts? (r : RealNumber) : Option (Int × Int) :=
  match r.magnitude with
  | .finite mantissa exponent => some (if r.isNegative then -mantissa else mantissa, exponent)
  | _ => none

/-- Whether a number is zero. -/
def isZero (r : RealNumber) : Bool :=
  r.parts?.any (·.1 == 0)

/-- The number with the other sign. -/
def opposite (r : RealNumber) : RealNumber :=
  { r with isNegative := !r.isNegative }

/-- Two finite numbers as integers of which both are the same power of two. -/
def aligned (a b : Int × Int) : Int × Int × Int :=
  let exponent := min a.2 b.2
  let at_ (x : Int × Int) : Int := x.1 * Nat.pow 2 (x.2 - exponent).toNat
  (at_ a, at_ b, exponent)

/-- The sum of two numbers. -/
def add (a b : RealNumber) : RealNumber :=
  match a.parts?, b.parts? with
  | some p, some q =>
    let (m, n, exponent) := aligned p q
    ofScaled (m + n) exponent
  | some _, none => b
  | none, some _ => a
  | none, none =>
    if a.magnitude = .undefined then a
    else if b.magnitude = .undefined then b
    else if a.isNegative = b.isNegative then a
    else undefined

/-- The difference of two numbers. -/
def subtract (a b : RealNumber) : RealNumber :=
  a.add b.opposite

/-- The product of two numbers. -/
def multiply (a b : RealNumber) : RealNumber :=
  match a.parts?, b.parts? with
  | some (m, e), some (n, f) =>
    { ofScaled (m * n) (e + f) with isNegative := a.isNegative != b.isNegative }
  | _, _ =>
    if a.magnitude = .undefined then a
    else if b.magnitude = .undefined then b
    else if a.isZero || b.isZero then undefined
    else ⟨a.isNegative != b.isNegative, .infinite⟩

/-- The quotient of two numbers. -/
def divide (a b : RealNumber) : RealNumber :=
  let isNegative := a.isNegative != b.isNegative
  match a.parts?, b.parts? with
  | some (m, e), some (n, f) =>
    if n = 0 then if m = 0 then undefined else ⟨isNegative, .infinite⟩
    else
      let (numerator, denominator) := Magnitude.scale 2 (e - f) m.natAbs n.natAbs
      ⟨isNegative, .ofRatio .double numerator denominator⟩
  | some _, none => if b.magnitude = .undefined then b else ⟨isNegative, .finite 0 0⟩
  | none, some _ => if a.magnitude = .undefined then a else ⟨isNegative, .infinite⟩
  | none, none =>
    if a.magnitude = .undefined then a
    else if b.magnitude = .undefined then b
    else undefined

/-- What is left of a number after another one is taken away as often as it fits. -/
def remainder (a b : RealNumber) : RealNumber :=
  match a.parts?, b.parts? with
  | some p, some q =>
    let (m, n, exponent) := aligned p q
    if n = 0 then undefined
    else { ofScaled (m.tmod n) exponent with isNegative := a.isNegative }
  | some _, none => if b.magnitude = .undefined then b else a
  | none, _ => if a.magnitude = .undefined then a else undefined

/-- How two numbers are ordered. What is no number is equal to all of them. -/
def order (a b : RealNumber) : Ordering :=
  match a.parts?, b.parts? with
  | some p, some q =>
    let (m, n, _) := aligned p q
    compare m n
  | _, _ =>
    if a.magnitude = .undefined ∨ b.magnitude = .undefined then .eq
    else
      let sign (r : RealNumber) : Int :=
        if r.magnitude = .infinite then if r.isNegative then -1 else 1 else 0
      compare (sign a) (sign b)

/-- The integer in front of the point of a number; none if it is not finite. -/
def truncated? (r : RealNumber) : Option Int :=
  r.parts?.map fun (m, e) =>
    if 0 ≤ e then m * Nat.pow 2 e.toNat else m.tdiv (Nat.pow 2 (-e).toNat)

/-- The number without its places after the point. -/
def truncated (r : RealNumber) : RealNumber :=
  match r.truncated? with
  | some n => ofInt n
  | none => r

/-- The integer in front of the point, between the bounds of 64 bits. -/
def clamped (r : RealNumber) : Int :=
  match r.truncated? with
  | some n => max (-0x8000000000000000) (min 0x7FFFFFFFFFFFFFFF n)
  | none =>
    if r.magnitude = .infinite && !r.isNegative then 0x7FFFFFFFFFFFFFFF
    else -0x8000000000000000

/-! ## Functions of the machine -/

/-- A number as the machine keeps it. -/
def toFloat (r : RealNumber) : Float :=
  let size : Float :=
    match r.magnitude with
    | .finite mantissa exponent => (Float.ofNat mantissa).scaleB exponent
    | .infinite => 1.0 / 0.0
    | .undefined => 0.0 / 0.0
  if r.isNegative then -size else size

/-- The number that the machine keeps. -/
def ofFloat (x : Float) : RealNumber :=
  if x.isNaN then undefined
  else if x.isInf then ⟨x < 0, .infinite⟩
  else
    let (fraction, exponent) := x.abs.frExp
    { ofScaled (fraction.scaleB 53).toUInt64.toNat (exponent - 53) with isNegative := x < 0 }

/-- A number to the power of another one. -/
def power (a b : RealNumber) : RealNumber :=
  match a.parts?, b.truncated? with
  | some (m, e), some n =>
    if m ≠ 0 && n.natAbs ≤ 1024 && order (ofInt n) b = .eq then
      let size := n.natAbs
      let whole := ofScaled (Int.pow m size) (e * size)
      if 0 ≤ n then whole else (ofInt 1).divide whole
    else ofFloat (Float.pow a.toFloat b.toFloat)
  | _, _ => ofFloat (Float.pow a.toFloat b.toFloat)

/-! ## Texts -/

/-- The number at the front of a text; zero if there is none. -/
def ofText (cs : List Char) : RealNumber :=
  match RealReading.read? .double cs with
  | some r => r.value
  | none => zero

/-- Whether a whole text is a decimal number, apart from blanks around it. -/
def isWritten (cs : List Char) : Bool :=
  let isBlank (c : Char) : Bool := c == ' ' || (9 ≤ c.toNat && c.toNat ≤ 13)
  let cs := cs.dropWhile isBlank
  let unsigned :=
    match cs with
    | '-' :: cs | '+' :: cs => cs
    | cs => cs
  match unsigned with
  | c :: _ =>
    (c.isDigit || c == '.') &&
      match RealReading.digits? Char.isDigit unsigned with
      | some (_, _, rest) => (RealReading.power ['e', 'E'] rest).2.all isBlank
      | none => false
  | [] => false

/-- The digits of an integer; none if a number is none, or has more than 64 bits. -/
def integerText? (r : RealNumber) : Option String :=
  r.truncated?.bind fun n =>
    if order (ofInt n) r ≠ .eq then none
    else if -0x8000000000000000 ≤ n ∧ n < 0x10000000000000000 then some (toString n)
    else if n = 0x10000000000000000 then some (toString Printing.greatestUnsigned)
    else none

end SchemaGraph.Shell.RealNumber
