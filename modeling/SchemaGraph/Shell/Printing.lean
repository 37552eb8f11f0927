import SchemaGraph.Shell.Real
/-!
# Printing in shell scripts

What `echo` and `printf` write: escapes after a backslash, and the places of a format, which is used
again as long as arguments are left. All texts are byte texts.
-/

namespace SchemaGraph.Shell.Printing

/-- Who prints: a shell, or a program of its own, which knows more and complains in other words. -/
inductive Printer where
  | shell | program
  deriving DecidableEq, Repr

/-! ## Escapes -/

/-- The characters that letters after a backslash stand for. -/
def escapes : List (Char × Nat) :=
  [('\\', 92), ('a', 7), ('b', 8), ('e', 27), ('f', 12), ('n', 10), ('r', 13), ('t', 9), ('v', 11)]

/-- The character of up to `limit` octal digits, and the text after them. -/
def octal (limit : Nat) (cs : List Char) : Char × List Char :=
  let digits := (cs.take limit).takeWhile Arithmetic.isOctal
  (Char.ofNat (Arithmetic.ofDigits 8 digits % 256), cs.drop digits.length)

/-- The character after a backslash, and the text after it; none if the backslash stands for
itself. -/
def escape? (printer : Printer) : List Char → Option (Char × List Char)
  | [] => none
  | c :: cs =>
    if Arithmetic.isOctal c then some (octal 3 (c :: cs))
    else if c = 'x' && printer = .program && (cs.head?.map Arithmetic.isHex).getD false then
      let digits := (cs.take 2).takeWhile Arithmetic.isHex
      some (Char.ofNat (Arithmetic.ofDigits 16 digits), cs.drop digits.length)
    else if c = '"' && printer = .program then some ('"', cs)
    else (escapes.lookup c).map fun n => (Char.ofNat n, cs)

/-- A text with its escapes replaced, and whether it asks to stop. After `\0` up to three more octal
digits count. Every step takes a character, so `fuel` is their number. -/
def unescape (printer : Printer) : (fuel : Nat) → List Char → List Char × Bool
  | 0, _ => ([], false)
  | _, [] => ([], false)
  | fuel + 1, c :: cs =>
    let after (c : Char) (cs : List Char) : List Char × Bool :=
      let (more, stops) := unescape printer fuel cs
      (c :: more, stops)
    if c = '\\' then
      match cs with
      | 'c' :: _ => ([], true)
      | '0' :: cs =>
        let (c, cs) := octal 3 cs
        after c cs
      | cs =>
        match escape? printer cs with
        | some (c, cs) => after c cs
        | none => after '\\' cs
    else after c cs

/-- What `echo` writes after the words that are options. -/
def echoText (printer : Printer) (escaped endsLine : Bool) (words : List String) : String :=
  let cs := (String.intercalate " " words).toList
  let (cs, stops) := if escaped then unescape printer cs.length cs else (cs, false)
  String.ofList (if stops || !endsLine then cs else cs ++ ['\n'])

/-- The options in front of the words of `echo`, of which only the given letters count: whether
escapes are replaced and whether a line end follows, and the other words. -/
def echoOptions (letters : List Char) : (escaped endsLine : Bool) → List String →
    Bool × Bool × List String
  | escaped, endsLine, [] => (escaped, endsLine, [])
  | escaped, endsLine, word :: words =>
    match word.toList with
    | '-' :: c :: cs =>
      if (c :: cs).all letters.contains then
        let chosen := ((c :: cs).reverse.find? fun c => c == 'e' || c == 'E').map (· == 'e')
        echoOptions letters (chosen.getD escaped) (endsLine && !(c :: cs).contains 'n') words
      else (escaped, endsLine, word :: words)
    | _ => (escaped, endsLine, word :: words)

/-- What `echo` of a plain shell writes: escapes are always replaced, and one word may be an
option. -/
def plainEcho (arguments : List String) : String :=
  match arguments with
  | "-n" :: words => echoText .shell true false words
  | words => echoText .shell true true words

/-- What `echo` of other shells and of the program writes. -/
def fullEcho (arguments : List String) : String :=
  let (escaped, endsLine, words) := echoOptions ['n', 'e', 'E'] false true arguments
  echoText .program escaped endsLine words

/-! ## Places of formats -/

/-- How a place of a format is laid out. -/
structure Layout where
  flags : List Char
  width : Nat
  precision : Option Nat

/-- A text in as many columns as the layout asks for. -/
def Layout.pad (l : Layout) (cs : List Char) : List Char :=
  let blanks := List.replicate (l.width - cs.length) ' '
  if l.flags.contains '-' then cs ++ blanks else blanks ++ cs

/-- A number after its sign or the sign of its digits, with zeros between them where they fill the
columns. -/
def Layout.number (l : Layout) (fillsZeros : Bool) (front digits : List Char) : List Char :=
  if fillsZeros && l.flags.contains '0' && !l.flags.contains '-' then
    front ++ List.replicate (l.width - front.length - digits.length) '0' ++ digits
  else l.pad (front ++ digits)

/-- What stands before a number. -/
def Layout.sign (l : Layout) (isNegative : Bool) : List Char :=
  if isNegative then ['-']
  else if l.flags.contains '+' then ['+']
  else if l.flags.contains ' ' then [' ']
  else []

/-- An integer in the digits of a base, with as many digits as the precision asks for. -/
def Layout.integer (l : Layout) (front : List Char) (base : Nat) (n : Nat) : List Char :=
  let digits := Nat.toDigits base n
  let digits := if n = 0 ∧ l.precision = some 0 then [] else digits
  let zeros := List.replicate (l.precision.getD 0 - digits.length) '0'
  l.number l.precision.isNone front (zeros ++ digits)

/-- A real number in the notation that a letter names. -/
def Layout.real (l : Layout) (conversion : Char) (r : RealNumber) : List Char :=
  let keepsPoint := l.flags.contains '#'
  let places := l.precision.getD 6
  let notation_ : Nat → Nat → List Char :=
    match conversion.toLower with
    | 'f' => Magnitude.fixed keepsPoint places
    | 'e' => Magnitude.exponential keepsPoint false places
    | _ => Magnitude.general keepsPoint places
  let text := r.magnitude.text notation_
  let isFinite : Bool :=
    match r.magnitude with
    | .finite _ _ => true
    | _ => false
  l.number isFinite (l.sign r.isNegative)
    (if conversion.isUpper then text.map Char.toUpper else text)

/-! ## Numbers in arguments -/

/-- What is wrong with an argument that is to be a number. -/
inductive Misfit where
  | noNumber
  /-- Text follows the number. -/
  | partly
  | outOfRange
  deriving DecidableEq, Repr

/-- What a printer says of an argument that is no number. -/
def Misfit.message (printer : Printer) (argument : String) (misfit : Misfit) : String :=
  match printer, misfit with
  | .shell, .noNumber => argument ++ ": expected numeric value"
  | .shell, .partly => argument ++ ": not completely converted"
  | .shell, .outOfRange => argument ++ ": Numerical result out of range"
  | .program, .noNumber => "'" ++ argument ++ "': expected a numeric value"
  | .program, .partly => "'" ++ argument ++ "': value not completely converted"
  | .program, .outOfRange => "'" ++ argument ++ "': Numerical result out of range"

/-- The greatest integer without a sign, which has 64 bits. -/
def greatestUnsigned : Nat := 0xFFFFFFFFFFFFFFFF

/-- The integer in front of an argument, between two bounds, and what is wrong with it. -/
def integerOf (least greatest : Int) (argument : String) : Int × Option Misfit :=
  let ofDigits (change : Nat → Int) (cs : List Char) : Int × Option Misfit :=
    let take (base : Nat) (isDigit : Char → Bool) (cs : List Char) : Nat × List Char :=
      (Arithmetic.ofDigits base (cs.takeWhile isDigit), cs.dropWhile isDigit)
    let found : Option (Nat × List Char) :=
      match cs with
      | '0' :: x :: c :: rest =>
        if (x = 'x' ∨ x = 'X') ∧ Arithmetic.isHex c then
          some (take 16 Arithmetic.isHex (c :: rest))
        else some (take 8 Arithmetic.isOctal cs)
      | '0' :: _ => some (take 8 Arithmetic.isOctal cs)
      | c :: _ => if c.isDigit then some (take 10 Char.isDigit cs) else none
      | [] => none
    match found with
    | none => (0, some .noNumber)
    | some (n, rest) =>
      let value := max least (min greatest (change n))
      (value,
        if rest ≠ [] then some .partly
        else if value ≠ change n then some .outOfRange
        else none)
  match argument.toList with
  | [] => (0, none)
  | '"' :: rest | '\'' :: rest => (rest.head?.elim 0 fun c => (c.toNat : Int), none)
  | cs =>
    match cs.dropWhile fun c => c == ' ' || (9 ≤ c.toNat && c.toNat ≤ 13) with
    | '-' :: cs => ofDigits (-·) cs
    | '+' :: cs => ofDigits (·) cs
    | cs => ofDigits (·) cs

/-- The real number in front of an argument, and what is wrong with it. -/
def realOf (format : BinaryFormat) (argument : String) : RealNumber × Option Misfit :=
  let zero : RealNumber := ⟨false, .finite 0 0⟩
  match argument.toList with
  | [] => (zero, none)
  | '"' :: rest | '\'' :: rest => (⟨false, .finite (rest.head?.elim 0 Char.toNat) 0⟩, none)
  | cs =>
    match RealReading.read? format cs with
    | none => (zero, some .noNumber)
    | some r =>
      (r.value,
        if r.rest ≠ [] then some .partly else if r.isOutOfRange then some .outOfRange else none)

/-! ## Formats -/

/-- A step of what has been written. -/
inductive Piece where
  | text (text : List Char)
  | complaint (message : String)
  deriving DecidableEq, Repr

/-- What has been written of a format, the latest piece first. -/
structure Written where
  pieces : List Piece
  arguments : List String
  /-- What is wrong with the format. -/
  flaw : Option String
  /-- Whether an argument asks to stop. -/
  stops : Bool

namespace Written

/-- One more text. -/
def put (w : Written) (cs : List Char) : Written :=
  { w with pieces := .text cs :: w.pieces }

/-- One more text in place of an argument. -/
def replace (w : Written) (cs : List Char) : Written :=
  { w.put cs with arguments := w.arguments.tail }

/-- A complaint about an argument, if there is one. -/
def complain (w : Written) (printer : Printer) (argument : String) (misfit : Option Misfit) :
    Written :=
  match misfit with
  | some misfit => { w with pieces := .complaint (misfit.message printer argument) :: w.pieces }
  | none => w

/-- A count in a place, which a star takes from the arguments, and the text after it. A count
below zero asks for columns on the right. -/
def count (w : Written) (printer : Printer) (cs : List Char) :
    Int × List Char × Written :=
  match cs with
  | '*' :: cs =>
    let argument := w.arguments.headD ""
    let (n, misfit) := integerOf (-0x80000000) 0x7FFFFFFF argument
    (n, cs, { w.complain printer argument misfit with arguments := w.arguments.tail })
  | cs => (Arithmetic.ofDigits 10 (cs.takeWhile Char.isDigit), cs.dropWhile Char.isDigit, w)

/-- Writes an argument in quotes where a shell would need them. -/
def shellQuoted (argument : String) : List Char :=
  let isPlain (c : Char) : Bool := c.isAlphanum || "_./:=,+@%-".toList.contains c
  if argument = "" then ['\'', '\'']
  else if argument.toList.all isPlain then argument.toList
  else if argument.toList.contains '\'' then '"' :: argument.toList ++ ['"']
  else '\'' :: argument.toList ++ ['\'']

/-- Writes one conversion, of which `place` is the text. -/
def convert (w : Written) (printer : Printer) (place : List Char) (l : Layout)
    (conversion : Char) : Written :=
  let argument := w.arguments.headD ""
  let cut (cs : List Char) : List Char :=
    match l.precision with
    | some n => cs.take n
    | none => cs
  let signed : Written :=
    let (n, misfit) := integerOf (-0x8000000000000000) 0x7FFFFFFFFFFFFFFF argument
    (w.complain printer argument misfit).replace (l.integer (l.sign (n < 0)) 10 n.natAbs)
  let unsigned (base : Nat) (front : Nat → List Char) (change : Char → Char) : Written :=
    let (n, misfit) := integerOf (-0xFFFFFFFFFFFFFFFF) greatestUnsigned argument
    let n := (n.emod (greatestUnsigned + 1)).toNat
    let front := if l.flags.contains '#' ∧ n ≠ 0 then front n else []
    (w.complain printer argument misfit).replace ((l.integer front base n).map change)
  if conversion = 's' then w.replace (l.pad (cut argument.toList))
  else if conversion = 'b' then
    let (cs, stops) := unescape printer argument.length argument.toList
    { w.replace (l.pad (cut cs)) with stops }
  else if conversion = 'c' then
    w.replace (l.pad (if argument = "" then ['\x00'] else argument.toList.take 1))
  else if conversion = 'q' ∧ printer = .program then w.replace (l.pad (shellQuoted argument))
  else if conversion = 'd' ∨ conversion = 'i' then signed
  else if conversion = 'u' then unsigned 10 (fun _ => []) id
  else if conversion = 'o' then unsigned 8 (fun _ => ['0']) id
  else if conversion = 'x' then unsigned 16 (fun _ => ['0', 'x']) id
  else if conversion = 'X' then unsigned 16 (fun _ => ['0', 'X']) Char.toUpper
  else if "eEfFgG".toList.contains conversion then
    let format := if printer = .shell then BinaryFormat.double else .long
    let (r, misfit) := realOf format argument
    (w.complain printer argument misfit).replace (l.real conversion r)
  else
    let problem :=
      match printer with
      | .shell => ": invalid directive"
      | .program => ": invalid conversion specification"
    { w with flaw := some (String.ofList ('%' :: place) ++ problem) }

/-- Writes a format once. Every step takes a character, so `fuel` is their number. -/
def once (printer : Printer) : (fuel : Nat) → List Char → Written → Written
  | 0, _, w => w
  | _, [], w => w
  | fuel + 1, c :: cs, w =>
    if w.stops || w.flaw.isSome then w
    else if c = '\\' then
      match cs, escape? printer cs with
      | 'c' :: _, _ => if printer = .program then { w with stops := true }
        else once printer fuel cs (w.put [c])
      | _, some (c, cs) => once printer fuel cs (w.put [c])
      | _, none => once printer fuel cs (w.put [c])
    else if c = '%' then
      match cs with
      | '%' :: cs => once printer fuel cs (w.put ['%'])
      | cs =>
        let isFlag (c : Char) : Bool := "-+ #0".toList.contains c
        let flags := cs.takeWhile isFlag
        let (width, rest, w) := w.count printer (cs.dropWhile isFlag)
        let (precision, rest, w) : Option Nat × List Char × Written :=
          match rest with
          | '.' :: rest =>
            let (n, rest, w) := w.count printer rest
            (if n < 0 then none else some n.toNat, rest, w)
          | rest => (none, rest, w)
        match rest with
        | conversion :: rest =>
          let flags := if width < 0 then '-' :: flags else flags
          let place := cs.take (cs.length - rest.length)
          once printer fuel rest
            (w.convert printer place ⟨flags, width.natAbs, precision⟩ conversion)
        | [] =>
          { w with
            flaw := some (match printer with
              | .shell => "missing format character"
              | .program => "%" ++ String.ofList cs ++ ": invalid conversion specification") }
    else once printer fuel cs (w.put [c])

/-- Writes a format as long as it takes arguments and some are left. -/
def repeatedly (printer : Printer) (format : List Char) : (fuel : Nat) → Written → Written
  | 0, w => w
  | fuel + 1, w =>
    let w' := once printer format.length format w
    if w'.stops || w'.flaw.isSome || w'.arguments = [] ||
      w'.arguments.length = w.arguments.length then w'
    else repeatedly printer format fuel w'

/-- The complaints and the text, without their order. -/
def separated (w : Written) : List String × String :=
  (w.pieces.reverse.filterMap fun
      | .complaint message => some message
      | .text _ => none,
    String.ofList (w.pieces.reverse.flatMap fun
      | .text cs => cs
      | .complaint _ => []))

end Written

/-- What `printf` writes. -/
def printf (printer : Printer) (format : String) (arguments : List String) : Written :=
  Written.repeatedly printer format.toList (arguments.length + 1) ⟨[], arguments, none, false⟩

end SchemaGraph.Shell.Printing
