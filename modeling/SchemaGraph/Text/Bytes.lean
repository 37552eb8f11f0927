/-!
# Texts and bytes

`bytesOf` is the UTF-8 form of a text. `ofBytes` reads any bytes: where they are no UTF-8, the
replacement character U+FFFD stands for the longest beginning of a character that is there, or for
a single byte. A byte text has one character for each byte, so that it can hold any bytes.
-/

namespace SchemaGraph.Text

/-- The UTF-8 form of a text. -/
def bytesOf (s : String) : List UInt8 :=
  s.toUTF8.toList

/-- What stands for bytes that are no text. -/
def replacement : Char := Char.ofNat 0xFFFD

/-- What a first byte opens: how many bytes follow, between which bounds the next one lies, and the
value of its own bits. -/
structure Opening where
  following : Nat
  least : Nat
  greatest : Nat
  value : Nat

/-- The opening of a first byte above the basic alphabet. -/
def opening? (byte : Nat) : Option Opening :=
  if byte < 0xC2 then none
  else if byte < 0xE0 then some ⟨1, 0x80, 0xBF, byte - 0xC0⟩
  else if byte < 0xF0 then
    some ⟨2, if byte = 0xE0 then 0xA0 else 0x80, if byte = 0xED then 0x9F else 0xBF, byte - 0xE0⟩
  else if byte < 0xF5 then
    some ⟨3, if byte = 0xF0 then 0x90 else 0x80, if byte = 0xF4 then 0x8F else 0xBF, byte - 0xF0⟩
  else none

/-- The character whose opening has been taken, and the bytes after it. A byte outside the bounds is
not taken. -/
def finish : (following least greatest value : Nat) → List UInt8 → Char × List UInt8
  | 0, _, _, value, bytes => (Char.ofNat value, bytes)
  | _ + 1, _, _, _, [] => (replacement, [])
  | following + 1, least, greatest, value, byte :: bytes =>
    if least ≤ byte.toNat ∧ byte.toNat ≤ greatest then
      finish following 0x80 0xBF (value * 64 + byte.toNat % 64) bytes
    else (replacement, byte :: bytes)

/-- The first character of some bytes, and the bytes after it. -/
def first (byte : UInt8) (bytes : List UInt8) : Char × List UInt8 :=
  if byte.toNat < 0x80 then (Char.ofNat byte.toNat, bytes)
  else
    match opening? byte.toNat with
    | none => (replacement, bytes)
    | some o => finish o.following o.least o.greatest o.value bytes

theorem length_finish_le (following least greatest value : Nat) (bytes : List UInt8) :
    (finish following least greatest value bytes).2.length ≤ bytes.length := by
  fun_induction finish following least greatest value bytes with
  | case1 => simp
  | case2 => simp
  | case3 _ _ _ _ _ _ _ ih => exact Nat.le_succ_of_le ih
  | case4 => simp

theorem length_first_le (byte : UInt8) (bytes : List UInt8) :
    (first byte bytes).2.length ≤ bytes.length := by
  unfold first
  split
  · simp
  · split
    · simp
    · exact length_finish_le ..

/-- The characters of some bytes. -/
def charsOf : List UInt8 → List Char
  | [] => []
  | byte :: bytes =>
    (first byte bytes).1 :: charsOf (first byte bytes).2
termination_by bytes => bytes.length
decreasing_by exact Nat.lt_succ_of_le (length_first_le byte bytes)

/-- The text of some bytes. -/
def ofBytes (bytes : List UInt8) : String :=
  String.ofList (charsOf bytes)

/-- The byte text of some bytes. -/
def byteText (bytes : List UInt8) : String :=
  String.ofList (bytes.map fun byte => Char.ofNat byte.toNat)

/-- The bytes of a byte text. -/
def bytesOfByteText (s : String) : List UInt8 :=
  s.toList.map fun c => UInt8.ofNat c.toNat

/-- The byte text of a text. -/
def toByteText (s : String) : String :=
  byteText (bytesOf s)

/-- The text of a byte text. -/
def ofByteText (s : String) : String :=
  ofBytes (bytesOfByteText s)

end SchemaGraph.Text
