import SchemaGraph.Shell.Records.Number
import SchemaGraph.Table
/-!
# Values and arrays of programs for records

A value is a number or a text, and each becomes the other where that is needed. The keys of an array
come in an order of their own: by the places that a number made of each key has in a table, and at
one place those that were looked up last come first.
-/

namespace SchemaGraph.Shell.Records

/-- A value. -/
inductive Value where
  /-- What a name stands for before anything is assigned to it. -/
  | unset
  | number (value : RealNumber)
  | text (text : String)
  /-- A text that was read, which counts as a number if it is written like one. -/
  | input (text : String)
  deriving DecidableEq, Repr

namespace Value

/-- Whether a value counts as a number. -/
def isNumber : Value → Bool
  | unset | number _ => true
  | text _ => false
  | input s => RealNumber.isWritten s.toList

/-- The number that a value is. -/
def toNumber : Value → RealNumber
  | unset => .zero
  | number r => r
  | text s | input s => RealNumber.ofText s.toList

/-- Whether a value counts as true. -/
def holds (v : Value) : Bool :=
  match v with
  | unset => false
  | number r => !r.isZero
  | text s => s ≠ ""
  | input s => if v.isNumber then !v.toNumber.isZero else s ≠ ""

/-- A truth value. -/
def ofBool (b : Bool) : Value :=
  number (.ofBool b)

/-- A natural number. -/
def ofNat (n : Nat) : Value :=
  number (.ofInt n)

end Value

/-! ## Arrays -/

/-- What the order of the keys of an array depends on. -/
inductive Arrangement where
  /-- No key has been looked up. -/
  | fresh
  /-- The keys are the numbers of the parts of a text. -/
  | split
  | keyed
  deriving DecidableEq, Repr

/-- An array. -/
structure Elements where
  values : Table String Value
  arrangement : Arrangement
  /-- Whether keys have been looked up as texts. -/
  knowsTexts : Bool
  /-- The keys that are found as texts, the latest first. -/
  byText : List String
  /-- The keys that are found as numbers, the latest first. -/
  byNumber : List String

namespace Elements

/-- An array without elements. -/
def empty : Elements :=
  ⟨.empty, .fresh, false, [], []⟩

/-- How many places a table has. -/
def placeCount : Nat := 64

/-- The place of a key that is found as a text: a number made of its bytes. -/
def placeOfText (key : String) : Nat :=
  (key.toList.foldl (fun hash c => (hash.xor (c.toNat % 256)) * 16777619 % 0x100000000)
    2166136261) % placeCount

/-- The place of a key that is found as a number. -/
def placeOfNumber (key : String) : Nat :=
  ((key.toInt?.getD 0).emod placeCount).toNat

/-- Keys in the order of their places. -/
def byPlace (place : String → Nat) (keys : List String) : List String :=
  (List.range placeCount).flatMap fun n => keys.filter (place · = n)

/-- The array with its keys in a table. -/
def keyed (a : Elements) : Elements :=
  match a.arrangement with
  | .keyed => a
  | .fresh => { a with arrangement := .keyed }
  | .split =>
    { a with
      arrangement := .keyed
      byNumber := ((List.range a.values.size).map fun n => toString (n + 1)).reverse }

/-- The array in which all keys are found as texts. -/
def withTexts (a : Elements) : Elements :=
  let a := a.keyed
  if a.knowsTexts then a
  else
    let added := (byPlace placeOfNumber a.byNumber).filter fun key => !a.byText.contains key
    { a with knowsTexts := true, byText := added.reverse ++ a.byText }

/-- A list with a key in front. -/
def inFront (key : String) (keys : List String) : List String :=
  if keys.head? = some key then keys else key :: keys.filter (· != key)

/-- The array after a key has been looked up as a text. -/
def touchText (a : Elements) (key : String) : Elements :=
  let a := a.withTexts
  { a with byText := inFront key a.byText }

/-- The array after a key has been looked up as a number. -/
def touchNumber (a : Elements) (key : String) : Elements :=
  if a.arrangement = .split && a.values.contains key then a
  else
    let a := a.keyed
    let a := if a.byNumber.contains key || !a.knowsTexts then a else a.touchText key
    { a with byNumber := inFront key a.byNumber }

/-- The array after a key has been looked up. -/
def touch (a : Elements) (isNumber : Bool) (key : String) : Elements :=
  if isNumber then a.touchNumber key else a.touchText key

/-- The value of a key, which gets one if it has none, and the array. -/
def lookUp (a : Elements) (isNumber : Bool) (key : String) : Value × Elements :=
  let touched := a.touch isNumber key
  match a.values.get? key with
  | some v => (v, touched)
  | none => (.unset, { touched with values := touched.values.insert key .unset })

/-- Gives a key a value. -/
def put (a : Elements) (isNumber : Bool) (key : String) (v : Value) : Elements :=
  let touched := a.touch isNumber key
  { touched with values := touched.values.insert key v }

/-- Takes a key away. -/
def delete (a : Elements) (key : String) : Elements :=
  if !a.values.contains key then a
  else
    let a := a.keyed
    let values := a.values.filterKeys (· != key)
    if values.size = 0 then empty
    else
      { a with
        values
        byText := a.byText.filter (· != key)
        byNumber := a.byNumber.filter (· != key) }

/-- The keys in their order, and the array, which knows all of them as texts then. -/
def keys (a : Elements) : List String × Elements :=
  let a := a.withTexts
  (byPlace placeOfText a.byText, a)

/-- The array of the parts of a text. -/
def ofParts (parts : List Value) : Elements :=
  if parts = [] then empty
  else
    { empty with
      values := .ofList (parts.zipIdx.map fun (part, i) => (toString (i + 1), part))
      arrangement := .split }

end Elements
end SchemaGraph.Shell.Records
