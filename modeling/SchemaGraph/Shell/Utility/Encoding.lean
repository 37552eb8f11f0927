import SchemaGraph.Digest.Sha256
import SchemaGraph.Shell.Utility.Basic
/-!
# Encodings and checksums

The program that writes bytes with sixty-four characters and reads them back, and the programs that
show numbers by which contents can be told apart.
-/

namespace SchemaGraph.Shell.Utility.Encoding

/-- The characters that stand for the numbers below sixty-four. -/
def alphabet : List Char :=
  "ABCDEFGHIJKLMNOPQRSTUVWXYZabcdefghijklmnopqrstuvwxyz0123456789+/".toList

/-- The character of a number below sixty-four. -/
def letterOf (n : Nat) : Char :=
  (alphabet[n % 64]?).getD '='

/-- The letters of some bytes: four for every three of them. -/
def encode : List Char → List Char
  | a :: b :: c :: rest =>
    let n := (a.toNat * 256 + b.toNat) * 256 + c.toNat
    letterOf (n / 262144) :: letterOf (n / 4096) :: letterOf (n / 64) :: letterOf n :: encode rest
  | [a, b] =>
    let n := (a.toNat * 256 + b.toNat) * 256
    [letterOf (n / 262144), letterOf (n / 4096), letterOf (n / 64), '=']
  | [a] => [letterOf (a.toNat / 4), letterOf (a.toNat * 16), '=', '=']
  | [] => []

/-- The bytes of some letters, and whether all of them have been understood. -/
def decode : List Char → List Char × Bool
  | a :: b :: c :: d :: rest =>
    match alphabet.idxOf? a, alphabet.idxOf? b, alphabet.idxOf? c, alphabet.idxOf? d with
    | some a, some b, some c, some d =>
      let n := ((a * 64 + b) * 64 + c) * 64 + d
      let (text, isWhole) := decode rest
      (Char.ofNat (n / 65536) :: Char.ofNat (n / 256 % 256) :: Char.ofNat (n % 256) :: text,
        isWhole)
    | some a, some b, some c, none =>
      let n := (a * 64 + b) * 64 + c
      ([Char.ofNat (n / 1024), Char.ofNat (n / 4 % 256)], d = '=' && rest = [])
    | some a, some b, none, _ =>
      ([Char.ofNat ((a * 64 + b) / 16 % 256)], c = '=' && d = '=' && rest = [])
    | _, _, _, _ => ([], false)
  | [a, b, c] =>
    match alphabet.idxOf? a, alphabet.idxOf? b, alphabet.idxOf? c with
    | some a, some b, some c =>
      let n := (a * 64 + b) * 64 + c
      ([Char.ofNat (n / 1024), Char.ofNat (n / 4 % 256)], false)
    | _, _, _ => ([], false)
  | [a, b] =>
    match alphabet.idxOf? a, alphabet.idxOf? b with
    | some a, some b => ([Char.ofNat ((a * 64 + b) / 16 % 256)], false)
    | _, _ => ([], false)
  | [_] => ([], false)
  | [] => ([], true)

/-- A text in rows of a length, each with its end. The text gets shorter with every step, so `fuel`
is its length. -/
def rows (size : Nat) : (fuel : Nat) → List Char → List Char
  | 0, _ => []
  | _, [] => []
  | fuel + 1, cs =>
    if size = 0 then cs else cs.take size ++ '\n' :: rows size fuel (cs.drop size)

/-- One step of the checksum with a byte: each of its bits is divided by a polynomial. -/
def checksumStep (sum : UInt32) (byte : UInt8) : UInt32 :=
  (List.range 8).foldl (fun sum _ =>
    if sum &&& 0x80000000 ≠ 0 then (sum <<< 1) ^^^ 0x04c11db7 else sum <<< 1)
    (sum ^^^ (byte.toUInt32 <<< 24))

/-- The bytes of a number, the lowest one first. -/
def lengthBytes : (fuel : Nat) → Nat → List UInt8
  | 0, _ => []
  | fuel + 1, n => if n = 0 then [] else UInt8.ofNat (n % 256) :: lengthBytes fuel (n / 256)

/-- The checksum of some bytes and of their number. -/
def checksum (bytes : List UInt8) : Nat :=
  ((bytes ++ lengthBytes 16 bytes.length).foldl checksumStep 0 ^^^ 0xffffffff).toNat

end Encoding

open Encoding

/-- Writes bytes with sixty-four characters, or reads them back. -/
def base64 : Utility :=
  withOptions "di" "w" [("decode", 'd'), ("ignore-garbage", 'i'), ("wrap", 'w')] <|
    limiting 1 fun r selected =>
      let word := (sources selected.operands).headD "-"
      match r.read r.tree word with
      | .error e => r.fail (complaintAbout word e)
      | .ok text =>
        r.taking [word] <|
          if selected.has 'd' then
            let letters := text.filter fun c =>
              if selected.has 'i' then alphabet.contains c || c == '=' else c ≠ '\n'
            let (bytes, isWhole) := decode letters
            let shown : List Shown := if bytes = [] then [] else [.output bytes]
            if isWhole then ⟨r.tree, shown, 0, 0⟩
            else ⟨r.tree, shown ++ [.errors (r.telling "invalid input\n")], 0, 1⟩
          else
            match ((selected.value? 'w').getD "76").toNat? with
            | none =>
              r.fail ("invalid wrap size: " ++ shellQuoted ((selected.value? 'w').getD ""))
            | some size =>
              let letters := encode text
              .output r.tree (rows size letters.length letters)

/-- A line for the content of each file. -/
def forContents (lineOf : (name : String) → (bytes : List UInt8) → String) :
    Request → Selected → Effect := fun r selected =>
  let words := sources selected.operands
  r.taking words <| forEach (fun t word =>
    match r.read t word with
    | .ok text =>
      let name := if selected.operands = [] then "" else word
      .lines t [lineOf name (text.map fun c => UInt8.ofNat c.toNat)]
    | .error e => .failure t 1 r.program (complaintAbout word e)) r.tree words

/-- Shows checksums and sizes of files. -/
def cksum : Utility :=
  withOptions "" "" [] <| forContents fun name bytes =>
    toString (checksum bytes) ++ " " ++ toString bytes.length ++
      if name = "" then "" else " " ++ name

/-- Shows digests of files. -/
def sha256sum : Utility :=
  withOptions "bt" "" [("binary", 'b'), ("text", 't')] <| forContents fun name bytes =>
    String.ofList (Digest.sha256OfBytes bytes) ++ "  " ++ if name = "" then "-" else name

end SchemaGraph.Shell.Utility
