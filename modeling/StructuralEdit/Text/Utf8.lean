/-! # Texts as bytes

Encoding and decoding of UTF-8. Bytes that encode nothing are replaced, one
replacement character for each longest run that could have begun a character.
-/
namespace StructuralEdit.Text

abbrev Bytes := List UInt8

def encodeChar (c : Char) : Bytes :=
  let n := c.toNat
  if n < 0x80 then [n.toUInt8]
  else if n < 0x800 then [(0xC0 + n / 64).toUInt8, (0x80 + n % 64).toUInt8]
  else if n < 0x10000 then
    [(0xE0 + n / 4096).toUInt8, (0x80 + n / 64 % 64).toUInt8, (0x80 + n % 64).toUInt8]
  else
    [(0xF0 + n / 262144).toUInt8, (0x80 + n / 4096 % 64).toUInt8,
      (0x80 + n / 64 % 64).toUInt8, (0x80 + n % 64).toUInt8]

def encode (t : List Char) : Bytes := t.flatMap encodeChar

def replacementChar : Char := Char.ofNat 0xFFFD

/-- How many bytes follow a first byte, its share of the code point, and the bounds of the
second byte. -/
def leadByte (b : Nat) : Option (Nat × Nat × Nat × Nat) :=
  if 0xC2 ≤ b && b ≤ 0xDF then some (1, b - 0xC0, 0x80, 0xBF)
  else if b == 0xE0 then some (2, 0, 0xA0, 0xBF)
  else if b == 0xED then some (2, 13, 0x80, 0x9F)
  else if 0xE1 ≤ b && b ≤ 0xEF then some (2, b - 0xE0, 0x80, 0xBF)
  else if b == 0xF0 then some (3, 0, 0x90, 0xBF)
  else if 0xF1 ≤ b && b ≤ 0xF3 then some (3, b - 0xF0, 0x80, 0xBF)
  else if b == 0xF4 then some (3, 4, 0x80, 0x8F)
  else none

/-- What is still due of a character that has begun. -/
structure Unfinished where
  due : Nat
  code : Nat
  lo : Nat
  hi : Nat

/-- A byte that opens a character, or stands for one. -/
def openByte (b : Nat) : List Char × Option Unfinished :=
  if b < 0x80 then ([Char.ofNat b], none)
  else match leadByte b with
    | some (due, code, lo, hi) => ([], some ⟨due, code, lo, hi⟩)
    | none => ([replacementChar], none)

def decodeFrom : Option Unfinished → Bytes → List Char × Bool
  | none, [] => ([], true)
  | some _, [] => ([replacementChar], false)
  | none, b :: rest =>
    let (out, state) := openByte b.toNat
    let (tail, fine) := decodeFrom state rest
    (out ++ tail, fine && out != [replacementChar])
  | some u, b :: rest =>
    if u.lo ≤ b.toNat && b.toNat ≤ u.hi then
      let code := u.code * 64 + (b.toNat - 0x80)
      if u.due ≤ 1 then
        let (tail, fine) := decodeFrom none rest
        (Char.ofNat code :: tail, fine)
      else decodeFrom (some ⟨u.due - 1, code, 0x80, 0xBF⟩) rest
    else
      let (out, state) := openByte b.toNat
      let (tail, _) := decodeFrom state rest
      (replacementChar :: (out ++ tail), false)

/-- The text of some bytes, with replacements where they encode none. -/
def decode (bytes : Bytes) : List Char := (decodeFrom none bytes).1

/-- The text of bytes that encode one. -/
def decode? (bytes : Bytes) : Option (List Char) :=
  match decodeFrom none bytes with
  | (t, true) => some t
  | _ => none

end StructuralEdit.Text
