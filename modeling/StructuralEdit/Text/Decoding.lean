import StructuralEdit.Text.Numeral
import StructuralEdit.Text.Quoted
import StructuralEdit.Text.Utf8

/-! # Reading bytes as a text

Where nothing may be replaced, the first bytes that encode nothing are the reason why
there is no text. Some files and programs end lines with a carriage return, alone or in
front of the newline; each such end may be read as a newline.
-/
namespace StructuralEdit.Text

/-- Why bytes cannot be read as a character. -/
inductive EncodingFlaw
  | badStart
  | badContinuation
  | cutShort
deriving DecidableEq

def EncodingFlaw.message : EncodingFlaw → List Char
  | badStart => "invalid start byte".toList
  | badContinuation => "invalid continuation byte".toList
  | cutShort => "unexpected end of data".toList

/-- The first bytes of a text that encode nothing, from a position up to another. -/
structure EncodingFault where
  first : UInt8
  start : Nat
  stop : Nat
  flaw : EncodingFlaw
deriving DecidableEq

/-- A byte alone is shown itself, and several by the positions of the first and the last. -/
def EncodingFault.message (f : EncodingFault) : List Char :=
  "'utf-8' codec can't decode ".toList ++
    (if f.stop = f.start + 1 then
      "byte 0x".toList ++ hexDigits 2 f.first.toNat ++ " in position ".toList ++ ofNat f.start
    else
      "bytes in position ".toList ++ ofNat f.start ++ '-' :: ofNat (f.stop - 1)) ++
    ": ".toList ++ f.flaw.message

/-- Look for bytes that encode nothing, given a character that has begun with its first byte and
where that stands. -/
def faultFrom : (position : Nat) → Option (Unfinished × UInt8 × Nat) → Bytes → Option EncodingFault
  | _, none, [] => none
  | position, some (_, first, start), [] => some ⟨first, start, position, .cutShort⟩
  | position, none, b :: rest =>
    if b.toNat < 0x80 then faultFrom (position + 1) none rest
    else match leadByte b.toNat with
      | some (due, code, lo, hi) =>
        faultFrom (position + 1) (some (⟨due, code, lo, hi⟩, b, position)) rest
      | none => some ⟨b, position, position + 1, .badStart⟩
  | position, some (u, first, start), b :: rest =>
    if u.lo ≤ b.toNat && b.toNat ≤ u.hi then
      let next := if u.due ≤ 1 then none else some (⟨u.due - 1, u.code, 0x80, 0xBF⟩, first, start)
      faultFrom (position + 1) next rest
    else some ⟨first, start, position, .badContinuation⟩

/-- The text of some bytes, or the first of them that encode nothing. -/
def decodeAll (bytes : Bytes) : Except EncodingFault (List Char) :=
  match faultFrom 0 none bytes with
  | some f => .error f
  | none => .ok (decode bytes)

/-! ## Line ends -/

/-- Line ends of other conventions, each as a newline. -/
def plainNewlines : Text → Text
  | [] => []
  | '\r' :: '\n' :: rest => '\n' :: plainNewlines rest
  | c :: rest => (if c == '\r' then '\n' else c) :: plainNewlines rest

end StructuralEdit.Text
