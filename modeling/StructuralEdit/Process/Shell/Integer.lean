import StructuralEdit.Process.Shell.Byte

/-! # Integers in command lines

An integer may have space and a sign in front. Where the base is not given, `0x` begins
hexadecimal digits and any other zero octal ones. Numbers are words of 64 bits, and one
that does not fit is the nearest that does.
-/
namespace StructuralEdit.Shell
open Text (Bytes)

def wordSize : Nat := 18446744073709551616

/-- The word with a sign that has the same bits as a number. -/
def wrapSigned (n : Int) : Int := Int.bmod n wordSize

/-- The word without a sign that has the same bits as a number. -/
def wrapUnsigned (n : Int) : Nat := (n % (wordSize : Int)).toNat

/-- What is read of a text as an integer: a sign, the digits, and the bytes that are left. -/
structure IntegerReading where
  negative : Bool
  magnitude : Nat
  rest : Bytes
  /-- There are digits; if not, nothing is read of the text. -/
  found : Bool

/-- The base that the first characters of a number choose, and the bytes behind them. -/
def baseOf (t : Bytes) : Nat × Bytes :=
  match t with
  | z :: x :: d :: rest =>
    if z == byte '0' && lowerByte x == byte 'x' && digitOf d < 16 then (16, d :: rest)
    else if z == byte '0' then (8, t) else (10, t)
  | z :: _ => if z == byte '0' then (8, t) else (10, t)
  | [] => (10, [])

def readInteger (base : Option Nat) (t : Bytes) : IntegerReading :=
  let signed := t.dropWhile isSpaceByte
  let (negative, digits) := match signed with
    | s :: rest =>
      if s == byte '-' then (true, rest) else if s == byte '+' then (false, rest)
      else (false, signed)
    | [] => (false, [])
  let (base, digits) := match base with
    | some b => (b, digits)
    | none => baseOf digits
  let whole := digits.takeWhile (digitOf · < base)
  if whole.isEmpty then ⟨false, 0, t, false⟩
  else ⟨negative, valueIn base whole, digits.drop whole.length, true⟩

namespace IntegerReading

def value (r : IntegerReading) : Int := if r.negative then -(r.magnitude : Int) else r.magnitude

/-- The word with a sign nearest to what was read. -/
def signed (r : IntegerReading) : Int :=
  max (-9223372036854775808) (min 9223372036854775807 r.value)

def fitsSigned (r : IntegerReading) : Bool := r.signed == r.value

/-- The word without a sign for what was read, a negative number wrapped around. -/
def unsigned (r : IntegerReading) : Nat :=
  if wordSize ≤ r.magnitude then wordSize - 1 else wrapUnsigned r.value

def fitsUnsigned (r : IntegerReading) : Bool := r.magnitude < wordSize

end IntegerReading

/-- The number that a text is as a whole, but for space around it. Without a given base a blank
text is zero. -/
def integer? (base : Option Nat) (t : Bytes) : Option Int :=
  let r := readInteger base t
  if !r.found && (base.isSome || !t.all isSpaceByte) then none
  else if r.fitsSigned && r.rest.all isSpaceByte then some r.signed
  else none

/-- A count: not negative, and within 31 bits. -/
def count? (t : Bytes) : Option Nat :=
  match integer? (some 10) t with
  | some n => if 0 ≤ n && n ≤ 2147483647 then some n.toNat else none
  | none => none

end StructuralEdit.Shell
