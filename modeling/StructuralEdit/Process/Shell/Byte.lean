import StructuralEdit.Text.Numeral
import StructuralEdit.Text.Utf8

/-! # Bytes of command lines

Command lines and their tools work on bytes. Only bytes below 128 belong to a class of
characters.
-/
namespace StructuralEdit.Shell
open Text (Bytes)

def byte (c : Char) : UInt8 := c.toNat.toUInt8

def bytes (s : String) : Bytes := Text.encode s.toList

def newlineByte : UInt8 := byte '\n'

def backslash : UInt8 := byte '\\'

/-! ## Classes -/

def inSpan (lo hi : Char) (b : UInt8) : Bool := byte lo ≤ b && b ≤ byte hi

def isDigitByte : UInt8 → Bool := inSpan '0' '9'

def isLowerByte : UInt8 → Bool := inSpan 'a' 'z'

def isUpperByte : UInt8 → Bool := inSpan 'A' 'Z'

def isAlphaByte (b : UInt8) : Bool := isLowerByte b || isUpperByte b

def isAlnumByte (b : UInt8) : Bool := isAlphaByte b || isDigitByte b

def isGraphByte : UInt8 → Bool := inSpan '!' '~'

def isPrintByte (b : UInt8) : Bool := b == 32 || isGraphByte b

def isSpaceByte (b : UInt8) : Bool := b == 32 || (9 ≤ b && b ≤ 13)

def isBlankByte (b : UInt8) : Bool := b == 32 || b == 9

/-- The members of a class of bytes. -/
def classMember? (name : Bytes) : Option (UInt8 → Bool) :=
  [(bytes "lower", isLowerByte), (bytes "upper", isUpperByte), (bytes "alpha", isAlphaByte),
    (bytes "digit", isDigitByte), (bytes "alnum", isAlnumByte), (bytes "space", isSpaceByte),
    (bytes "blank", isBlankByte), (bytes "graph", isGraphByte), (bytes "print", isPrintByte),
    (bytes "punct", fun b => isGraphByte b && !isAlnumByte b),
    (bytes "cntrl", fun b => b < 32 || b == 127),
    (bytes "xdigit", fun b => isDigitByte b || inSpan 'a' 'f' b || inSpan 'A' 'F' b)].lookup name

def upperByte (b : UInt8) : UInt8 := if isLowerByte b then b - 32 else b

def lowerByte (b : UInt8) : UInt8 := if isUpperByte b then b + 32 else b

/-! ## Names -/

def beginsName (b : UInt8) : Bool := b == byte '_' || isAlphaByte b

def isNameByte (b : UInt8) : Bool := beginsName b || isDigitByte b

/-- A name that a variable or a function can have. -/
def isName (t : Bytes) : Bool :=
  match t with
  | b :: rest => beginsName b && rest.all isNameByte
  | [] => false

/-! ## Lines and lists -/

def line (t : Bytes) : Bytes := t ++ [newlineByte]

/-- The pieces that end with a terminator, or with the end, without it. -/
def piecesOf (terminator : UInt8) : Bytes → List Bytes
  | [] => []
  | b :: rest =>
    if b == terminator then [] :: piecesOf terminator rest
    else match piecesOf terminator rest with
      | [] => [[b]]
      | piece :: more => (b :: piece) :: more

def joinBytes (separator : Bytes) : List Bytes → Bytes
  | [] => []
  | [t] => t
  | t :: rest => t ++ separator ++ joinBytes separator rest

def padding (width used : Nat) (b : UInt8) : Bytes := List.replicate (width - used) b

/-- Bring a text to a width with blanks in front. -/
def alignRight (width : Nat) (t : Bytes) : Bytes := padding width t.length (byte ' ') ++ t

/-! ## Numbers -/

def decimal (n : Nat) : Bytes := Text.encode (Text.ofNat n)

def signedDecimal (n : Int) : Bytes := if n < 0 then byte '-' :: decimal n.natAbs else decimal n.natAbs

/-- The value of a digit in bases up to sixteen; what is no digit has a greater one. -/
def digitOf (b : UInt8) : Nat :=
  if isDigitByte b then b.toNat - 48
  else if inSpan 'a' 'f' b then b.toNat - 87
  else if inSpan 'A' 'F' b then b.toNat - 55
  else 16

/-- The natural number that digits spell. -/
def valueIn (base : Nat) (digits : Bytes) : Nat := digits.foldl (fun n b => base * n + digitOf b) 0

/-- The digits of a number in a base, in small letters. -/
def digitsIn (base n : Nat) : Bytes := (Nat.toDigits base n).map byte

/-! ## Order -/

/-- Compare bytes at the first place where they differ. -/
def compareBytes : Bytes → Bytes → Ordering
  | [], [] => .eq
  | [], _ => .lt
  | _, [] => .gt
  | a :: s, b :: t => if a < b then .lt else if b < a then .gt else compareBytes s t

end StructuralEdit.Shell
