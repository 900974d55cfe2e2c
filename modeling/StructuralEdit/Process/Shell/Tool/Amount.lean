import StructuralEdit.Process.Shell.Integer

/-! # Amounts that options take

An amount is a number with a unit behind it where units are allowed. It has to fit into a
word of 64 bits.
-/
namespace StructuralEdit.Shell.Tool
open Text (Bytes)

/-- Why an amount cannot be read. -/
inductive AmountFault
  | malformed
  | suffix
  | tooLarge

def AmountFault.message (option : String) (t : Bytes) (f : AmountFault) : Bytes :=
  let argument := bytes option ++ bytes " argument '" ++ t ++ bytes "'"
  match f with
  | malformed => bytes "invalid " ++ argument
  | suffix => bytes "invalid suffix in " ++ argument
  | tooLarge => argument ++ bytes " too large"

/-- What is read of an amount: its value, and the bytes left. -/
structure Amount where
  value : Nat
  rest : Bytes

/-- The powers of 1024 that letters stand for. -/
def units : List (Char × Nat) :=
  [('K', 1), ('k', 1), ('M', 2), ('m', 2), ('G', 3), ('g', 3), ('T', 4), ('t', 4), ('P', 5), ('E', 6),
    ('Z', 7), ('Y', 8), ('R', 9), ('Q', 10)]

/-- Digits without a minus in front; `none` if there are none. -/
def digitsAt (t : Bytes) : Option Amount :=
  let t := t.dropWhile isSpaceByte
  let t := if t.head? == some (byte '+') then t.tail else t
  let digits := t.takeWhile isDigitByte
  if digits.isEmpty then none else some ⟨valueIn 10 digits, t.drop digits.length⟩

/-- A plain number. -/
def plainAmount (t : Bytes) : Except AmountFault Nat :=
  match digitsAt t with
  | none => .error .malformed
  | some ⟨n, rest⟩ =>
    if !rest.isEmpty then .error .suffix else if wordSize ≤ n then .error .tooLarge else .ok n

/-- An amount of memory, in units of 1024 bytes where nothing else is said. -/
def memoryFault? (t : Bytes) : Option AmountFault :=
  let unit := fun (b : UInt8) => units.lookup (Char.ofNat b.toNat)
  match digitsAt t, t with
  | none, [] => some .malformed
  | none, b :: rest =>
    if (unit b).isNone then some .malformed else if rest.isEmpty then none else some .suffix
  | some ⟨n, []⟩, _ => if wordSize ≤ n * 1024 then some .tooLarge else none
  | some ⟨n, b :: rest⟩, _ =>
    if !rest.isEmpty then some .suffix
    else match unit b with
      | some power => if wordSize ≤ n * Nat.pow 1024 power then some .tooLarge else none
      | none =>
        if (b == byte 'b' || b == byte '%') && n < wordSize then none else some .suffix

end StructuralEdit.Shell.Tool
