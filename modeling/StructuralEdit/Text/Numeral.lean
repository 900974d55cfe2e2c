import StructuralEdit.Text.Basic
import StructuralEdit.Text.Numeric

/-! # Written numbers

Decimal writing, and the lenient reading that settings use: blanks around, one
sign, digits of any script, single underscores between digits, and no more than
4300 digits.
-/
namespace StructuralEdit.Text

def ofNat (n : Nat) : List Char := Nat.toDigits 10 n

def ofInt : Int → List Char
  | .ofNat n => ofNat n
  | .negSucc n => '-' :: ofNat (n + 1)

/-- The value of a run of plain digits. -/
def natOfDigits (t : List Char) : Nat := t.foldl (fun n c => 10 * n + digitValue c) 0

/-- The values of digits with single underscores between them. -/
def spacedDigits : (afterDigit : Bool) → List Char → Option (List Nat)
  | afterDigit, [] => if afterDigit then some [] else none
  | afterDigit, c :: rest =>
    match decimalValue? c with
    | some d => (spacedDigits true rest).map (d :: ·)
    | none => if c == '_' && afterDigit then spacedDigits false rest else none

/-- The most digits a number may have to be read. -/
def digitLimit : Nat := 4300

def readDigits (t : List Char) : Option Nat :=
  match spacedDigits false t with
  | some ds => if ds.length ≤ digitLimit then some (ds.foldl (fun n d => 10 * n + d) 0) else none
  | none => none

/-- What may stand around a number: white space, but not the separators of the control
characters. -/
def isNumeralBlank (c : Char) : Bool := isBlank c && !(28 ≤ c.toNat && c.toNat ≤ 31)

def readInt (t : List Char) : Option Int :=
  match trim isNumeralBlank t with
  | '-' :: rest => (readDigits rest).map fun n => -(n : Int)
  | '+' :: rest => (readDigits rest).map Int.ofNat
  | rest => (readDigits rest).map Int.ofNat

end StructuralEdit.Text
