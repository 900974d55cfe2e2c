import StructuralEdit.Process.Shell.Byte

/-! # Floating numbers in command lines

A floating number is read from decimal or hexadecimal digits, rounded to 53 bits, and
written with a given number of places. Both roundings are to the nearest, ties to even.
-/
namespace StructuralEdit.Shell
open Text (Bytes)

/-- The quotient rounded to the nearest integer. -/
def roundDiv (n d : Nat) : Nat :=
  let q := n / d
  let r := n % d
  if 2 * r < d || (2 * r == d && q % 2 == 0) then q else q + 1

/-- The magnitude of a number: `mantissa * 2 ^ exponent` if it is finite. -/
inductive Magnitude
  | finite (mantissa : Nat) (exponent : Int)
  | infinite
  | undefined

structure Floating where
  negative : Bool
  magnitude : Magnitude

namespace Floating

def zero : Floating := ⟨false, .finite 0 0⟩

def ofNat (n : Nat) : Floating := ⟨false, .finite n 0⟩

def leastExponent : Int := -1074

/-- A positive fraction as 53 bits and an exponent, and whether the bits lose anything by being
few, as they are near zero. -/
def roundFraction (n d : Nat) : Magnitude × Bool :=
  let guess : Int := (Nat.log2 n : Int) - Nat.log2 d - 53
  let scaled := fun (e : Int) =>
    if e < 0 then (n * Nat.pow 2 (-e).toNat, d) else (n, d * Nat.pow 2 e.toNat)
  let (a, b) := scaled (guess + 1)
  let e := max leastExponent (if a / b < Nat.pow 2 53 then
    (if a / b < Nat.pow 2 52 then guess else guess + 1) else guess + 2)
  let (a, b) := scaled e
  let rounded := roundDiv a b
  let (m, e) := if rounded = Nat.pow 2 53 then (Nat.pow 2 52, e + 1) else (rounded, e)
  if 1024 < (Nat.log2 m : Int) + 1 + e then (.infinite, true)
  else (.finite m e, decide (m < Nat.pow 2 52) && a % b != 0)

/-! ## Reading -/

/-- A magnitude as it is written: digits with a power of a base, or a name. -/
inductive WrittenMagnitude
  | digits (n : Nat) (base : Nat) (exponent : Int) (count : Nat)
  | infinite
  | undefined

/-- What is written of a number at the beginning of a text. -/
structure Written where
  negative : Bool
  magnitude : WrittenMagnitude
  rest : Bytes

/-- The exponent that a letter and digits give, and the bytes behind it. -/
def exponentAt (letter : Char) (t : Bytes) : Int × Bytes :=
  match t with
  | b :: rest =>
    if lowerByte b != byte letter then (0, t)
    else
      let (negative, digits) := match rest with
        | s :: more => if s == byte '-' then (true, more) else if s == byte '+' then (false, more)
          else (false, rest)
        | [] => (false, [])
      let whole := digits.takeWhile isDigitByte
      if whole.isEmpty then (0, t)
      else
        let n : Int := valueIn 10 whole
        (if negative then -n else n, digits.drop whole.length)
  | [] => (0, [])

/-- Digits with a point among them: the number without the point, how many digits stand behind
it, whether there are any, and the bytes left. -/
def pointedDigits (base : Nat) (t : Bytes) : Nat × Nat × Bool × Bytes :=
  let whole := t.takeWhile (digitOf · < base)
  let t := t.drop whole.length
  let (places, rest) := match t with
    | p :: more =>
      if p == byte '.' then
        let places := more.takeWhile (digitOf · < base)
        if whole.isEmpty && places.isEmpty then ([], t) else (places, more.drop places.length)
      else ([], t)
    | [] => ([], t)
  (valueIn base (whole ++ places), places.length, !(whole ++ places).isEmpty, rest)

/-- A number that is written as a name. -/
def named? (t : Bytes) : Option (WrittenMagnitude × Bytes) :=
  let begins := fun (s : String) => (t.take s.length).map lowerByte == bytes s
  if begins "infinity" then some (.infinite, t.drop 8)
  else if begins "inf" then some (.infinite, t.drop 3)
  else if begins "nan" then some (.undefined, t.drop 3)
  else none

/-- The number a text begins with, if it begins with one. -/
def written? (t : Bytes) : Option Written :=
  let signed := t.dropWhile isSpaceByte
  let (negative, t) := match signed with
    | s :: rest => if s == byte '-' then (true, rest) else if s == byte '+' then (false, rest)
      else (false, signed)
    | [] => (false, [])
  match named? t with
  | some (m, rest) => some ⟨negative, m, rest⟩
  | none =>
    let hex := match t with
      | z :: x :: rest =>
        if z == byte '0' && lowerByte x == byte 'x' then
          let (n, places, found, rest) := pointedDigits 16 rest
          if found then some (n, places, rest) else none
        else none
      | _ => none
    match hex with
    | some (n, places, rest) =>
      let (e, rest) := exponentAt 'p' rest
      some ⟨negative, .digits n 2 (e - 4 * places) places, rest⟩
    | none =>
      let (n, places, found, rest) := pointedDigits 10 t
      if !found then none
      else
        let (e, rest) := exponentAt 'e' rest
        some ⟨negative, .digits n 10 (e - places) (Nat.toDigits 10 n).length, rest⟩

/-- What is read of a text as a floating number. -/
structure Reading where
  value : Floating
  /-- The number is too great or too near zero. -/
  outOfRange : Bool
  rest : Bytes

/-- Exponents beyond this make any number with so many digits infinite or zero. -/
def farExponent (count : Nat) : Int := 5000 + 4 * count

/-- A written magnitude as a fraction, or as too great or too near zero for one to be worked
out. -/
inductive Exact
  | fraction (n d : Nat)
  | infinite (isFar : Bool)
  | nearZero
  | undefined

def WrittenMagnitude.exact : WrittenMagnitude → Exact
  | .infinite => .infinite false
  | .undefined => .undefined
  | .digits n base e count =>
    if n = 0 then .fraction 0 1
    else if farExponent count < e then .infinite true
    else if e < -farExponent count then .nearZero
    else if 0 ≤ e then .fraction (n * Nat.pow base e.toNat) 1
    else .fraction n (Nat.pow base (-e).toNat)

/-- Read a floating number; `none` if the text begins with none. -/
def read? (t : Bytes) : Option Reading :=
  (written? t).map fun w =>
    let (m, outOfRange) := match w.magnitude.exact with
      | .fraction 0 _ => (.finite 0 0, false)
      | .fraction n d => roundFraction n d
      | .infinite isFar => (.infinite, isFar)
      | .nearZero => (.finite 0 0, true)
      | .undefined => (.undefined, false)
    ⟨⟨w.negative, m⟩, outOfRange, w.rest⟩

/-! ## Writing -/

/-- A finite number as a fraction. -/
def fraction (mantissa : Nat) (e : Int) : Nat × Nat :=
  if 0 ≤ e then (mantissa * Nat.pow 2 e.toNat, 1) else (mantissa, Nat.pow 2 (-e).toNat)

/-- Digits with a point in front of the last `places`. The point is left out where nothing follows
it, unless `pointed`. -/
def placePoint (places : Nat) (pointed : Bool) (n : Nat) : Bytes :=
  let digits := digitsIn 10 n
  let digits := padding (places + 1) digits.length (byte '0') ++ digits
  let whole := digits.take (digits.length - places)
  if places = 0 then (if pointed then whole ++ [byte '.'] else whole)
  else whole ++ byte '.' :: digits.drop (digits.length - places)

def fixed (places : Nat) (pointed : Bool) (n d : Nat) : Bytes :=
  placePoint places pointed (roundDiv (n * Nat.pow 10 places) d)

/-- The fraction with `places` digits behind the first, as a number and its power of ten. -/
def scientificDigits (places n d : Nat) : Nat × Int :=
  if n = 0 then (0, 0)
  else
    let atLeast := fun (x : Int) =>
      if 0 ≤ x then decide (d * Nat.pow 10 x.toNat ≤ n) else decide (d ≤ n * Nat.pow 10 (-x).toNat)
    let guess : Int := (Int.ofNat (Nat.log2 n) - Int.ofNat (Nat.log2 d)) * 30103 / 100000
    let x := if atLeast (guess + 1) then guess + 1 else if atLeast guess then guess else guess - 1
    let shift : Int := places - x
    let m := if 0 ≤ shift then roundDiv (n * Nat.pow 10 shift.toNat) d
      else roundDiv n (d * Nat.pow 10 (-shift).toNat)
    if Nat.pow 10 (places + 1) ≤ m then (m / 10, x + 1) else (m, x)

def exponentText (letter : Char) (least : Nat) (x : Int) : Bytes :=
  let digits := decimal x.natAbs
  byte letter :: (if x < 0 then byte '-' else byte '+')
    :: (padding least digits.length (byte '0') ++ digits)

def scientific (places : Nat) (pointed : Bool) (n d : Nat) : Bytes :=
  let (m, x) := scientificDigits places n d
  placePoint places pointed m ++ exponentText 'e' 2 x

/-- The digits without zeros at the end of the places, nor a point in front of none. -/
def trimPlaces (t : Bytes) : Bytes :=
  if t.contains (byte '.') then
    let t := (t.reverse.dropWhile (· == byte '0')).reverse
    if t.getLast? == some (byte '.') then t.dropLast else t
  else t

/-- As many digits as asked for, in the shorter of the two forms. -/
def general (digits : Nat) (pointed : Bool) (n d : Nat) : Bytes :=
  let digits := max 1 digits
  let (m, x) := scientificDigits (digits - 1) n d
  let trim := if pointed then id else trimPlaces
  if -4 ≤ x && x < digits then trim (fixed ((digits : Int) - 1 - x).toNat pointed n d)
  else trim (placePoint (digits - 1) pointed m) ++ exponentText 'e' 2 x

/-- Hexadecimal digits and a power of two, with as many digits as are needed unless told. -/
def hexadecimal (places : Option Nat) (pointed : Bool) (mantissa : Nat) (e : Int) : Bytes :=
  let up := if mantissa = 0 then 0 else min (52 - Nat.log2 mantissa) (e - leastExponent).toNat
  let m := mantissa * Nat.pow 2 up
  let x : Int := if mantissa = 0 then 0 else e - up + 52
  let full := padding 14 (digitsIn 16 m).length (byte '0') ++ digitsIn 16 m
  let kept := match places with
    | none => full.take 1 ++ ((full.drop 1).reverse.dropWhile (· == byte '0')).reverse
    | some p =>
      if 13 ≤ p then full ++ padding (p + 1) 14 (byte '0')
      else
        let t := digitsIn 16 (roundDiv m (Nat.pow 16 (13 - p)))
        padding (p + 1) t.length (byte '0') ++ t
  let point := if kept.length ≤ 1 && !pointed then [] else [byte '.']
  kept.take 1 ++ point ++ kept.drop 1 ++ exponentText 'p' 1 x

/-- A number in one of the forms that letters stand for, without its sign, and whether zeros may
be put in front of it. -/
def digits (form : Char) (places : Option Nat) (pointed : Bool) : Magnitude → Bytes × Bool
  | .infinite => (bytes "inf", false)
  | .undefined => (bytes "nan", false)
  | .finite m e =>
    let (n, d) := fraction m e
    (match form with
      | 'f' => fixed (places.getD 6) pointed n d
      | 'e' => scientific (places.getD 6) pointed n d
      | 'g' => general (places.getD 6) pointed n d
      | _ => hexadecimal places pointed m e, true)

end Floating

end StructuralEdit.Shell
