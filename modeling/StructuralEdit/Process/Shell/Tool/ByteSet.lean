import StructuralEdit.Process.Shell.Escape
import StructuralEdit.Process.Shell.Tool.Quoting

/-! # Sets of bytes

A set of bytes is written as single bytes, spans, classes, and bytes that are repeated.
Bytes that a backslash has made plain are no part of such a form.
-/
namespace StructuralEdit.Shell.Tool
open Text (Bytes)

/-- A class whose members correspond to those of another in the other case. -/
inductive CaseClass
  | lower
  | upper
deriving DecidableEq

inductive SetElement
  | one (b : UInt8)
  | span (lo hi : UInt8)
  | ofClass (name : Bytes) (members : UInt8 → Bool)
  | equivalent (b : UInt8)
  /-- A byte so many times; not at all is as often as needed, once that is known. -/
  | repeated (b : UInt8) (count : Nat)

def allBytes : Bytes := (List.range 256).map Nat.toUInt8

namespace SetElement

def bytesOf : SetElement → Bytes
  | one b | equivalent b => [b]
  | span lo hi => allBytes.filter fun b => lo ≤ b && b ≤ hi
  | ofClass _ p => allBytes.filter p
  | repeated b n => List.replicate n b

/-- How many bytes an element stands for. -/
def size : SetElement → Nat
  | repeated _ n => n
  | e => e.bytesOf.length

def isIndefinite : SetElement → Bool
  | repeated _ 0 => true
  | _ => false

def isEquivalence : SetElement → Bool
  | equivalent _ => true
  | _ => false

def isClass : SetElement → Bool
  | ofClass .. => true
  | _ => false

def caseClass? : SetElement → Option CaseClass
  | ofClass name _ =>
    [(bytes "lower", CaseClass.lower), (bytes "upper", .upper)].lookup name
  | _ => none

end SetElement

inductive SetFault
  | reversedSpan (lo hi : UInt8)
  | unknownClass (name : Bytes)
  | noClassName
  | noEquivalent
  | longEquivalent (t : Bytes)
  | badCount (t : Bytes)

/-- A text as it can be printed. -/
def printableText (t : Bytes) : Bytes := t.flatMap printable

/-- An end of a span as it can be printed. -/
def endpoint (b : UInt8) : Bytes := if isPrintByte b then [b] else octalEscape b

def SetFault.message : SetFault → Bytes
  | reversedSpan lo hi => bytes "range-endpoints of '" ++ endpoint lo ++ bytes "-" ++ endpoint hi
      ++ bytes "' are in reverse collating sequence order"
  | unknownClass name => bytes "invalid character class " ++ quote (printableText name)
  | noClassName => bytes "missing character class name '[::]'"
  | noEquivalent => bytes "missing equivalence class character '[==]'"
  | longEquivalent t =>
    printableText t ++ bytes ": equivalence class operand must be a single character"
  | badCount t =>
    bytes "invalid repeat count " ++ quote (printableText t) ++ bytes " in [c*n] construct"

inductive SetWarning
  | ambiguousEscape (digits : Bytes)
  | lastBackslash

def SetWarning.message : SetWarning → Bytes
  | ambiguousEscape digits => bytes "warning: the ambiguous octal escape \\" ++ digits
      ++ bytes " is being\n\tinterpreted as the 2-byte sequence \\0" ++ digits.take 2 ++ bytes ", "
      ++ digits.drop 2
  | lastBackslash => bytes "warning: an unescaped backslash at end of string is not portable"

/-! ## Escapes -/

/-- A byte of a set, and whether a backslash has made it plain. -/
abbrev SetByte := UInt8 × Bool

/-- The octal digits behind a backslash, as far as their value is a byte. -/
def octalByte (t : Bytes) : Bytes :=
  let digits := octalDigits t
  if 255 < valueIn 8 digits then digits.take 2 else digits

/-- Resolve the escapes of a set. -/
def setBytes : (fuel : Nat) → Bytes → List SetByte × List SetWarning
  | 0, _ => ([], [])
  | _ + 1, [] => ([], [])
  | fuel + 1, b :: rest =>
    let add := fun (c : SetByte) (warnings : List SetWarning) (rest : Bytes) =>
      let (cs, more) := setBytes fuel rest
      (c :: cs, warnings ++ more)
    if b != backslash then add (b, false) [] rest
    else match rest with
      | [] => add (backslash, false) [.lastBackslash] []
      | e :: rest' =>
        let digits := octalByte rest
        if !digits.isEmpty then
          let all := octalDigits rest
          add ((valueIn 8 digits).toUInt8, true)
            (if digits.length < all.length then [.ambiguousEscape all] else [])
            (rest.drop digits.length)
        else add ((controlByte? e).getD e, true) [] rest'

/-! ## Elements -/

/-- A set goes on with a byte that no backslash has made plain. -/
def isNext (c : Char) (t : List SetByte) : Bool := t.head? == some (byte c, false)

def plainBytes (t : List SetByte) : Bytes := t.map (·.1)

/-- What stands in front of a delimiter and a closing bracket, and what follows them. -/
def upToDelimiter (c : Char) : List SetByte → Option (List SetByte × List SetByte)
  | [] => none
  | d :: rest =>
    if d == (byte c, false) && isNext ']' rest then some ([], rest.tail)
    else (upToDelimiter c rest).map fun (inner, more) => (d :: inner, more)

/-- A star, digits and a closing bracket, which end a repetition. -/
def endsRepetition (t : List SetByte) : Bool :=
  isNext '*' t && isNext ']' (t.tail.dropWhile fun (b, _) => isDigitByte b)

/-- A repetition behind its opening bracket, if there is one. -/
def repetitionAt (t : List SetByte) : Option (Except SetFault (SetElement × List SetByte)) :=
  match t with
  | (b, _) :: star :: rest =>
    if star != (byte '*', false) then none
    else
      let inner := rest.takeWhile fun (c, isPlain) => !isPlain && c != byte ']'
      let rest := rest.drop inner.length
      if !isNext ']' rest then none
      else
        let digits := plainBytes inner
        let base := if digits.head? == some (byte '0') then 8 else 10
        let count := valueIn base digits
        if digits.all (digitOf · < base) && count < wordLimit then
          some (.ok (.repeated b count, rest.tail))
        else some (.error (.badCount digits))
  | _ => none
where
  wordLimit : Nat := 9223372036854775807

/-- A class behind its opening bracket and delimiter. -/
def classAt (t inner : List SetByte) (rest : List SetByte) :
    Option (Except SetFault (SetElement × List SetByte)) :=
  match inner with
  | [] => some (.error .noClassName)
  | _ =>
    match classMember? (plainBytes inner) with
    | some p => some (.ok (.ofClass (plainBytes inner) p, rest))
    | none => if endsRepetition t then none else some (.error (.unknownClass (plainBytes inner)))

def equivalentAt (t inner : List SetByte) (rest : List SetByte) :
    Option (Except SetFault (SetElement × List SetByte)) :=
  match inner with
  | [] => some (.error .noEquivalent)
  | [(b, _)] => some (.ok (.equivalent b, rest))
  | _ => if endsRepetition t then none else some (.error (.longEquivalent (plainBytes inner)))

/-- What an opening bracket begins, unless it is a plain byte. -/
def bracketAt (t : List SetByte) : Option (Except SetFault (SetElement × List SetByte)) :=
  let named :=
    if isNext ':' t then (upToDelimiter ':' t.tail).bind fun (inner, rest) => classAt t.tail inner rest
    else if isNext '=' t then
      (upToDelimiter '=' t.tail).bind fun (inner, rest) => equivalentAt t.tail inner rest
    else none
  named.or (repetitionAt t)

/-- The elements of a set in the order they are written. -/
def elements : (fuel : Nat) → List SetByte → Except SetFault (List SetElement)
  | 0, _ => .ok []
  | fuel + 1, t =>
    match t with
    | c :: d :: e :: rest =>
      match if c == (byte '[', false) then bracketAt (d :: e :: rest) else none with
      | some (.error f) => .error f
      | some (.ok (element, rest)) => (elements fuel rest).map (element :: ·)
      | none =>
        if d == (byte '-', false) then
          if e.1 < c.1 then .error (.reversedSpan c.1 e.1)
          else (elements fuel rest).map (.span c.1 e.1 :: ·)
        else (elements fuel (d :: e :: rest)).map (.one c.1 :: ·)
    | few => .ok (few.map fun (b, _) => .one b)

/-- Read a set, with warnings of what may be meant otherwise. -/
def readSet (t : Bytes) : List SetWarning × Except SetFault (List SetElement) :=
  let (cs, warnings) := setBytes t.length t
  (warnings, elements cs.length cs)

/-- The bytes of a set, those of other sets left out if it is a complement. -/
def membersOf (complement : Bool) (es : List SetElement) : UInt8 → Bool :=
  let set := es.flatMap SetElement.bytesOf
  fun b => set.contains b != complement

def complementOf (es : List SetElement) : Bytes := allBytes.filter (membersOf true es)

end StructuralEdit.Shell.Tool
