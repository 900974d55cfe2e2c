import StructuralEdit.Process.Shell.Escape
import StructuralEdit.Process.Shell.Floating
import StructuralEdit.Process.Shell.Integer

/-! # Formatted printing

A format is used again as long as arguments are left. An argument that is missing
counts as empty or zero.
-/
namespace StructuralEdit.Shell
open Text (Bytes)

/-- How an argument is laid out. -/
structure Layout where
  left : Bool := false
  zero : Bool := false
  plus : Bool := false
  blank : Bool := false
  alternate : Bool := false
  width : Nat := 0
  precision : Option Nat := none
  /-- What stands from a misplaced star on. Such a directive is printed as it is written. -/
  unread : Bytes := []

/-- What is wrong with an argument. -/
inductive ArgumentFault
  | noNumber
  | trailing
  | outOfRange

def ArgumentFault.message (argument : Bytes) : ArgumentFault → Bytes
  | noNumber => argument ++ bytes ": expected numeric value"
  | trailing => argument ++ bytes ": not completely converted"
  | outOfRange => argument ++ bytes ": Numerical result out of range"

/-- Why printing ends before the format does. -/
inductive PrintEnd
  /-- An argument says so. -/
  | asked
  /-- A width or precision is too great. -/
  | tooLarge
  | unfinished
  | unknown (directive : Bytes)

/-- What has been printed, what was complained of, and the arguments left. -/
structure Printing where
  output : Bytes := []
  complaints : List Bytes := []
  arguments : List Bytes
  ended : Option PrintEnd := none

namespace Printing

def put (p : Printing) (t : Bytes) : Printing := { p with output := p.output ++ t }

def complain (p : Printing) (argument : Bytes) (f : ArgumentFault) : Printing :=
  { p with complaints := p.complaints ++ [f.message argument] }

/-- The next argument. -/
def next (p : Printing) : Option Bytes × Printing :=
  (p.arguments.head?, { p with arguments := p.arguments.tail })

/-- The next argument as a number, zero if there is none. A quotation mark stands in front of a
character whose code is meant. -/
def number {α : Type} (p : Printing) (ofCode : Nat → α) (read : Bytes → α × Option ArgumentFault) :
    α × Printing :=
  match p.next with
  | (none, p) => (ofCode 0, p)
  | (some t, p) =>
    match t with
    | [] => ((read []).1, p)
    | b :: rest =>
      if b == byte '"' || b == byte '\'' then (ofCode (rest.head?.getD 0).toNat, p)
      else
        let (n, fault) := read t
        (n, match fault with
          | some f => p.complain t f
          | none => p)

end Printing

/-! ## Numbers -/

/-- What there is to say about a number of which some bytes were not read. -/
def leftOver (found : Bool) (rest : Bytes) (fits : Bool) : Option ArgumentFault :=
  if !found then some .noNumber
  else if !rest.isEmpty then some .trailing
  else if fits then none else some .outOfRange

def signedArgument (p : Printing) : Int × Printing :=
  p.number Int.ofNat fun t =>
    let r := readInteger none t
    (r.signed, leftOver r.found r.rest r.fitsSigned)

def unsignedArgument (p : Printing) : Nat × Printing :=
  p.number id fun t =>
    let r := readInteger none t
    (r.unsigned, leftOver r.found r.rest r.fitsUnsigned)

def floatingArgument (p : Printing) : Floating × Printing :=
  p.number Floating.ofNat fun t =>
    match Floating.read? t with
    | some r => (r.value, leftOver true r.rest !r.outOfRange)
    | none => (.zero, if t.isEmpty then none else some .noNumber)

namespace Layout

def pad (l : Layout) (t : Bytes) : Bytes :=
  if l.left then t ++ padding l.width t.length (byte ' ') else alignRight l.width t

/-- Lay out what may have zeros between its sign and its digits. -/
def padZero (l : Layout) (sign digits : Bytes) : Bytes :=
  if l.zero && !l.left
    then sign ++ padding l.width (sign.length + digits.length) (byte '0') ++ digits
    else l.pad (sign ++ digits)

/-- Lay out the digits of an integer, at least as many as the precision; zero has none if none are
asked for. -/
def integer (l : Layout) (sign digits : Bytes) : Bytes :=
  match l.precision with
  | none => l.padZero sign digits
  | some n =>
    let digits := if n = 0 && digits == [byte '0'] then [] else digits
    l.pad (sign ++ (padding n digits.length (byte '0') ++ digits))

def signOf (l : Layout) (negative : Bool) : Bytes :=
  if negative then bytes "-" else if l.plus then bytes "+" else if l.blank then bytes " " else []

def signed (l : Layout) (n : Int) : Bytes := l.integer (l.signOf (n < 0)) (decimal n.natAbs)

def unsigned (l : Layout) (letter : Char) (n : Nat) : Bytes :=
  let marked := l.alternate && n != 0
  match letter with
  | 'o' =>
    if l.alternate && n = 0 then { l with precision := l.precision.map (max 1) }.integer [] (bytes "0")
    else l.integer [] ((if marked then bytes "0" else []) ++ digitsIn 8 n)
  | 'x' => l.integer (if marked then bytes "0x" else []) (digitsIn 16 n)
  | 'X' => l.integer (if marked then bytes "0X" else []) ((digitsIn 16 n).map upperByte)
  | _ => l.integer [] (decimal n)

def floating (l : Layout) (letter : Char) (x : Floating) : Bytes :=
  let form := letter.toLower
  let (digits, finite) := Floating.digits form l.precision l.alternate x.magnitude
  let sign := l.signOf x.negative ++ (if finite && form == 'a' then bytes "0x" else [])
  let shape := if letter == form then id else List.map upperByte
  if finite then l.padZero (shape sign) (shape digits) else l.pad (sign ++ shape digits)

def string (l : Layout) (t : Bytes) : Bytes :=
  l.pad (match l.precision with
    | some n => t.take n
    | none => t)

/-- The directive itself, in the order its parts are understood. -/
def asWritten (l : Layout) (letters : String) : Bytes :=
  let given := fun (isGiven : Bool) (t : Bytes) => if isGiven then t else []
  byte '%' :: given l.alternate (bytes "#")
    ++ (if l.plus then bytes "+" else given l.blank (bytes " "))
    ++ (if l.left then bytes "-" else given l.zero (bytes "0"))
    ++ given (l.width != 0) (decimal l.width)
    ++ (match l.precision with
      | some n => byte '.' :: decimal n
      | none => [])
    ++ l.unread ++ bytes letters

/-- An argument as it is laid out, or the directive if that could not be read. -/
def shown (l : Layout) (letters : String) (t : Bytes) : Bytes :=
  if l.unread.isEmpty then t else l.asWritten letters

/-- No width and no precision reach this. -/
def limit : Nat := 2147483647

def isTooLarge (l : Layout) : Bool := limit ≤ l.width || limit ≤ l.precision.getD 0

/-! ## Directives -/

def flag? (l : Layout) (b : UInt8) : Option Layout :=
  match Char.ofNat b.toNat with
  | '-' => some { l with left := true }
  | '0' => some { l with zero := true }
  | '+' => some { l with plus := true }
  | ' ' => some { l with blank := true }
  | '#' => some { l with alternate := true }
  | _ => none

def readFlags (l : Layout) : Bytes → Layout × Bytes
  | [] => (l, [])
  | b :: rest =>
    match l.flag? b with
    | some l => readFlags l rest
    | none => (l, b :: rest)

end Layout

/-- A width or precision, written or taken from an argument, and what stands from a misplaced star
on. -/
def measure (p : Printing) (t : Bytes) : Int × Bytes × Printing × Bytes :=
  match t with
  | b :: rest =>
    if b == byte '*' then
      let (n, p) := signedArgument p
      (Int.bmod n 4294967296, [], p, rest)
    else
      let whole := t.takeWhile fun b => isDigitByte b || b == byte '*'
      let digits := whole.takeWhile isDigitByte
      (valueIn 10 digits, whole.drop digits.length, p, t.drop whole.length)
  | [] => (0, [], p, [])

/-- The layout of a directive, and the bytes from its letter on. -/
def layoutAt (p : Printing) (t : Bytes) : Layout × Printing × Bytes :=
  let (l, t) := ({} : Layout).readFlags t
  let (width, unread, p, t) := measure p t
  let l := { l with width := width.natAbs, left := l.left || decide (width < 0), unread }
  match t with
  | b :: more =>
    if b == byte '.' then
      let (precision, misplaced, p, rest) := measure p more
      if unread.isEmpty then
        ({ l with
            precision := if precision < 0 then none else some precision.toNat
            unread := misplaced }, p, rest)
      else ({ l with unread := unread ++ t.take (t.length - rest.length) }, p, rest)
    else (l, p, t)
  | [] => (l, p, [])

/-- Carry out one directive; `none` if there is no such directive. -/
def convert (l : Layout) (letter : Char) (p : Printing) : Option Printing :=
  match letter with
  | 's' =>
    let (t, p) := p.next
    some (p.put (l.shown "s" (l.string (t.getD []))))
  | 'b' =>
    let (t, p) := p.next
    let (t, ended) := unescaped (t.getD [])
    some { p.put (l.shown "s" (l.string t)) with ended := if ended then some .asked else none }
  | 'c' =>
    let (t, p) := p.next
    some (p.put (l.shown "c" (l.pad [(t.bind List.head?).getD 0])))
  | 'd' | 'i' =>
    let (n, p) := signedArgument p
    some (p.put (l.shown ("l" ++ letter.toString) (l.signed n)))
  | 'u' | 'o' | 'x' | 'X' =>
    let (n, p) := unsignedArgument p
    some (p.put (l.shown ("l" ++ letter.toString) (l.unsigned letter n)))
  | 'e' | 'E' | 'f' | 'F' | 'g' | 'G' | 'a' | 'A' =>
    let (x, p) := floatingArgument p
    some (p.put (l.shown letter.toString (l.floating letter x)))
  | _ => none

/-- Print a format once. -/
def printOnce : (fuel : Nat) → (format : Bytes) → Printing → Printing
  | 0, _, p => p
  | _ + 1, [], p => p
  | fuel + 1, b :: rest, p =>
    if b == backslash then
      let (c, rest) := escape rest
      printOnce fuel rest (p.put [c])
    else if b != byte '%' then printOnce fuel rest (p.put [b])
    else if rest.head? == some (byte '%') then printOnce fuel rest.tail (p.put [b])
    else
      let (l, p, t) := layoutAt p rest
      match t with
      | [] => { p with ended := some .unfinished }
      | letter :: t' =>
        match convert (if l.isTooLarge then {} else l) (Char.ofNat letter.toNat) p with
        | none => { p with ended := some (.unknown (b :: rest.take (rest.length - t'.length))) }
        | some p' =>
          if l.isTooLarge then { p with ended := some .tooLarge }
          else if p'.ended.isSome then p' else printOnce fuel t' p'

/-- Print a format until the arguments are used up, or do not become fewer. -/
def printFormat : (fuel : Nat) → (format : Bytes) → Printing → Printing
  | 0, _, p => p
  | fuel + 1, format, p =>
    let p' := printOnce (format.length + 1) format p
    if p'.ended.isSome || p'.arguments.isEmpty || p'.arguments.length = p.arguments.length then p'
    else printFormat fuel format p'

/-- Print arguments by a format. -/
def printing (format : Bytes) (arguments : List Bytes) : Printing :=
  printFormat (arguments.length + 1) format { arguments }

end StructuralEdit.Shell
