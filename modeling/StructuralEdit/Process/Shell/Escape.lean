import StructuralEdit.Process.Shell.Byte

/-! # Escapes in bytes

The backslash escapes that printing commands and sets of bytes share: a letter for a
control character, or up to three octal digits for a byte.
-/
namespace StructuralEdit.Shell
open Text (Bytes)

def isOctal (b : UInt8) : Bool := digitOf b < 8

/-- The control character that a letter behind a backslash stands for. -/
def controlByte? (b : UInt8) : Option UInt8 :=
  [('\\', 92), ('a', 7), ('b', 8), ('f', 12), ('n', 10), ('r', 13), ('t', 9), ('v', 11)].lookup
    (Char.ofNat b.toNat)

/-- The octal digits, three at most, that a text begins with. -/
def octalDigits (t : Bytes) : Bytes := (t.take 3).takeWhile isOctal

/-- What a backslash and the bytes behind it print, and the bytes left. An escape that means
nothing is a backslash. -/
def escape (t : Bytes) : UInt8 × Bytes :=
  let digits := octalDigits t
  if !digits.isEmpty then ((valueIn 8 digits).toUInt8, t.drop digits.length)
  else match t with
    | [] => (backslash, [])
    | b :: rest =>
      if b == byte 'e' then (27, rest)
      else match controlByte? b with
        | some c => (c, rest)
        | none => (backslash, t)

/-- The escapes of a printed text, which may have a zero in front of octal digits, and whether
one of them says that all printing ends here. -/
def unescape : (fuel : Nat) → Bytes → Bytes × Bool
  | 0, _ => ([], false)
  | _ + 1, [] => ([], false)
  | fuel + 1, b :: rest =>
    if b != backslash then
      let (t, ended) := unescape fuel rest
      (b :: t, ended)
    else if rest.head? == some (byte 'c') then ([], true)
    else
      let digits := if rest.head? == some (byte '0') && (rest[1]?.map isOctal).getD false
        then rest.tail else rest
      let (c, rest) := escape digits
      let (t, ended) := unescape fuel rest
      (c :: t, ended)

def unescaped (t : Bytes) : Bytes × Bool := unescape t.length t

end StructuralEdit.Shell
