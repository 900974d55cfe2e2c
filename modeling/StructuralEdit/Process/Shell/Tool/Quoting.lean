import StructuralEdit.Process.Shell.Byte

/-! # Names in complaints

A name that a shell would take apart is quoted as a shell reads it back. Other texts stand
between quotation marks, with escapes for what cannot be printed.
-/
namespace StructuralEdit.Shell.Tool
open Text (Bytes)

/-- The letter that escapes a control character. -/
def escapeLetter? (b : UInt8) : Option UInt8 :=
  [(7, byte 'a'), (8, byte 'b'), (12, byte 'f'), (10, byte 'n'), (13, byte 'r'), (9, byte 't'),
    (11, byte 'v')].lookup b

def octalEscape (b : UInt8) : Bytes :=
  let n := b.toNat
  [backslash, (48 + n / 64).toUInt8, (48 + n / 8 % 8).toUInt8, (48 + n % 8).toUInt8]

/-- A byte that is not printed, as an escape. -/
def escapeOf (b : UInt8) : Bytes :=
  match escapeLetter? b with
  | some c => [backslash, c]
  | none => octalEscape b

/-- A byte as it can be printed. -/
def printable (b : UInt8) : Bytes :=
  if b == backslash then [backslash, backslash] else if isPrintByte b then [b] else escapeOf b

/-- A text between quotation marks. -/
def quote (t : Bytes) : Bytes :=
  let shown := fun (b : UInt8) => if b == byte '\'' then [backslash, b] else printable b
  byte '\'' :: t.flatMap shown ++ [byte '\'']

/-- Characters that mean something to a shell wherever they stand. -/
def isShellSpecial (b : UInt8) : Bool := b == 0x60 || (bytes " !\"$&()*;<=>[^|\\?:'").contains b

/-- A name has to be quoted to be read back by a shell. -/
def needsQuotes (t : Bytes) : Bool :=
  t.isEmpty || t.any (fun b => isShellSpecial b || !isPrintByte b)
    || (t.head?.map fun b => (bytes "#~").contains b).getD false
    || t == [byte '\x7b'] || t == [byte '\x7d']

/-- A byte that stands for itself between double quotes as well. -/
def isHarmless (first : Bool) (b : UInt8) : Bool :=
  isAlnumByte b || (bytes " '%+,-./:]_@").contains b || (first && (bytes "#~").contains b)

/-- Quote a name byte by byte; escapes stand between marks of their own. -/
def quotedBytes : (escaping : Bool) → Bytes → Bytes
  | _, [] => []
  | escaping, b :: rest =>
    if b == byte '\'' then bytes "'\\''" ++ quotedBytes false rest
    else if isPrintByte b then (if escaping then bytes "''" else []) ++ b :: quotedBytes false rest
    else (if escaping then [] else bytes "'$'") ++ escapeOf b ++ quotedBytes true rest

/-- A file name as a complaint shows it. -/
def shownName (t : Bytes) : Bytes :=
  if !needsQuotes t then t
  else if t.contains (byte '\'') && isHarmless true (t.headD 0) && t.tail.all (isHarmless false) then
    byte '"' :: t ++ [byte '"']
  else byte '\'' :: quotedBytes false t ++ [byte '\'']

/-- A file name between quotation marks in any case. -/
def quotedName (t : Bytes) : Bytes := if needsQuotes t then shownName t else quote t

end StructuralEdit.Shell.Tool
