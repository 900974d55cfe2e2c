import StructuralEdit.Pattern.Token

/-! # Escapes of a pattern

What a backslash and the character behind it stand for: a character by its letter
or number, a category of characters, an anchor or a back-reference.
-/
namespace StructuralEdit.Pattern.Reader

def isHexDigit (c : Char) : Bool :=
  Text.isDigit c || ('a' ≤ c && c ≤ 'f') || ('A' ≤ c && c ≤ 'F')

def isOctalDigit (c : Char) : Bool := '0' ≤ c && c ≤ '7'

def isPlainLetter (c : Char) : Bool := ('a' ≤ c && c ≤ 'z') || ('A' ≤ c && c ≤ 'Z')

def hexValue (c : Char) : Nat :=
  if c.toNat < 58 then c.toNat - 48 else (c.toNat - 55) % 32

def numberIn (base : Nat) (t : Text) : Nat := t.foldl (fun n c => base * n + hexValue c) 0

/-- The code point of an escape with a fixed number of hexadecimal digits. -/
def hexEscape (letter : Char) (width : Nat) : Reader Nat := do
  let digits ← takeSome isHexDigit width
  let escape := '\\' :: letter :: digits
  if digits.length != width then fail (.incompleteEscape escape) escape.length
  let code := numberIn 16 digits
  if 0x10FFFF < code then fail (.badEscape escape) escape.length
  return code

def namedCharacter : Reader Nat := do
  if !(← accept '{') then fail .noNameOpening
  let name ← takeName '}' "character name".toList
  match (← get).engine.character name with
  | some c => return c.toNat
  | none => fail (.unknownCharacterName name) (name.length + 4)

/-- The escapes that stand for one character in and outside sets. -/
def controlEscape : Char → Option Nat
  | 'a' => some 7
  | 'b' => some 8
  | 'f' => some 12
  | 'n' => some 10
  | 'r' => some 13
  | 't' => some 9
  | 'v' => some 11
  | '\\' => some 92
  | _ => none

def categoryEscape : Char → Option SetItem
  | 'd' => some (.category .digit false)
  | 'D' => some (.category .digit true)
  | 's' => some (.category .space false)
  | 'S' => some (.category .space true)
  | 'w' => some (.category .word false)
  | 'W' => some (.category .word true)
  | _ => none

def anchorEscape : Char → Option Anchor
  | 'A' => some .textStart
  | 'Z' => some .textEnd
  | 'b' => some .wordEdge
  | 'B' => some .noWordEdge
  | _ => none

/-- An escape that names a code point by digits or by name, if it is one. -/
def codeEscape (c : Char) : Reader (Option Nat) := do
  match c with
  | 'x' => return some (← hexEscape c 2)
  | 'u' => return some (← hexEscape c 4)
  | 'U' => return some (← hexEscape c 8)
  | 'N' => return some (← namedCharacter)
  | _ => return none

/-- A letter behind a backslash that has no meaning is refused; any other character is itself. -/
def plainEscape (c : Char) : Reader Nat := do
  if isPlainLetter c then fail (.badEscape ['\\', c]) 2
  return c.toNat

/-- The item of a set that an escape stands for. -/
def setEscape (c : Char) : Reader SetItem := do
  match controlEscape c, categoryEscape c with
  | some n, _ => return .one n
  | none, some item => return item
  | none, none =>
    match ← codeEscape c with
    | some n => return .one n
    | none =>
      if isOctalDigit c then
        let digits := c :: (← takeSome isOctalDigit 2)
        let code := numberIn 8 digits
        if 0o377 < code then fail (.octalOutOfRange ('\\' :: digits)) (digits.length + 1)
        return .one code
      if Text.isDigit c then fail (.badEscape ['\\', c]) 2
      return .one (← plainEscape c)

/-- A group may be referred to when it is closed and not part of the look-behind at hand. -/
def checkBehind (group : Nat) : Reader Unit := do
  let r ← get
  match r.behindFrom with
  | none => return
  | some first =>
    if !r.isClosed group then fail .openGroup
    if first ≤ group then fail .groupOfSameLookbehind

/-- A back-reference by number, or three octal digits. -/
def numberEscape (c : Char) : Reader Expr := do
  let mut digits := [c]
  if let some (.plain d) ← next then
    if Text.isDigit d then
      let _ ← take
      digits := [c, d]
      if let some (.plain e) ← next then
        if isOctalDigit c && isOctalDigit d && isOctalDigit e then
          let _ ← take
          let code := numberIn 8 [c, d, e]
          if 0o377 < code then fail (.octalOutOfRange ['\\', c, d, e]) 4
          return .literal false code
  let group := numberIn 10 digits
  let r ← get
  if group < r.nextGroup then
    if !r.isClosed group then fail .openGroup (digits.length + 1)
    checkBehind group
    return .backref group
  fail (.noSuchGroup group) digits.length

/-- The part that an escape outside sets stands for. -/
def escape (c : Char) : Reader Expr := do
  match anchorEscape c, categoryEscape c, controlEscape c with
  | some a, _, _ => return .anchor a
  | none, some item, _ => return .set false [item]
  | none, none, some n => return .literal false n
  | none, none, none =>
    match ← codeEscape c with
    | some n => return .literal false n
    | none =>
      if c == '0' then
        return .literal false (numberIn 8 (← takeSome isOctalDigit 2))
      if Text.isDigit c then numberEscape c
      else return .literal false (← plainEscape c)

end StructuralEdit.Pattern.Reader
