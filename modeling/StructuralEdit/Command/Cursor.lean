import StructuralEdit.Address.Syntax
import StructuralEdit.Text.Basic
import StructuralEdit.Text.Numeric

/-! # Reading command text

A cursor stands between the characters read and those to come, and remembers the
last pattern. Reading keeps what it has consumed also when it fails.
-/
namespace StructuralEdit

/-- What can be wrong with command text. -/
inductive ParseError
  | nothingToUnread
  | newlineExpected (seen : Option Char)
  | badAddress
  | badAddressSyntax
  | noAddress
  | addressNotTaken
  | noPattern
  | noLeftBrace
  | badRightSide
  | commandExpected
  | unknownCommand (letter : Text)
  | badDelimiter (seen : Option Char)
deriving DecidableEq

def ParseError.message : ParseError → Text
  | nothingToUnread => "ungetch at start of command".toList
  | newlineExpected none => "newline expected (saw EOF)".toList
  | newlineExpected (some c) => "newline expected (saw ".toList ++ [c, ')']
  | badAddress => "bad address".toList
  | badAddressSyntax => "bad address syntax".toList
  | noAddress => "no address".toList
  | addressNotTaken => "command takes no address".toList
  | noPattern => "no regular expression defined".toList
  | noLeftBrace => "right brace with no left brace".toList
  | badRightSide => "bad right hand side".toList
  | commandExpected => "command expected".toList
  | unknownCommand l => "unknown command ".toList ++ l
  | badDelimiter c => "bad delimiter ".toList ++ c.toList

structure Cursor where
  /-- The characters read, last one first. -/
  before : Text := []
  rest : Text
  /-- The pattern an empty one stands for. -/
  last : Text := []

abbrev Parser := EStateM ParseError Cursor

namespace Cursor

def offset (c : Cursor) : Nat := c.before.length

def advance (c : Cursor) (n : Nat) : Cursor :=
  { c with before := (c.rest.take n).reverse ++ c.before, rest := c.rest.drop n }

/-- The whole text, which no reading changes. -/
def text (c : Cursor) : Text := c.before.reverse ++ c.rest

@[simp] theorem text_advance (c : Cursor) (n : Nat) : (c.advance n).text = c.text := by
  simp [text, advance]

/-- Command text always ends in a newline. -/
def ofCommand (t : Text) (last : Text) : Cursor :=
  { rest := if t.getLast? = some '\n' then t else t ++ ['\n'], last }

end Cursor

/-- A delimiter is any character but a backslash, a letter or a numeric character. -/
def isDelimiter (c : Char) : Bool := c != '\\' && !Text.isAlphanumeric c

namespace Parser

def peek : Parser (Option Char) := return (← get).rest.head?

def getChar : Parser (Option Char) := do
  let c ← get
  set (c.advance 1)
  return c.rest.head?

def unread : Parser Unit := do
  let c ← get
  match c.before with
  | [] => throw .nothingToUnread
  | a :: before => set { c with before, rest := a :: c.rest }

/-- Take the longest run of characters of a class. -/
def takeWhile (p : Char → Bool) : Parser Text := do
  let c ← get
  let t := c.rest.takeWhile p
  set (c.advance t.length)
  return t

/-- Pass over spaces and tabs and show what is next. -/
def skipPads : Parser (Option Char) := do
  let _ ← takeWhile Text.isPad
  peek

/-- Nothing but spaces and tabs may stand before the end of the line. -/
def endLine : Parser Unit := do
  let _ ← skipPads
  let c ← getChar
  if c != some '\n' then throw (.newlineExpected c)

/-- A number, `1` if there are no digits. -/
def unsigned : Parser Nat := do
  let digits ← takeWhile Text.isDigit
  return if digits.isEmpty then 1 else digits.foldl (fun n c => 10 * n + Text.digitValue c) 0

/-- A number with an optional minus sign, `1` or `-1` if there are no digits. -/
def signed : Parser Int := do
  if (← peek) == some '-' then
    let _ ← getChar
    return -(← unsigned : Int)
  return (← unsigned : Int)

/-- An argument up to a character of a class; the rest of the line must be blank. -/
def tokenUntil (stop : Char → Bool) : Parser Text := do
  let pads ← takeWhile Text.isPad
  let body ← takeWhile (!stop ·)
  let c ← getChar
  if c != some '\n' then endLine
  return pads ++ body

/-- A piece of text that was read, how many characters it was written with, and whether the
writing was complete. -/
structure Piece where
  text : Text := []
  used : Nat := 0
  complete : Bool := true

def Piece.cons (t : Text) (n : Nat) (p : Piece) : Piece :=
  { p with text := t ++ p.text, used := n + p.used }

/-- A delimiter is given as a text, of one character unless nothing is meant to delimit but the end
of the line. -/
abbrev Delimiter := Text

/-- Text up to a delimiter or newline, with escapes. In the replacement of a substitution an
escape that names neither the delimiter nor a newline is kept for later. -/
def rightSidePiece (delim : Delimiter) (replacement : Bool) : Text → Piece
  | [] => {}
  | c :: rest =>
    if [c] == delim || c == '\n' then {}
    else if c == '\\' then
      match rest with
      | [] => { used := 1, complete := false }
      | e :: rest' =>
        if e == '\n' then { text := ['\\'], used := 1 }
        else if e == 'n' then (rightSidePiece delim replacement rest').cons ['\n'] 2
        else if [e] != delim && (replacement || e != '\\') then
          (rightSidePiece delim replacement rest').cons ['\\', e] 2
        else (rightSidePiece delim replacement rest').cons [e] 2
    else (rightSidePiece delim replacement rest).cons [c] 1

def takePiece (piece : Text → Piece) : Parser Piece := do
  let c ← get
  let p := piece c.rest
  set (c.advance p.used)
  return p

def rightSide (delim : Delimiter) (replacement : Bool) : Parser Text := do
  let p ← takePiece (rightSidePiece delim replacement)
  if !p.complete then throw .badRightSide
  return p.text

/-- A pattern up to its delimiter, which is consumed, or to a newline, which is not. An escaped
delimiter stands for itself, other escapes are part of the pattern. -/
def patternPiece (delim : Delimiter) : Text → Piece
  | [] => {}
  | c :: rest =>
    if c == '\\' then
      match rest with
      | [] => { text := if delim.isEmpty then [] else ['\\'], used := 1 }
      | e :: rest' =>
        if [e] == delim then (patternPiece delim rest').cons [e] 2
        else if e == '\n' then { text := ['\\'], used := 1 }
        else (patternPiece delim rest').cons ['\\', e] 2
    else if c == '\n' then {}
    else if [c] == delim then { used := 1 }
    else (patternPiece delim rest).cons [c] 1

/-- A pattern; an empty one stands for the last one, which must exist. -/
def pattern (delim : Delimiter) : Parser Text := do
  let p ← takePiece (patternPiece delim)
  if !p.text.isEmpty then modify fun c => { c with last := p.text }
  let last := (← get).last
  if last.isEmpty then throw .noPattern
  return last

/-- Lines up to one that holds a single dot, or to the end of the text. -/
def linesPiece (t : Text) : Piece :=
  let line := t.takeWhile (· != '\n')
  match h : t.dropWhile (· != '\n') with
  | [] => { text := line ++ ['\n'], used := line.length }
  | _ :: rest =>
    if line = ['.'] then { used := 2 }
    else (linesPiece rest).cons (line ++ ['\n']) (line.length + 1)
termination_by t.length
decreasing_by
  have := (List.dropWhile_suffix (l := t) (fun c => c != '\n')).length_le
  rw [h] at this
  simp only [List.length_cons] at this
  omega

/-- The text of an insertion: between delimiters on one line, or on lines of its own. -/
def insertedText : Parser Text := do
  if (← skipPads) == some '\n' then
    let _ ← getChar
    return (← takePiece linesPiece).text
  let seen ← getChar
  match seen with
  | none => throw (.badDelimiter none)
  | some delim =>
    if !isDelimiter delim then throw (.badDelimiter seen)
    let t ← rightSide [delim] false
    if (← peek) == seen then
      let _ ← getChar
    endLine
    return t

end Parser

end StructuralEdit
