import StructuralEdit.Process.Shell.Glob

/-! # Fields

A word is expanded to a row of marks, which is then split at separators into fields.
Separators only count where they come out of an expansion.
-/
namespace StructuralEdit.Shell
open Text (Bytes)

/-- What the expansion of a word leaves. -/
inductive Mark
  /-- A quotation mark, for which there is a field even if nothing else is in it. -/
  | edge
  /-- The border between two arguments. -/
  | border
  | byte (b : UInt8) (isPlain splits : Bool)

namespace Mark

def ofBytes (isPlain splits : Bool) (t : Bytes) : List Mark := t.map fun b => .byte b isPlain splits

/-- The marks of what an expansion stands for. -/
def ofValue (quoted : Bool) (t : Bytes) : List Mark := ofBytes quoted (!quoted) t

def patternByte? : Mark → Option Glob.PatternByte
  | byte b isPlain _ => some (b, isPlain)
  | _ => none

/-- The marks as a pattern. -/
def pattern (ms : List Mark) : List Glob.PatternByte := ms.filterMap patternByte?

/-- The bytes of the marks. -/
def text (ms : List Mark) : Bytes := (pattern ms).map (·.1)

end Mark

/-- What separates fields. Blanks among the separators count once, however many there are. -/
structure Separators where
  isSeparator : UInt8 → Bool
  isBlank : UInt8 → Bool

namespace Separators

def blanks : Bytes := [32, 9, 10]

def ofBytes (t : Bytes) : Separators := ⟨t.contains, fun b => t.contains b && blanks.contains b⟩

end Separators

/-- How the marks behind the end of a field are taken. -/
inductive Passing
  | nothing
  /-- Blanks are passed over, and one other separator as well if it may still come. -/
  | blanks (andOne : Bool)
deriving DecidableEq

/-- Split marks into fields, given the field that is open. Fields are given last byte first. -/
def splitMarks (s : Separators) : (opened : Option (List Glob.PatternByte)) → Passing → List Mark →
    List (List Glob.PatternByte)
  | opened, _, [] => opened.toList
  | opened, _, .edge :: rest => splitMarks s (some (opened.getD [])) .nothing rest
  | opened, _, .border :: rest => opened.getD [] :: splitMarks s none .nothing rest
  | opened, passing, .byte b isPlain splits :: rest =>
    if splits && s.isSeparator b then
      if passing ≠ .nothing && s.isBlank b then splitMarks s opened passing rest
      else if passing = .blanks true then splitMarks s opened (.blanks false) rest
      else if opened.isNone && s.isBlank b then splitMarks s none .nothing rest
      else opened.getD [] :: splitMarks s none (.blanks (s.isBlank b)) rest
    else splitMarks s (some ((b, isPlain) :: opened.getD [])) .nothing rest

def fieldsOf (s : Separators) (ms : List Mark) : List (List Glob.PatternByte) :=
  (splitMarks s none .nothing ms).map List.reverse

end StructuralEdit.Shell
