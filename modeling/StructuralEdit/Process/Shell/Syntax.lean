import StructuralEdit.Process.Shell.Byte

/-! # Command lines

The pieces of a word are expanded when its command is run. What an unquoted piece stands
for is split into fields, and its special characters match file names.
-/
namespace StructuralEdit.Shell
open Text (Bytes)

/-- What stands in for a parameter without a value. -/
inductive Fallback
  /-- The word instead of the value. -/
  | replaced
  /-- The word, which becomes the value. -/
  | assigned
  /-- An end of all, with the word as complaint. -/
  | refused
  /-- The other way around: the word if there is a value. -/
  | present
deriving DecidableEq

inductive OpenMode
  | input
  | output
  | append
  | update
deriving DecidableEq

mutual

inductive Piece
  | literal (quoted : Bool) (t : Bytes)
  | parameter (quoted : Bool) (name : Bytes) (use : ParameterUse)
  | outputOf (quoted : Bool) (body : Command)
  | sum (quoted : Bool) (word : List Piece)

inductive ParameterUse
  | value
  | length
  | fallback (kind : Fallback) (evenEmpty : Bool) (word : List Piece)
  | trimmed (fromEnd longest : Bool) (pattern : List Piece)
  | malformed

inductive Redirection
  | opened (descriptor : Nat) (mode : OpenMode) (name : List Piece)
  /-- The descriptor becomes a copy of another, or is closed. -/
  | copied (descriptor : Nat) (source : Option Nat)
  | copiedFrom (descriptor : Nat) (name : List Piece)
  /-- The lines behind the command line, of which there are none. -/
  | document (descriptor : Nat)

inductive Assignment
  | of (name : Bytes) (value : List Piece)

inductive Branch
  | of (patterns : List (List Piece)) (body : Command)

inductive Command
  | nothing
  | simple (assignments : List Assignment) (words : List (List Piece))
      (redirections : List Redirection)
  | pipeline (stages : List Command)
  | negated (c : Command)
  | both (first second : Command)
  | either (first second : Command)
  | sequence (first second : Command)
  | background (c : Command)
  | redirected (c : Command) (redirections : List Redirection)
  | subshell (c : Command) (redirections : List Redirection)
  | conditional (test yes no : Command)
  | loop (whileFalse : Bool) (test body : Command)
  | forEach (name : Bytes) (items : List (List Piece)) (body : Command)
  | choice (subject : List Piece) (branches : List Branch)
  | define (name : Bytes) (body : Command)

end

abbrev Word := List Piece

instance : Inhabited Command := ⟨.nothing⟩

namespace Piece

/-- Put a literal in front of pieces, as one with a literal of its kind. -/
def addLiteral (quoted : Bool) (t : Bytes) : Word → Word
  | .literal q s :: rest =>
    if q = quoted then .literal q (t ++ s) :: rest else .literal quoted t :: .literal q s :: rest
  | rest => .literal quoted t :: rest

end Piece

namespace Word

/-- The text of a word in which nothing is quoted or expanded. -/
def plain? : Word → Option Bytes
  | [.literal false t] => some t
  | _ => none

/-- A word that gives a value to a name. -/
def assignment? : Word → Option Assignment
  | .literal false t :: rest =>
    let name := t.takeWhile (· != byte '=')
    match t.drop name.length with
    | _ :: value =>
      if isName name then
        some (.of name (if value.isEmpty then rest else .literal false value :: rest))
      else none
    | [] => none
  | _ => none

/-- All arguments, each a field. -/
def arguments : Word := [.parameter true [byte '@'] .value]

end Word

end StructuralEdit.Shell
