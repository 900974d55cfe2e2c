import StructuralEdit.Text.Basic
import StructuralEdit.Text.Quoted

/-! # The command table

For each command letter, the arguments it reads and the address it defaults to.
-/
namespace StructuralEdit

/-- The address of a command that is given none. -/
inductive DefaultAddress
  | none
  | dot
  | all
deriving DecidableEq

/-- Whether a number may stand behind the letter, and with which sign. -/
inductive CountKind
  | none
  | unsigned
  | signed
deriving DecidableEq

structure CommandSpec where
  letter : Text
  text : Bool := false
  regexp : Bool := false
  target : Bool := false
  /-- The command that is run when the body of a loop is left out; empty if there is no body. -/
  body : Text := []
  address : DefaultAddress := .dot
  count : CountKind := .none
  /-- The characters that end a one-word argument; empty if there is none. -/
  token : Text := []
deriving DecidableEq

inductive SpecProblem
  | letterLength (letter : Text)
  | textAndToken (letter : Text)
deriving DecidableEq

def SpecProblem.message : SpecProblem → Text
  | letterLength l => "command letter must be one character: ".toList ++ Text.quoted l
  | textAndToken l => Text.quoted l ++ " cannot take both text and a token".toList

namespace CommandSpec

/-- A command has a letter of one character and at most one kind of text argument. -/
def problem? (s : CommandSpec) : Option SpecProblem :=
  if s.letter.length ≠ 1 then some (.letterLength s.letter)
  else if s.text && !s.token.isEmpty then some (.textAndToken s.letter)
  else none

def takesAddress (s : CommandSpec) : Bool := s.address != .none

end CommandSpec

/-- Ends an argument that may hold anything but a newline. -/
def lineToken : Text := ['\n']

/-- Ends an argument that may hold no tab either. -/
def wordToken : Text := ['\t', '\n']

def commandTable : List CommandSpec :=
  [{ letter := ['\n'] },
   { letter := ['a'], text := true },
   { letter := ['b'], address := .none, token := lineToken },
   { letter := ['c'], text := true },
   { letter := ['d'] },
   { letter := ['e'], address := .none, token := wordToken },
   { letter := ['f'], address := .none, token := wordToken },
   { letter := ['g'], regexp := true, body := ['p'] },
   { letter := ['i'], text := true },
   { letter := ['m'], target := true },
   { letter := ['p'] },
   { letter := ['r'], token := wordToken },
   { letter := ['s'], regexp := true, count := .unsigned },
   { letter := ['t'], target := true },
   { letter := ['u'], address := .none, count := .signed },
   { letter := ['v'], regexp := true, body := ['p'] },
   { letter := ['w'], address := .all, token := wordToken },
   { letter := ['x'], regexp := true, body := ['p'] },
   { letter := ['y'], regexp := true, body := ['p'] },
   { letter := ['='], token := lineToken },
   { letter := ['B'], address := .none, token := lineToken },
   { letter := ['D'], address := .none, token := lineToken },
   { letter := ['X'], regexp := true, body := ['f'], address := .none },
   { letter := ['Y'], regexp := true, body := ['f'], address := .none },
   { letter := ['<'], token := lineToken },
   { letter := ['|'], token := lineToken },
   { letter := ['>'], token := lineToken }]

def lookupCommand (letter : Text) : Option CommandSpec :=
  commandTable.find? (·.letter == letter)

end StructuralEdit
