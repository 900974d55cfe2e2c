import StructuralEdit.Files.Store
import StructuralEdit.Text.Decoding

/-! # Running external commands

A runner starts a command and gives what it has printed, or the reason why there is
nothing. Whatever programs do is up to the runner; so it is a function, about which
nothing is assumed. A scripted runner knows the answer to each command beforehand.
-/
namespace StructuralEdit

structure Completion where
  output : Text := []
  errors : Text := []
  status : Int := 0

/-- What a runner is asked to run. Without an input there is nothing to read. -/
structure ProcessRequest where
  command : Text
  input : Option Text
  directory : Text

/-- Why a command gives no output. -/
inductive ProcessFault
  /-- It cannot be started. -/
  | refused (report : Text)
  /-- A null character stands in what would be handed to it. -/
  | embeddedNull
  /-- What it has printed is no text. -/
  | encoding (f : Text.EncodingFault)

/-- The command was started. -/
def ProcessFault.isStarted : ProcessFault → Bool
  | encoding _ => true
  | refused _ | embeddedNull => false

/-- What comes of a command, and the files there are when it has ended. -/
structure ProcessResult where
  answer : Except ProcessFault Completion
  store : FileStore

def ProcessResult.isStarted (r : ProcessResult) : Bool :=
  match r.answer with
  | .ok _ => true
  | .error f => f.isStarted

/-- What comes of a command may depend on how many were run before. -/
structure Runner where
  run : (before : Nat) → ProcessRequest → FileStore → ProcessResult

/-- A command that was given to a runner. -/
structure Invocation where
  request : ProcessRequest
  /-- Whether other commands were kept waiting, if the command could be started. -/
  locked : Option Bool

/-! ## Scripted runners -/

/-- How a scripted answer depends on what the command reads. -/
inductive Filter
  | wrap
  | count
deriving DecidableEq

structure Script where
  completion : Completion := {}
  filter : Option Filter := none
  /-- The report of a command that cannot be started. -/
  failure : Option Text := none

namespace Script

def output (s : Script) (input : Option Text) : Text :=
  let t := input.getD []
  match s.filter with
  | none => s.completion.output
  | some .wrap => '<' :: t ++ ['>']
  | some .count => Text.ofNat t.length ++ ['\n']

def answer (s : Script) (input : Option Text) : Except ProcessFault Completion :=
  match s.failure with
  | some report => .error (.refused report)
  | none => .ok { s.completion with output := s.output input }

end Script

/-- Answer commands by their scripts, and touch no file. Other commands are not found. -/
def Runner.scripted (scripts : List (Text × Script)) : Runner where
  run _ r store :=
    let script := (scripts.lookup r.command).getD
      { failure := some (r.command ++ ": not found".toList) }
    ⟨script.answer r.input, store⟩

end StructuralEdit
