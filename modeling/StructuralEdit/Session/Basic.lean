import StructuralEdit.Fault
import StructuralEdit.Process.Runner
import StructuralEdit.Search.Memory
import StructuralEdit.Settings
import StructuralEdit.Workspace

/-! # Edit sessions

A session is all that a command can see besides its text. What a command did
before it failed stays done, so a failure carries on with the session as it is.
-/
namespace StructuralEdit
open Pattern

inductive Notice
  | warning (text : Text)
  | error (e : EditError)

structure Session where
  workspace : Workspace := {}
  /-- Warnings not yet shown. -/
  messages : List Text := []
  /-- Everything reported, in order. -/
  notices : List Notice := []
  settings : Settings := {}
  runner : Runner := .scripted []
  /-- The commands given to the runner. -/
  invocations : List Invocation := []
  patterns : PatternMemory := {}
  current : Option Handle := none
  /-- The number of loops at work. -/
  nest : Nat := 0
  /-- The number of loops over buffers at work. -/
  bufferLoops : Nat := 0
  /-- Numbers the commands. -/
  seq : Int := 0

abbrev Run := EStateM Fault Session

namespace Session

/-- The session between commands, with the warnings taken out. -/
def drain (s : Session) : List Text × Session := (s.messages, { s with messages := [] })

def buffer (s : Session) (h : Handle) : Buffer := s.workspace.buffer h

/-- The directory a command is run in: that of a buffer, or the workspace's own. -/
def directory (s : Session) (h : Option Handle) : Text :=
  match h.or s.current with
  | none => s.workspace.directory
  | some h =>
    let dir := s.workspace.directoryOf (s.buffer h)
    if dir.isEmpty then s.workspace.directory else dir

/-- The line that shows a buffer in lists: whether it is unsaved, whether current, and its name. -/
def menuLine (s : Session) (h : Handle) : Text :=
  let b := s.buffer h
  (if b.unsaved then '\'' else ' ') :: '+' :: (if s.current = some h then '.' else ' ') :: ' '
    :: b.name ++ ['\n']

end Session

namespace Run

def fail {α : Type} (e : EditError) : Run α := throw (.edit e)

/-- What a reading gives, or the fault it ends in. -/
def reading {α : Type} : Except OffsetFault α → Run α
  | .ok a => return a
  | .error f => throw (.offset f)

/-- What a search gives, or the fault it ends in. -/
def searching {α : Type} : Except SearchFault α → Run α
  | .ok a => return a
  | .error f => throw (.search f)

def warn (t : Text) : Run Unit :=
  modify fun s => { s with messages := s.messages ++ [t], notices := s.notices ++ [.warning t] }

def notify (n : Notice) : Run Unit :=
  modify fun s => { s with notices := s.notices ++ [n] }

/-- Do something whether or not the rest fails. -/
def ensuring {α : Type} (x : Run α) (after : Session → Session) : Run α := fun s =>
  match x s with
  | .ok a s => .ok a (after s)
  | .error e s => .error e (after s)

def buffer (h : Handle) : Run Buffer := return (← get).buffer h

def modifyWorkspace (f : Workspace → Workspace) : Run Unit :=
  modify fun s => { s with workspace := f s.workspace }

def updateBuffer (h : Handle) (f : Buffer → Buffer) : Run Unit :=
  modifyWorkspace fun w => w.update h f

def setDot (h : Handle) (r : Span) : Run Unit := updateBuffer h fun b => { b with dot := r }

/-- Record a change in the log of a buffer, and report a warning it gives. -/
def record (h : Handle) (change : EditLog → EditLog × Option OrderWarning) : Run Unit := do
  let (log, warning) := change (← buffer h).log
  updateBuffer h fun b => { b with log }
  match warning with
  | some w => warn (w.message ++ ['\n'])
  | none => return

/-- Compile a pattern that is used in some place of a command. -/
def compile (pattern place : Text) : Run Regex := do
  let (result, patterns) := (← get).patterns.compile pattern
  modify fun s => { s with patterns }
  match result with
  | .ok re => return re
  | .error (.bad ..) => fail (.badPattern place)
  | .error f => throw (.pattern f)

/-- Compile the pattern of a command. -/
def compileFor (letter : Char) (pattern : Text) : Run Regex :=
  compile pattern (letter :: " command".toList)

end Run

end StructuralEdit
