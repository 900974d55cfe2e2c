import StructuralEdit.Session.Resolve

/-! # Pipes

Commands that run an external program. Other commands may run while the program
is waited for.
-/
namespace StructuralEdit.Run

/-- Run a command in the directory of a buffer and report what it writes as errors. -/
def runCommand (h : Option Handle) (command : Text) (input : Option Text) : Run Completion := do
  let s ← get
  let request : ProcessRequest := ⟨command, input, s.directory h⟩
  let result := s.runner.run s.invocations.length request s.workspace.store
  let invocation : Invocation := ⟨request, if result.isStarted then some false else none⟩
  modifyWorkspace fun w => { w with store := result.store }
  modify fun s => { s with invocations := s.invocations ++ [invocation] }
  match result.answer with
  | .error f => throw f.fault
  | .ok c =>
    if !c.errors.isEmpty then
      warn (if c.errors.getLast? = some '\n' then c.errors else c.errors ++ ['\n'])
    return c

def trimPads (t : Text) : Text := t.dropWhile Text.isPad

/-- The file names of an argument; behind `<` they are what a command prints. -/
def fileList (h : Option Handle) (argument : Text) : Run Text := do
  match trimPads argument with
  | '<' :: rest =>
    let command := trimPads rest
    if command.isEmpty then fail (.noCommand ['<'])
    return (← runCommand h command none).output
  | names => return names

/-- A command of a pipe, which must not be empty. -/
def pipeCommand (letter : Char) (argument : Text) : Run Text := do
  let command := trimPads argument
  if command.isEmpty then fail (.noCommand [letter])
  return command

/-- Replace a range by what a command prints, which reads the range if it is a filter. -/
def pipeIn (letter : Char) (a : Target) (argument : Text) (reads : Bool) : Run Unit := do
  let command ← pipeCommand letter argument
  setDot a.buffer a.r
  let piece := (← buffer a.buffer).slice a.r.q0 a.r.q1
  let c ← runCommand (some a.buffer) command (if reads then some piece else none)
  record a.buffer fun log => log.replace a.r.q0 a.r.q1 c.output

/-- Give a range to a command and show what it prints. -/
def pipeOut (a : Target) (argument : Text) : Run Unit := do
  let command ← pipeCommand '>' argument
  setDot a.buffer a.r
  let c ← runCommand (some a.buffer) command
    (some ((← buffer a.buffer).slice a.r.q0 a.r.q1))
  if !c.output.isEmpty then warn c.output

end StructuralEdit.Run
