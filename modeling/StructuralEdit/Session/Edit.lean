import StructuralEdit.Command.Parser
import StructuralEdit.Session.Execute

/-! # Running command text

Command text is run as a whole: the changes its commands record are committed at
the end, as one entry of each timeline, and an edit error drops all of them. Any
other fault escapes at once, with neither a rollback nor a commit.
-/
namespace StructuralEdit.Run

/-- Run something that may end in an edit error, and show the error. -/
def caught (x : Run Unit) : Run (Option EditError) := fun s =>
  match x s with
  | .ok _ s => .ok none s
  | .error (.edit e) s => .ok (some e) s
  | .error f s => .error f s

/-- Read the next command. The last pattern is shared with the reader, which may change it. -/
def nextCommand (c : Cursor) : Run (Option Cmd × Cursor) := do
  let keep := fun (c : Cursor) =>
    modify fun s => { s with patterns := { s.patterns with last := c.last } }
  match Parser.command { c with last := (← get).patterns.last } with
  | .ok cmd c =>
    keep c
    return (cmd, c)
  | .error e c =>
    keep c
    fail (.parse e)

/-- Run the commands of a text one after another, each from the buffer that is then current. -/
def runCommands : (fuel : Nat) → Cursor → Run Unit
  | 0, _ => return
  | fuel + 1, c => do
    let (cmd, c) ← nextCommand c
    match cmd with
    | none => return
    | some cmd =>
      execute (← get).current cmd
      runCommands fuel c

/-- Run command text from a buffer, which must be listed. Every command takes a character. -/
def runText (h : Option Handle) (text : Text) : Run Unit := do
  if let some h := h then
    if !(← get).workspace.listed.contains h then fail .bufferNotOpen
  let c := Cursor.ofCommand text []
  runCommands (c.rest.length + 1) c

/-- Drop all pending changes and report the error that ended a command. -/
def abandon (e : EditError) : Run Unit := do
  modifyWorkspace (·.rollback)
  warn ("Edit: ".toList ++ e.message ++ ['\n'])
  notify (.error e)

def commitBuffer (seq : Int) (h : Handle) : Run Unit := do
  match Buffer.commit seq (← buffer h) with
  | .ok _ b => updateBuffer h fun _ => b
  | .error f b =>
    updateBuffer h fun _ => b
    throw (.range f)

def commitBuffers (seq : Int) : List Handle → Run Unit
  | [] => return
  | h :: rest => do
    commitBuffer seq h
    commitBuffers seq rest

/-- Run command text from a buffer. Its changes are left pending, or dropped if an edit error has
ended it. -/
def carryOut (h : Option Handle) (text : Text) : Run (Option EditError) := do
  let failure ← caught (runText h text)
  if let some e := failure then abandon e
  return failure

/-- Commit what is pending in the listed buffers. -/
def commitListed : Run Unit := do
  let s ← get
  commitBuffers s.seq s.workspace.listed

/-- A new command begins in a buffer. -/
def begin (h : Option Handle) : Run Unit := do
  modifyWorkspace fun w =>
    { w.updateListed fun b => { b with editClean := false } with locked := true }
  modify fun s => { s with seq := s.seq + 1, nest := 0, bufferLoops := 0, current := h }

def unlock (s : Session) : Session := { s with workspace := { s.workspace with locked := false } }

def tooLong : Text := "string too long\n".toList

/-- Run command text from a buffer and commit what it did, or show the edit error that ended
it. -/
def edit (h : Option Handle) (text : Text) : Run (Option EditError) := do
  if text.isEmpty then return none
  if (← get).settings.maxCommand < text.length then
    warn tooLong
    return none
  begin h
  ensuring (do
    let failure ← carryOut h text
    commitListed
    return failure) unlock

end StructuralEdit.Run
