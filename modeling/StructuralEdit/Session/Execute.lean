import StructuralEdit.Address.Position
import StructuralEdit.Command.Syntax
import StructuralEdit.Search.Replacement
import StructuralEdit.Session.FileCommands

/-! # Executing commands

Commands record changes in the edit logs of buffers and move dots; only undoing
touches a text at once. A loop collects all its ranges before its body is run.
-/
namespace StructuralEdit.Run
open Pattern

/-! ## Actions on a range -/

def insertAt (h : Handle) (q : Int) (text : Text) : Run Unit := do
  if !text.isEmpty then record h fun log => log.insert q text
  setDot h (.point q)

def change (a : Target) (text : Text) : Run Unit := do
  record a.buffer fun log => log.replace a.r.q0 a.r.q1 text
  setDot a.buffer a.r

def delete (a : Target) : Run Unit := do
  if a.r.q0 < a.r.q1 then record a.buffer fun log => log.delete a.r.q0 a.r.q1
  setDot a.buffer (.point a.r.q0)

def copyTo (a dest : Target) : Run Unit := do
  let text := (← buffer a.buffer).slice a.r.q0 a.r.q1
  record dest.buffer fun log => log.insert dest.r.q1 text

/-- Move a range behind another; both changes are recorded from left to right. -/
def moveTo (a dest : Target) : Run Unit := do
  let remove := record a.buffer fun log => log.delete a.r.q0 a.r.q1
  if a.buffer ≠ dest.buffer ∨ a.r.q1 ≤ dest.r.q0 then
    remove
    copyTo a dest
  else if dest.r.q1 ≤ a.r.q0 then
    copyTo a dest
    remove
  else if a.r = dest.r then return
  else fail .moveOverlaps

def print (a : Target) : Run Unit := do
  let b ← buffer a.buffer
  let q1 := min a.r.q1 b.size
  if a.r.q0 < q1 then warn (b.slice a.r.q0 q1)
  setDot a.buffer a.r

/-- Replace the selected matches; all replacements are made before one is recorded. -/
def substitute (a : Target) (re : Text) (count : Int) (template : Text) (all : Bool) :
    Run Unit := do
  let re ← compileFor 's' re
  let text := (← buffer a.buffer).text
  let selected ← searching (Replacement.selected re text a.r all count)
  for m in selected do
    record a.buffer fun log =>
      log.replace m.start m.stop (Replacement.expand text m.spans template)
  if selected.isEmpty && (← get).nest = 0 then fail .noSubstitution
  setDot a.buffer a.r

def undo (h : Handle) (steps : Int) : Run Unit := updateBuffer h (·.travel steps)

def showPosition (a : Target) (mode : Text) : Run Unit := do
  if 1 < mode.length then fail .newlineExpected
  let b ← buffer a.buffer
  let owner := if b.name.isEmpty then [] else b.name ++ [':']
  let position ← reading (Position.render b.text a.r mode)
  warn (owner ++ position ++ ['\n'])

/-- Extend dot to whole lines, or step to the next line if it is made of them. -/
def nextLine (h : Handle) : Run Unit := do
  let dot ← dotOf h
  let first ← lineAddress 0 dot (-1)
  let last ← lineAddress 0 dot 1
  let extended : Span := ⟨first.r.q0, last.r.q1⟩
  let r ← if extended = dot.r then do pure (← lineAddress 1 dot 1).r else pure extended
  setDot h r

/-! ## Addresses of commands -/

/-- The buffer a command is run from. -/
def homeOf : Option Handle → Run Handle
  | some h => return h
  | none => throw .noBuffer

/-- The address of a command with its default filled in, behind a lone file step too. -/
def withDefault (whole : Bool) (h : Option Handle) : Option Addr → Run Target
  | none => do
    let h ← homeOf h
    if whole then wholeOf h else dotOf h
  | some (.chain [.file re]) => do
    let h ← matchFile re
    if whole then wholeOf h else dotOf h
  | some addr => resolveFrom h addr

/-- Only some commands, and those whose address begins with a file, do without a buffer. -/
def requireWindow (h : Option Handle) (c : Cmd) : Run Unit := do
  let choosesFile := match c.addr? with
    | some addr => addr.startsWithFile
    | none => false
  if h.isNone && !choosesFile && !c.windowless then fail .noCurrentWindow

/-! ## Loops -/

/-- The ranges a loop visits inside a range. -/
def loopRanges (loop : RangeLoop) (a : Target) : Run (List Span) := do
  let text := (← buffer a.buffer).text
  let matches' := fun re => do
    let re ← compileFor loop.letter re
    return (← searching (re.forward text a.r.q0 (some a.r.q1) none)).map Match.span
  match loop with
  | .lines => return Lines.ranges a.r.q0 (text.slice a.r.q0 a.r.q1)
  | .matching re => matches' re
  | .between re => return a.r.gaps (← matches' re)

/-- Those of some buffers that a loop visits. -/
def loopBuffers (loop : BufferLoop) : List Handle → Run (List Handle)
  | [] => return []
  | h :: rest => do
    let visits ← match loop with
      | .named => pure (!(← buffer h).name.isEmpty)
      | .matching re => fileMatches h re
      | .others re => do pure (!(← fileMatches h re))
    let more ← loopBuffers loop rest
    return if visits then h :: more else more

def enterLoop : Run Unit := modify fun s => { s with nest := s.nest + 1 }

def leaveLoop (s : Session) : Session := { s with nest := s.nest - 1 }

def enterBufferLoop (letter : Char) : Run Unit := do
  if (← get).bufferLoops ≠ 0 then fail (.nestedBufferLoop letter)
  modify fun s => { s with bufferLoops := s.bufferLoops + 1, nest := s.nest + 1 }

def leaveBufferLoop (s : Session) : Session :=
  { s with bufferLoops := s.bufferLoops - 1, nest := s.nest - 1 }

/-- Run something for each of some buffers, all of them pinned the while. -/
def withPinned (hs : List Handle) (body : Run Unit) : Run Unit := do
  modifyWorkspace (·.hold hs)
  ensuring body fun s => { s with workspace := s.workspace.release hs }

/-- Run something once for each range, with dot set to it. -/
def eachRange (h : Handle) (body : Run Unit) : List Span → Run Unit
  | [] => return
  | r :: rest => do
    setDot h r
    body
    eachRange h body rest

/-- Run something once in each buffer. -/
def eachBuffer (body : Handle → Run Unit) : List Handle → Run Unit
  | [] => return
  | h :: rest => do
    body h
    eachBuffer body rest

/-! ## Commands -/

/-- Run something on the range of a command. -/
def onRange (whole : Bool) (h : Option Handle) (addr : Option Addr) (f : Target → Run Unit) :
    Run Unit := do
  f (← withDefault whole h addr)

/-- Run something on the buffer of a command that takes no address. -/
def onBuffer (h : Option Handle) (f : Handle → Run Unit) : Run Unit := do
  f (← homeOf h)

/-- Refuse a letter that nothing handles. If it is one of the table its address is resolved first. -/
def refuseLetter (h : Option Handle) (addr : Option Addr) (letter : Char) : Run Unit := do
  if let some spec := lookupCommand [letter] then
    if spec.takesAddress then
      discard (withDefault (spec.address == .all) h addr)
  fail (.parse (.unknownCommand [letter]))

def runAction (h : Option Handle) (addr : Option Addr) : Action → Run Unit
  | .newline =>
    match addr with
    | none => onBuffer h nextLine
    | some a => do
      let t ← resolveFrom h a
      setDot t.buffer t.r
  | .append text => onRange false h addr fun a => insertAt a.buffer a.r.q1 text
  | .insert text => onRange false h addr fun a => insertAt a.buffer a.r.q0 text
  | .change text => onRange false h addr fun a => change a text
  | .delete => onRange false h addr delete
  | .move target => onRange false h addr fun a => do
      moveTo a (← resolveChain target (← dotOf a.buffer) 0)
  | .copy target => onRange false h addr fun a => do
      copyTo a (← resolveChain target (← dotOf a.buffer) 0)
  | .print => onRange false h addr print
  | .substitute re count template all =>
    onRange false h addr fun a => substitute a re count template all
  | .undo steps => onBuffer h fun h => undo h steps
  | .position mode => onRange false h addr fun a => showPosition a mode
  | .switch name => switchTo name
  | .openFiles names => openFiles h names
  | .closeFiles names => closeFiles h names
  | .load name => onBuffer h fun h => loadFile h name
  | .read name => onRange false h addr fun a => insertFile a.buffer a.r name false
  | .rename name => onBuffer h fun h => nameBuffer h name
  | .write name => onRange true h addr fun a => writeFile a.buffer a.r name
  | .fromPipe command => onRange false h addr fun a => pipeIn '<' a command false
  | .throughPipe command => onRange false h addr fun a => pipeIn '|' a command true
  | .toPipe command => onRange false h addr fun a => pipeOut a command
  | .other letter _ => refuseLetter h addr letter

mutual

/-- Run a command from a buffer, or from none. -/
def execute (h : Option Handle) : Cmd → Run Unit
  | .act addr action => do
    requireWindow h (.act addr action)
    runAction h addr action
  | .guard addr re negated body => do
    requireWindow h (.guard addr re negated body)
    let a ← withDefault false h addr
    let pattern ← compileFor (if negated then 'v' else 'g') re
    let found ← searching (pattern.first? (← buffer a.buffer).text a.r.q0 (some a.r.q1))
    if found.isSome != negated then
      setDot a.buffer a.r
      execute (some a.buffer) body
  | .extract addr loop body => do
    requireWindow h (.extract addr loop body)
    let a ← withDefault false h addr
    enterLoop
    ensuring (do eachRange a.buffer (execute (some a.buffer) body) (← loopRanges loop a)) leaveLoop
  | .buffers loop body => do
    enterBufferLoop loop.letter
    ensuring (do
      let hs ← loopBuffers loop (← get).workspace.listed
      withPinned hs (eachBuffer (fun h => execute (some h) body) hs)) leaveBufferLoop
  | .group addr body => do
    requireWindow h (.group addr body)
    let a ← match addr with
      | none => do dotOf (← homeOf h)
      | some addr => resolveFrom h addr
    executeGroup a body

/-- Run the commands of a group, each from the same dot. -/
def executeGroup (a : Target) : List Cmd → Run Unit
  | [] => return
  | c :: rest => do
    if (← buffer a.buffer).size < a.r.q1 then fail .dotBeyondBuffer
    setDot a.buffer a.r
    execute (some a.buffer) c
    executeGroup a rest

end

end StructuralEdit.Run
