import StructuralEdit.Session.Pipes
import StructuralEdit.Text.Basic

/-! # Files and buffers

Switching, opening, closing, loading, naming and writing. A command that would
lose unsaved changes is refused once; given again it goes ahead.
-/
namespace StructuralEdit.Run

/-- A name relative to the directory of a buffer. -/
def pathFrom (h : Option Handle) (name : Text) : Run Text := do
  if Path.isAbsolute name then return name
  let s ← get
  match h with
  | none => return Path.normalize name
  | some h =>
    let dir := s.workspace.directoryOf (s.buffer h)
    return Path.normalize (if dir.isEmpty then name else Path.join dir name)

/-- The name a command refers to: that of the buffer if it is given none. The buffer takes the
name if it is to be renamed, or has none. -/
def commandName (h : Handle) (argument : Text) (rename : Bool) : Run Text := do
  let own := (← buffer h).name
  if argument.isEmpty then return own
  let stripped := trimPads argument
  let name ← if stripped.isEmpty then pure [] else pathFrom (some h) stripped
  if !stripped.isEmpty then
    let s ← get
    for other in s.workspace.listed do
      if other ≠ h && (s.buffer other).name = name then
        warn ("warning: duplicate file name \"".toList ++ name ++ "\"\n".toList)
  if (rename || (!stripped.isEmpty && own.isEmpty)) && name ≠ own then
    updateBuffer h (·.rename name)
  return name

def trimLine (t : Text) : Text :=
  let blank := fun c => Text.isPad c || c == '\n'
  ((t.dropWhile blank).reverse.dropWhile blank).reverse

/-- Make the buffer of a name current, and show it unless a loop is at work. -/
def switchTo (argument : Text) : Run Unit := do
  let name := trimLine argument
  let s ← get
  match s.workspace.lookup name with
  | none => fail (.noSuchFile name)
  | some h =>
    if s.nest = 0 then warn (s.menuLine h)
    modify fun s => { s with current := some h }

/-- Open a file that is not open. -/
def openPath (path : Text) : Run Unit := do
  let w := (← get).workspace
  if (w.lookup path).isNone && w.store.isSealed path then throw (.unreadable path)
  modifyWorkspace fun w => (w.openFile path).2

/-- Open every file of a list that is not open. -/
def openFiles (h : Option Handle) (argument : Text) : Run Unit := do
  let names ← fileList h argument
  if names.isEmpty then fail .noFileName
  for name in Text.words Text.isBlank names do
    openPath (← pathFrom h name)

/-- Close a buffer; one with unsaved changes is reported and taken for clean instead. -/
def closeBuffer (h : Handle) : Run Unit := do
  let b ← buffer h
  if b.unsaved then
    warn (b.name ++ " modified\n".toList)
    updateBuffer h (·.markClean)
  else
    modifyWorkspace (·.close h)
    modify fun s => if s.current = some h then { s with current := none } else s

/-- Close the buffers of a list of names, or the given one if there is no list. -/
def closeFiles (h : Option Handle) (argument : Text) : Run Unit := do
  let names ← fileList h argument
  if names.isEmpty then
    match h with
    | some h => closeBuffer h
    | none => return
  for name in Text.words Text.isBlank names do
    let path ← pathFrom h name
    match (← get).workspace.lookup path with
    | some target => closeBuffer target
    | none => fail (.noSuchFile path)

/-- The size at which the text of an unnamed buffer counts as work that could be lost. -/
def unnamedLimit : Nat := 100

/-- Refuse, once, to lose unsaved changes. -/
def refuseIfDirty (h : Handle) : Run Unit := do
  let b ← buffer h
  if b.dirty && (!b.name.isEmpty || unnamedLimit ≤ b.size) then
    updateBuffer h (·.markClean)
    fail (.modified b.name)

/-- The text of a file. -/
def readFile (name : Text) : Run Text := do
  let store := (← get).workspace.store
  if store.isDirectory name then fail (.isDirectory name)
  match store.read name with
  | .ok bytes => return Text.decode bytes
  | .error .embeddedNull => throw .embeddedNull
  | .error f => fail (.cannotOpen name f)

/-- Replace a range by a file without its null characters. A buffer that is replaced as a whole
by its own file will be clean. -/
def insertFile (h : Handle) (r : Span) (argument : Text) (rename : Bool) : Run Unit := do
  let whole := r.q0 = 0 ∧ r.q1 = (← buffer h).size
  let name ← commandName h argument rename
  if name.isEmpty then fail .noFileName
  let own := (← buffer h).name
  let text ← readFile name
  let plain := text.filter (· != Char.ofNat 0)
  record h fun log => log.replace r.q0 r.q1 plain
  if plain.length < text.length then warn (name ++ ": NUL bytes elided\n".toList)
  else if whole ∧ name = own then
    let diskTime := (← get).workspace.store.time? name
    updateBuffer h fun b => { b with editClean := true, diskTime }

/-- Replace a whole buffer by a file. -/
def loadFile (h : Handle) (argument : Text) : Run Unit := do
  refuseIfDirty h
  insertFile h ⟨0, (← buffer h).size⟩ argument true

def nameBuffer (h : Handle) (argument : Text) : Run Unit := do
  let _ ← commandName h argument true
  warn ((← get).menuLine h)

/-- How much newer than the version a buffer knows a file may be and pass for that version. -/
def tolerance : Int := 1000000

/-- What is wrong with overwriting a buffer's own file: it holds a version that the buffer does
not know. -/
def unknownVersion (b : Buffer) (time : Int) : Option Text :=
  match b.diskTime with
  | none => some " not written; file already exists\n".toList
  | some known =>
    if tolerance < time - known then some " modified since last read\n".toList else none

/-- Write a range to a file. -/
def putFile (h : Handle) (r : Span) (name : Text) : Run Unit := do
  let b ← buffer h
  let store := (← get).workspace.store
  if name = b.name then
    if let some time := store.time? name then
      if let some report := unknownVersion b time then
        updateBuffer h fun b => { b with diskTime := some time }
        warn (name ++ report)
        return
  match store.write name (Text.encode (b.slice r.q0 r.q1)) with
  | .error .embeddedNull => throw .embeddedNull
  | .error f => warn ("can't create file ".toList ++ name ++ ": ".toList ++ f.message ++ ['\n'])
  | .ok store =>
    modifyWorkspace fun w => { w with store }
    if name = b.name then
      if r.q0 = 0 ∧ r.q1 = b.size then
        updateBuffer h fun b => { b with diskTime := store.time? name }
        updateBuffer h (·.markClean)
      else updateBuffer h (·.markDirty)

def writeFile (h : Handle) (r : Span) (argument : Text) : Run Unit := do
  if !(← buffer h).log.isEmpty then fail .pendingChanges
  let name ← commandName h argument false
  if name.isEmpty then fail .noWriteName
  putFile h r name

end StructuralEdit.Run
