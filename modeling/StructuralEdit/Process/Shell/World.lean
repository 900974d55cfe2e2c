import StructuralEdit.Files.Store
import StructuralEdit.Process.Shell.Syntax

/-! # The world of a command line

Files, open channels, and what a shell remembers from one command to the next. Each stage
of a pipeline ends before the next one begins, which reads what it has printed.
-/
namespace StructuralEdit.FileStore
open Text (Bytes)

/-- Where following the parts of a name from a directory leads, if all of them are directories. -/
def directoryAt : Location → List Text → Location
  | here, [] => here
  | here, part :: rest =>
    if part.isEmpty || part == Path.dotPart then directoryAt here rest
    else if part == Path.parentPart then directoryAt here.dropLast rest
    else directoryAt (here ++ [part]) rest

/-- The location of a directory that is there. -/
def directory? (s : FileStore) (name : Text) : Option Location :=
  match s.place name with
  | .directory => some (directoryAt (s.base name) (Path.parts name))
  | _ => none

/-- Write bytes over those from an offset on. What lies between the end and the offset is zero. -/
def overwrite (offset : Nat) (bytes content : Bytes) : Bytes :=
  content.take offset ++ List.replicate (offset - content.length) 0 ++ bytes
    ++ content.drop (offset + bytes.length)

/-- Write into a file that has been opened, from an offset on or at the end. -/
def writeAt (s : FileStore) (name : Text) (offset : Option Nat) (bytes : Bytes) : FileStore :=
  match s.place name with
  | .file f =>
    let content := overwrite (offset.getD f.content.length) bytes f.content
    { s with files := s.files.map fun g =>
        if g.location == f.location then { g with content } else g }
  | _ => s

end StructuralEdit.FileStore

namespace StructuralEdit.Shell
open Text (Bytes)

/-- What a channel is read from. -/
inductive Origin
  | pipe
  | file (l : Location) (size : Nat)
  | directory
  | nullDevice
deriving DecidableEq

inductive Channel
  | source (rest : Bytes) (origin : Origin)
  /-- What has been printed, the last first. -/
  | collector (printed : List Bytes)
  /-- A file to write to from an offset on, or always at its end. -/
  | file (path : Text) (offset : Option Nat)
  | nullDevice

structure Variable where
  name : Bytes
  /-- A variable may be marked before it has a value. -/
  value : Option Bytes
  isReadOnly : Bool := false

structure World where
  store : FileStore
  directory : Text
  /-- The name the shell was started by. -/
  shellName : Bytes
  channels : Array Channel
  /-- The channels of open descriptors. -/
  descriptors : List (Nat × Nat)
  bindings : List Variable := []
  functions : List (Bytes × Command) := []
  arguments : List Bytes := []
  status : Nat := 0
  /-- The status of the last command whose output was put into a word. -/
  wordStatus : Nat := 0
  /-- How many loops are at work. -/
  loops : Nat := 0
  /-- How many functions are at work. -/
  calls : Nat := 0
  /-- The command of the shell itself that is at work. -/
  speaker : Option Bytes := none

/-- What ends a command before its time. -/
inductive Stop
  /-- The shell ends. -/
  | leave
  /-- Something has been complained of. -/
  | failed
  /-- So many loops end, the last of them only this time around if it `goesOn`. -/
  | loop (count : Nat) (goesOn : Bool)
  /-- The function at work ends. -/
  | returned
deriving DecidableEq

abbrev Eval := EStateM Stop World

namespace World

def nullDevice : Bytes := bytes "/dev/null"

/-- A file name in the directory of the command. -/
def path (w : World) (name : Bytes) : Text :=
  let t := Text.decode name
  if t.isEmpty then t else Path.join w.directory t

/-- What is opened when a file is opened to be read. -/
def source (w : World) (name : Bytes) : Except FileFault Channel :=
  if name == nullDevice then .ok .nullDevice
  else match w.store.place (w.path name) with
    | .file f => .ok (.source f.content (.file f.location f.content.length))
    | .directory => .ok (.source [] .directory)
    | .vacant _ => .error .missing
    | .nowhere e => .error e

def channel? (w : World) (descriptor : Nat) : Option Channel :=
  (w.descriptors.lookup descriptor).bind fun i => w.channels[i]?

def setChannel (w : World) (descriptor : Nat) (c : Channel) : World :=
  match w.descriptors.lookup descriptor with
  | some i => { w with channels := w.channels.setIfInBounds i c }
  | none => w

def closeDescriptor (w : World) (descriptor : Nat) : World :=
  { w with descriptors := w.descriptors.filter (·.1 != descriptor) }

/-- Let a descriptor stand for a channel that is open already. -/
def pointDescriptor (w : World) (descriptor channel : Nat) : World :=
  { w with descriptors := (descriptor, channel) :: (w.closeDescriptor descriptor).descriptors }

/-- Open a channel. -/
def openChannel (w : World) (descriptor : Nat) (c : Channel) : World :=
  { w with channels := w.channels.push c }.pointDescriptor descriptor w.channels.size

/-- What has been printed into a channel. -/
def printed (w : World) (channel : Nat) : Bytes :=
  match w.channels[channel]? with
  | some (.collector ts) => ts.reverse.flatten
  | _ => []

/-- Print to a descriptor; `none` if that cannot be done. -/
def print? (w : World) (descriptor : Nat) (t : Bytes) : Option World :=
  match w.channel? descriptor with
  | some (.collector ts) => some (w.setChannel descriptor (.collector (t :: ts)))
  | some (.file path offset) =>
    let w := w.setChannel descriptor (.file path (offset.map (· + t.length)))
    some { w with store := w.store.writeAt path offset t }
  | some .nullDevice => some w
  | _ => none

/-- What the shell says begins with its name, the line, of which there is one, and the command at
work. -/
def voice (w : World) : Bytes :=
  w.shellName ++ bytes ": 1: " ++ match w.speaker with
    | some name => name ++ bytes ": "
    | none => []

/-- The names of files and directories that stand in a directory. -/
def entries (w : World) (path : Bytes) : List Bytes :=
  let s := w.store
  let inside := fun (here l : Location) => l.isPrefixOf here && here.length = l.length + 1
  let found := match s.directory? (w.path (if path.isEmpty then [byte '.'] else path)) with
    | some l =>
      ((s.files.map (·.location) ++ s.directories).filter (inside · l)).filterMap fun here =>
        here.getLast?.map Text.encode
    | none => []
  bytes "." :: bytes ".." :: found

end World

/-! ## Saying something -/

/-- Print to a descriptor, if that can be done. -/
def print (descriptor : Nat) (t : Bytes) : Eval Bool := do
  match (← get).print? descriptor t with
  | some w =>
    set w
    return true
  | none => return false

/-- Say something in the name of the shell. -/
def complain (t : Bytes) : Eval Unit := do
  discard (print 2 (line ((← get).voice ++ t)))

def setStatus (n : Nat) : Eval Unit := modify fun w => { w with status := n }

/-- Complain of something that cannot be gone on from. -/
def fail {α : Type} (t : Bytes) : Eval α := do
  complain t
  setStatus 2
  throw .failed

/-! ## Variables -/

def separatorsName : Bytes := bytes "IFS"

/-- The variables that a shell begins with. -/
def firstVariables : List Variable :=
  [⟨separatorsName, some [32, 9, 10], false⟩, ⟨bytes "OPTIND", some (bytes "1"), false⟩,
    ⟨bytes "PS1", some (bytes "$ "), false⟩, ⟨bytes "PS2", some (bytes "> "), false⟩,
    ⟨bytes "PS4", some (bytes "+ "), false⟩, ⟨bytes "LC_ALL", some (bytes "C"), false⟩]

namespace World

def variableOf? (w : World) (name : Bytes) : Option Variable := w.bindings.find? (·.name == name)

def value? (w : World) (name : Bytes) : Option Bytes := (w.variableOf? name).bind (·.value)

def setVariable (w : World) (v : Variable) : World :=
  { w with bindings := v :: w.bindings.filter (·.name != v.name) }

end World

/-- Give a variable a value. -/
def assign (name value : Bytes) : Eval Unit := do
  if !isName name then fail (name ++ bytes ": bad variable name")
  match (← get).variableOf? name with
  | some v =>
    if v.isReadOnly then fail (name ++ bytes ": is read only")
    modify fun w => w.setVariable { v with value := some value }
  | none => modify fun w => w.setVariable ⟨name, some value, false⟩

/-! ## Keeping apart -/

/-- Put back what an ended command has changed, also if it ended before its time. -/
def restoring {α : Type} (restore : World → World → World) (body : Eval α) : Eval α := do
  let before ← get
  try
    let a ← body
    modify (restore before)
    return a
  catch e =>
    modify (restore before)
    throw e

/-- What a shell of its own leaves behind: files, what was printed and read, and a status. -/
def World.leftBehind (before after : World) : World :=
  { before with store := after.store, channels := after.channels, status := after.status }

/-- Run something in a shell of its own, which ends with it. -/
def apart (body : Eval Unit) : Eval Unit := do
  let before ← get
  try body catch _ => pure ()
  modify before.leftBehind

/-- What something prints on the standard output, in a shell of its own. -/
def captured (body : Eval Unit) : Eval Bytes := do
  let before ← get
  let channel := before.channels.size
  set (before.openChannel 1 (.collector []))
  apart body
  let after ← get
  set { after with descriptors := before.descriptors }
  return after.printed channel

end StructuralEdit.Shell
