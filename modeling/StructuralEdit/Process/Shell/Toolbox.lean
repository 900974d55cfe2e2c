import StructuralEdit.Process.Shell.Tool.Cat
import StructuralEdit.Process.Shell.Tool.Count
import StructuralEdit.Process.Shell.Tool.Echo
import StructuralEdit.Process.Shell.Tool.Sort
import StructuralEdit.Process.Shell.Tool.Translate

/-! # The tools that are there

Tools are found by name where programs are looked for, and run on the channels of a
command.
-/
namespace StructuralEdit.Shell
open Text (Bytes)

abbrev Tool := Tool.Desk → Tool.Outcome

/-- The programs that can be started, besides shells. -/
def tools : List (Bytes × Tool) :=
  [(bytes "cat", Tool.Cat.run), (bytes "tr", Tool.Translate.run), (bytes "wc", Tool.Count.run),
    (bytes "sort", Tool.Sort.run), (bytes "echo", Tool.Echo.run), (bytes "true", fun _ => {}),
    (bytes "false", fun _ => { status := 1 })]

/-- The names of shells. -/
def shellNames : List Bytes := [bytes "sh", bytes "dash"]

/-- Where programs are looked for. -/
def programDirectories : List Bytes := [bytes "/bin/", bytes "/usr/bin/"]

inductive Program
  | shell
  | tool (t : Tool)

/-- Why a program cannot be started. -/
inductive StartFault
  | file (f : FileFault)
  /-- It is not to be run. -/
  | denied
deriving DecidableEq

def StartFault.message : StartFault → Bytes
  | file f => Text.encode f.message
  | denied => bytes "Permission denied"

/-- A program by its name alone. -/
def programNamed (name : Bytes) : Except StartFault Program :=
  if shellNames.contains name then .ok .shell
  else match tools.lookup name with
    | some t => .ok (.tool t)
    | none =>
      if name.isEmpty then .error .denied
      else if FileStore.longestPart < name.length then .error (.file .nameTooLong)
      else .error (.file .missing)

/-- What a name starts, which may be a path. None of the stored files is to be run. -/
def World.program (w : World) (name : Bytes) : Except StartFault Program :=
  if name.contains (byte '/') then
    match programDirectories.find? (·.isPrefixOf name) with
    | some d => programNamed (name.drop d.length)
    | none =>
      match w.store.place (w.path name) with
      | .file _ | .directory => .error .denied
      | .vacant _ => .error (.file .missing)
      | .nowhere f => .error (.file f)
  else programNamed name

/-- What a tool sees of a world. -/
def World.desk (w : World) (name : Bytes) (arguments : List Bytes) : Tool.Desk :=
  let target := match w.channel? 1 with
    | some (.file path offset) =>
      match w.store.place path with
      | .file f => some (f.location, offset.getD f.content.length)
      | _ => none
    | _ => none
  { name, arguments
    input := (w.channel? 0).bind Tool.readChannel
    target := target.map (·.1)
    targetOffset := (target.map (·.2)).getD 0
    isOutputClosed := (w.channel? 1).isNone
    source := fun name => match w.source name with
      | .ok c => match Tool.readChannel c with
        | some found => .ok found
        | none => .error .missing
      | .error f => .error f
    writable := fun name => (w.store.write (w.path name) []).map fun _ => () }

/-- Print what a tool has printed. Output that cannot be printed is complained of at the end. -/
def printAll (name : Bytes) : (isLost : Bool) → List Tool.Print → Eval Bool
  | isLost, [] => do
    if isLost then
      discard (print 2 (line (name ++ bytes ": write error: " ++ Tool.closedMessage)))
    return isLost
  | isLost, .output t :: rest => do
    if t.isEmpty then printAll name isLost rest
    else
      let isPrinted ← print 1 t
      printAll name (isLost || !isPrinted) rest
  | isLost, .errors t :: rest => do
    discard (print 2 t)
    printAll name isLost rest

/-- Run a tool on the channels of a command. -/
def runTool (tool : Tool) (name : Bytes) (arguments : List Bytes) : Eval Unit := do
  let w ← get
  let outcome := tool (w.desk name arguments)
  if outcome.hasRead then
    match w.channel? 0 with
    | some (.source _ o) => set (w.setChannel 0 (.source [] o))
    | _ => pure ()
  match outcome.saved with
  | some (name, t) => modify fun w => { w with store := (w.store.write (w.path name) t).toOption.getD w.store }
  | none => pure ()
  let isLost ← printAll name false outcome.prints
  setStatus (if isLost then max 1 outcome.status else outcome.status)

end StructuralEdit.Shell
