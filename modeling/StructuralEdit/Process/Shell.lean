import StructuralEdit.Process.Runner
import StructuralEdit.Process.Shell.Evaluation

/-! # A runner that interprets command lines

One of the runners that a session can be given, for command lines of a shell. A program is
started in a directory of the file store, told to run a command line; what it prints is kept
as bytes. Sessions take any runner, and what is proved of them does not rest on this one.
-/
namespace StructuralEdit.Shell
open Text (Bytes)

/-- What an ended program leaves behind. -/
structure Remains where
  output : Bytes
  errors : Bytes
  status : Nat
  store : FileStore

/-- How many steps a command line can take. -/
def budget : Nat := 1000000

/-- The world of a program that is started by a name. Without an input there is nothing to read. -/
def World.ofInput (store : FileStore) (directory : Text) (name : Bytes) (input : Option Bytes) :
    World where
  store
  directory
  shellName := name
  channels := #[match input with
    | some t => .source t .pipe
    | none => .nullDevice, .collector [], .collector []]
  descriptors := [(0, 0), (1, 1), (2, 2)]
  bindings := firstVariables

def World.remains (w : World) : Remains := ⟨w.printed 1, w.printed 2, w.status, w.store⟩

/-- Letters of options that a shell is started with. -/
def startLetters : Bytes := bytes "CEIVabcefilmnopsuvx"

/-- A command line that begins with a sign is taken for options, behind which there is none. -/
def startComplaint? (command : Bytes) : Option Bytes :=
  match command with
  | [] => none
  | sign :: letters =>
    if sign != byte '-' && sign != byte '+' then none
    else match letters.find? (!startLetters.contains ·) with
      | some b =>
        if command == bytes "--" then some missing
        else some (bytes "Illegal option -" ++ [b])
      | none => some missing
where
  missing : Bytes := bytes "-c requires an argument"

/-- Run a program on a command line. -/
def runProgram (name command : Bytes) : Program → Eval Unit
  | .shell =>
    match startComplaint? command with
    | some t => do
      discard (print 2 (line (name ++ bytes ": 0: " ++ t)))
      setStatus 2
    | none => discard (runText (run budget) command)
  | .tool t => runTool t name [bytes "-c", command]

/-- Start a program in a directory and wait for its end. -/
def start (store : FileStore) (directory program command : Text) (input : Option Text) :
    Except StartFault Remains := do
  let name := Text.encode program
  let w := World.ofInput store directory name (input.map Text.encode)
  let p ← w.program name
  match runProgram name (Text.encode command) p w with
  | .ok _ w | .error _ w => return w.remains

/-- What a program has printed, as a text with plain line ends. -/
def readPrinted (t : Bytes) : Except ProcessFault Text :=
  match Text.decodeAll t with
  | .ok t => .ok (Text.plainNewlines t)
  | .error f => .error (.encoding f)

def Remains.completion (r : Remains) : Except ProcessFault Completion := do
  return { output := ← readPrinted r.output, errors := ← readPrinted r.errors, status := r.status }

/-- Run a command line with a shell, in an existing directory. One name stands for the working
directory. -/
def runLine (program home : Text) (r : ProcessRequest) (store : FileStore) : ProcessResult :=
  let refuse := fun (reason : Text) =>
    (⟨.error (.refused (r.command ++ ": ".toList ++ reason)), store⟩ : ProcessResult)
  let here := if r.directory = home then Path.dotPart else r.directory
  if program.contains (Char.ofNat 0) || r.command.contains (Char.ofNat 0) then
    ⟨.error .embeddedNull, store⟩
  else match store.place here with
    | .directory =>
      match start store here program r.command r.input with
      | .ok remains => ⟨remains.completion, remains.store⟩
      | .error f => refuse (Text.decode f.message)
    | .file _ => refuse FileFault.notDirectory.message
    | .vacant _ => refuse FileFault.missing.message
    | .nowhere .embeddedNull => ⟨.error .embeddedNull, store⟩
    | .nowhere f => refuse f.message

end StructuralEdit.Shell

namespace StructuralEdit

/-- Run command lines with a shell. -/
def Runner.shell (program home : Text) : Runner where
  run _ := Shell.runLine program home

end StructuralEdit
