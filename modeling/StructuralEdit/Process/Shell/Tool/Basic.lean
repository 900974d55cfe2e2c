import StructuralEdit.Process.Shell.Tool.Quoting
import StructuralEdit.Process.Shell.World

/-! # Tools

A tool is a program of its own: it sees its arguments, its input and the files it names,
and gives what it prints in order.
-/
namespace StructuralEdit.Shell.Tool
open Text (Bytes)

/-- What a tool has to work with. -/
structure Desk where
  /-- The name the tool was called by. -/
  name : Bytes
  arguments : List Bytes
  /-- The standard input, unless it is closed. -/
  input : Option (Bytes × Origin)
  /-- The file that the standard output goes to, if it is one, and where it is written next. -/
  target : Option Location
  targetOffset : Nat
  /-- The standard output is closed. -/
  isOutputClosed : Bool
  /-- Open a file to read it. -/
  source : Bytes → Except FileFault (Bytes × Origin)
  /-- Whether a file can be written. -/
  writable : Bytes → Except FileFault Unit

/-- Something printed, as output or as a complaint. -/
inductive Print
  | output (t : Bytes)
  | errors (t : Bytes)

structure Outcome where
  prints : List Print := []
  status : Nat := 0
  /-- The input has been read to its end. -/
  hasRead : Bool := false
  /-- A file to write, with its content. -/
  saved : Option (Bytes × Bytes) := none

namespace Desk

def complaint (d : Desk) (t : Bytes) : Print := .errors (line (d.name ++ bytes ": " ++ t))

/-- Print a complaint and nothing else. -/
def refuse (d : Desk) (t : Bytes) (status : Nat := 1) : Outcome :=
  { prints := [d.complaint t], status }

def helpHint (d : Desk) : Print :=
  .errors (line (bytes "Try '" ++ d.name ++ bytes " --help' for more information."))

/-- Complain of the arguments. -/
def misused (d : Desk) (t : Bytes) (status : Nat := 1) : Outcome :=
  { prints := [d.complaint t, d.helpHint], status }

end Desk

/-! ## Reading -/

def single : Bytes := bytes "-"

/-- A channel as a tool reads it. -/
def readChannel : Channel → Option (Bytes × Origin)
  | .source t o => some (t, o)
  | .nullDevice => some ([], .nullDevice)
  | _ => none

/-- Why something cannot be read, as a system puts it. -/
def closedMessage : Bytes := bytes "Bad file descriptor"

def faultMessage (f : FileFault) : Bytes := Text.encode f.message

/-- What a tool reads in one go, or why it cannot. -/
structure Supply where
  name : Bytes
  content : Except Bytes (Bytes × Origin)

/-- The named files one after another; a dash stands for the input, which is read once. -/
def supplies (d : Desk) : (isRead : Bool) → List Bytes → List Supply
  | _, [] => []
  | isRead, name :: rest =>
    if name == single then
      let content : Except Bytes (Bytes × Origin) := match d.input with
        | some (t, o) => .ok (if isRead then [] else t, o)
        | none => .error closedMessage
      ⟨name, content⟩ :: supplies d true rest
    else ⟨name, (d.source name).mapError faultMessage⟩ :: supplies d isRead rest

/-- What a tool reads, its input if no files are named. -/
def suppliesOf (d : Desk) (names : List Bytes) : List Supply :=
  supplies d false (if names.isEmpty then [single] else names)

/-- The input is among what a tool reads. -/
def readsInput (names : List Bytes) : Bool := names.isEmpty || names.contains single

/-- Why a directory cannot be read. -/
def directoryMessage : Bytes := faultMessage .isDirectory

/-! ## Lists of files -/

/-- A list of files has their names, each with a zero byte behind it. -/
def namesIn (t : Bytes) : List Bytes := piecesOf 0 t

/-- The file that a list of files is in, or the input. -/
def listSource (d : Desk) (name : Bytes) : Except Bytes (Bytes × Origin) :=
  if name == single then
    match d.input with
    | some found => .ok found
    | none => .error closedMessage
  else (d.source name).mapError faultMessage

/-- A list of files comes with the names of others. -/
def operandBesideList (t : Bytes) : Bytes :=
  bytes "extra operand " ++ quotedName t
    ++ bytes "\nfile operands cannot be combined with --files0-from"

def dashInList : Bytes :=
  bytes "when reading file names from stdin, no file name of '-' allowed"

/-- A name in a list is empty. -/
def emptyInList (list : Bytes) (place : Nat) : Bytes :=
  shownName list ++ byte ':' :: decimal place ++ bytes ": " ++ emptyName
where
  emptyName : Bytes := bytes "invalid zero-length file name"

end StructuralEdit.Shell.Tool
