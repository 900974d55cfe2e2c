import StructuralEdit.Process.Shell.Expansion

/-! # Redirections

The names of redirections are expanded before the first of them is carried out, and all
are taken back when their command has ended.
-/
namespace StructuralEdit.Shell
open Text (Bytes)

/-- A redirection whose name has been expanded. -/
inductive Ready
  | opened (descriptor : Nat) (mode : OpenMode) (name : Bytes)
  | copied (descriptor : Nat) (source : Option Nat)
  | document (descriptor : Nat)

/-- The descriptor a text names, or none for a dash. -/
def descriptorNamed? (t : Bytes) : Option (Option Nat) :=
  match t with
  | [b] => if isDigitByte b then some (some (digitOf b)) else if b == byte '-' then some none else none
  | _ => none

def prepare (capture : Command → Eval Bytes) : Redirection → Eval Ready
  | .opened d mode word => return .opened d mode (← expandText capture word)
  | .copied d source => return .copied d source
  | .copiedFrom d word => do
    let fields ← expandWord capture word
    match fields.head?.bind descriptorNamed? with
    | some source => return .copied d source
    | none => fail (bytes "Syntax error: Bad fd number")
  | .document d => return .document d

def prepareAll (capture : Command → Eval Bytes) : List Redirection → Eval (List Ready)
  | [] => return []
  | r :: rest => do
    let r ← prepare capture r
    return r :: (← prepareAll capture rest)

/-- Why a file cannot be opened, as the shell puts it. -/
def openFault (absent : String) : FileFault → Bytes
  | .missing | .notDirectory => bytes absent
  | f => Text.encode f.message

/-- The descriptor that a file of devices stands for. -/
def deviceDescriptor? (name : Bytes) : Option Nat :=
  [(bytes "/dev/stdin", 0), (bytes "/dev/stdout", 1), (bytes "/dev/stderr", 2)].lookup name

/-- Open a file to write to it, emptied unless it is written to at its end. -/
def World.openOutput (w : World) (mode : OpenMode) (name : Bytes) : Except FileFault (World × Channel) :=
  let path := w.path name
  if name == World.nullDevice then .ok (w, .nullDevice)
  else
    let c := Channel.file path (if mode = .append then none else some 0)
    if mode ≠ .output && w.store.isFile path then .ok (w, c)
    else (w.store.write path []).map fun store => ({ w with store }, c)

def copyDescriptor (descriptor source : Nat) : Eval Unit := do
  if descriptor = source then return
  match (← get).descriptors.lookup source with
  | some i => modify fun w => w.pointDescriptor descriptor i
  | none => fail (decimal source ++ bytes ": Bad file descriptor")

/-- Carry out a redirection. The standard input is read where it could be written as well. -/
def carryOut : Ready → Eval Unit
  | .opened d mode name => do
    let w ← get
    match (deviceDescriptor? name).bind fun i => w.descriptors.lookup i, mode with
    | some i, _ => set (w.pointDescriptor d i)
    | none, .input =>
      match w.source name with
      | .ok c => set (w.openChannel d c)
      | .error f => fail (bytes "cannot open " ++ name ++ bytes ": " ++ openFault "No such file" f)
    | none, mode =>
      match w.openOutput mode name with
      | .error f =>
        fail (bytes "cannot create " ++ name ++ bytes ": " ++ openFault "Directory nonexistent" f)
      | .ok (w, c) =>
        match mode, d, w.source name with
        | .update, 0, .ok c => set (w.openChannel d c)
        | _, _, _ => set (w.openChannel d c)
  | .copied d (some source) => copyDescriptor d source
  | .copied d none => modify fun w => w.closeDescriptor d
  | .document d => modify fun w => w.openChannel d (.source [] .pipe)

/-- Run something with redirections, unless one of them fails; whether none did. -/
def redirected (rs : List Ready) (body : Eval Unit) : Eval Bool := do
  let before ← get
  let back := fun (after : World) => { after with descriptors := before.descriptors }
  let opened ← try
      rs.forM carryOut
      pure true
    catch _ => pure false
  if opened then restoring (fun _ => back) body
  else
    modify back
    setStatus 2
  return opened

end StructuralEdit.Shell
