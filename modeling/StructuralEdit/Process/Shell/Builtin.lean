import StructuralEdit.Process.Shell.Condition
import StructuralEdit.Process.Shell.Expansion
import StructuralEdit.Process.Shell.Format

/-! # Commands of the shell itself

Some of these are special: what goes wrong in them ends the shell, and values given in
front of them stay.
-/
namespace StructuralEdit.Shell
open Text (Bytes)

/-- Print on the standard output; complain if that cannot be done. -/
def printOutput (t : Bytes) : Eval Unit := do
  if !t.isEmpty && !(← print 1 t) then
    complain (((← get).speaker.getD []) ++ bytes ": I/O error")
    modify fun w => { w with status := max 1 w.status }

def illegalNumber {α : Type} (t : Bytes) : Eval α := fail (bytes "Illegal number: " ++ t)

/-- A count that is given as an argument, or one. -/
def countArgument (arguments : List Bytes) (absent : Nat) : Eval Nat := do
  match arguments with
  | [] => return absent
  | t :: _ =>
    match count? t with
    | some n => return n
    | none => illegalNumber t

/-! ## Printing -/

/-- The escapes of arguments resolved, up to one that ends all printing. -/
def echoTexts : List Bytes → Bytes × Bool
  | [] => ([], false)
  | t :: rest =>
    let (s, ended) := unescaped t
    if ended || rest.isEmpty then (s, ended)
    else
      let (more, ended) := echoTexts rest
      (s ++ byte ' ' :: more, ended)

/-- Print the arguments, on a line of their own unless told otherwise. -/
def echo (arguments : List Bytes) : Eval Unit := do
  let bare := arguments.head? == some (bytes "-n")
  let (t, ended) := echoTexts (if bare then arguments.tail else arguments)
  setStatus 0
  printOutput (if bare || ended then t else line t)

/-- The arguments behind options, of which there are none. -/
def withoutOptions (arguments : List Bytes) : Eval (List Bytes) := do
  match arguments with
  | a :: rest =>
    if a == bytes "--" then return rest
    match a with
    | dash :: b :: _ =>
      if dash == byte '-' then fail (bytes "Illegal option -" ++ [b])
      return arguments
    | _ => return arguments
  | [] => return []

/-- Print arguments by a format. -/
def printf (arguments : List Bytes) : Eval Unit := do
  match ← withoutOptions arguments with
  | [] => fail (bytes "usage: printf format [arg ...]")
  | format :: arguments =>
    let p := printing format arguments
    p.complaints.forM complain
    setStatus (if p.complaints.isEmpty then 0 else 1)
    printOutput p.output
    match p.ended with
    | some .unfinished => fail (bytes "missing format character")
    | some .tooLarge => fail (bytes "xvsnprintf failed")
    | some (.unknown directive) => fail (directive ++ bytes ": invalid directive")
    | _ => return

/-! ## Leaving -/

/-- Leave with a status. -/
def leave (arguments : List Bytes) : Eval Unit := do
  let n ← countArgument arguments (← get).status
  setStatus (n % 256)
  throw .leave

/-- End loops, or only this time around of the outermost one. -/
def endLoops (goesOn : Bool) (arguments : List Bytes) : Eval Unit := do
  let n ← countArgument arguments 1
  if n = 0 then illegalNumber (arguments.headD [])
  setStatus 0
  let loops := (← get).loops
  if loops ≠ 0 then throw (.loop (min n loops) goesOn)

def returnFrom (arguments : List Bytes) : Eval Unit := do
  let n ← countArgument arguments (← get).status
  setStatus (n % 256)
  throw .returned

/-! ## Variables and arguments -/

def shift (arguments : List Bytes) : Eval Unit := do
  let n ← countArgument arguments 1
  if (← get).arguments.length < n then fail (bytes "can't shift that many")
  modify fun w => { w with arguments := w.arguments.drop n, status := 0 }

/-- Set the arguments; letters that would change how commands are run are passed over. -/
def setArguments (arguments : List Bytes) : Eval Unit := do
  setStatus 0
  match arguments with
  | [] => return
  | a :: rest =>
    if a == bytes "--" then modify fun w => { w with arguments := rest }
    else
      match a with
      | c :: _ :: _ =>
        if c == byte '-' || c == byte '+' then
          if !rest.isEmpty then modify fun w => { w with arguments := rest }
        else modify fun w => { w with arguments }
      | _ => modify fun w => { w with arguments }

def unsetOne (functions : Bool) (name : Bytes) : Eval Unit := do
  if functions then
    modify fun w => { w with functions := w.functions.filter (·.1 != name) }
  else
    if !isName name then fail (name ++ bytes ": bad variable name")
    match (← get).variableOf? name with
    | some v =>
      if v.isReadOnly then fail (name ++ bytes ": is read only")
      modify fun w => { w with bindings := w.bindings.filter (·.name != name) }
    | none => return

def unset (arguments : List Bytes) : Eval Unit := do
  setStatus 0
  match arguments with
  | a :: rest =>
    if a == bytes "-f" then rest.forM (unsetOne true)
    else if a == bytes "-v" || a == bytes "--" then rest.forM (unsetOne false)
    else arguments.forM (unsetOne false)
  | [] => return

/-- Give names values where arguments say so, and mark them. -/
def declare (isReadOnly : Bool) (arguments : List Bytes) : Eval Unit := do
  setStatus 0
  arguments.forM fun a => do
    let name := a.takeWhile (· != byte '=')
    match a.drop name.length with
    | _ :: value => assign name value
    | [] => if !isName name then fail (name ++ bytes ": bad variable name")
    if isReadOnly then
      modify fun w => match w.variableOf? name with
        | some v => w.setVariable { v with isReadOnly }
        | none => w.setVariable ⟨name, none, isReadOnly⟩

/-! ## Conditions and reading -/

/-- What a condition can ask of files. -/
def World.fileView (w : World) : Condition.FileView := fun name =>
  match w.store.place (w.path name) with
  | .file f => some (false, f.content.length)
  | .directory => some (true, 4096)
  | _ => none

def test (name : Bytes) (arguments : List Bytes) : Eval Unit := do
  match Condition.answer (← get).fileView name arguments with
  | .ok a => setStatus (if a then 0 else 1)
  | .error f => fail f.message

/-- Take bytes up to a newline: those taken, each with whether a backslash made it plain, whether
the newline was there, and the bytes left. -/
def takeLine (raw : Bool) : Bytes → List (UInt8 × Bool) × Bool × Bytes
  | [] => ([], false, [])
  | [b] => if b == newlineByte then ([], true, []) else ([(b, false)], false, [])
  | b :: c :: rest =>
    if b == newlineByte then ([], true, c :: rest)
    else if b == backslash && !raw then
      let (taken, ended, left) := takeLine raw rest
      (if c == newlineByte then taken else (c, true) :: taken, ended, left)
    else
      let (taken, ended, left) := takeLine raw (c :: rest)
      ((b, false) :: taken, ended, left)

/-- Take away blanks from the end, as far as no backslash made them plain. -/
def trimField (s : Separators) (t : List (UInt8 × Bool)) : List (UInt8 × Bool) :=
  (t.reverse.dropWhile fun (b, isPlain) => !isPlain && s.isBlank b).reverse

/-- Divide a line among names; the last one gets all that is left. -/
def divide (s : Separators) : List Bytes → List (UInt8 × Bool) → List (Bytes × Bytes)
  | [], _ => []
  | [name], t =>
    let t := trimField s (t.dropWhile fun (b, isPlain) => !isPlain && s.isBlank b)
    let alone := match t.reverse with
      | (b, isPlain) :: before =>
        if !isPlain && s.isSeparator b && before.all fun (c, p) => p || !s.isSeparator c
          then before.reverse else t
      | [] => t
    [(name, alone.map (·.1))]
  | name :: names, t =>
    let t := t.dropWhile fun (b, isPlain) => !isPlain && s.isBlank b
    let field := t.takeWhile fun (b, isPlain) => isPlain || !s.isSeparator b
    let rest := (t.drop field.length).dropWhile fun (b, isPlain) => !isPlain && s.isBlank b
    let rest := match rest with
      | (b, false) :: more => if s.isSeparator b then more else rest
      | _ => rest
    (name, field.map (·.1)) :: divide s names rest

def readLine (arguments : List Bytes) : Eval Unit := do
  let raw := arguments.head? == some (bytes "-r")
  let names := if raw then arguments.tail else arguments
  if names.isEmpty then fail (bytes "arg count")
  let w ← get
  match w.channel? 0 with
  | some (.source t o) =>
    let (taken, ended, left) := takeLine raw t
    set (w.setChannel 0 (.source left o))
    (divide w.separators names taken).forM fun (name, value) => assign name value
    setStatus (if ended then 0 else 1)
  | _ =>
    names.forM fun name => assign name []
    setStatus 1

/-! ## All of them -/

/-- What the shell does itself. -/
inductive Builtin
  | ordinary (run : List Bytes → Eval Unit)
  | special (run : List Bytes → Eval Unit)
  /-- Run the arguments as a command line. -/
  | evaluate

def builtins : List (Bytes × Builtin) :=
  [("echo", .ordinary echo), ("printf", .ordinary printf), ("true", .ordinary fun _ => setStatus 0),
    ("false", .ordinary fun _ => setStatus 1), ("test", .ordinary (test (bytes "test"))),
    ("[", .ordinary (test (bytes "["))), ("read", .ordinary readLine),
    (":", .special fun _ => setStatus 0), ("exit", .special leave),
    ("break", .special (endLoops false)), ("continue", .special (endLoops true)),
    ("return", .special returnFrom), ("shift", .special shift), ("set", .special setArguments),
    ("unset", .special unset), ("export", .special (declare false)),
    ("readonly", .special (declare true)), ("eval", .evaluate)].map fun (s, b) => (bytes s, b)

/-- The words of these are not split where they give values to names. -/
def declares (name : Bytes) : Bool := name == bytes "export" || name == bytes "readonly"

end StructuralEdit.Shell
