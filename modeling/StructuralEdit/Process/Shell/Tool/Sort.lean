import StructuralEdit.Process.Shell.Tool.SortOptions

/-! # Sorting lines

The lines of all files are sorted, merged, or checked to be in order.
-/
namespace StructuralEdit.Shell.Tool.Sort
open Text (Bytes)

/-- The rows of lines that files hold, or the complaint of the first that cannot be read. -/
def rowsOf (terminator : UInt8) (files : List Supply) : Except Bytes (List (List Bytes)) :=
  files.mapM fun f =>
    match f.content with
    | .error t =>
      .error ((if f.name == single then bytes "read failed: " else bytes "open failed: ")
        ++ shownName f.name ++ bytes ": " ++ t)
    | .ok (_, .directory) =>
      .error (bytes "read failed: " ++ shownName f.name ++ bytes ": " ++ directoryMessage)
    | .ok (t, _) => .ok (piecesOf terminator t)

/-- A file that cannot be opened, whatever becomes of the others. -/
def missing? (files : List Supply) : Option Bytes :=
  files.findSome? fun f =>
    match f.content with
    | .error t => if f.name == single then none
        else some (bytes "cannot read: " ++ shownName f.name ++ bytes ": " ++ t)
    | .ok _ => none

def checkRows (d : Desk) (c : Choice) (o : LineOrder) (quiet hasRead : Bool) (names : List Bytes)
    (rows : List (List Bytes)) : Outcome :=
  match o.disorder? 1 rows.flatten with
  | none => { hasRead }
  | some (number, t) =>
    let complaint := names.headD single ++ bytes ":" ++ decimal number
      ++ bytes ": disorder: " ++ t ++ [c.terminator]
    { prints := if quiet then [] else [.errors (d.name ++ bytes ": " ++ complaint)]
      status := 1, hasRead }

/-- Give out the sorted text, on the standard output or in a file. -/
def giveOut (d : Desk) (c : Choice) (hasRead : Bool) (out : Bytes) : Outcome :=
  match c.output with
  | some name => { saved := some (name, out), hasRead }
  | none =>
    if d.isOutputClosed && !out.isEmpty then
      { prints := [d.complaint (bytes "fflush failed: 'standard output': " ++ closedMessage),
          d.complaint (bytes "write error")]
        status := 2, hasRead }
    else { prints := [.output out], hasRead }

/-- A file that is to be written is there from the beginning. -/
def opened? (d : Desk) (c : Choice) : Except Bytes (Option (Bytes × Bytes)) :=
  match c.output with
  | none => .ok none
  | some name =>
    match d.writable name, d.source name with
    | .error f, _ => .error (bytes "open failed: " ++ shownName name ++ bytes ": " ++ faultMessage f)
    | .ok (), .ok _ => .ok none
    | .ok (), .error _ => .ok (some (name, []))

/-- Sort, merge or check files. Sorting looks at the input before it reads any file. -/
def runFiles (d : Desk) (c : Choice) (files : List Supply) (hasRead : Bool) : Outcome :=
  let rows := rowsOf c.terminator files
  let o : LineOrder := ⟨c.allKeys, c.separator, c.stable, c.unique, c.order.reverse⟩
  match c.task with
  | .check quiet =>
    match rows with
    | .ok rows => checkRows d c o quiet hasRead (files.map (·.name)) rows
    | .error t => d.refuse t 2
  | task =>
    match missing? files, opened? d c with
    | some t, _ | none, .error t => d.refuse t 2
    | none, .ok saved =>
      let isInputClosed := task = .sort && files.any fun f => f.name == single && f.content.toOption.isNone
      match rows with
      | .error t =>
        let t := if isInputClosed then bytes "stat failed: -: " ++ closedMessage else t
        { d.refuse t 2 with saved }
      | .ok rows =>
        let lines := if task = .merge then o.merge rows else o.sort rows.flatten
        giveOut d c hasRead (lines.flatMap (· ++ [c.terminator]))

/-- The files that are listed, all of which have names. -/
def listedFiles (d : Desk) (list : Bytes) : Except Bytes (List Supply) :=
  let unread := bytes "cannot read file names from " ++ quotedName list
  let readNames := fun (t : Bytes) =>
    let names := namesIn t
    match names.zipIdx.findSome? fun (name, n) =>
      if name == single then some dashInList
      else if name.isEmpty then some (emptyInList list (n + 1)) else none with
    | some t => .error t
    | none => if names.isEmpty then .error (bytes "no input from " ++ quotedName list)
      else .ok (supplies d true names)
  match listSource d list with
  | .error t => .error (if list == single then unread
      else bytes "open failed: " ++ shownName list ++ bytes ": " ++ t)
  | .ok (_, .directory) => .error unread
  | .ok (t, _) => readNames t

def runChoice (d : Desk) (c : Choice) (operands : List Bytes) : Outcome :=
  match c.list, operands with
  | some _, t :: _ => d.misused (operandBesideList t) 2
  | some list, [] =>
    match listedFiles d list with
    | .error t => d.refuse t 2
    | .ok files =>
      match c.fault? (files.map (·.name)) with
      | some f => d.refuse f.message 2
      | none => runFiles d c files (list == single)
  | none, operands =>
    match c.fault? operands with
    | some f => d.refuse f.message 2
    | none => runFiles d c (suppliesOf d operands) (readsInput operands)

def run : Desk → Outcome := fun d =>
  let a := table.read d.arguments
  match a.options.foldlM withOption {}, a.fault with
  | .error (.fault f), _ => d.refuse f.message 2
  | .error (.badWord option t listed), _ => d.badWord option t listed
  | .error (.batchOfFew t), _ =>
    { prints := [d.complaint (bytes "invalid --batch-size argument " ++ quote t),
        d.complaint (bytes "minimum --batch-size argument is '2'")]
      status := 2 }
  | .ok _, some f => d.misused f.message 2
  | .ok c, none => runChoice d c a.operands

end StructuralEdit.Shell.Tool.Sort
