import StructuralEdit.Buffer.EditLog
import StructuralEdit.Buffer.Timeline
import StructuralEdit.Text.Numeral
import StructuralEdit.Text.Quoted

/-! # Buffers

A buffer is a named text with its dot, the edit log of the command at work and
the timeline of the commands committed. It is clean while the newest command
applied is the one it was last marked clean at.
-/
namespace StructuralEdit

/-- A range that a direct change refuses. -/
inductive RangeFault
  | malformed
  | pastEnd
deriving DecidableEq

def RangeFault.message : RangeFault → Text
  | malformed => "Malformed range".toList
  | pastEnd => "Range past end of buffer".toList

/-- What a rollback returns to once a command has undone or redone something. -/
structure UndoMark where
  position : Int
  text : Text
  dot : Span
deriving DecidableEq

structure Buffer where
  name : Text := []
  text : Text := []
  /-- Counts the changes of the text. -/
  version : Nat := 0
  dot : Span := ⟨0, 0⟩
  log : EditLog := {}
  timeline : Timeline := {}
  /-- The time of the file version the buffer knows. -/
  diskTime : Option Int := none
  /-- The next commit leaves the buffer clean. -/
  editClean : Bool := false
  /-- How many loops hold the buffer. -/
  pins : Int := 0
  closed : Bool := false
  /-- The command number at which the buffer is clean. -/
  cleanSeq : Int := 0
  undoMark : Option UndoMark := none
deriving DecidableEq, Inhabited

namespace Buffer

def ofText (text name : Text) (dirty : Bool) : Buffer :=
  { name, text, cleanSeq := if dirty then -1 else 0 }

def size (b : Buffer) : Nat := b.text.length

def slice (b : Buffer) (q0 q1 : Int) : Text := b.text.slice q0 q1

def setDot (b : Buffer) (q0 q1 : Int) : Buffer := { b with dot := ⟨q0, q1⟩ }

def constrain (b : Buffer) (r : Span) : Span := ⟨min r.q0 b.size, min r.q1 b.size⟩

/-! ## File status -/

def dirty (b : Buffer) : Bool := b.timeline.seq != b.cleanSeq

/-- Only a named buffer has a file it could differ from. -/
def unsaved (b : Buffer) : Bool := !b.name.isEmpty && b.dirty

def markClean (b : Buffer) : Buffer := { b with cleanSeq := b.timeline.seq }

def markDirty (b : Buffer) : Buffer := { b with cleanSeq := -1 }

/-- A buffer that changes its name differs from its new file. -/
def rename (b : Buffer) (name : Text) : Buffer :=
  let b := if !b.name.isEmpty && name != b.name then b.markDirty else b
  { b with name }

/-! ## Direct changes -/

def rangeFault? (b : Buffer) (q0 q1 : Int) : Option RangeFault :=
  if q0 < 0 ∨ q1 < q0 then some .malformed
  else if b.size < q1 then some .pastEnd
  else none

/-- Dot after `n` characters were put in at `q`: an end behind the place moves. -/
def dotAfterInsert (dot : Span) (q : Int) (n : Nat) : Span :=
  ⟨if q < dot.q0 then dot.q0 + n else dot.q0, if q < dot.q1 then dot.q1 + n else dot.q1⟩

/-- Dot after `n` characters were taken out at `q`: an end inside them moves to the place. -/
def dotAfterDelete (dot : Span) (q n : Int) : Span :=
  ⟨if q < dot.q0 then dot.q0 - min n (dot.q0 - q) else dot.q0,
   if q < dot.q1 then dot.q1 - min n (dot.q1 - q) else dot.q1⟩

def reset (b : Buffer) (text : Text) : Buffer := { b with text, version := b.version + 1 }

def insert (b : Buffer) (q : Int) (t : Text) : Except RangeFault Buffer :=
  match b.rangeFault? q q with
  | some f => .error f
  | none =>
    let k := q.toNat
    let changed := if t = [] then b else b.reset (b.text.take k ++ t ++ b.text.drop k)
    .ok { changed with dot := dotAfterInsert b.dot q t.length }

def delete (b : Buffer) (q0 q1 : Int) : Except RangeFault Buffer :=
  match b.rangeFault? q0 q1 with
  | some f => .error f
  | none =>
    let changed := if q1 ≤ q0 then b
      else b.reset (b.text.take q0.toNat ++ b.text.drop q1.toNat)
    .ok { changed with dot := dotAfterDelete b.dot q0 (q1 - q0) }

/-- A change of the buffer that may be refused; what was done before is kept. -/
abbrev Edit := EStateM RangeFault Buffer

def attempt (f : Buffer → Except RangeFault Buffer) : Edit Unit := fun b =>
  match f b with
  | .ok b => .ok () b
  | .error e => .error e b

/-! ## Applying the log -/

/-- An empty dot at the place of a change grows over the new text. -/
def coverNewText (e : Change) (b : Buffer) : Buffer :=
  if b.dot.q0 = e.q0 ∧ b.dot.q1 = e.q0 then b.setDot b.dot.q0 (b.dot.q1 + e.text.length) else b

/-- Carry out one change, clipped to the text. -/
def applyChange (e : Change) : Edit Unit := do
  let r := (← get).constrain ⟨e.q0, e.stop⟩
  match e.kind with
  | .delete => attempt (·.delete r.q0 r.q1)
  | .replace =>
    attempt (·.delete r.q0 r.q1)
    attempt (·.insert r.q0 e.text)
    modify (coverNewText e)
  | .insert =>
    attempt (·.insert r.q0 e.text)
    modify (coverNewText e)

def applyChanges : List Change → Edit Unit
  | [] => return
  | e :: rest => do
    applyChange e
    applyChanges rest

def clearLog (b : Buffer) : Buffer := { b with log := {} }

/-- Carry out the log, newest change first, so that earlier offsets stay valid. -/
def applyLog : Edit Unit := do
  applyChanges (← get).log.changes
  modify clearLog

/-! ## Commit and undo -/

/-- Carry out changes as one entry of the timeline; nothing is entered if they are refused. -/
def transaction {ε α : Type} (seq : Int) (changes : EStateM ε Buffer α) : EStateM ε Buffer α := do
  let old ← get
  let a ← changes
  modify fun b => { b with timeline := b.timeline.push ⟨seq, old.text, b.text, old.dot, b.dot⟩ }
  return a

/-- Carry out the pending changes as the command `seq`. -/
def commit (seq : Int) : Edit Bool := do
  modify fun b => { b with undoMark := none }
  if (← get).log.isEmpty then return false
  transaction seq applyLog
  modify fun b => if b.editClean then b.markClean else b
  modify fun b => { b with editClean := false }
  return true

/-- Drop the pending changes and take back undo steps of a command that failed. -/
def rollback (b : Buffer) : Buffer :=
  let b := b.clearLog
  match b.undoMark with
  | none => b
  | some m =>
    { b.reset m.text with undoMark := none, timeline := b.timeline.seek m.position, dot := m.dot }

def markUndo (b : Buffer) : Buffer :=
  match b.undoMark with
  | some _ => b
  | none => { b with undoMark := some ⟨b.timeline.position, b.text, b.dot⟩ }

/-- Take back the newest command applied, if there is one. -/
def undoStep (b : Buffer) : Bool × Buffer :=
  let b := b.markUndo
  match b.timeline.undo with
  | none => (false, b)
  | some (e, timeline) => (true, { b.reset e.before with timeline, dot := e.dotBefore })

/-- Apply the next command that was taken back, if there is one. -/
def redoStep (b : Buffer) : Bool × Buffer :=
  let b := b.markUndo
  match b.timeline.redo with
  | none => (false, b)
  | some (e, timeline) => (true, { b.reset e.after with timeline, dot := e.dotAfter })

/-- Take a step up to a number of times, as long as there is one. -/
def repeatStep (step : Buffer → Bool × Buffer) : Nat → Buffer → Buffer
  | 0, b => b
  | n + 1, b =>
    match step b with
    | (true, b) => repeatStep step n b
    | (false, b) => b

/-- Undo commands, or redo them when the number is negative. -/
def travel (b : Buffer) (steps : Int) : Buffer :=
  repeatStep (if 0 ≤ steps then undoStep else redoStep) steps.natAbs b

/-- A short description: name, length and dot. -/
def describe (b : Buffer) : Text :=
  "Buffer(name=".toList ++ Text.quoted b.name ++ ", len=".toList ++ Text.ofNat b.size
    ++ ", dot=Range(q0=".toList ++ Text.ofInt b.dot.q0 ++ ", q1=".toList ++ Text.ofInt b.dot.q1
    ++ "))".toList

end Buffer

end StructuralEdit
