import StructuralEdit.Text.Basic

/-! # Edit logs

A command records its changes against the offsets the text had when it began.
Changes are expected from left to right; one that is not is kept all the same, and
reported once. Inserts at one offset and deletions that touch are merged.
-/
namespace StructuralEdit

inductive ChangeKind
  | insert
  | delete
  | replace
deriving DecidableEq

/-- A change of the `deleted` characters at `q0`. -/
structure Change where
  kind : ChangeKind
  q0 : Int
  deleted : Int := 0
  text : Text := []
deriving DecidableEq

def Change.stop (e : Change) : Int := e.q0 + e.deleted

inductive OrderWarning
  | outOfSequence
  | probablyWrong
  | both
deriving DecidableEq

namespace OrderWarning

def sequenceText : Text := "warning: changes out of sequence".toList

def direText : Text := "warning: changes out of sequence, edit result probably wrong".toList

def message : OrderWarning → Text
  | outOfSequence => sequenceText
  | probablyWrong => direText
  | both => sequenceText ++ '\n' :: direText

end OrderWarning

structure EditLog where
  /-- The changes recorded, the newest first. -/
  changes : List Change := []
  /-- An order warning has been given. -/
  warned : Bool := false
deriving DecidableEq

namespace EditLog

def isEmpty (l : EditLog) : Bool := l.changes.isEmpty

def length (l : EditLog) : Nat := l.changes.length

/-- The changes in the order they were recorded. -/
def entries (l : EditLog) : List Change := l.changes.reverse

/-- Where the newest change starts, `0` if there is none. -/
def lastStart (l : EditLog) : Int :=
  match l.changes with
  | [] => 0
  | e :: _ => e.q0

/-- Where the newest change ends, `0` if there is none. -/
def lastStop (l : EditLog) : Int :=
  match l.changes with
  | [] => 0
  | e :: _ => e.stop

/-- A change at `q0` is late when it lies before `limit` and nothing was reported yet. -/
def late (l : EditLog) (q0 limit : Int) : Bool := q0 < limit && !l.warned

/-- Record a change as an entry of its own. -/
def push (l : EditLog) (e : Change) (late : Bool) : EditLog × Option OrderWarning :=
  let behind : Bool := e.q0 < l.lastStart
  (⟨e :: l.changes, l.warned || late || behind⟩,
    match late, behind with
    | true, true => some .both
    | true, false => some .outOfSequence
    | false, true => some .probablyWrong
    | false, false => none)

@[simp] theorem entries_push (l : EditLog) (e : Change) (late : Bool) :
    (l.push e late).1.entries = l.entries ++ [e] := by simp [push, entries]

/-- Record a change by extending the newest entry. -/
def merge (l : EditLog) (e : Change) (late : Bool) : EditLog × Option OrderWarning :=
  (⟨e :: l.changes.tail, l.warned || late⟩, if late then some .outOfSequence else none)

def replace (l : EditLog) (q0 q1 : Int) (text : Text) : EditLog × Option OrderWarning :=
  if q0 = q1 ∧ text = [] then (l, none)
  else l.push ⟨.replace, q0, q1 - q0, text⟩ (l.late q0 l.lastStart)

def insert (l : EditLog) (q0 : Int) (text : Text) : EditLog × Option OrderWarning :=
  if text = [] then (l, none)
  else
    let late := l.late q0 l.lastStart
    match l.changes.head? with
    | some e =>
      if e.kind = .insert ∧ e.q0 = q0 then l.merge { e with text := e.text ++ text } late
      else l.push ⟨.insert, q0, 0, text⟩ late
    | none => l.push ⟨.insert, q0, 0, text⟩ late

def delete (l : EditLog) (q0 q1 : Int) : EditLog × Option OrderWarning :=
  if q0 = q1 then (l, none)
  else
    let late := l.late q0 l.lastStop
    match l.changes.head? with
    | some e =>
      if e.kind = .delete ∧ e.stop = q0 then l.merge { e with deleted := e.deleted + (q1 - q0) } late
      else l.push ⟨.delete, q0, q1 - q0, []⟩ late
    | none => l.push ⟨.delete, q0, q1 - q0, []⟩ late

end EditLog

end StructuralEdit
