import StructuralEdit.Text.Basic

/-! # Undo timelines

Each committed command leaves one entry. The entries still applied lie behind the
present, newest first; those undone lie before it, the next to redo first. A new
entry cuts what could be redone.
-/
namespace StructuralEdit

structure UndoEntry where
  seq : Int
  before : Text
  after : Text
  dotBefore : Span
  dotAfter : Span
deriving DecidableEq

structure Timeline where
  past : List UndoEntry := []
  future : List UndoEntry := []
deriving DecidableEq

namespace Timeline

/-- All entries, oldest first. -/
def entries (t : Timeline) : List UndoEntry := t.past.reverse ++ t.future

def length (t : Timeline) : Nat := t.past.length + t.future.length

/-- The index of the newest entry applied, `-1` if there is none. -/
def position (t : Timeline) : Int := (t.past.length : Int) - 1

/-- The number of the newest command still applied, `0` if there is none. -/
def seq (t : Timeline) : Int :=
  match t.past with
  | [] => 0
  | e :: _ => e.seq

def push (t : Timeline) (e : UndoEntry) : Timeline := ⟨e :: t.past, []⟩

/-- Make the entry at an index the newest one applied; the index is clipped. -/
def seek (t : Timeline) (index : Int) : Timeline :=
  let k := (index + 1).toNat
  ⟨(t.entries.take k).reverse, t.entries.drop k⟩

def canUndo (t : Timeline) : Bool := !t.past.isEmpty

def canRedo (t : Timeline) : Bool := !t.future.isEmpty

def undo (t : Timeline) : Option (UndoEntry × Timeline) :=
  match t.past with
  | [] => none
  | e :: past => some (e, ⟨past, e :: t.future⟩)

def redo (t : Timeline) : Option (UndoEntry × Timeline) :=
  match t.future with
  | [] => none
  | e :: future => some (e, ⟨e :: t.past, future⟩)

theorem entries_push (t : Timeline) (e : UndoEntry) :
    (t.push e).entries = t.past.reverse ++ [e] := by simp [push, entries]

@[simp] theorem entries_seek (t : Timeline) (index : Int) : (t.seek index).entries = t.entries := by
  simp [seek, entries, List.take_append_drop]

end Timeline

end StructuralEdit
