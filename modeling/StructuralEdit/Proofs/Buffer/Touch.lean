import Mathlib.Logic.Relation
import StructuralEdit.Proofs.Buffer.Rollback
import StructuralEdit.Proofs.Log.Request

/-! # What a command does to a buffer before it is committed

A command at work changes a buffer in a few ways only, listed here. What one touch
keeps, every run of touches keeps, whichever commands and loops they come from.
-/
namespace StructuralEdit
open Relation

/-- One thing that a command at work does to a buffer. -/
inductive Touch
  | dot (r : Span)
  | record (c : ChangeRequest)
  /-- Undo or redo commands. -/
  | travel (steps : Int)
  | rename (name : Text)
  | markClean
  | markDirty
  /-- The whole buffer is to be read from its file, of this time. -/
  | read (time : Option Int)
  /-- A version of the file, of this time, is known. -/
  | know (time : Option Int)
  | pin (n : Int)
  | close

namespace Touch

def apply : Touch → Buffer → Buffer
  | dot r, b => { b with dot := r }
  | record c, b => { b with log := (c.record b.log).1 }
  | travel steps, b => b.travel steps
  | rename name, b => b.rename name
  | markClean, b => b.markClean
  | markDirty, b => b.markDirty
  | read time, b => { b with editClean := true, diskTime := time }
  | know time, b => { b with diskTime := time }
  | pin n, b => { b with pins := b.pins + n }
  | close, b => { b with closed := true }

/-- Whatever a command can do to a buffer. -/
abbrev Any : Touch → Prop := fun _ => True

/-- All but undoing leaves the text as it is until the commit. -/
def Deferred : Touch → Prop
  | travel _ => False
  | _ => True

/-- All that neither moves dot nor undoes. -/
def Still : Touch → Prop
  | dot _ | travel _ => False
  | _ => True

/-- Something is learned of a version of a file. -/
def Learning : Touch → Prop
  | read _ | know _ => True
  | _ => False

/-- A kind of touches that takes in all the still ones, learning of a file apart. -/
class Gentle (P : Touch → Prop) : Prop where
  of_still {t : Touch} (ht : t.Still) (hl : ¬ t.Learning) : P t

/-- A kind of touches that takes in all learning of a file. -/
class Learns (P : Touch → Prop) : Prop where
  of_learning {t : Touch} (ht : t.Learning) : P t

theorem Learning.still {t : Touch} (ht : t.Learning) : t.Still := by
  cases t with
  | read | know => trivial
  | dot | record | travel | rename | markClean | markDirty | pin | close => exact ht.elim

theorem Still.deferred {t : Touch} (ht : t.Still) : t.Deferred := by
  cases t with
  | travel => exact ht
  | _ => trivial

instance : Gentle Still := ⟨fun ht _ => ht⟩

instance : Gentle Any := ⟨fun _ _ => trivial⟩

instance : Gentle Deferred := ⟨fun ht _ => ht.deferred⟩

instance : Learns Still := ⟨Learning.still⟩

instance : Learns Any := ⟨fun _ => trivial⟩

instance : Learns Deferred := ⟨fun ht => ht.still.deferred⟩

end Touch

namespace Buffer
variable {P Q : Touch → Prop} {b c d : Buffer}

/-- One buffer comes from another by touches of some kind. -/
def Touched (P : Touch → Prop) : Buffer → Buffer → Prop :=
  ReflTransGen fun b c => ∃ t, P t ∧ t.apply b = c

theorem Touched.refl (b : Buffer) : Touched P b b := ReflTransGen.refl

theorem Touched.trans (h : Touched P b c) (h' : Touched P c d) : Touched P b d :=
  ReflTransGen.trans h h'

theorem Touched.single {t : Touch} (ht : P t) (b : Buffer) : Touched P b (t.apply b) :=
  ReflTransGen.single ⟨t,ht,rfl⟩

/-- What each touch preserves is preserved by a run of them. -/
theorem Touched.preserves {I : Buffer → Prop} (hI : ∀ t, P t → ∀ b, I b → I (t.apply b))
    (h : Touched P b c) (hb : I b) : I c := by
  induction h with
  | refl => exact hb
  | tail _ hstep ih =>
    obtain ⟨t,ht,rfl⟩ := hstep
    exact hI t ht _ ih

/-- No touch adds or drops an entry of the timeline. -/
theorem entries_apply (t : Touch) (b : Buffer) :
    (t.apply b).timeline.entries = b.timeline.entries := by
  cases t with
  | travel steps =>
    refine travel_preserves (I := fun c => c.timeline.entries = b.timeline.entries) ?_ ?_ steps rfl
    · intro c hc
      rw [entries_undoStep, hc]
    · intro c hc
      rw [entries_redoStep, hc]
  | rename name =>
    simp only [Touch.apply, rename]
    split <;> rfl
  | dot | record | markClean | markDirty | read | know | pin | close => rfl

theorem Touched.entries (h : Touched P b c) : c.timeline.entries = b.timeline.entries := by
  refine h.preserves (I := fun c => c.timeline.entries = b.timeline.entries) ?_ rfl
  intro t _ c hc
  rw [entries_apply, hc]

/-- No touch changes what rolling back leads to. -/
theorem settled_apply (t : Touch) (b : Buffer) : (t.apply b).settled = b.settled := by
  cases t with
  | travel steps => exact settled_travel b steps
  | rename name =>
    simp only [Touch.apply, rename]
    split <;> exact settled_congr rfl rfl rfl
  | dot | record | markClean | markDirty | read | know | pin | close => exact settled_congr rfl rfl rfl

theorem Touched.settled (h : Touched P b c) : c.settled = b.settled := by
  refine h.preserves (I := fun c => c.settled = b.settled) ?_ rfl
  intro t _ c hc
  rw [settled_apply, hc]

end Buffer

end StructuralEdit
