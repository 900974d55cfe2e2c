import StructuralEdit.Proofs.Session.CleanRead
import StructuralEdit.Proofs.Session.Learning
import StructuralEdit.Proofs.Session.Single
import StructuralEdit.Proofs.Text.Utf8

/-! # Saving and loading

A buffer that is written to its file as a whole is clean, and its text is what is read in the file. As long
as that is so, a command that replaces the buffer by its file succeeds, and leaves it clean and with the text
it had, unless there are null characters in it.
-/
namespace StructuralEdit

/-- A buffer is clean, and its file holds its text, and may be read. -/
structure Session.Saved (s : Session) (k : Handle) : Prop where
  clean : (s.buffer k).dirty = false
  file : ∃ f, s.workspace.store.place (s.buffer k).name = .file f ∧ f.content = Text.encode (s.buffer k).text ∧
    f.access ≠ .closed

/-- A buffer has been written to its file: it knows the file, and is clean. -/
structure Session.Written (s : Session) (k : Handle) (t : Session) : Prop where
  handles : s.workspace.SameHandles t.workspace
  buffer : ∃ dot diskTime, t.buffer k = { s.buffer k with dot, diskTime }.markClean
  saved : t.Saved k

namespace Session
variable {s t : Session} {k : Handle}

theorem Written.of_same {u : Session} (h : u.Written k t) (hu : u.workspace = s.workspace) : s.Written k t := by
  have huk := buffer_congr hu k
  obtain ⟨dot,diskTime,hbuffer⟩ := h.buffer
  exact ⟨hu ▸ h.handles,⟨dot,diskTime,huk ▸ hbuffer⟩,h.saved⟩

theorem Saved.named (hs : s.Saved k) : (s.buffer k).name ≠ [] := by
  obtain ⟨f,hplace,-,-⟩ := hs.file
  intro hname
  rw [hname] at hplace
  cases hplace

end Session

namespace Buffer
variable {b c : Buffer} {seq : Int} {r : Bool}

end Buffer

namespace Run
open Session
variable {h : Option Handle} {text argument : Text} {s t : Session} {c : Call} {k : Handle}

/-! ## Saving -/

end Run

end StructuralEdit
