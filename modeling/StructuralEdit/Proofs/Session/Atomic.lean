import StructuralEdit.Proofs.Session.Command

/-! # Failed commands change nothing

Between commands nothing is pending in a listed buffer. From there a command text
that ends in an edit error leaves the text and the timeline of every buffer as they
were, whatever its commands had recorded or undone before.
-/
namespace StructuralEdit

/-- Nothing is pending in a listed buffer, and no undo step could be taken back. -/
def Session.Resting (s : Session) : Prop :=
  ∀ k ∈ s.workspace.listed, k < s.workspace.known.length ∧
    (s.buffer k).log.isEmpty = true ∧ (s.buffer k).undoMark = none

theorem Session.Resting.known {s : Session} (hs : s.Resting) :
    ∀ k ∈ s.workspace.listed, k < s.workspace.known.length := fun k hk => (hs k hk).1

instance (s : Session) : Decidable s.Resting := inferInstanceAs (Decidable (∀ _ ∈ _, _ ∧ _ ∧ _))

namespace Run
variable {h : Option Handle} {text : Text} {s t : Session} {o : Option EditError} {k : Handle}
  {b c : Buffer}

theorem undoMark_load (store : FileStore) (path : Text) :
    (Workspace.load store path).undoMark = none := by
  unfold Workspace.load
  split <;> rfl

theorem timeline_load (store : FileStore) (path : Text) :
    (Workspace.load store path).timeline = {} := by
  unfold Workspace.load
  split <;> rfl

theorem Origin.undoMark (ho : Origin s k b) (hs : s.Resting) : b.undoMark = none := by
  rcases ho with ⟨hk,-,editClean,rfl⟩ | ⟨-,store,path,rfl⟩
  · exact (hs k hk).2.2
  · exact undoMark_load store path

/-- Rolling back leads to where the command began. -/
theorem Origin.rollback {P : Touch → Prop} (ho : Origin s k b) (hs : s.Resting)
    (ht : b.Touched P c) : c.rollback.text = b.text ∧ c.rollback.timeline = b.timeline := by
  have hsettled : c.settled = (b.text, b.timeline) := by
    rw [ht.settled, Buffer.settled_of_unmarked (ho.undoMark hs)]
  exact ⟨congrArg Prod.fst hsettled,congrArg Prod.snd hsettled⟩

/-- A command text that returns leaves the session at rest again. -/
theorem resting_edit (hs : s.Resting) (hrun : edit h text s = .ok o t) : t.Resting := by
  rcases edit_cases hs.known hrun with ⟨-,hw,-⟩ | ⟨c,-,-,-,hbuffers⟩
  · unfold Session.Resting Session.buffer
    rw [hw]
    exact hs
  · intro k hk
    obtain ⟨hlt,b,d,r,-,-,-,hcommit⟩ := hbuffers k hk
    exact ⟨hlt,Buffer.commit_settles hcommit⟩

/-- A failed command is atomic: the buffers that stay listed keep their text and their timeline,
and nothing is pending in a listed buffer. -/
theorem edit_atomic {e : EditError} (hs : s.Resting) (hrun : edit h text s = .ok (some e) t) :
    (∀ k ∈ s.workspace.listed, k ∈ t.workspace.listed →
      (t.buffer k).text = (s.buffer k).text ∧ (t.buffer k).timeline = (s.buffer k).timeline) ∧
    ∀ k ∈ t.workspace.listed, (t.buffer k).log.isEmpty = true := by
  refine ⟨fun k hks hkt => ?_,fun k hk => (resting_edit hs hrun k hk).2.1⟩
  rcases edit_cases hs.known hrun with ⟨ho,-⟩ | ⟨c,-,-,-,hbuffers⟩
  · cases ho
  obtain ⟨-,b,d,r,horigin,htouched,hck,hcommit⟩ := hbuffers k hkt
  have hrolled : c.buffer k = d.rollback := hck
  have hb : b.text = (s.buffer k).text ∧ b.timeline = (s.buffer k).timeline := by
    rcases horigin with ⟨-,-,editClean,rfl⟩ | ⟨hle,-⟩
    · exact ⟨rfl,rfl⟩
    · exact absurd (hs.known k hks) (Nat.not_lt.mpr hle)
  -- The commit finds nothing pending.
  rw [hrolled, Buffer.commit_of_isEmpty _ (by rw [Buffer.log_rollback]; rfl)] at hcommit
  injection hcommit with _ htk
  rw [← htk, ← hb.1, ← hb.2]
  exact horigin.rollback hs htouched

/-- A command that undoes, inserts and then asks for a file there is none of takes it all back. -/
theorem edit_atomic_undone :
    let before : UndoEntry := ⟨1, "a".toList, "ab".toList, ⟨0, 0⟩, ⟨0, 0⟩⟩
    let s : Session := {
      workspace := { known := [{ text := "ab".toList, timeline := ⟨[before], []⟩ }], listed := [0] }
      seq := 1 }
    let x : Run (Option EditError) := edit (some 0) "u\ni/x/\nb z".toList
    x s = .ok (some (.noSuchFile "z".toList)) (x.final s) ∧
      ((x.final s).buffer 0).text = "ab".toList ∧
      ((x.final s).buffer 0).timeline = ⟨[before], []⟩ := by
  intro before s x
  have hrun : x s = .ok (some (.noSuchFile "z".toList)) (x.final s) :=
    ok_of_value (by decide +kernel)
  have hlisted : 0 ∈ (x.final s).workspace.listed := by decide +kernel
  exact ⟨hrun,(edit_atomic (by decide) hrun).1 0 (by decide) hlisted⟩

end Run

end StructuralEdit
