import StructuralEdit.Buffer.Basic

/-! # Undoing, redoing and rolling back

The first step along the timeline marks where the buffer stood. Until the mark is
taken, every further step keeps what rolling back leads to, since entries and
position determine a timeline and steps change the position only.
-/
namespace StructuralEdit

namespace Timeline

/-- Entries and position determine a timeline: seeking its position leads back to it. -/
theorem seek_position {t t' : Timeline} (h : t'.entries = t.entries) : t'.seek t.position = t := by
  have hk : (t.position + 1).toNat = t.past.reverse.length := by
    simp only [position, List.length_reverse]
    omega
  simp only [seek, h, hk]
  simp only [entries, List.take_left, List.drop_left, List.reverse_reverse]

end Timeline

namespace Buffer
variable {b c : Buffer}

/-! ## Steps along the timeline -/

theorem markUndo_eq (b : Buffer) : ∃ m, b.markUndo = { b with undoMark := some m } := by
  unfold markUndo
  split
  · rename_i m h
    exact ⟨m,by rw [← h]⟩
  · exact ⟨_,rfl⟩

theorem timeline_markUndo (b : Buffer) : b.markUndo.timeline = b.timeline := by
  obtain ⟨m,h⟩ := b.markUndo_eq
  rw [h]

/-- Everything that undoing one command can do. -/
theorem undoStep_cases (b : Buffer) :
    (b.timeline.past = [] ∧ b.undoStep = (false, b.markUndo)) ∨
    ∃ e past, b.timeline.past = e :: past ∧
      b.undoStep = (true, { b.markUndo.reset e.before with
        timeline := ⟨past, e :: b.timeline.future⟩, dot := e.dotBefore }) := by
  cases h : b.timeline.past with
  | nil =>
    have hu : b.markUndo.timeline.undo = none := by simp only [timeline_markUndo, Timeline.undo, h]
    exact .inl ⟨rfl,by simp only [undoStep, hu]⟩
  | cons e past =>
    have hu : b.markUndo.timeline.undo = some (e, ⟨past, e :: b.timeline.future⟩) := by
      simp only [timeline_markUndo, Timeline.undo, h]
    exact .inr ⟨e,past,rfl,by simp only [undoStep, hu]⟩

/-- Everything that redoing one command can do. -/
theorem redoStep_cases (b : Buffer) :
    (b.timeline.future = [] ∧ b.redoStep = (false, b.markUndo)) ∨
    ∃ e future, b.timeline.future = e :: future ∧
      b.redoStep = (true, { b.markUndo.reset e.after with
        timeline := ⟨e :: b.timeline.past, future⟩, dot := e.dotAfter }) := by
  cases h : b.timeline.future with
  | nil =>
    have hr : b.markUndo.timeline.redo = none := by simp only [timeline_markUndo, Timeline.redo, h]
    exact .inl ⟨rfl,by simp only [redoStep, hr]⟩
  | cons e future =>
    have hr : b.markUndo.timeline.redo = some (e, ⟨e :: b.timeline.past, future⟩) := by
      simp only [timeline_markUndo, Timeline.redo, h]
    exact .inr ⟨e,future,rfl,by simp only [redoStep, hr]⟩

/-- Undoing moves along the timeline and leaves its entries alone. -/
@[simp] theorem entries_undoStep (b : Buffer) :
    b.undoStep.2.timeline.entries = b.timeline.entries := by
  rcases b.undoStep_cases with ⟨-,h⟩ | ⟨e,past,hp,h⟩ <;> rw [h]
  · rw [timeline_markUndo]
  · simp [Timeline.entries, hp]

@[simp] theorem entries_redoStep (b : Buffer) :
    b.redoStep.2.timeline.entries = b.timeline.entries := by
  rcases b.redoStep_cases with ⟨-,h⟩ | ⟨e,future,hf,h⟩ <;> rw [h]
  · rw [timeline_markUndo]
  · simp [Timeline.entries, hf]

/-- What a step preserves is preserved by taking it many times. -/
theorem repeatStep_preserves {I : Buffer → Prop} {step : Buffer → Bool × Buffer}
    (hstep : ∀ b, I b → I (step b).2) (n : Nat) (hb : I b) : I (repeatStep step n b) := by
  induction n generalizing b with
  | zero => exact hb
  | succ n ih =>
    have h := hstep b hb
    unfold repeatStep
    split <;> rename_i hs <;> rw [hs] at h
    · exact ih h
    · exact h

/-- What undoing and redoing one command preserves is preserved by travelling. -/
theorem travel_preserves {I : Buffer → Prop} (hundo : ∀ b, I b → I b.undoStep.2)
    (hredo : ∀ b, I b → I b.redoStep.2) (steps : Int) (hb : I b) : I (b.travel steps) := by
  unfold travel
  split
  · exact repeatStep_preserves hundo _ hb
  · exact repeatStep_preserves hredo _ hb

/-- One buffer is another with a new text, dot and place on the timeline at most. -/
def Traveled (b c : Buffer) : Prop :=
  ∃ text version dot timeline undoMark, c = { b with text, version, dot, timeline, undoMark }

theorem Traveled.trans {d : Buffer} (h : b.Traveled c) (h' : c.Traveled d) : b.Traveled d := by
  obtain ⟨_,_,_,_,_,rfl⟩ := h
  obtain ⟨_,_,_,_,_,rfl⟩ := h'
  exact ⟨_,_,_,_,_,rfl⟩

theorem traveled_travel (b : Buffer) (steps : Int) : b.Traveled (b.travel steps) := by
  refine travel_preserves (fun c hc => hc.trans ?_) (fun c hc => hc.trans ?_) steps ⟨_,_,_,_,_,rfl⟩
  · obtain ⟨m,hm⟩ := c.markUndo_eq
    rcases c.undoStep_cases with ⟨-,h⟩ | ⟨e,past,-,h⟩ <;> rw [h, hm] <;> exact ⟨_,_,_,_,_,rfl⟩
  · obtain ⟨m,hm⟩ := c.markUndo_eq
    rcases c.redoStep_cases with ⟨-,h⟩ | ⟨e,future,-,h⟩ <;> rw [h, hm] <;> exact ⟨_,_,_,_,_,rfl⟩

/-! ## What rolling back leads to -/

theorem rollback_of_mark {m : UndoMark} (h : b.undoMark = some m) : b.rollback =
    { b.clearLog.reset m.text with
      undoMark := none, timeline := b.timeline.seek m.position, dot := m.dot } := by
  simp [rollback, clearLog, h]

theorem rollback_of_unmarked (h : b.undoMark = none) : b.rollback = b.clearLog := by
  simp [rollback, clearLog, h]

@[simp] theorem log_rollback (b : Buffer) : b.rollback.log = {} := by
  cases h : b.undoMark with
  | none => rw [rollback_of_unmarked h, clearLog]
  | some m => rw [rollback_of_mark h, clearLog, reset]

@[simp] theorem undoMark_rollback (b : Buffer) : b.rollback.undoMark = none := by
  cases h : b.undoMark with
  | none => rw [rollback_of_unmarked h, clearLog, h]
  | some m => rw [rollback_of_mark h]

theorem traveled_rollback (b : Buffer) : b.clearLog.Traveled b.rollback := by
  cases h : b.undoMark with
  | none => exact ⟨_,_,_,_,_,by rw [rollback_of_unmarked h]⟩
  | some m => exact ⟨_,_,_,_,_,by rw [rollback_of_mark h]; rfl⟩

/-- Rolling back a second time changes nothing. -/
theorem rollback_rollback (b : Buffer) : b.rollback.rollback = b.rollback := by
  rw [rollback_of_unmarked b.undoMark_rollback, clearLog, ← b.log_rollback]

/-- The text and the timeline that rolling back leads to. -/
def settled (b : Buffer) : Text × Timeline := (b.rollback.text, b.rollback.timeline)

theorem settled_of_unmarked (h : b.undoMark = none) : b.settled = (b.text, b.timeline) := by
  rw [settled, rollback_of_unmarked h, clearLog]

theorem settled_of_mark {m : UndoMark} (h : b.undoMark = some m) :
    b.settled = (m.text, b.timeline.seek m.position) := by
  rw [settled, rollback_of_mark h, clearLog, reset]

/-- It depends on the mark, the text and the timeline only. -/
theorem settled_congr (hm : c.undoMark = b.undoMark) (ht : c.text = b.text)
    (hl : c.timeline = b.timeline) : c.settled = b.settled := by
  cases h : b.undoMark with
  | none => rw [settled_of_unmarked h, settled_of_unmarked (hm.trans h), ht, hl]
  | some m => rw [settled_of_mark h, settled_of_mark (hm.trans h), hl]

/-- Under a mark, moving along the timeline does not change it. -/
theorem settled_of_entries {m : UndoMark} (hb : b.undoMark = some m) (hc : c.undoMark = some m)
    (he : c.timeline.entries = b.timeline.entries) : c.settled = b.settled := by
  rw [settled_of_mark hb, settled_of_mark hc, Timeline.seek, Timeline.seek, he]

/-- The mark holds the text and the position there were before. -/
theorem settled_markUndo (b : Buffer) : b.markUndo.settled = b.settled := by
  cases h : b.undoMark with
  | some m => simp only [markUndo, h]
  | none =>
    have hm : b.markUndo = { b with undoMark := some ⟨b.timeline.position, b.text, b.dot⟩ } := by
      simp only [markUndo, h]
    rw [settled_of_unmarked h, hm, settled_of_mark rfl, Timeline.seek_position rfl]

theorem settled_undoStep (b : Buffer) : b.undoStep.2.settled = b.settled := by
  rw [← b.settled_markUndo]
  obtain ⟨m,hm⟩ := b.markUndo_eq
  refine settled_of_entries (m := m) (by rw [hm]) ?_ (by rw [entries_undoStep, timeline_markUndo])
  rcases b.undoStep_cases with ⟨-,h⟩ | ⟨e,past,-,h⟩ <;> rw [h, hm]
  rfl

theorem settled_redoStep (b : Buffer) : b.redoStep.2.settled = b.settled := by
  rw [← b.settled_markUndo]
  obtain ⟨m,hm⟩ := b.markUndo_eq
  refine settled_of_entries (m := m) (by rw [hm]) ?_ (by rw [entries_redoStep, timeline_markUndo])
  rcases b.redoStep_cases with ⟨-,h⟩ | ⟨e,future,-,h⟩ <;> rw [h, hm]
  rfl

theorem settled_travel (b : Buffer) (steps : Int) : (b.travel steps).settled = b.settled := by
  refine travel_preserves (I := fun c => c.settled = b.settled) ?_ ?_ steps rfl
  · intro c hc
    rw [settled_undoStep, hc]
  · intro c hc
    rw [settled_redoStep, hc]

/-! ## What is not part of the text -/

/-- Two buffers have one name, know one version of their file and have the same pins, and both are
closed or both open. -/
structure SameStatus (b c : Buffer) : Prop where
  name : c.name = b.name
  diskTime : c.diskTime = b.diskTime
  pins : c.pins = b.pins
  closed : c.closed = b.closed

theorem SameStatus.refl (b : Buffer) : b.SameStatus b := ⟨rfl,rfl,rfl,rfl⟩

theorem SameStatus.trans {d : Buffer} (h : b.SameStatus c) (h' : c.SameStatus d) : b.SameStatus d :=
  ⟨h'.name.trans h.name,h'.diskTime.trans h.diskTime,h'.pins.trans h.pins,h'.closed.trans h.closed⟩

theorem Traveled.sameStatus (h : b.Traveled c) : b.SameStatus c := by
  obtain ⟨_,_,_,_,_,rfl⟩ := h
  exact ⟨rfl,rfl,rfl,rfl⟩

theorem sameStatus_rollback (b : Buffer) : b.SameStatus b.rollback := by
  obtain ⟨_,_,_,_,_,h⟩ := b.traveled_rollback
  rw [h]
  exact ⟨rfl,rfl,rfl,rfl⟩

end Buffer

end StructuralEdit
