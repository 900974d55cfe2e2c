import StructuralEdit.Proofs.Buffer.Commit
import StructuralEdit.Proofs.Buffer.Touch

/-! # The timeline as a history of the text

Entry by entry a timeline leads from the text a buffer began with to later texts, and
the buffer has the text its position stands for. Undoing, redoing and committing keep
this, so undo steps can be redone to the same text and the same timeline.
-/
namespace StructuralEdit

/-- Each entry begins with the text the one before it ended with, the first with `base`. -/
def Linked : Text → List UndoEntry → Prop
  | _, [] => True
  | base, e :: rest => e.before = base ∧ Linked e.after rest

/-- The text that entries lead to. -/
def endText : Text → List UndoEntry → Text
  | base, [] => base
  | _, e :: rest => endText e.after rest

theorem linked_append (base : Text) (es fs : List UndoEntry) :
    Linked base (es ++ fs) ↔ Linked base es ∧ Linked (endText base es) fs := by
  induction es generalizing base with
  | nil => simp [Linked, endText]
  | cons e es ih => simp only [List.cons_append, Linked, endText, ih, and_assoc]

theorem endText_concat (base : Text) (es : List UndoEntry) (e : UndoEntry) :
    endText base (es ++ [e]) = e.after := by
  induction es generalizing base with
  | nil => rfl
  | cons d es ih => exact ih d.after

namespace Timeline

/-- The text at the position of a timeline that began with `base`. -/
def present (t : Timeline) (base : Text) : Text :=
  match t.past with
  | [] => base
  | e :: _ => e.after

theorem present_eq (t : Timeline) (base : Text) : t.present base = endText base t.past.reverse := by
  cases h : t.past with
  | nil => simp only [present, h, List.reverse_nil, endText]
  | cons e past => simp only [present, h, List.reverse_cons, endText_concat]

end Timeline

namespace Buffer
variable {b c : Buffer} {base : Text} {last : Int}

/-- The timeline of a buffer is a history of its text from `base`, made by commands numbered up
to `last`. -/
structure History (base : Text) (last : Int) (b : Buffer) : Prop where
  linked : Linked base b.timeline.entries
  increasing : b.timeline.entries.Pairwise fun d e => d.seq < e.seq
  numbered : ∀ e ∈ b.timeline.entries, e.seq ≤ last
  current : b.text = b.timeline.present base

theorem History.of_fresh (ht : b.timeline = {}) (last : Int) : b.History b.text last := by
  constructor
  · rw [ht]; trivial
  · rw [ht]; exact .nil
  · rw [ht]; intro e he; cases he
  · rw [ht]; rfl

theorem History.mono {last' : Int} (h : b.History base last) (hle : last ≤ last') :
    b.History base last' :=
  ⟨h.linked,h.increasing,fun e he => Int.le_trans (h.numbered e he) hle,h.current⟩

/-- It is about text and timeline only. -/
theorem History.congr (h : b.History base last) (ht : c.text = b.text)
    (hl : c.timeline = b.timeline) : c.History base last :=
  ⟨hl ▸ h.linked,hl ▸ h.increasing,hl ▸ h.numbered,by rw [ht, hl]; exact h.current⟩

/-- Moving along the timeline keeps it, if the text follows. -/
theorem History.move (h : b.History base last) (he : c.timeline.entries = b.timeline.entries)
    (ht : c.text = c.timeline.present base) : c.History base last :=
  ⟨he ▸ h.linked,he ▸ h.increasing,he ▸ h.numbered,ht⟩

theorem History.undoStep (h : b.History base last) : b.undoStep.2.History base last := by
  refine h.move b.entries_undoStep ?_
  rcases b.undoStep_cases with ⟨-,hb⟩ | ⟨e,past,hp,hb⟩ <;> rw [hb]
  · obtain ⟨m,hm⟩ := b.markUndo_eq
    rw [hm]
    exact h.current
  · have hlinked := h.linked
    rw [Timeline.entries, hp, List.reverse_cons, linked_append, linked_append] at hlinked
    rw [Timeline.present_eq]
    exact hlinked.1.2.1

theorem History.redoStep (h : b.History base last) : b.redoStep.2.History base last := by
  refine h.move b.entries_redoStep ?_
  rcases b.redoStep_cases with ⟨-,hb⟩ | ⟨e,future,-,hb⟩ <;> rw [hb]
  · obtain ⟨m,hm⟩ := b.markUndo_eq
    rw [hm]
    exact h.current
  · rfl

theorem History.touch (h : b.History base last) (t : Touch) : (t.apply b).History base last := by
  cases t with
  | travel steps => exact travel_preserves (fun _ => undoStep) (fun _ => redoStep) steps h
  | rename name =>
    simp only [Touch.apply, rename]
    split <;> exact h.congr rfl rfl
  | dot | record | markClean | markDirty | read | know | pin | close => exact h.congr rfl rfl

/-- No command at work breaks it. -/
theorem History.touched {P : Touch → Prop} (h : b.History base last) (ht : b.Touched P c) :
    c.History base last :=
  ht.preserves (fun t _ _ hb => hb.touch t) h

theorem History.commit {seq : Int} {r : Bool} (h : b.History base last) (hseq : last < seq)
    (hc : Buffer.commit seq b = .ok r c) : c.History base seq := by
  have hmono := h.mono (Int.le_of_lt hseq)
  cases hl : b.log.isEmpty with
  | true =>
    rw [commit_of_isEmpty seq hl] at hc
    cases hc
    exact hmono.congr rfl rfl
  | false =>
    obtain ⟨-,-,ht⟩ := commit_of_pending hl hc
    obtain ⟨hlinked,-⟩ := (linked_append _ _ _).mp h.linked
    obtain ⟨hincreasing,-,-⟩ := List.pairwise_append.mp h.increasing
    have hpast (e : UndoEntry) (he : e ∈ b.timeline.past.reverse) : e.seq ≤ last :=
      h.numbered e (List.mem_append_left _ he)
    -- The new entry stands behind those still applied; it begins with the present text.
    constructor
    · rw [ht, Timeline.entries_push, linked_append]
      refine ⟨hlinked,?_,trivial⟩
      rw [← Timeline.present_eq]
      exact h.current
    · rw [ht, Timeline.entries_push, List.pairwise_append]
      refine ⟨hincreasing,List.pairwise_singleton _ _,?_⟩
      intro d hd e he
      obtain rfl := List.mem_singleton.mp he
      exact Int.lt_of_le_of_lt (hpast d hd) hseq
    · rw [ht, Timeline.entries_push]
      intro e he
      rcases List.mem_append.mp he with he | he
      · exact Int.le_trans (hpast e he) (Int.le_of_lt hseq)
      · obtain rfl := List.mem_singleton.mp he
        exact Int.le_refl seq
    · rw [ht]
      rfl

/-! ## Undoing and redoing -/

/-- Undo steps that are available move as many entries from what is applied to what can be
redone. -/
theorem timeline_undoSteps (n : Nat) (hn : n ≤ b.timeline.past.length) :
    (repeatStep Buffer.undoStep n b).timeline =
      ⟨b.timeline.past.drop n, (b.timeline.past.take n).reverse ++ b.timeline.future⟩ := by
  induction n generalizing b with
  | zero => rfl
  | succ n ih =>
    rcases b.undoStep_cases with ⟨hp,-⟩ | ⟨e,past,hp,hb⟩
    · rw [hp] at hn
      cases hn
    · have hle : n ≤ past.length := by
        rw [hp, List.length_cons] at hn
        exact Nat.le_of_succ_le_succ hn
      simp only [repeatStep, hb]
      rw [ih hle, hp]
      simp

theorem timeline_redoSteps (n : Nat) (hn : n ≤ b.timeline.future.length) :
    (repeatStep Buffer.redoStep n b).timeline =
      ⟨(b.timeline.future.take n).reverse ++ b.timeline.past, b.timeline.future.drop n⟩ := by
  induction n generalizing b with
  | zero => rfl
  | succ n ih =>
    rcases b.redoStep_cases with ⟨hf,-⟩ | ⟨e,future,hf,hb⟩
    · rw [hf] at hn
      cases hn
    · have hle : n ≤ future.length := by
        rw [hf, List.length_cons] at hn
        exact Nat.le_of_succ_le_succ hn
      simp only [repeatStep, hb]
      rw [ih hle, hf]
      simp

/-- As many redo steps as there were undo steps lead back to the text and the timeline. -/
theorem History.undo_redo (h : b.History base last) {n : Nat}
    (hn : n ≤ b.timeline.past.length) :
    let c := repeatStep Buffer.redoStep n (repeatStep Buffer.undoStep n b)
    c.text = b.text ∧ c.timeline = b.timeline := by
  intro c
  have hundone := timeline_undoSteps n hn
  have hlen : (b.timeline.past.take n).reverse.length = n := by simp [hn]
  have hfuture : n ≤ (repeatStep Buffer.undoStep n b).timeline.future.length := by
    rw [hundone, List.length_append, hlen]
    exact Nat.le_add_right _ _
  have htimeline : c.timeline = b.timeline := by
    simp only [c]
    rw [timeline_redoSteps n hfuture, hundone]
    simp only [List.take_left' hlen, List.drop_left' hlen, List.reverse_reverse,
      List.take_append_drop]
  have hc : c.History base last :=
    repeatStep_preserves (fun _ => redoStep) n (repeatStep_preserves (fun _ => undoStep) n h)
  exact ⟨by rw [hc.current, h.current, htimeline],htimeline⟩

end Buffer

end StructuralEdit
