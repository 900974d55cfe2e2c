import StructuralEdit.Proofs.Address.Within
import StructuralEdit.Proofs.Buffer.Commit
import StructuralEdit.Proofs.Buffer.Touch
import StructuralEdit.Workspace

/-! # Dots in their texts

The dot of a buffer lies in its text, and each dot that is kept for undoing lies in the
text it is kept with. Commands keep this as long as they set dot to a range of the text;
undoing, rolling back and any commit that is not refused keep it without further ado.
-/
namespace StructuralEdit.Buffer
variable {b c : Buffer} {r : Span} {q q0 q1 : Int}

/-- Every dot lies in its text. -/
structure DotsWithin (b : Buffer) : Prop where
  dot : b.dot.Within b.text
  entries : ∀ e ∈ b.timeline.entries, e.dotBefore.Within e.before ∧ e.dotAfter.Within e.after
  mark : ∀ m ∈ b.undoMark, m.dot.Within m.text

instance (b : Buffer) : Decidable b.DotsWithin :=
  decidable_of_iff (b.dot.Within b.text ∧
      (∀ e ∈ b.timeline.entries, e.dotBefore.Within e.before ∧ e.dotAfter.Within e.after) ∧
      ∀ m ∈ b.undoMark, m.dot.Within m.text)
    ⟨fun ⟨hd,he,hm⟩ => ⟨hd,he,hm⟩,fun h => ⟨h.dot,h.entries,h.mark⟩⟩

theorem dotsWithin_default : (default : Buffer).DotsWithin := by decide

theorem dotsWithin_load (store : FileStore) (path : Text) :
    (Workspace.load store path).DotsWithin := by
  unfold Workspace.load
  split <;> exact ⟨⟨Int.le_refl 0,Int.le_refl 0,Int.natCast_nonneg _⟩,by nofun,by nofun⟩

namespace DotsWithin

/-- It is about text, dot, timeline and mark only. -/
theorem congr (h : b.DotsWithin) (ht : c.text = b.text) (hd : c.dot = b.dot)
    (hl : c.timeline = b.timeline) (hm : c.undoMark = b.undoMark) : c.DotsWithin :=
  ⟨ht ▸ hd ▸ h.dot,hl ▸ h.entries,hm ▸ h.mark⟩

theorem setDot (h : b.DotsWithin) (hr : r.Within b.text) : ({ b with dot := r } : Buffer).DotsWithin :=
  ⟨hr,h.entries,h.mark⟩

/-! ## Undoing and rolling back -/

theorem markUndo (h : b.DotsWithin) : b.markUndo.DotsWithin := by
  unfold Buffer.markUndo
  split
  · exact h
  · refine ⟨h.dot,h.entries,fun m hm => ?_⟩
    cases hm
    exact h.dot

theorem undoStep (h : b.DotsWithin) : b.undoStep.2.DotsWithin := by
  have hentries := b.entries_undoStep
  rcases b.undoStep_cases with ⟨-,hb⟩ | ⟨e,past,hp,hb⟩ <;> rw [hb] at hentries ⊢
  · exact h.markUndo
  · have he : e ∈ b.timeline.entries := by simp [Timeline.entries, hp]
    exact ⟨(h.entries e he).1,fun d hd => h.entries d (hentries ▸ hd),h.markUndo.mark⟩

theorem redoStep (h : b.DotsWithin) : b.redoStep.2.DotsWithin := by
  have hentries := b.entries_redoStep
  rcases b.redoStep_cases with ⟨-,hb⟩ | ⟨e,future,hf,hb⟩ <;> rw [hb] at hentries ⊢
  · exact h.markUndo
  · have he : e ∈ b.timeline.entries := by simp [Timeline.entries, hf]
    exact ⟨(h.entries e he).2,fun d hd => h.entries d (hentries ▸ hd),h.markUndo.mark⟩

theorem travel (h : b.DotsWithin) (steps : Int) : (b.travel steps).DotsWithin :=
  travel_preserves (fun _ => undoStep) (fun _ => redoStep) steps h

theorem rollback (h : b.DotsWithin) : b.rollback.DotsWithin := by
  cases hm : b.undoMark with
  | none =>
    rw [rollback_of_unmarked hm]
    exact h.congr rfl rfl rfl rfl
  | some m =>
    rw [rollback_of_mark hm]
    refine ⟨h.mark m hm,fun e he => h.entries e ?_,by nofun⟩
    rwa [Timeline.entries_seek] at he

/-- All but setting dot keeps it. -/
theorem touch (h : b.DotsWithin) {t : Touch} (ht : ∀ r, t = .dot r → r.Within b.text) :
    (t.apply b).DotsWithin := by
  cases t with
  | dot r => exact h.setDot (ht r rfl)
  | travel steps => exact h.travel steps
  | rename name =>
    simp only [Touch.apply, Buffer.rename]
    split <;> exact h.congr rfl rfl rfl rfl
  | record | markClean | markDirty | read | know | pin | close => exact h.congr rfl rfl rfl rfl

end DotsWithin

/-! ## Direct changes -/

theorem range_of_delete (h : b.delete q0 q1 = .ok c) : 0 ≤ q0 ∧ q0 ≤ q1 ∧ q1 ≤ b.size := by
  unfold delete rangeFault? at h
  split at h
  · cases h
  · rename_i hfault
    split at hfault
    · cases hfault
    · split at hfault
      · cases hfault
      · omega

theorem range_of_insert {t : Text} (h : b.insert q t = .ok c) : 0 ≤ q ∧ q ≤ b.size := by
  unfold insert rangeFault? at h
  split at h
  · cases h
  · rename_i hfault
    split at hfault
    · cases hfault
    · split at hfault
      · cases hfault
      · omega

theorem dotAfterDelete_within {t t' : Text} (hr : r.Within t) (h0 : 0 ≤ q0)
    (h1 : q1 ≤ t.length) (hlen : (t'.length : Int) = t.length - (q1 - q0)) :
    (dotAfterDelete r q0 (q1 - q0)).Within t' := by
  obtain ⟨hstart,hordered,hstop⟩ := hr
  constructor <;> simp only [dotAfterDelete] <;> split <;> (try split) <;> omega

theorem dotAfterInsert_within {t t' : Text} {n : Nat} (hr : r.Within t) (h0 : 0 ≤ q)
    (hlen : (t'.length : Int) = t.length + n) :
    (dotAfterInsert r q n).Within t' := by
  obtain ⟨hstart,hordered,hstop⟩ := hr
  constructor <;> simp only [dotAfterInsert] <;> split <;> (try split) <;> omega

theorem cover_within {t : Text} {e : Change} (hr : r.Within t)
    (he : r.q0 = e.q0 → e.q0 + e.text.length ≤ t.length) : (e.cover r).Within t := by
  unfold Change.cover
  split
  · rename_i hat
    have hordered := hr.ordered
    have hle := he hat.1
    exact ⟨hr.start,by simp only; omega,by simp only; omega⟩
  · exact hr

theorem delete_within (hb : b.dot.Within b.text) (h : b.delete q0 q1 = .ok c) :
    c.dot.Within c.text ∧ (c.size : Int) = b.size - (q1 - q0) := by
  obtain ⟨h0,h1,h2⟩ := range_of_delete h
  obtain ⟨v,hd⟩ := delete_eq h0 h1 h2
  rw [hd] at h
  cases h
  have hlen : ((b.text.take q0.toNat ++ b.text.drop q1.toNat).length : Int) = b.size - (q1 - q0) := by
    rw [List.length_append, List.length_take, List.length_drop]
    unfold size at h2 ⊢
    omega
  exact ⟨dotAfterDelete_within hb h0 h2 hlen,hlen⟩

/-- Putting in the text of a change, whose place was clipped to the buffer, and covering it. -/
theorem place_within {e : Change} (hb : b.dot.Within b.text)
    (hq : q = e.q0 ∨ q < e.q0 ∧ b.size ≤ q)
    (h : (do attempt (·.insert q e.text); modify (coverNewText e) : Edit Unit) b = .ok () c) :
    c.dot.Within c.text := by
  have hrange : 0 ≤ q ∧ q ≤ b.size := by
    obtain ⟨_,d,hinsert,-⟩ := ok_of_bind h
    unfold attempt at hinsert
    split at hinsert
    · exact range_of_insert ‹_›
    · cases hinsert
  obtain ⟨v,heq⟩ := insert_cover_eq e hrange.1 hrange.2
  rw [heq] at h
  cases h
  have hlen : ((b.text.take q.toNat ++ e.text ++ b.text.drop q.toNat).length : Int) =
      b.text.length + e.text.length := by
    rw [List.length_append, List.length_append, List.length_take, List.length_drop]
    unfold size at hrange
    omega
  refine cover_within (dotAfterInsert_within hb hrange.1 hlen) fun hat => ?_
  -- Dot is not behind the end, so a change that is does not find dot at its place.
  have hordered := hb.ordered
  have hstop := hb.stop
  unfold size at hq
  simp only [dotAfterInsert] at hat
  simp only [hlen]
  split at hat <;> omega

theorem applyChange_within {e : Change} (hb : b.dot.Within b.text)
    (h : applyChange e b = .ok () c) : c.dot.Within c.text := by
  obtain ⟨_,_,hget,h⟩ := ok_of_bind h
  cases hget
  have hplace {size : Nat} (hsize : (size : Int) = b.size - (min e.stop b.size - min e.q0 b.size))
      (hle : min e.q0 b.size ≤ min e.stop b.size) :
      min e.q0 b.size = e.q0 ∨ min e.q0 b.size < e.q0 ∧ (size : Int) ≤ min e.q0 b.size := by omega
  cases hk : e.kind with
  | delete =>
    simp only [hk] at h
    unfold attempt at h
    split at h
    · cases h
      exact (delete_within hb ‹_›).1
    · cases h
  | insert =>
    simp only [hk] at h
    refine place_within hb ?_ h
    simp only [constrain]
    omega
  | replace =>
    simp only [hk] at h
    obtain ⟨_,d,hdel,h⟩ := ok_of_bind h
    unfold attempt at hdel
    split at hdel
    · cases hdel
      rename_i hdelete
      obtain ⟨hd,hsize⟩ := delete_within hb hdelete
      exact place_within hd (hplace hsize (range_of_delete hdelete).2.1) h
    · cases hdel

theorem applyChanges_within {es : List Change} (hb : b.dot.Within b.text)
    (h : applyChanges es b = .ok () c) : c.dot.Within c.text := by
  induction es generalizing b with
  | nil =>
    cases h
    exact hb
  | cons e es ih =>
    obtain ⟨_,d,he,h⟩ := ok_of_bind h
    exact ih (applyChange_within hb he) h

/-! ## Commits -/

/-- No commit that is carried out puts dot out of the text. -/
theorem DotsWithin.commit {seq : Int} {done : Bool} (h : b.DotsWithin)
    (hc : Buffer.commit seq b = .ok done c) : c.DotsWithin := by
  cases hl : b.log.isEmpty with
  | true =>
    rw [commit_of_isEmpty seq hl] at hc
    cases hc
    exact ⟨h.dot,h.entries,by nofun⟩
  | false =>
    obtain ⟨-,hmark,htimeline⟩ := commit_of_pending hl hc
    have hdot : c.dot.Within c.text := by
      rw [commit_run, if_neg (by simp [hl])] at hc
      obtain ⟨_,d,htransaction,hc⟩ := ok_of_bind hc
      obtain ⟨_,_,hget,htransaction⟩ := ok_of_bind htransaction
      cases hget
      obtain ⟨_,a,hlog,hpush⟩ := ok_of_bind htransaction
      cases hpush
      obtain ⟨_,_,hget,hlog⟩ := ok_of_bind hlog
      cases hget
      obtain ⟨_,a,hchanges,hclear⟩ := ok_of_bind hlog
      cases hclear
      have ha := applyChanges_within (b := { b with undoMark := none }) h.dot hchanges
      cases hc
      simp only
      split <;> exact ha
    refine ⟨hdot,fun e he => ?_,by rw [hmark]; nofun⟩
    rw [htimeline, Timeline.entries_push] at he
    rcases List.mem_append.mp he with he | he
    · exact h.entries e (List.mem_append_left _ he)
    · obtain rfl := List.mem_singleton.mp he
      exact ⟨h.dot,hdot⟩

end StructuralEdit.Buffer
