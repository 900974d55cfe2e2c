import StructuralEdit.Proofs.Buffer.Rollback
import StructuralEdit.Proofs.Log.Replay

/-! # What a commit leaves

A commit without pending changes leaves text and timeline alone. A commit of pending
changes, whatever they are, leaves an empty log and one more entry of the timeline,
from the text there was to the text there is. Sound changes are never refused.
-/
namespace StructuralEdit.Buffer
variable {b c d : Buffer}

/-- One buffer is another with a new text, version and dot at most. -/
def Retexted (b c : Buffer) : Prop := ∃ text version dot, c = { b with text, version, dot }

theorem Retexted.refl (b : Buffer) : b.Retexted b := ⟨b.text,b.version,b.dot,rfl⟩

theorem Retexted.trans (h : b.Retexted c) (h' : c.Retexted d) : b.Retexted d := by
  obtain ⟨text,version,dot,rfl⟩ := h
  obtain ⟨text',version',dot',rfl⟩ := h'
  exact ⟨text',version',dot',rfl⟩

theorem retexted_insert {q : Int} {t : Text} (h : b.insert q t = .ok c) : b.Retexted c := by
  unfold insert at h
  split at h
  · cases h
  · simp only [Except.ok.injEq] at h
    subst h
    split
    · exact ⟨_,_,_,rfl⟩
    · exact ⟨_,_,_,rfl⟩

theorem retexted_delete {q0 q1 : Int} (h : b.delete q0 q1 = .ok c) : b.Retexted c := by
  unfold delete at h
  split at h
  · cases h
  · simp only [Except.ok.injEq] at h
    subst h
    split
    · exact ⟨_,_,_,rfl⟩
    · exact ⟨_,_,_,rfl⟩

/-- An edit changes text, version and dot at most, whether or not it is refused. -/
def Retexts {α : Type} (x : Edit α) : Prop := ∀ b : Buffer, match x b with
  | .ok _ c | .error _ c => b.Retexted c

section
variable {α β : Type} {x : Edit α} {f : α → Edit β} {a : α} {e : RangeFault}

theorem retexted_of_ok (hx : Retexts x) (h : x b = .ok a c) : b.Retexted c := by
  have hb := hx b
  rwa [h] at hb

theorem retexted_of_error (hx : Retexts x) (h : x b = .error e c) : b.Retexted c := by
  have hb := hx b
  rwa [h] at hb

theorem retexts_bind (hx : Retexts x) (hf : ∀ a, Retexts (f a)) : Retexts (x >>= f) := by
  intro b
  cases hb : x b with
  | error e c =>
    rw [bind_of_error hb]
    exact retexted_of_error hx hb
  | ok a c =>
    have hc := retexted_of_ok hx hb
    rw [bind_of_ok hb]
    cases hd : f a c with
    | ok a' d => exact hc.trans (retexted_of_ok (hf a) hd)
    | error e d => exact hc.trans (retexted_of_error (hf a) hd)

end

theorem retexts_attempt {f : Buffer → Except RangeFault Buffer}
    (hf : ∀ {b c}, f b = .ok c → b.Retexted c) : Retexts (attempt f) := by
  intro b
  unfold attempt
  cases h : f b with
  | ok c => exact hf h
  | error e => exact .refl b

theorem retexts_coverNewText (e : Change) : Retexts (modify (coverNewText e)) := by
  intro b
  change b.Retexted (coverNewText e b)
  unfold coverNewText
  split
  · exact ⟨_,_,_,rfl⟩
  · exact .refl b

theorem retexts_applyChange (e : Change) : Retexts (applyChange e) := by
  have hplace (q : Int) : Retexts (do attempt (·.insert q e.text); modify (coverNewText e)) :=
    retexts_bind (retexts_attempt retexted_insert) fun _ => retexts_coverNewText e
  refine retexts_bind (fun b => .refl b) fun b => ?_
  cases hk : e.kind with
  | delete => exact retexts_attempt retexted_delete
  | insert => exact hplace _
  | replace => exact retexts_bind (retexts_attempt retexted_delete) fun _ => hplace _

theorem retexts_applyChanges (es : List Change) : Retexts (applyChanges es) := by
  induction es with
  | nil => exact fun b => .refl b
  | cons e es ih => exact retexts_bind (retexts_applyChange e) fun _ => ih

/-- Carrying out a log leaves it empty, and all but text, version and dot as it was. -/
theorem retexted_applyLog (h : applyLog b = .ok () c) : b.clearLog.Retexted c := by
  obtain ⟨_,_,hget,h⟩ := ok_of_bind h
  cases hget
  obtain ⟨_,d,hchanges,hclear⟩ := ok_of_bind h
  cases hclear
  obtain ⟨text,version,dot,rfl⟩ := retexted_of_ok (retexts_applyChanges _) hchanges
  exact ⟨text,version,dot,rfl⟩

/-- A log that is refused is left as it was, with all but text, version and dot. -/
theorem retexted_of_refused {f : RangeFault} (h : applyLog b = .error f c) : b.Retexted c := by
  unfold applyLog at h
  rw [bind_of_ok (get_eq b)] at h
  cases hchanges : applyChanges b.log.changes b with
  | error e d =>
    rw [bind_of_error hchanges] at h
    cases h
    exact retexted_of_error (retexts_applyChanges _) hchanges
  | ok _ d =>
    rw [bind_of_ok hchanges] at h
    cases h

/-! ## Commits -/

/-- A commit begins by taking the undo mark. -/
theorem commit_run (seq : Int) (b : Buffer) :
    commit seq b = (if b.log.isEmpty then return false else do
      transaction seq applyLog
      modify fun b => if b.editClean then b.markClean else b
      modify fun b => { b with editClean := false }
      return true : Edit Bool) { b with undoMark := none } := rfl

/-- Changes that go through leave one entry, of the text and dot before and after them. -/
theorem transaction_of_ok {ε α : Type} {x : EStateM ε Buffer α} {seq : Int} {a : α}
    (h : x b = .ok a c) : transaction seq x b =
      .ok a { c with timeline := c.timeline.push ⟨seq, b.text, c.text, b.dot, c.dot⟩ } :=
  (bind_of_ok h).trans rfl

theorem transaction_of_error {ε α : Type} {x : EStateM ε Buffer α} {seq : Int} {e : ε}
    (h : x b = .error e c) : transaction seq x b = .error e c := by
  unfold transaction
  rw [bind_of_ok (get_eq b), bind_of_error h]

/-- Without pending changes a commit takes the undo mark and does nothing else. -/
theorem commit_of_isEmpty (seq : Int) (h : b.log.isEmpty = true) :
    commit seq b = .ok false { b with undoMark := none } := by
  rw [commit_run, if_pos h]
  rfl

/-- Pending changes become one entry of the timeline. -/
theorem commit_of_pending {seq : Int} {r : Bool} (hl : b.log.isEmpty = false)
    (h : commit seq b = .ok r c) : c.log = {} ∧ c.undoMark = none ∧
      c.timeline = b.timeline.push ⟨seq, b.text, c.text, b.dot, c.dot⟩ := by
  rw [commit_run, if_neg (by simp [hl])] at h
  obtain ⟨_,d,htransaction,h⟩ := ok_of_bind h
  obtain ⟨_,_,hget,htransaction⟩ := ok_of_bind htransaction
  cases hget
  obtain ⟨_,a,hlog,hpush⟩ := ok_of_bind htransaction
  obtain ⟨text,version,dot,rfl⟩ := retexted_applyLog hlog
  cases hpush
  cases h
  simp only
  split
  · exact ⟨rfl,rfl,rfl⟩
  · exact ⟨rfl,rfl,rfl⟩

theorem Retexted.sameStatus (h : b.Retexted c) : b.SameStatus c := by
  obtain ⟨_,_,_,rfl⟩ := h
  exact ⟨rfl,rfl,rfl,rfl⟩

/-- A commit leaves alone what is not part of the text, whether or not it is refused. -/
theorem sameStatus_commit (seq : Int) (b : Buffer) : match commit seq b with
    | .ok _ c | .error _ c => b.SameStatus c := by
  rw [commit_run]
  cases hl : b.log.isEmpty with
  | true => exact ⟨rfl,rfl,rfl,rfl⟩
  | false =>
    rw [if_neg (by simp)]
    cases hlog : applyLog { b with undoMark := none } with
    | error f c =>
      rw [bind_of_error (transaction_of_error hlog)]
      obtain ⟨_,_,_,rfl⟩ := retexted_of_refused hlog
      exact ⟨rfl,rfl,rfl,rfl⟩
    | ok _ c =>
      rw [bind_of_ok (transaction_of_ok hlog)]
      obtain ⟨_,_,_,rfl⟩ := retexted_applyLog hlog
      cases b.editClean <;> exact ⟨rfl,rfl,rfl,rfl⟩

/-- Committing sound changes: none is refused, and all that becomes of the buffer. -/
theorem commit_of_sound (seq : Int) (hl : b.log.isEmpty = false) (hs : b.log.Sound) :
    ∃ v, commit seq b = .ok true { b with
      text := b.text.replay b.log.changes, version := v,
      dot := b.text.replayDot b.dot b.log.changes, log := {}, undoMark := none,
      timeline := b.timeline.push ⟨seq, b.text, b.text.replay b.log.changes, b.dot,
        b.text.replayDot b.dot b.log.changes⟩,
      cleanSeq := if b.editClean then seq else b.cleanSeq, editClean := false } := by
  obtain ⟨v,hlog⟩ := applyLog_eq (b := { b with undoMark := none }) hs
  refine ⟨v,?_⟩
  rw [commit_run, if_neg (by simp [hl])]
  rw [bind_of_ok (transaction_of_ok hlog)]
  cases b.editClean <;> rfl

/-- One entry more where something was pending, behind those still applied, and else none. -/
def Advanced (seq : Int) (b c : Buffer) : Prop :=
  c.timeline = if b.log.isEmpty then b.timeline
    else b.timeline.push ⟨seq, b.text, c.text, b.dot, c.dot⟩

theorem advanced_of_commit {seq : Int} {r : Bool} (h : commit seq b = .ok r c) :
    Advanced seq b c := by
  unfold Advanced
  cases hl : b.log.isEmpty with
  | true =>
    rw [commit_of_isEmpty seq hl] at h
    cases h
    rfl
  | false => exact (commit_of_pending hl h).2.2

/-- After a commit nothing is pending, and no undo step can be taken back. -/
theorem commit_settles {seq : Int} {r : Bool} (h : commit seq b = .ok r c) :
    c.log.isEmpty = true ∧ c.undoMark = none := by
  cases hl : b.log.isEmpty with
  | true =>
    rw [commit_of_isEmpty seq hl] at h
    cases h
    exact ⟨hl,rfl⟩
  | false =>
    obtain ⟨hlog,hmark,-⟩ := commit_of_pending hl h
    exact ⟨by rw [hlog]; rfl,hmark⟩

/-- A second commit does nothing. -/
theorem commit_again {seq : Int} {r : Bool} (h : commit seq b = .ok r c) :
    commit seq c = .ok false c := by
  obtain ⟨hlog,hmark⟩ := commit_settles h
  rw [commit_of_isEmpty seq hlog, ← hmark]

end StructuralEdit.Buffer
