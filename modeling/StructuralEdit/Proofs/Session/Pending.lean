import StructuralEdit.Proofs.Session.Atomic
import StructuralEdit.Proofs.Session.Calls

/-! # What becomes of recorded changes

No part of a command drops a change that was recorded: after each command of a text, what
is pending in a buffer stays pending up to the commit, with what is recorded behind it. The
commit carries out all that is pending in the buffers that are listed then. So a command text
that succeeds loses changes in one way only: a buffer is closed, and taken from the list,
before they are committed.
-/
namespace StructuralEdit
open Relation

namespace EditLog

/-- Requests recorded after others are recorded behind them. -/
theorem log_recordAll_append (l : EditLog) (cs cs' : List ChangeRequest) :
    (l.recordAll (cs ++ cs')).1 = ((l.recordAll cs).1.recordAll cs').1 := by
  induction cs generalizing l with
  | nil => rfl
  | cons c cs ih => exact ih (c.record l).1

end EditLog

namespace Touch

/-- The request that a touch records. -/
def request? : Touch → Option ChangeRequest
  | record c => some c
  | _ => none

/-- A touch changes a log by recording only. -/
theorem log_apply (t : Touch) (b : Buffer) :
    (t.apply b).log = (b.log.recordAll t.request?.toList).1 := by
  cases t with
  | record c => rfl
  | travel steps =>
    obtain ⟨_,_,_,_,_,h⟩ := b.traveled_travel steps
    simp only [apply, h]
    rfl
  | rename name =>
    simp only [apply, Buffer.rename]
    split <;> rfl
  | dot | markClean | markDirty | read | know | pin | close => rfl

theorem recorded_apply (t : Touch) {l : EditLog} {b : Buffer} (h : ∃ requests, b.log = (l.recordAll requests).1) :
    ∃ requests, (t.apply b).log = (l.recordAll requests).1 := by
  obtain ⟨requests,hlog⟩ := h
  exact ⟨requests ++ t.request?.toList,by rw [t.log_apply, hlog, EditLog.log_recordAll_append]⟩

/-- A buffer that is closed stays so. -/
theorem closed_apply (t : Touch) {b : Buffer} (hb : b.closed = true) : (t.apply b).closed = true := by
  cases t with
  | close => rfl
  | travel steps => exact (b.traveled_travel steps).sameStatus.closed.trans hb
  | rename name =>
    simp only [apply, Buffer.rename]
    split <;> exact hb
  | dot | record | markClean | markDirty | read | know | pin => exact hb

end Touch

namespace Buffer
variable {P : Touch → Prop} {b c : Buffer}

/-- What a command leaves in a log is what was there, with what it recorded behind. -/
theorem Touched.log (h : Touched P b c) : ∃ requests, c.log = (b.log.recordAll requests).1 := by
  induction h with
  | refl => exact ⟨[],rfl⟩
  | tail _ hstep ih =>
    obtain ⟨t,-,rfl⟩ := hstep
    exact t.recorded_apply ih

end Buffer

namespace Session
variable {P : Touch → Prop} {s t u : Session} {k : Handle}

/-- Whatever was pending in a buffer is pending still, and what is recorded behind it. -/
def Grows (k : Handle) (s t : Session) : Prop :=
  ∃ requests, (t.buffer k).log = ((s.buffer k).log.recordAll requests).1

theorem Grows.refl (k : Handle) (s : Session) : Grows k s s := ⟨[],rfl⟩

theorem Grows.trans (h : Grows k s t) (h' : Grows k t u) : Grows k s u := by
  obtain ⟨requests,hlog⟩ := h
  obtain ⟨requests',hlog'⟩ := h'
  exact ⟨requests ++ requests',by rw [hlog', hlog, EditLog.log_recordAll_append]⟩

theorem Reaches.grows (h : s.Reaches P t) (k : Handle) : Grows k s t := by
  let I (b : Buffer) : Prop := ∃ requests, b.log = ((s.buffer k).log.recordAll requests).1
  refine h.moves.preserves (I := I) (fun t _ b hb => t.recorded_apply hb) (fun store path hb => ?_) ⟨[],rfl⟩
  unfold Workspace.load
  split <;> exact hb

end Session

theorem Call.reaches (c : Call) : c.before.Reaches Touch.Any c.after := by
  apply c.follows
  obtain ⟨h,cmd,s⟩ := c
  cases cmd with
  | act addr action => exact Run.serves_kind fun _ => inferInstance
  | guard | extract | buffers | group => trivial

namespace Run
open Session
variable {h : Option Handle} {text : Text} {s t c : Session} {k : Handle}

theorem Origin.log {b : Buffer} (ho : Origin s k b) (hs : s.Resting) : b.log.isEmpty = true := by
  rcases ho with ⟨hk,-,editClean,rfl⟩ | ⟨-,store,path,rfl⟩
  · exact (hs k hk).2.1
  · unfold Workspace.load
    split <;> rfl

/-- A text that was carried out without an error has moved the workspace as commands do. -/
theorem carryOut_ok (hrun : carryOut h text s = .ok none t) : s.Reaches Touch.Any t := by
  have hw := follows_runText (R := Session.Reaches Touch.Any) h text s
  rcases carryOut_run hrun with ⟨-,hx⟩ | ⟨e,r,ho,-⟩
  · rwa [final_of_ok hx] at hw
  · cases ho

theorem course_of_pending {R : Session → Session → Prop} [Between R] (hpending : pending h text s = .ok none c)
    (hcalls : editCalls h text s ≠ []) :
    ∃ b, begin h s = .ok () b ∧ Course R b (editCalls h text s) c ∧ b.Reaches Touch.Any c := by
  obtain ⟨_,b,hbegin,hcarry⟩ := ok_of_bind hpending
  refine ⟨b,hbegin,?_,carryOut_ok hcarry⟩
  have hcourse := traces_runText (R := R) h text b
  rcases carryOut_run hcarry with ⟨-,hx⟩ | ⟨e,r,ho,-⟩
  · rw [final_of_ok hx] at hcourse
    unfold editCalls at hcalls ⊢
    split
    · rename_i hrefused
      exact absurd (if_pos hrefused) hcalls
    · rwa [final_of_ok hbegin]
  · cases ho

/-- What is pending in a buffer after a command of a text is pending when the text has been carried out. -/
theorem grows_pending (hpending : pending h text s = .ok none c) {d : Call} (hd : d ∈ editCalls h text s)
    (k : Handle) : Grows k d.before d.after ∧ Grows k d.after c := by
  have hcalls : editCalls h text s ≠ [] := List.ne_nil_of_mem hd
  obtain ⟨b,-,hcourse,-⟩ := course_of_pending (R := Reaches Touch.Any) hpending hcalls
  obtain ⟨pre,post,hsplit⟩ := List.append_of_mem hd
  rw [hsplit] at hcourse
  exact ⟨d.reaches.grows k,(hcourse.split.2.follows fun e _ => e.reaches).grows k⟩

/-- What is listed when a command begins, and what it opens, is listed before its commit, or
closed. -/
theorem pending_listed_or_closed (hrun : pending h text s = .ok none t)
    (hk : k ∈ s.workspace.listed ∧ k < s.workspace.known.length ∨ s.workspace.known.length ≤ k)
    (hlt : k < t.workspace.known.length) :
    (∃ b, Origin s k b ∧ b.Touched Touch.Any (t.buffer k)) ∧
      (k ∈ t.workspace.listed ∨ (t.buffer k).closed = true) := by
  obtain ⟨b,hbegin,hb⟩ := begin_begun h s
  unfold pending at hrun
  rw [bind_of_ok hbegin] at hrun
  have hmoves := (carryOut_ok hrun).moves
  have hlength := hb.handles.length
  refine ⟨?_,hmoves.listed_or_closed (fun t _ _ => t.closed_apply) ?_ hlt⟩
  · rcases hk with ⟨hk,hold⟩ | hnew
    · exact ⟨b.buffer k,.inl ⟨hk,hold,hb.buffer k hold⟩,hmoves.touched (hlength ▸ hold)⟩
    · obtain ⟨store,path,ht⟩ := hmoves.opened (hlength ▸ hnew) hlt
      exact ⟨_,.inr ⟨hnew,store,path,rfl⟩,ht⟩
  · rw [hb.handles.listed, hlength]
    exact hk.imp_left And.left

/-- What becomes of a buffer at the commit of a command that succeeds: it is listed and `c`, with
all that was recorded, is committed, or it was closed and stays as `c`. -/
inductive Settled (c : Buffer) (t : Session) (k : Handle) : Prop
  | committed {r : Bool} (hk : k ∈ t.workspace.listed)
    (hcommit : Buffer.commit t.seq c = .ok r (t.buffer k)) (hlog : (t.buffer k).log.isEmpty = true)
  | lost (hk : k ∉ t.workspace.listed) (hclosed : c.closed = true) (hleft : t.buffer k = c)

/-- A command text that succeeds is carried out, up to its commit, unless it is refused, and then nothing is
done. What each of its commands leaves pending in a buffer is pending at the commit, and is committed, unless
the buffer has been closed before. -/
theorem edit_settled (hs : s.Resting) (hrun : edit h text s = .ok none t)
    (hk : k ∈ s.workspace.listed ∨ s.workspace.known.length ≤ k ∧ k < t.workspace.known.length) :
    ∃ p, (pending h text s = .ok none p ∨ editCalls h text s = [] ∧ p = s) ∧
      (∀ d ∈ editCalls h text s, Grows k d.before d.after ∧ Grows k d.after p) ∧
      (∃ b, Origin s k b ∧ b.Touched Touch.Any (p.buffer k) ∧ b.log.isEmpty = true) ∧
      Settled (p.buffer k) t k := by
  cases haccepted : text.isEmpty || s.settings.maxCommand < text.length with
  | true =>
    -- A text that is refused leaves every buffer as it was, with nothing pending.
    obtain ⟨u,hedit,hnoted⟩ := edit_refused h haccepted
    obtain rfl : u = t := by
      rw [hrun] at hedit
      cases hedit
      rfl
    have hw : u.workspace = s.workspace := by
      obtain ⟨_,_,_,_,-,rfl⟩ := hnoted
      rfl
    have hnone : editCalls h text s = [] := if_pos haccepted
    have hu : u.buffer k = s.buffer k := by rw [Session.buffer, hw, Session.buffer]
    rw [hw] at hk
    rcases hk with hk | ⟨hle,hlt⟩
    · obtain ⟨hlt,hempty,hmark⟩ := hs k hk
      have hcalls : ∀ d ∈ editCalls h text s, Grows k d.before d.after ∧ Grows k d.after s := by
        rw [hnone]
        exact List.forall_mem_nil _
      refine ⟨s,.inr ⟨hnone,rfl⟩,hcalls,⟨s.buffer k,.inl ⟨hk,hlt,_,rfl⟩,.refl _,hempty⟩,?_⟩
      refine .committed (r := false) (hw ▸ hk) ?_ (hu ▸ hempty)
      rw [Buffer.commit_of_isEmpty u.seq hempty, hu, ← hmark]
    · exact absurd hlt (Nat.not_lt.mpr hle)
  | false =>
    obtain ⟨p,u,hpending,hcommit,rfl⟩ := pending_of_accepted haccepted hrun
    obtain ⟨hseq,hhandles,hbuffers⟩ := commitBuffers_ok hcommit
    have hlt : k < p.workspace.known.length := by
      rcases hk with hk | ⟨-,hlt⟩
      · obtain ⟨-,hgrown,-⟩ := pending_cases hpending hs.known
        exact Nat.lt_of_lt_of_le (hs.known k hk) hgrown
      · exact hhandles.length ▸ hlt
    obtain ⟨⟨b,horigin,htouched⟩,hlisted⟩ := pending_listed_or_closed hpending
      (hk.imp (fun hk => ⟨hk,hs.known k hk⟩) And.left) hlt
    refine ⟨p,.inl hpending,fun d hd => grows_pending hpending hd k,⟨b,horigin,htouched,horigin.log hs⟩,?_⟩
    -- The commit goes through the list as the commands left it, and leaves all other buffers alone.
    have hdone := hbuffers k hlt
    split at hdone
    · rename_i hkp
      obtain ⟨r,hr⟩ := hdone
      rw [← hseq] at hr
      exact .committed (hhandles.listed ▸ hkp) hr (Buffer.commit_settles hr).1
    · rename_i hkp
      exact .lost (fun hku => hkp (hhandles.listed ▸ hku)) (hlisted.resolve_left hkp) hdone

/-- Two buffers are changed, and one of them is closed: the change to the other one is committed. -/
theorem edit_settled_two :
    let s : Session := {
      workspace := { known := [{ name := "/f".toList }, { name := "/g".toList }], listed := [0, 1] } }
    let text : Text := "a/x/\nb /g\na/y/\nD /f".toList
    let x : Run (Option EditError) := edit (some 0) text
    let t : Session := x.final s
    s.Resting ∧ x s = .ok none t ∧ 1 ∈ s.workspace.listed ∧ (t.buffer 1).text = "y".toList ∧
      ∃ p, (pending (some 0) text s = .ok none p ∨ editCalls (some 0) text s = [] ∧ p = s) ∧
        (∀ d ∈ editCalls (some 0) text s, Grows 1 d.before d.after ∧ Grows 1 d.after p) ∧
        (∃ b, Origin s 1 b ∧ b.Touched Touch.Any (p.buffer 1) ∧ b.log.isEmpty = true) ∧
        Settled (p.buffer 1) t 1 := by
  intro s text x t
  have hs : s.Resting := by decide
  have hrun : x s = .ok none t := ok_of_value (by decide +kernel)
  have hlisted : 1 ∈ s.workspace.listed := by decide
  exact ⟨hs,hrun,hlisted,by decide +kernel,edit_settled hs hrun (.inl hlisted)⟩

/-- A named buffer is closed, without a word, while the change made to it just before is pending. -/
theorem edit_loses_change :
    let s : Session := { workspace := { known := [{ name := "f".toList }], listed := [0] } }
    let x : Run (Option EditError) := edit (some 0) "a/x/\nD".toList
    let t : Session := x.final s
    s.Resting ∧ x s = .ok none t ∧ t.messages = [] ∧ t.workspace.listed = [] ∧
      (t.buffer 0).closed = true ∧ (t.buffer 0).text = [] ∧
      (t.buffer 0).log.entries = [⟨.insert, 0, 0, "x".toList⟩] :=
  ⟨by decide,ok_of_value (by decide +kernel),by decide +kernel,by decide +kernel,by decide +kernel,
    by decide +kernel,by decide +kernel⟩

end Run

end StructuralEdit
