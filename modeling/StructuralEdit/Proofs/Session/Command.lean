import StructuralEdit.Proofs.Buffer.Commit
import StructuralEdit.Proofs.Session.Moves

/-! # From command text to commit

A command text that returns has begun, was carried out, and was committed. Between,
each listed buffer was touched as commands touch it and, if an edit error came up,
rolled back; what the commit makes of it depends on the buffer alone.
-/
namespace StructuralEdit

namespace Run
variable {h : Option Handle} {text : Text} {s t u : Session} {o : Option EditError}

/-! ## Carrying out the text -/

theorem final_caught (x : Run Unit) (s : Session) : (caught x).final s = x.final s := by
  unfold final caught
  rcases x s with _ | ⟨_ | _, _⟩ <;> rfl

/-- The text was run to its end, or an edit error has ended it and was then reported. -/
theorem carryOut_run (hrun : carryOut h text s = .ok o t) :
    o = none ∧ runText h text s = .ok () t ∨
    ∃ e r, o = some e ∧ runText h text s = .error (.edit e) r ∧ abandon e r = .ok () t := by
  obtain ⟨failure,r,hcaught,hrest⟩ := ok_of_bind hrun
  unfold caught at hcaught
  cases hx : runText h text s with
  | ok a u =>
    simp only [hx] at hcaught
    cases hcaught
    cases hrest
    exact .inl ⟨rfl,rfl⟩
  | error f u =>
    simp only [hx] at hcaught
    cases f with
    | edit e =>
      cases hcaught
      obtain ⟨_,v,habandon,hreturn⟩ := ok_of_bind hrest
      cases hreturn
      exact .inr ⟨e,r,rfl,rfl,habandon⟩
    | _ => cases hcaught

/-- The listed buffers are rolled back if an edit error has ended the text. -/
theorem carryOut_cases (hrun : carryOut h text s = .ok o t) :
    ∃ r, s.Reaches Touch.Any r ∧ t.seq = r.seq ∧ r.workspace.SameHandles t.workspace ∧
      ∀ k ∈ r.workspace.listed, k < r.workspace.known.length →
        t.buffer k = if o.isSome then (r.buffer k).rollback else r.buffer k := by
  have hw := follows_runText (R := Session.Reaches Touch.Any) h text s
  rcases carryOut_run hrun with ⟨rfl,hx⟩ | ⟨e,r,rfl,hx,habandon⟩
  · rw [final_of_ok hx] at hw
    exact ⟨t,hw,rfl,.refl _,fun k _ _ => rfl⟩
  · rw [final_of_error hx] at hw
    cases habandon
    refine ⟨r,hw,rfl,r.workspace.sameHandles_updateListed Buffer.rollback,fun k hk hlt => ?_⟩
    exact (Workspace.buffer_updateListed Buffer.rollback_rollback r.workspace hlt).trans (if_pos hk)

/-! ## From the beginning to the commit -/

/-- A command has begun in a session. -/
structure Begun (s b : Session) : Prop where
  seq : b.seq = s.seq + 1
  handles : s.workspace.SameHandles b.workspace
  buffer : ∀ k < s.workspace.known.length, ∃ editClean, b.buffer k = { s.buffer k with editClean }

theorem begin_begun (h : Option Handle) (s : Session) : ∃ b, begin h s = .ok () b ∧ Begun s b := by
  let clear (b : Buffer) : Buffer := { b with editClean := false }
  have hclear := s.workspace.sameHandles_updateListed clear
  refine ⟨_,rfl,rfl,⟨hclear.listed,hclear.length⟩,fun k hk => ?_⟩
  have hb := Workspace.buffer_updateListed (f := clear) (fun _ => rfl) s.workspace hk
  split at hb
  · exact ⟨false,hb⟩
  · exact ⟨_,hb⟩

/-- The buffer of a handle when a command begins, or when it is loaded later on. -/
def Origin (s : Session) (k : Handle) (b : Buffer) : Prop :=
  (k ∈ s.workspace.listed ∧ k < s.workspace.known.length ∧
    ∃ editClean, b = { s.buffer k with editClean }) ∨
  (s.workspace.known.length ≤ k ∧ ∃ store path, b = Workspace.load store path)

/-- Whatever is listed at some point of a command has been touched since its origin. -/
theorem Begun.origin {b r : Session} (hb : Begun s b)
    (hs : ∀ k ∈ s.workspace.listed, k < s.workspace.known.length) (hr : b.Reaches Touch.Any r)
    {k : Handle} (hk : k ∈ r.workspace.listed) :
    k < r.workspace.known.length ∧ ∃ c, Origin s k c ∧ c.Touched Touch.Any (r.buffer k) := by
  have hlength := hb.handles.length
  rcases hr.moves.listed hk with hold | ⟨hle,hlt⟩
  · rw [hb.handles.listed] at hold
    obtain ⟨editClean,hbk⟩ := hb.buffer k (hs k hold)
    have hkb : k < b.workspace.known.length := hlength ▸ hs k hold
    refine ⟨Nat.lt_of_lt_of_le hkb hr.moves.length_le,b.buffer k,?_,hr.moves.touched hkb⟩
    exact .inl ⟨hold,hs k hold,editClean,hbk⟩
  · obtain ⟨store,path,ht⟩ := hr.moves.opened hle hlt
    exact ⟨hlt,_,.inr ⟨hlength ▸ hle,store,path,rfl⟩,ht⟩

/-- A command text up to its commit. -/
def pending (h : Option Handle) (text : Text) : Run (Option EditError) := do
  begin h
  carryOut h text

/-- Before the commit a listed buffer has been touched, and rolled back if the text failed. -/
theorem pending_cases (hrun : pending h text s = .ok o t)
    (hs : ∀ k ∈ s.workspace.listed, k < s.workspace.known.length) :
    t.seq = s.seq + 1 ∧ s.workspace.known.length ≤ t.workspace.known.length ∧
    ∀ k ∈ t.workspace.listed, k < t.workspace.known.length ∧
      ∃ b c, Origin s k b ∧ b.Touched Touch.Any c ∧
        t.buffer k = if o.isSome then c.rollback else c := by
  obtain ⟨b,hbegin,hb⟩ := begin_begun h s
  unfold pending at hrun
  rw [bind_of_ok hbegin] at hrun
  obtain ⟨r,hr,hseq,hhandles,hbuffers⟩ := carryOut_cases hrun
  refine ⟨by rw [hseq, hr.seq, hb.seq],?_,fun k hk => ?_⟩
  · rw [hhandles.length, ← hb.handles.length]
    exact hr.moves.length_le
  · rw [hhandles.listed] at hk
    obtain ⟨hlt,c,hc,ht⟩ := hb.origin hs hr hk
    exact ⟨hhandles.length ▸ hlt,c,r.buffer k,hc,ht,hbuffers k hk hlt⟩

/-! ## The commit -/

theorem commitBuffer_ok {seq : Int} {h : Handle} (hrun : commitBuffer seq h s = .ok () t) :
    ∃ r b, Buffer.commit seq (s.buffer h) = .ok r b ∧
      t = { s with workspace := s.workspace.update h fun _ => b } := by
  obtain ⟨b,u,hget,hrest⟩ := ok_of_bind hrun
  cases hget
  cases hc : Buffer.commit seq (s.buffer h) with
  | ok r b =>
    simp only [hc] at hrest
    cases hrest
    exact ⟨r,b,rfl,rfl⟩
  | error f b =>
    simp only [hc] at hrest
    cases hrest

/-- A commit of the buffers in a list commits each of them, once. -/
theorem commitBuffers_ok {seq : Int} {hs : List Handle} (hrun : commitBuffers seq hs s = .ok () t) :
    t.seq = s.seq ∧ s.workspace.SameHandles t.workspace ∧ ∀ k < s.workspace.known.length,
      if k ∈ hs then ∃ r, Buffer.commit seq (s.buffer k) = .ok r (t.buffer k)
      else t.buffer k = s.buffer k := by
  induction hs generalizing s with
  | nil =>
    cases hrun
    exact ⟨rfl,.refl _,fun k _ => rfl⟩
  | cons h rest ih =>
    obtain ⟨_,u,hfirst,hrest⟩ := ok_of_bind hrun
    obtain ⟨r,b,hcommit,rfl⟩ := commitBuffer_ok hfirst
    obtain ⟨hseq,⟨hlisted,hlength⟩,hbuffers⟩ := ih hrest
    rw [Workspace.length_known_update] at hlength hbuffers
    refine ⟨hseq,⟨hlisted,hlength⟩,fun k hk => ?_⟩
    have hbk := hbuffers k hk
    simp only [Session.buffer] at hbk hcommit ⊢
    by_cases hkh : k = h
    · subst hkh
      rw [Workspace.buffer_update _ _ _ hk, if_pos rfl] at hbk
      rw [if_pos List.mem_cons_self]
      split at hbk
      · -- The buffer stands in the list again: its second commit does nothing.
        obtain ⟨r',hagain⟩ := hbk
        rw [Buffer.commit_again hcommit] at hagain
        cases hagain
        exact ⟨r,hcommit⟩
      · exact ⟨r,hbk ▸ hcommit⟩
    · rw [Workspace.buffer_update_of_ne _ _ hkh] at hbk
      simpa only [List.mem_cons, hkh, false_or] using hbk

theorem ensuring_ok {α : Type} {x : Run α} {f : Session → Session} {a : α}
    (hrun : ensuring x f s = .ok a t) : ∃ u, x s = .ok a u ∧ t = f u := by
  unfold ensuring at hrun
  cases hx : x s with
  | ok b u =>
    simp only [hx] at hrun
    cases hrun
    exact ⟨u,rfl,rfl⟩
  | error e u =>
    simp only [hx] at hrun
    cases hrun

/-- A command text that is empty or too long does nothing. -/
theorem edit_refused (h : Option Handle) (hrefused : (text.isEmpty || s.settings.maxCommand < text.length) = true) :
    ∃ t, edit h text s = .ok none t ∧ s.Noted t := by
  unfold edit
  split
  · exact ⟨s,rfl,Session.Quiet.refl s⟩
  · rename_i hempty
    rw [bind_of_ok (get_eq s), if_pos (by simpa [hempty] using hrefused)]
    exact ⟨_,rfl,Session.Quiet.note s _ _ _ _ (.refl _)⟩

/-- Any other one begins, is carried out and is committed. -/
theorem edit_accepted (h : Option Handle)
    (haccepted : (text.isEmpty || s.settings.maxCommand < text.length) = false) :
    edit h text s = (begin h >>= fun _ => ensuring (do
      let failure ← carryOut h text
      commitListed
      return failure) unlock) s := by
  obtain ⟨hempty,hlong⟩ := Bool.or_eq_false_iff.mp haccepted
  unfold edit
  rw [if_neg (by simp [hempty]), bind_of_ok (get_eq s),
    if_neg (by simpa using hlong)]

theorem pending_of_accepted (haccepted : (text.isEmpty || s.settings.maxCommand < text.length) = false)
    (hrun : edit h text s = .ok o t) :
    ∃ c u, pending h text s = .ok o c ∧ commitBuffers c.seq c.workspace.listed c = .ok () u ∧
      t = unlock u := by
  rw [edit_accepted h haccepted] at hrun
  obtain ⟨_,b,hbegin,hrun⟩ := ok_of_bind hrun
  obtain ⟨u,hbody,ht⟩ := ensuring_ok hrun
  obtain ⟨o',c,hcarry,hbody⟩ := ok_of_bind hbody
  obtain ⟨_,v,hcommit,hreturn⟩ := ok_of_bind hbody
  cases hreturn
  obtain ⟨_,_,hget,hcommit⟩ := ok_of_bind hcommit
  cases hget
  refine ⟨c,u,?_,hcommit,ht⟩
  unfold pending
  rw [bind_of_ok hbegin, hcarry]

/-- A command text that returns has done nothing, or was carried out and then committed. -/
theorem pending_of_edit (hrun : edit h text s = .ok o t) :
    (o = none ∧ s.Noted t) ∨
    ∃ c u, pending h text s = .ok o c ∧ commitBuffers c.seq c.workspace.listed c = .ok () u ∧
      t = unlock u := by
  cases haccepted : text.isEmpty || s.settings.maxCommand < text.length with
  | false => exact .inr (pending_of_accepted haccepted hrun)
  | true =>
    obtain ⟨u,hedit,hnoted⟩ := edit_refused h haccepted
    rw [hedit] at hrun
    cases hrun
    exact .inl ⟨rfl,hnoted⟩

/-- What a command text that returns has made of the listed buffers: nothing, or each of them was
touched since its origin, rolled back if the text failed, and then committed. -/
theorem edit_cases (hs : ∀ k ∈ s.workspace.listed, k < s.workspace.known.length)
    (hrun : edit h text s = .ok o t) :
    (o = none ∧ t.workspace = s.workspace ∧ t.seq = s.seq) ∨
    ∃ c, pending h text s = .ok o c ∧ t.seq = s.seq + 1 ∧
      s.workspace.known.length ≤ t.workspace.known.length ∧
      ∀ k ∈ t.workspace.listed, k < t.workspace.known.length ∧
        ∃ b d r, Origin s k b ∧ b.Touched Touch.Any d ∧
          c.buffer k = (if o.isSome then d.rollback else d) ∧
          Buffer.commit t.seq (c.buffer k) = .ok r (t.buffer k) := by
  rcases pending_of_edit hrun with ⟨rfl,hnoted⟩ | ⟨c,u,hpending,hcommit,rfl⟩
  · obtain ⟨_,_,_,_,-,rfl⟩ := hnoted
    exact .inl ⟨rfl,rfl,rfl⟩
  right
  obtain ⟨hseq,hgrown,hbuffers⟩ := pending_cases hpending hs
  obtain ⟨hsame,hhandles,hcommitted⟩ := commitBuffers_ok hcommit
  refine ⟨c,hpending,hsame.trans hseq,hhandles.length ▸ hgrown,fun k hk => ?_⟩
  have hkc : k ∈ c.workspace.listed := hhandles.listed ▸ hk
  obtain ⟨hlt,b,d,horigin,htouched,hck⟩ := hbuffers k hkc
  have hr := hcommitted k hlt
  rw [if_pos hkc, ← hsame] at hr
  obtain ⟨r,hr⟩ := hr
  exact ⟨hhandles.length ▸ hlt,b,d,r,horigin,htouched,hck,hr⟩

end Run

end StructuralEdit
