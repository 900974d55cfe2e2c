import StructuralEdit.Proofs.Session.DotWithin
import StructuralEdit.Proofs.Session.Reach

/-! # Buffers that a command text does not get at

While no command that is run chooses files, switches or goes through buffers, a command text
gets at the buffer it is run from only. All others stay as they are, whether it succeeds or
fails: rolling back and committing find nothing pending there. Commands that close files may
close them or take them for clean, and that is all.
-/
namespace StructuralEdit

/-- A buffer is as it was, a few flags apart. An order warning given and a read of the whole file
are forgotten. It may have been closed, or taken for clean, if that may be. -/
structure Buffer.Spared (may : Prop) (b c : Buffer) : Prop where
  eq : c = { b with
    log := ⟨b.log.changes, c.log.warned⟩, editClean := c.editClean, closed := c.closed, cleanSeq := c.cleanSeq }
  warned : c.log.warned = true → b.log.warned = true
  editClean : c.editClean = true → b.editClean = true
  closed : c.closed = b.closed ∨ may ∧ c.closed = true
  cleanSeq : c.cleanSeq = b.cleanSeq ∨ may ∧ c.cleanSeq = b.timeline.seq

namespace Buffer
variable {may : Prop} {b c d : Buffer}

theorem Spared.refl (b : Buffer) : b.Spared may b := ⟨rfl,id,id,.inl rfl,.inl rfl⟩

theorem Spared.log (h : b.Spared may c) : c.log.changes = b.log.changes := by rw [h.eq]

theorem Spared.timeline (h : b.Spared may c) : c.timeline = b.timeline := by rw [h.eq]

theorem Spared.undoMark (h : b.Spared may c) : c.undoMark = b.undoMark := by rw [h.eq]

theorem Spared.trans (h : b.Spared may c) (h' : c.Spared may d) : b.Spared may d where
  eq := h'.eq.trans (by rw [h.eq])
  warned hd := h.warned (h'.warned hd)
  editClean hd := h.editClean (h'.editClean hd)
  closed := by
    rcases h'.closed with hd | hd
    · rw [hd]
      exact h.closed
    · exact .inr hd
  cleanSeq := by
    rcases h'.cleanSeq with hd | hd
    · rw [hd]
      exact h.cleanSeq
    · rw [h.timeline] at hd
      exact .inr hd

/-- Rolling back finds nothing to take back. -/
theorem spared_rollback (hlog : b.log.isEmpty = true) (hmark : b.undoMark = none) :
    b.Spared may b.rollback := by
  rw [rollback_of_unmarked hmark]
  have hchanges : b.log.changes = [] := List.isEmpty_iff.mp hlog
  refine ⟨?_,nofun,id,.inl rfl,.inl rfl⟩
  rw [hchanges]
  rfl

end Buffer

/-- Whatever is done is done to other buffers; one that was there is spared, and does not become the
current one. -/
structure Session.Spares (may : Prop) (k : Handle) (s t : Session) : Prop where
  length : s.workspace.known.length ≤ t.workspace.known.length
  buffer : k < s.workspace.known.length → (s.buffer k).Spared may (t.buffer k)
  current : s.current ≠ some k → t.current ≠ some k

namespace Session
variable {may : Prop} {k : Handle} {s t : Session}

theorem spares_workspace (hlength : s.workspace.known.length ≤ t.workspace.known.length)
    (hbuffer : k < s.workspace.known.length → t.buffer k = s.buffer k) (hcurrent : t.current = s.current) :
    s.Spares may k t where
  length := hlength
  buffer hk := by
    rw [hbuffer hk]
    exact .refl _
  current hs := by rwa [hcurrent]

instance : Quiet (Spares may k) where
  refl _ := spares_workspace (Nat.le_refl _) (fun _ => rfl) rfl
  trans h h' := {
    length := Nat.le_trans h.length h'.length
    buffer := fun hk => (h.buffer hk).trans (h'.buffer (Nat.lt_of_lt_of_le hk h.length))
    current := fun hs => h'.current (h.current hs) }
  note _ _ _ _ _ _ := spares_workspace (Nat.le_refl _) (fun _ => rfl) rfl

theorem spares_openFile (s : Session) (path : Text) :
    s.Spares may k { s with workspace := (s.workspace.openFile path).2 } := by
  have hmoves := s.workspace.moves_openFile (P := Touch.Any) path
  refine spares_workspace hmoves.length_le (fun hk => ?_) rfl
  change (s.workspace.openFile path).2.buffer k = s.workspace.buffer k
  have hentered (b : Buffer) : (s.workspace.enter b).buffer k = s.workspace.buffer k := by
    rw [Workspace.buffer_enter, if_neg (Nat.ne_of_lt hk)]
  unfold Workspace.openFile
  split
  · rfl
  · rw [Workspace.add_eq]
    split
    · exact hentered _
    · exact (Workspace.buffer_update_of_ne _ _ (Nat.ne_of_lt hk)).trans (hentered _)

theorem spares_touch {h : Handle} (hkh : k ≠ h) (s : Session) (t : Touch) : s.Spares may k (s.touch h t) :=
  spares_workspace (Nat.le_of_eq (s.workspace.length_known_update h _).symm)
    (fun _ => s.workspace.buffer_update_of_ne _ hkh) rfl

instance : Grants (· ≠ k) (Spares may k) where
  store _ _ := spares_workspace (Nat.le_refl _) (fun _ => rfl) rfl
  openFile := spares_openFile
  range h := ⟨h.length,h.buffer,h.current⟩
  touch hh s t := spares_touch hh.symm s t
  switch hh s := ⟨Nat.le_refl _,fun _ => .refl _,fun _ => by simpa using hh⟩
  buffers hall := absurd rfl (hall k)

/-- Closing a buffer leaves it as it is, but for the flag. -/
theorem buffer_close (w : Workspace) (h : Handle) :
    (w.close h).buffer k = (w.update h fun b => { b with closed := true }).buffer k := by
  simp only [Workspace.close]
  split <;> rfl

instance : Closing (fun h => h ≠ k ∨ may) (Spares may k) where
  clean {h} hh s := by
    by_cases hkh : k = h
    · subst hkh
      have hmay := hh.resolve_left (fun hne => hne rfl)
      refine ⟨Nat.le_of_eq (s.workspace.length_known_update k _).symm,fun hk => ?_,id⟩
      rw [touch, Session.buffer, Session.buffer, Workspace.buffer_update _ _ _ hk, if_pos rfl]
      exact ⟨rfl,id,id,.inl rfl,.inr ⟨hmay,rfl⟩⟩
    · exact spares_touch hkh s .markClean
  close {h} hh s := by
    have hlength : (s.workspace.close h).known.length = s.workspace.known.length := by
      simp only [Workspace.close]
      split <;> exact s.workspace.length_known_update h _
    refine ⟨Nat.le_of_eq hlength.symm,fun hk => ?_,fun hs => ?_⟩
    · rw [Session.closing, Session.buffer, Session.buffer, buffer_close]
      by_cases hkh : k = h
      · subst hkh
        rw [Workspace.buffer_update _ _ _ hk, if_pos rfl]
        exact ⟨rfl,id,id,.inr ⟨hh.resolve_left (fun hne => hne rfl),rfl⟩,.inl rfl⟩
      · rw [Workspace.buffer_update_of_ne _ _ hkh]
        exact .refl _
    · simp only [closing]
      split
      · nofun
      · exact hs

end Session

namespace Run
open Session
variable {may : Prop} {h : Option Handle} {text : Text} {s t : Session} {k : Handle}

/-! ## Up to the commit -/

theorem spares_runText (hstays : ∀ c ∈ textCommands h text s, c.roams = false)
    (hcloses : ∀ c ∈ textCommands h text s, c.closes = true → may) (hk : s.current ≠ some k) :
    s.Spares may k ((runText h text).final s) := by
  refine follows_textCommands fun cmd hcmd u hu => ?_
  have hcurrent : ∀ j ∈ u.current, j ≠ k := by
    rintro j hj rfl
    exact hu.current hk hj
  have hroams (h : cmd.roams = true) : ∀ j, j ≠ k := by
    rw [hstays cmd hcmd] at h
    cases h
  have hclosing (h : cmd.closes = true) (j : Handle) : j ≠ k ∨ may := .inr (hcloses cmd hcmd h)
  exact (does_execute (U := True) hcurrent cmd hroams hclosing (fun _ => trivial) u).1

theorem spares_abandon (e : EditError) (hlog : (s.buffer k).log.isEmpty = true)
    (hmark : (s.buffer k).undoMark = none) : s.Spares may k ((abandon e).final s) := by
  have hrollback : s.Spares may k { s with workspace := s.workspace.rollback } := by
    have hhandles := s.workspace.sameHandles_updateListed Buffer.rollback
    refine ⟨Nat.le_of_eq hhandles.length.symm,fun hk => ?_,id⟩
    have hb := Workspace.buffer_updateListed Buffer.rollback_rollback s.workspace hk
    change (s.buffer k).Spared may ((s.workspace.updateListed Buffer.rollback).buffer k)
    rw [hb]
    split
    · exact Buffer.spared_rollback hlog hmark
    · exact .refl _
  have hreport : (do
      warn ("Edit: ".toList ++ e.message ++ ['\n'])
      notify (.error e) : Run Unit).Follows (Spares may k) :=
    follows_bind (follows_warn _) fun _ => follows_notify _
  exact Quiet.trans hrollback (hreport _)

theorem spares_carryOut (hstays : ∀ c ∈ textCommands h text s, c.roams = false)
    (hcloses : ∀ c ∈ textCommands h text s, c.closes = true → may) (hcurrent : s.current ≠ some k)
    (hk : k < s.workspace.known.length) (hlog : (s.buffer k).log.isEmpty = true)
    (hmark : (s.buffer k).undoMark = none) : s.Spares may k ((carryOut h text).final s) := by
  have hdone := spares_runText hstays hcloses hcurrent
  unfold carryOut
  cases hcaught : caught (runText h text) s with
  | error f r =>
    rw [← final_caught, final_of_error hcaught] at hdone
    rw [final_bind_of_error hcaught]
    exact hdone
  | ok failure r =>
    rw [← final_caught, final_of_ok hcaught] at hdone
    rw [final_bind_of_ok hcaught]
    cases failure with
    | none => exact hdone
    | some e =>
      have hspared := hdone.buffer hk
      have habandon : r.Spares may k ((abandon e).final r) := by
        refine spares_abandon e ?_ (hspared.undoMark.trans hmark)
        rwa [EditLog.isEmpty, hspared.log]
      rw [← final_bind_pure (abandon e) fun _ => some e] at habandon
      exact Quiet.trans hdone habandon

/-! ## The commit -/

/-- A commit leaves a buffer as it is that nothing is pending in. -/
theorem buffer_commitBuffer (seq : Int) (h : Handle) (hlog : (s.buffer k).log.isEmpty = true)
    (hmark : (s.buffer k).undoMark = none) : ((commitBuffer seq h).final s).buffer k = s.buffer k := by
  unfold commitBuffer
  rw [final_bind_of_ok (buffer_eq h s)]
  by_cases hkh : k = h
  · subst hkh
    rw [Buffer.commit_of_isEmpty seq hlog, ← hmark]
    rcases s.workspace.buffer_update_cases k k (fun _ => s.buffer k) with hb | hb <;> exact hb
  · cases Buffer.commit seq (s.buffer h) <;> exact s.workspace.buffer_update_of_ne _ hkh

theorem buffer_commitBuffers (seq : Int) (hs : List Handle) (hlog : (s.buffer k).log.isEmpty = true)
    (hmark : (s.buffer k).undoMark = none) : ((commitBuffers seq hs).final s).buffer k = s.buffer k := by
  induction hs generalizing s with
  | nil => rfl
  | cons h rest ih =>
    have hfirst := buffer_commitBuffer seq h hlog hmark
    unfold commitBuffers
    cases hcommit : commitBuffer seq h s with
    | error f u =>
      rw [final_of_error hcommit] at hfirst
      rw [final_bind_of_error hcommit]
      exact hfirst
    | ok _ u =>
      rw [final_of_ok hcommit] at hfirst
      rw [final_bind_of_ok hcommit, ih (hfirst ▸ hlog) (hfirst ▸ hmark)]
      exact hfirst

/-- The commit behind a run, likewise. -/
theorem buffer_committed {α : Type} (x : Run α) (hlog : ((x.final s).buffer k).log.isEmpty = true)
    (hmark : ((x.final s).buffer k).undoMark = none) :
    ((do let a ← x; commitListed; return a : Run α).final s).buffer k = (x.final s).buffer k := by
  cases hx : x s with
  | error f u => rw [final_bind_of_error hx, final_of_error hx]
  | ok a u =>
    rw [final_of_ok hx] at hlog hmark ⊢
    rw [final_bind_of_ok hx, final_bind_pure]
    exact buffer_commitBuffers u.seq u.workspace.listed hlog hmark

/-! ## The whole command text -/

theorem spares_begin (hkh : h ≠ some k) : s.Spares may k ((begin h).final s) := by
  let clear (b : Buffer) : Buffer := { b with editClean := false }
  have hhandles := s.workspace.sameHandles_updateListed clear
  refine ⟨Nat.le_of_eq hhandles.length.symm,fun hk => ?_,fun _ => hkh⟩
  have hb := Workspace.buffer_updateListed (f := clear) (fun _ => rfl) s.workspace hk
  change (s.buffer k).Spared may ((s.workspace.updateListed clear).buffer k)
  rw [hb]
  split
  · exact ⟨rfl,id,nofun,.inl rfl,.inl rfl⟩
  · exact .refl _

/-- A command text gets at the buffer it is run from only, if no command that is run leads to others.
All other listed buffers stay as they are, whether the text is run to its end or fails, and nothing is
pending there. They may have been closed or taken for clean if files were to be closed. -/
theorem edit_isolated (hs : s.Resting) (hk : k ∈ s.workspace.listed) (hkh : h ≠ some k)
    (hstays : ∀ c ∈ commandsOf h text s, c.roams = false) :
    let t := (edit h text).final s
    (t.buffer k).log.isEmpty = true ∧
      (s.buffer k).Spared (∃ c ∈ commandsOf h text s, c.closes = true) (t.buffer k) := by
  intro t
  obtain ⟨hlt,hlog,hmark⟩ := hs k hk
  suffices hspared : (s.buffer k).Spared (∃ c ∈ commandsOf h text s, c.closes = true) (t.buffer k) by
    refine ⟨?_,hspared⟩
    rwa [EditLog.isEmpty, hspared.log]
  cases haccepted : text.isEmpty || s.settings.maxCommand < text.length with
  | true =>
    obtain ⟨u,hedit,_,_,_,_,-,rfl⟩ := edit_refused h haccepted
    simp only [t, final_of_ok hedit]
    exact .refl _
  | false =>
    obtain ⟨b,hbegin,-⟩ := begin_begun h s
    have hcommands : commandsOf h text s = textCommands h text b := by
      rw [commandsOf, haccepted, final_of_ok hbegin]
      rfl
    rw [hcommands] at hstays ⊢
    have hbegun : s.Spares (∃ c ∈ textCommands h text b, c.closes = true) k b := by
      rw [← final_of_ok hbegin]
      exact spares_begin hkh
    have hb := hbegun.buffer hlt
    have hbcurrent : b.current ≠ some k := by
      cases hbegin
      exact hkh
    have hblog : (b.buffer k).log.isEmpty = true := by rwa [EditLog.isEmpty, hb.log]
    have hbmark := hb.undoMark.trans hmark
    have hcarried : b.Spares (∃ c ∈ textCommands h text b, c.closes = true) k ((carryOut h text).final b) :=
      spares_carryOut hstays (fun c hc hcloses => ⟨c,hc,hcloses⟩) hbcurrent
        (Nat.lt_of_lt_of_le hlt hbegun.length) hblog hbmark
    have hc := hcarried.buffer (Nat.lt_of_lt_of_le hlt hbegun.length)
    -- Nothing is pending in the buffer when the commit begins.
    have hclog : (((carryOut h text).final b).buffer k).log.isEmpty = true := by
      rwa [EditLog.isEmpty, hc.log]
    have hcommitted : t.buffer k = ((carryOut h text).final b).buffer k := by
      rw [← buffer_committed _ hclog (hc.undoMark.trans hbmark)]
      simp only [t]
      rw [final, edit_accepted h haccepted, ← final, final_bind_of_ok hbegin, final_ensuring]
      rfl
    rw [hcommitted]
    exact hb.trans hc

/-- A command text that changes, undoes and closes, and then fails: the other buffer is closed, and
else it is as it was. -/
theorem edit_isolated_closed :
    let last : UndoEntry := ⟨1, "".toList, "xyz".toList, ⟨0, 0⟩, ⟨1, 2⟩⟩
    let s : Session := {
      workspace := {
        known := [{ name := "f".toList, text := "ab\ncd\n".toList },
          { name := "g".toList, text := "xyz".toList, dot := ⟨1, 2⟩, timeline := ⟨[last], []⟩, cleanSeq := 1 }]
        listed := [0, 1] }
      seq := 1 }
    let text : Text := "1;/c/ s/b/xx/\nu\nB k\nD g\nr z".toList
    let t : Session := (edit (some 0) text).final s
    s.Resting ∧ (∀ c ∈ commandsOf (some 0) text s, c.roams = false) ∧
      (edit (some 0) text).value s = some (some (.cannotOpen "z".toList .missing)) ∧ t.workspace.listed = [0, 2] ∧
      (t.buffer 1).log.isEmpty = true ∧ (t.buffer 1).closed = true ∧
      (s.buffer 1).Spared (∃ c ∈ commandsOf (some 0) text s, c.closes = true) (t.buffer 1) := by
  intro last s text t
  have hs : s.Resting := by decide
  have hstays : ∀ c ∈ commandsOf (some 0) text s, c.roams = false := by decide +kernel
  have hrun : (edit (some 0) text).value s = some (some (.cannotOpen "z".toList .missing)) ∧
      t.workspace.listed = [0, 2] ∧ (t.buffer 1).closed = true := by decide +kernel
  obtain ⟨hlog,hspared⟩ := edit_isolated (k := 1) hs (by decide) (by decide) hstays
  exact ⟨hs,hstays,hrun.1,hrun.2.1,hlog,hrun.2.2,hspared⟩

end Run

end StructuralEdit
