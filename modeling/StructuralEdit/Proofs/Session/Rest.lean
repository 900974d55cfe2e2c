import StructuralEdit.Proofs.Session.Pending
import StructuralEdit.Proofs.Workspace.Pins

/-! # Sessions at rest

Between command texts no loop is at work and no buffer is pinned, and those that are listed are
open. A command text that returns, whether or not it failed and however deep, has left all loops
it entered, and brings a session from rest to rest.
-/
namespace StructuralEdit

/-- No touch but pinning and closing changes the pins of a buffer, or whether it is closed. -/
theorem Touch.pins_apply {t : Touch} (hpin : ∀ n, t ≠ pin n) (hclose : t ≠ close) (b : Buffer) :
    (t.apply b).pins = b.pins ∧ (t.apply b).closed = b.closed := by
  cases t with
  | pin n => exact absurd rfl (hpin n)
  | close => exact absurd rfl hclose
  | travel steps =>
    have hstatus := (b.traveled_travel steps).sameStatus
    exact ⟨hstatus.pins,hstatus.closed⟩
  | rename name =>
    simp only [apply, Buffer.rename]
    split <;> exact ⟨rfl,rfl⟩
  | dot | record | markClean | markDirty | read | know => exact ⟨rfl,rfl⟩

namespace Session
open Workspace (SamePins)
variable {rest : Handle → Int} {held hs : List Handle} {s t u : Session}

/-- Pins are counted against what is held, the current buffer is open, and only in a loop over
buffers those are noted that are opened. -/
structure Standing (rest : Handle → Int) (held : List Handle) (s : Session) : Prop where
  pinned : s.workspace.Pinned rest held
  current : ∀ k, s.current = some k → s.workspace.Opens k
  late : s.bufferLoops = 0 → s.workspace.latePins = none

/-- All loops entered are left, and nothing more is held but what was opened in a loop that is still
at work. -/
structure Returns (s t : Session) : Prop where
  nest : t.nest = s.nest
  bufferLoops : t.bufferLoops = s.bufferLoops
  standing : ∀ rest held, s.Standing rest held → ∃ more, t.Standing rest (held ++ more) ∧
    t.workspace.latePins = s.workspace.latePins.map (· ++ more) ∧
    (s.workspace.latePins = none → more = [])

theorem Returns.trans (h : s.Returns t) (h' : t.Returns u) : s.Returns u where
  nest := h'.nest.trans h.nest
  bufferLoops := h'.bufferLoops.trans h.bufferLoops
  standing rest held hs := by
    obtain ⟨more,ht,hlate,hnone⟩ := h.standing rest held hs
    obtain ⟨more',hu,hlate',hnone'⟩ := h'.standing rest _ ht
    refine ⟨more ++ more',?_,?_,fun hn => ?_⟩
    · rwa [← List.append_assoc]
    · rw [hlate', hlate, Option.map_map]
      congr 1
      funext late
      exact List.append_assoc late more more'
    · rw [hnone hn, hnone' (by rw [hlate, hn]; rfl)]
      rfl

/-- Pins, loops and the current buffer are left alone. -/
structure Fixed (s t : Session) : Prop where
  pins : s.workspace.SamePins t.workspace
  late : t.workspace.latePins = s.workspace.latePins
  current : t.current = s.current
  nest : t.nest = s.nest
  bufferLoops : t.bufferLoops = s.bufferLoops

instance : Quiet Fixed where
  refl _ := ⟨.refl _,rfl,rfl,rfl,rfl⟩
  trans h h' := ⟨h.pins.trans h'.pins,h'.late.trans h.late,h'.current.trans h.current,
    h'.nest.trans h.nest,h'.bufferLoops.trans h.bufferLoops⟩
  note _ _ _ _ _ _ := ⟨.refl _,rfl,rfl,rfl,rfl⟩

theorem fixed_store (s : Session) (store : FileStore) :
    s.Fixed { s with workspace := { s.workspace with store } } :=
  ⟨⟨⟨rfl,rfl⟩,fun _ => rfl,fun _ => rfl⟩,rfl,rfl,rfl,rfl⟩

theorem fixed_touch {t : Touch} (hpin : ∀ n, t ≠ .pin n) (hclose : t ≠ .close) (s : Session)
    (h : Handle) : s.Fixed (s.touch h t) := by
  obtain ⟨hpins,hclosed⟩ := Touch.pins_apply hpin hclose (s.workspace.buffer h)
  exact ⟨s.workspace.samePins_update hpins hclosed,rfl,rfl,rfl,rfl⟩

theorem Standing.fixed (hs : s.Standing rest held) (h : s.Fixed t) : t.Standing rest held where
  pinned := hs.pinned.congr h.pins
  current k hk := (hs.current k (h.current ▸ hk)).congr h.pins
  late hl := by
    rw [h.late]
    exact hs.late (h.bufferLoops ▸ hl)

theorem Fixed.returns (h : s.Fixed t) : s.Returns t where
  nest := h.nest
  bufferLoops := h.bufferLoops
  standing rest held hs := by
    refine ⟨[],?_,?_,fun _ => rfl⟩
    · rw [List.append_nil]
      exact hs.fixed h
    · rw [h.late]
      cases s.workspace.latePins <;> simp

theorem returns_openFile (s : Session) (path : Text) :
    s.Returns { s with workspace := (s.workspace.openFile path).2 } where
  nest := rfl
  bufferLoops := rfl
  standing rest held hs := by
    obtain ⟨more,hpinned,hlate,hnone⟩ := hs.pinned.openFile path
    refine ⟨more,⟨hpinned,fun k hk => ?_,fun h => ?_⟩,hlate,hnone⟩
    · have hopens := hs.current k hk
      exact hopens.openFile (hs.pinned.known k hopens.1) path
    · change (s.workspace.openFile path).2.latePins = none
      rw [hlate, hs.late h]
      rfl

theorem returns_closing (s : Session) (h : Handle) : s.Returns (s.closing h) where
  nest := rfl
  bufferLoops := rfl
  standing rest held hs := by
    have hlate : (s.closing h).workspace.latePins = s.workspace.latePins := s.workspace.latePins_close h
    refine ⟨[],⟨?_,fun k hk => ?_,fun hl => ?_⟩,?_,fun _ => rfl⟩
    · rw [List.append_nil]
      exact hs.pinned.close h
    · simp only [closing] at hk
      split at hk
      · cases hk
      · rename_i hother
        exact (hs.current k hk).close fun hkh => hother (hkh ▸ hk)
    · rw [hlate]
      exact hs.late hl
    · rw [hlate]
      cases s.workspace.latePins <;> simp

theorem returns_switch (s : Session) (name : Text) (h : Handle)
    (hh : s.workspace.lookup name = some h) : s.Returns { s with current := some h } where
  nest := rfl
  bufferLoops := rfl
  standing rest held hs := by
    refine ⟨[],⟨?_,fun k hk => ?_,hs.late⟩,?_,fun _ => rfl⟩
    · rw [List.append_nil]
      exact hs.pinned
    · cases hk
      exact Workspace.opens_of_lookup hh
    · cases s.workspace.latePins <;> simp

/-! ## Commands return to rest -/

instance : Quiet Returns where
  refl s := (Quiet.refl (R := Fixed) s).returns
  trans := .trans
  note s messages notices invocations patterns h :=
    (Quiet.note (R := Fixed) s messages notices invocations patterns h).returns

instance : Deeds Returns where
  dot s h r := (fixed_touch (t := .dot r) (fun _ => nofun) nofun s h).returns
  record s h c := (fixed_touch (t := .record c) (fun _ => nofun) nofun s h).returns
  program s store _ := (fixed_store s store).returns
  filing s h t ht := (fixed_touch (by rintro n rfl; exact ht) (by rintro rfl; exact ht) s h).returns
  write s _ _ store _ := (fixed_store s store).returns
  know s h time := (fixed_touch (t := .know time) (fun _ => nofun) nofun s h).returns
  openFile := returns_openFile
  close := returns_closing
  switch := returns_switch
  read s h time := (fixed_touch (t := .read time) (fun _ => nofun) nofun s h).returns

instance : Undoes Returns where
  travel s h steps := (fixed_touch (t := .travel steps) (fun _ => nofun) nofun s h).returns

/-- Leaving a loop over buffers releases all that it held, and what was opened in it. -/
theorem returns_buffers (hloops : s.bufferLoops = 0) (hlisted : ∀ h ∈ hs, h ∈ s.workspace.listed)
    (h : (s.inBufferLoop.holding hs).Returns t) :
    s.Returns (Run.leaveBufferLoop (t.releasing hs)) where
  nest := by
    change t.nest - 1 = s.nest
    rw [h.nest]
    rfl
  bufferLoops := by
    change t.bufferLoops - 1 = s.bufferLoops
    rw [h.bufferLoops]
    rfl
  standing rest held hst := by
    have hnone := hst.late hloops
    have hbegin : (s.inBufferLoop.holding hs).Standing rest (held ++ hs) :=
      ⟨hst.pinned.hold hlisted,fun k hk => (hst.current k hk).hold hs,fun hl => by cases hl⟩
    obtain ⟨more,ht,hlate,-⟩ := h.standing rest _ hbegin
    have hreleased : (t.workspace.release hs).latePins = none := t.workspace.latePins_release hs
    refine ⟨[],⟨?_,fun k hk => (ht.current k hk).release hs,fun _ => hreleased⟩,?_,fun _ => rfl⟩
    · rw [List.append_nil]
      exact ht.pinned.release hlate
    · rw [hnone]
      exact hreleased

theorem returns_range (h : s.inLoop.Returns t) : s.Returns (Run.leaveLoop t) where
  nest := by
    change t.nest - 1 = s.nest
    rw [h.nest]
    rfl
  bufferLoops := h.bufferLoops
  standing rest held hst := by
    obtain ⟨more,ht,hlate⟩ := h.standing rest held ⟨hst.pinned,hst.current,hst.late⟩
    exact ⟨more,⟨ht.pinned,ht.current,ht.late⟩,hlate⟩

instance : Loops Returns where
  range := returns_range
  buffers := returns_buffers

/-! ## From rest to rest -/

/-- Nothing is pending, no loop is at work, the buffers listed are open and have no pins, and the
current buffer is one of them. -/
structure AtRest (s : Session) : Prop where
  resting : s.Resting
  listed : ∀ k ∈ s.workspace.listed, (s.buffer k).closed = false ∧ (s.buffer k).pins = 0
  nest : s.nest = 0
  bufferLoops : s.bufferLoops = 0
  late : s.workspace.latePins = none
  current : ∀ k, s.current = some k → k ∈ s.workspace.listed

theorem AtRest.standing (h : s.AtRest) : s.Standing (fun k => (s.buffer k).pins) [] where
  pinned := {
    known := h.resting.known
    pins := fun k => by simp [buffer]
    none := fun k hk => (h.listed k hk).2
    listed := fun k hk => absurd hk List.not_mem_nil
    closed := fun k hk hclosed => by
      rw [← buffer, (h.listed k hk).1] at hclosed
      cases hclosed }
  current k hk := ⟨h.current k hk,(h.listed k (h.current k hk)).1⟩
  late _ := h.late

theorem Standing.atRest (h : s.Standing rest []) (hresting : s.Resting) (hnest : s.nest = 0)
    (hloops : s.bufferLoops = 0) : s.AtRest where
  resting := hresting
  listed k hk := by
    obtain ⟨hopens,hpins⟩ := h.pinned.opens hk
    exact ⟨hopens.2,hpins⟩
  nest := hnest
  bufferLoops := hloops
  late := h.late hloops
  current k hk := (h.current k hk).1

end Session

namespace Run
open Session
variable {h : Option Handle} {text : Text} {s t : Session} {o : Option EditError} {k : Handle}

theorem fixed_abandon (e : EditError) (s : Session) : s.Fixed ((abandon e).final s) := by
  have hrollback : (modifyWorkspace (·.rollback)).Follows Fixed := by
    intro s
    refine ⟨s.workspace.samePins_updateListed Buffer.sameStatus_rollback,?_,rfl,rfl,rfl⟩
    obtain ⟨known,hknown⟩ := s.workspace.updateListed_eq Buffer.rollback
    change (s.workspace.updateListed Buffer.rollback).latePins = _
    rw [hknown]
  exact follows_bind hrollback (fun _ => follows_bind (follows_warn _) fun _ => follows_notify _) s

theorem fixed_commitBuffers {seq : Int} {hs : List Handle} (hrun : commitBuffers seq hs s = .ok () t) :
    s.Fixed t := by
  induction hs generalizing s with
  | nil =>
    cases hrun
    exact Quiet.refl _
  | cons h rest ih =>
    obtain ⟨_,u,hfirst,hrest⟩ := ok_of_bind hrun
    obtain ⟨r,b,hcommit,rfl⟩ := commitBuffer_ok hfirst
    have hstatus := Buffer.sameStatus_commit seq (s.buffer h)
    rw [hcommit] at hstatus
    have hpins := s.workspace.samePins_update (j := h) (f := fun _ => b) hstatus.pins hstatus.closed
    have hcommitted : s.Fixed { s with workspace := s.workspace.update h fun _ => b } :=
      ⟨hpins,rfl,rfl,rfl,rfl⟩
    exact Quiet.trans hcommitted (ih hrest)

/-- After its commands have been executed, a command text that returns closes no buffer, takes no pin
and enters no loop. -/
theorem fixed_of_edit (hrun : edit h text s = .ok o t) :
    s.Fixed t ∨ ∃ b, begin h s = .ok () b ∧ ((runText h text).final b).Fixed t := by
  rcases pending_of_edit hrun with ⟨-,hnoted⟩ | ⟨c,u,hpending,hcommit,rfl⟩
  · obtain ⟨_,_,_,_,hwindow,rfl⟩ := hnoted
    exact .inl (Quiet.note s _ _ _ _ hwindow)
  obtain ⟨_,b,hbegin,hcarry⟩ := ok_of_bind hpending
  have hcarried : ((runText h text).final b).Fixed c := by
    rcases carryOut_run hcarry with ⟨-,hx⟩ | ⟨e,r,-,hx,habandon⟩
    · rw [final_of_ok hx]
      exact Quiet.refl c
    · have habandoned := fixed_abandon e r
      rw [final_of_ok habandon] at habandoned
      rwa [final_of_error hx]
  have hunlock : u.Fixed (unlock u) := ⟨⟨⟨rfl,rfl⟩,fun _ => rfl,fun _ => rfl⟩,rfl,rfl,rfl,rfl⟩
  exact .inr ⟨b,hbegin,Quiet.trans hcarried (Quiet.trans (fixed_commitBuffers hcommit) hunlock)⟩

theorem standing_begin (hs : s.AtRest) (hh : ∀ k, h = some k → k ∈ s.workspace.listed) :
    ((begin h).final s).Standing (fun k => (s.buffer k).pins) [] ∧ ((begin h).final s).nest = 0 ∧
      ((begin h).final s).bufferLoops = 0 ∧ ((begin h).final s).workspace.latePins = none := by
  have hpins : s.workspace.SamePins ((begin h).final s).workspace := by
    have hclear := s.workspace.samePins_updateListed (f := fun b => { b with editClean := false })
      fun _ => ⟨rfl,rfl,rfl,rfl⟩
    exact ⟨⟨hclear.handles.listed,hclear.handles.length⟩,hclear.pins,hclear.closed⟩
  have hlate : ((begin h).final s).workspace.latePins = none := by
    obtain ⟨known,hknown⟩ := s.workspace.updateListed_eq fun b => { b with editClean := false }
    change (s.workspace.updateListed fun b => { b with editClean := false }).latePins = none
    rw [hknown]
    exact hs.late
  refine ⟨⟨hs.standing.pinned.congr hpins,fun k hk => ?_,fun _ => hlate⟩,rfl,rfl,hlate⟩
  have hlisted := hh k hk
  exact Workspace.Opens.congr ⟨hlisted,(hs.listed k hlisted).1⟩ hpins

/-- When a command text returns nothing is held any more, and no loop is at work. -/
theorem standing_edit (hs : s.AtRest) (hh : ∀ k, h = some k → k ∈ s.workspace.listed)
    (hrun : edit h text s = .ok o t) :
    t.Standing (fun k => (s.buffer k).pins) [] ∧ t.nest = 0 ∧ t.bufferLoops = 0 := by
  rcases fixed_of_edit hrun with hfixed | ⟨b,hbegin,hfixed⟩
  · exact ⟨hs.standing.fixed hfixed,hfixed.nest.trans hs.nest,hfixed.bufferLoops.trans hs.bufferLoops⟩
  · obtain ⟨hb,hnest,hloops,hlate⟩ := standing_begin hs hh
    rw [final_of_ok hbegin] at hb hnest hloops hlate
    have hreturns := follows_runText (R := Returns) h text b
    obtain ⟨more,hr,-,hnone⟩ := hreturns.standing _ _ hb
    rw [hnone hlate, List.append_nil] at hr
    refine ⟨hr.fixed hfixed,?_,?_⟩
    · rw [hfixed.nest, hreturns.nest, hnest]
    · rw [hfixed.bufferLoops, hreturns.bufferLoops, hloops]

/-- What was listed, and what is opened, is listed in the end or closed. -/
theorem listed_or_closed_edit (hrun : edit h text s = .ok o t)
    (hk : k ∈ s.workspace.listed ∨ s.workspace.known.length ≤ k) (hlt : k < t.workspace.known.length) :
    k ∈ t.workspace.listed ∨ (t.buffer k).closed = true := by
  rcases fixed_of_edit hrun with hfixed | ⟨b,hbegin,hfixed⟩
  · have hhandles := hfixed.pins.handles
    refine hk.imp (fun hk => hhandles.listed ▸ hk) fun hle => absurd hlt (Nat.not_lt.mpr ?_)
    exact hhandles.length ▸ hle
  · obtain ⟨b',hbegin',hb⟩ := begin_begun h s
    obtain rfl : b' = b := by
      rw [hbegin] at hbegin'
      cases hbegin'
      rfl
    have hmoves := (follows_runText (R := Reaches Touch.Any) h text b').moves
    rw [hfixed.pins.handles.length] at hlt
    change _ ∨ (t.workspace.buffer k).closed = true
    rw [hfixed.pins.handles.listed, hfixed.pins.closed]
    refine hmoves.listed_or_closed (fun t _ _ => t.closed_apply) ?_ hlt
    rwa [hb.handles.listed, hb.handles.length]

/-- A command text that returns, from a session at rest and a buffer that is listed or none, has
brought it to rest again. No buffer has more pins or fewer than before. Of the buffers that were
listed and those that were opened, all are listed but the ones that were closed. -/
theorem edit_at_rest (hs : s.AtRest) (hh : ∀ k, h = some k → k ∈ s.workspace.listed)
    (hrun : edit h text s = .ok o t) :
    t.AtRest ∧ (∀ k, (t.buffer k).pins = (s.buffer k).pins) ∧
      ∀ k, k ∈ s.workspace.listed ∨ s.workspace.known.length ≤ k → k < t.workspace.known.length →
        (k ∈ t.workspace.listed ↔ (t.buffer k).closed = false) := by
  have hresting := resting_edit hs.resting hrun
  obtain ⟨hstanding,hnest,hloops⟩ := standing_edit hs hh hrun
  refine ⟨hstanding.atRest hresting hnest hloops,fun k => ?_,fun k hk hlt => ?_⟩
  · have hpins := hstanding.pinned.pins k
    rwa [List.count_nil, Int.natCast_zero, Int.add_zero] at hpins
  · constructor
    · intro hlisted
      exact (hstanding.pinned.opens hlisted).1.2
    · intro hopen
      refine (listed_or_closed_edit hrun hk hlt).resolve_right ?_
      rw [hopen]
      decide

/-- A loop closes the two buffers it goes through and opens a third one, and then an error comes up
inside of another loop. The first two are gone, the third one is listed and has no pins. -/
theorem edit_at_rest_failed :
    let s : Session := {
      workspace := { known := [{ name := "f".toList }, { name := "g".toList }], listed := [0, 1] } }
    let x : Run (Option EditError) := edit (some 0) "X \x7b\nB k\nD\n\x7d\nX/k/ b z".toList
    let t : Session := x.final s
    s.AtRest ∧ (∀ k, some 0 = some k → k ∈ s.workspace.listed) ∧
      x s = .ok (some (.noSuchFile "z".toList)) t ∧ t.workspace.listed = [2] ∧ t.AtRest ∧
      (∀ k, (t.buffer k).pins = (s.buffer k).pins) ∧
      ∀ k, k ∈ s.workspace.listed ∨ s.workspace.known.length ≤ k → k < t.workspace.known.length →
        (k ∈ t.workspace.listed ↔ (t.buffer k).closed = false) := by
  intro s x t
  have hs : s.AtRest := ⟨by decide,by decide,rfl,rfl,rfl,fun k hk => by cases hk⟩
  have hh (k : Handle) (hk : some 0 = some k) : k ∈ s.workspace.listed := by
    cases hk
    decide
  have hrun : x s = .ok (some (.noSuchFile "z".toList)) t := ok_of_value (by decide +kernel)
  exact ⟨hs,hh,hrun,by decide +kernel,edit_at_rest hs hh hrun⟩

end Run

end StructuralEdit
