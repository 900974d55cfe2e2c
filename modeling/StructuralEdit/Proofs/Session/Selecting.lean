import StructuralEdit.Proofs.Buffer.DotMoves
import StructuralEdit.Proofs.Session.Command
import StructuralEdit.Proofs.Session.FileActions
import StructuralEdit.Proofs.Session.Nest

/-! # What a single edit selects

A command that appends, inserts, changes or deletes sets dot before its change is made, and the
commit moves dot with the change. Together they leave dot on the new text, wherever the range of
the command lies and whether or not anything is put in or taken out.
-/
namespace StructuralEdit

namespace SingleEdit
variable {r : Span}

/-- The text an edit puts in. -/
def text : SingleEdit → Text
  | append t | insert t | change t => t
  | delete => []

/-- Where an edit of a range puts it. -/
def place (e : SingleEdit) (r : Span) : Int :=
  match e with
  | append _ => r.q1
  | insert _ | change _ | delete => r.q0

@[simp] theorem text_request (e : SingleEdit) (r : Span) : (e.request r).text = e.text := by
  cases e <;> rfl

@[simp] theorem start_request (e : SingleEdit) (r : Span) : (e.request r).span.q0 = e.place r := by
  cases e <;> rfl

/-- The dot that an edit leaves lies at the start of what it takes out. -/
theorem leaves_bounds (e : SingleEdit) (h : r.q0 ≤ r.q1) : (e.leaves r).q0 = (e.request r).span.q0 ∧
    (e.request r).span.q0 ≤ (e.leaves r).q1 ∧ (e.leaves r).q1 ≤ (e.request r).span.q1 := by
  cases e with
  | append | insert => exact ⟨rfl,Int.le_refl _,Int.le_refl _⟩
  | change => exact ⟨rfl,h,Int.le_refl _⟩
  | delete => exact ⟨rfl,Int.le_refl _,h⟩

end SingleEdit

namespace Session
variable {h : Handle} {c : ChangeRequest} {s t : Session}

/-- Only dots differ, and what is reported and remembered. -/
structure Pointed (s t : Session) : Prop where
  handles : s.workspace.SameHandles t.workspace
  buffer : ∀ k, ∃ dot, t.buffer k = { s.buffer k with dot }

instance : Dots Pointed where
  refl s := ⟨.refl _,fun _ => ⟨_,rfl⟩⟩
  trans {s t u} h h' := by
    refine ⟨⟨h'.handles.listed.trans h.handles.listed,h'.handles.length.trans h.handles.length⟩,fun k => ?_⟩
    obtain ⟨_,hk⟩ := h.buffer k
    obtain ⟨dot,hk'⟩ := h'.buffer k
    rw [hk] at hk'
    exact ⟨dot,hk'⟩
  note s _ _ _ _ _ := ⟨.refl _,fun _ => ⟨_,rfl⟩⟩
  dot s h r := by
    refine ⟨⟨rfl,s.workspace.length_known_update h _⟩,fun k => ?_⟩
    rcases s.workspace.buffer_update_cases h k (Touch.dot r).apply with hb | hb
    · exact ⟨_,hb⟩
    · exact ⟨r,hb⟩

/-- The commit of a single request leaves a dot at its place on the new text. -/
theorem Recorded.commit_place (hr : s.Recorded h [c] t) (hlog : (s.buffer h).log.isEmpty = true)
    (hc : c.Proper) (hstop : c.span.q1 ≤ (s.buffer h).size) (hstart : (t.buffer h).dot.q0 = c.span.q0)
    (hordered : c.span.q0 ≤ (t.buffer h).dot.q1) (hle : (t.buffer h).dot.q1 ≤ c.span.q1)
    {seq : Int} {done : Bool} {d : Buffer} (hcommit : Buffer.commit seq (t.buffer h) = .ok done d) :
    d.dot = ⟨c.span.q0, c.span.q0 + c.text.length⟩ ∧ d.slice d.dot.q0 d.dot.q1 = c.text := by
  have hempty : (s.buffer h).log.changes = [] := List.isEmpty_iff.mp hlog
  have hlog' : (t.buffer h).log = (c.record (s.buffer h).log).1 := hr.log
  rcases c.record_cases (s.buffer h).log with ⟨⟨hspan,htext⟩,hrecord⟩ | ⟨-,hrecord⟩ | ⟨-,e,older,hold,-⟩
  · -- nothing is pending, and dot is the point at which the request is made
    rw [hrecord] at hlog'
    rw [Buffer.commit_of_isEmpty seq (hlog' ▸ hlog)] at hcommit
    cases hcommit
    have hdot : (t.buffer h).dot = ⟨c.span.q0, c.span.q0⟩ := by
      have hstop : (t.buffer h).dot.q1 = c.span.q0 := by omega
      rw [← hstart] at hstop ⊢
      exact congrArg (Span.mk _) hstop
    simp only [hdot, htext]
    exact ⟨by simp,Text.slice_self _ _⟩
  · have hone : (t.buffer h).log.changes = [c.change] := by
      rw [hlog', hrecord]
      exact congrArg (List.cons c.change) hempty
    have hpending : (t.buffer h).log.isEmpty = false := by
      rw [EditLog.isEmpty, hone]
      rfl
    have hsound : (t.buffer h).log.Sound := by
      rw [EditLog.Sound, hone]
      exact List.forall_mem_singleton.mpr (ChangeRequest.sound_change hc)
    obtain ⟨v,hsettled⟩ := Buffer.commit_of_sound seq hpending hsound
    rw [hsettled] at hcommit
    cases hcommit
    have hsize : c.change.stop ≤ (t.buffer h).text.length := by
      rw [ChangeRequest.stop_change, hr.text]
      exact hstop
    have hdot : (t.buffer h).text.replayDot (t.buffer h).dot [c.change] =
        ⟨c.span.q0, c.span.q0 + c.text.length⟩ :=
      Change.dotAfter_of_place hstart hordered (by rwa [ChangeRequest.stop_change]) hsize
    have hslice := Change.slice_applyTo_place (ChangeRequest.sound_change hc) hsize
    simp only [hone]
    refine ⟨hdot,?_⟩
    rw [hdot]
    exact hslice
  · rw [hempty] at hold
    cases hold

/-- The commit of a single edit edits its range and leaves dot on the new text. -/
theorem Recorded.commit_edit {e : SingleEdit} {r : Span} (hr : s.Recorded h [e.request r] t)
    (hlog : (s.buffer h).log.isEmpty = true) (hrange : r.Within (s.buffer h).text)
    (hdot : (t.buffer h).dot = e.leaves r) {seq : Int} {done : Bool} {d : Buffer}
    (hcommit : Buffer.commit seq (t.buffer h) = .ok done d) :
    d.text = (s.buffer h).text.mapSpans e.effect 0 [r] ∧
      d.dot = ⟨e.place r, e.place r + e.text.length⟩ ∧ d.slice d.dot.q0 d.dot.q1 = e.text := by
  have hrs : Sequenced 0 (s.buffer h).text.length [r] := ⟨hrange.start,hrange.ordered,hrange.stop⟩
  have hcs : InSequence 0 (s.buffer h).size [e.request r] := e.inSequence hrs
  obtain ⟨hfirst,hordered,hlast⟩ := hcs
  obtain ⟨hstart,hle,hstop⟩ := e.leaves_bounds hrange.ordered
  rw [← hdot] at hstart hle hstop
  have hplace := hr.commit_place hlog ⟨hfirst,hordered⟩ hlast hstart hle hstop hcommit
  rw [e.start_request, e.text_request] at hplace
  obtain ⟨done',d',hcommit',htext⟩ := hr.commit hlog ⟨hfirst,hordered,hlast⟩ seq
  rw [hcommit] at hcommit'
  cases hcommit'
  exact ⟨htext.trans (Text.simultaneous_requests e hrs (Int.le_refl 0)),hplace⟩

end Session

/-- The address and the action of a command that is made of no others. -/
def Call.action? (c : Call) : Option (Option Addr × Action) :=
  match c.cmd with
  | .act addr action => some (addr, action)
  | _ => none

theorem Call.cmd_of_action? {c : Call} {addr : Option Addr} {action : Action}
    (h : c.action? = some (addr, action)) : c.cmd = .act addr action := by
  unfold action? at h
  split at h
  · cases h
    assumption
  · cases h

namespace Run
variable {h : Option Handle} {text : Text} {s t : Session} {c : Call}

/-- The first command that executing one executes is that one. -/
theorem exists_calls (h : Option Handle) (cmd : Cmd) (s : Session) :
    ∃ more, calls h cmd s = ⟨h, cmd, s⟩ :: more := by
  cases cmd <;> exact ⟨_,rfl⟩

/-- A command text whose first command is made of no others executes it, and goes on. -/
theorem runCommands_call {fuel : Nat} {cursor : Cursor} {cs : List Call} {addr : Option Addr} {action : Action}
    (hcalls : callsFrom fuel cursor s = c :: cs) (hcmd : c.cmd = .act addr action)
    (hrun : runCommands fuel cursor s = .ok () t) :
    s.Noted c.before ∧ ∃ u fuel cursor, execute c.home c.cmd c.before = .ok () u ∧
      callsFrom fuel cursor u = cs ∧ runCommands fuel cursor u = .ok () t := by
  cases fuel with
  | zero => cases hcalls
  | succ fuel =>
    obtain ⟨⟨next,behind⟩,u,hnext,hrest⟩ := ok_of_bind hrun
    have hnoted := follows_nextCommand (R := Session.Noted) cursor s
    rw [final_of_ok hnext] at hnoted
    rw [callsFrom, thenCalls_of_ok hnext] at hcalls
    cases next with
    | none => cases hcalls
    | some cmd =>
      simp only at hcalls hrest
      rw [bind_of_ok (get_eq u)] at hrest
      obtain ⟨_,v,hexecute,hmore⟩ := ok_of_bind hrest
      rw [thenCalls_of_ok hexecute] at hcalls
      obtain ⟨more,hself⟩ := exists_calls u.current cmd u
      have hc : c = ⟨u.current, cmd, u⟩ := by
        rw [hself, List.cons_append, List.cons.injEq] at hcalls
        exact hcalls.1.symm
      subst hc
      obtain rfl : cmd = .act addr action := hcmd
      rw [calls, List.singleton_append, List.cons.injEq] at hcalls
      exact ⟨hnoted,v,fuel,behind,hexecute,hcalls.2,hmore⟩

/-- One that executes no more commands comes to its end. -/
theorem runCommands_noted {fuel : Nat} {cursor : Cursor} (hcalls : callsFrom fuel cursor s = [])
    (hrun : runCommands fuel cursor s = .ok () t) : s.Noted t := by
  cases fuel with
  | zero =>
    cases hrun
    exact Session.Quiet.refl s
  | succ fuel =>
    obtain ⟨⟨next,behind⟩,u,hnext,hrest⟩ := ok_of_bind hrun
    have hnoted := follows_nextCommand (R := Session.Noted) cursor s
    rw [final_of_ok hnext] at hnoted
    rw [callsFrom, thenCalls_of_ok hnext] at hcalls
    cases next with
    | none =>
      cases hrest
      exact hnoted
    | some cmd =>
      obtain ⟨more,hself⟩ := exists_calls u.current cmd u
      simp only [hself] at hcalls
      cases hcalls

/-- A text of one such command executes it, and does nothing else. -/
theorem runText_call {addr : Option Addr} {action : Action} (hcalls : textCalls h text s = [c])
    (hcmd : c.cmd = .act addr action) (hrun : runText h text s = .ok () t) :
    s.Noted c.before ∧ ∃ u, execute c.home c.cmd c.before = .ok () u ∧ u.Noted t := by
  have hcursor {cursor : Cursor} (hcalls : callsFrom (cursor.rest.length + 1) cursor s = [c])
      (hrun : runCommands (cursor.rest.length + 1) cursor s = .ok () t) :
      s.Noted c.before ∧ ∃ u, execute c.home c.cmd c.before = .ok () u ∧ u.Noted t := by
    obtain ⟨hnoted,u,_,_,hexecute,hnone,hmore⟩ := runCommands_call hcalls hcmd hrun
    exact ⟨hnoted,u,hexecute,runCommands_noted hnone hmore⟩
  cases h with
  | none => exact hcursor hcalls hrun
  | some h =>
    unfold textCalls at hcalls
    rw [Option.all_some] at hcalls
    cases hlisted : s.workspace.listed.contains h with
    | true =>
      obtain ⟨_,_,hget,hrest⟩ := ok_of_bind hrun
      cases hget
      simp only [hlisted] at hcalls hrest
      exact hcursor hcalls hrest
    | false =>
      simp only [hlisted] at hcalls
      cases hcalls

/-- Executing a single edit looks its range up, and edits it. -/
theorem execute_single {e : SingleEdit} {addr : Option Addr} {a : Target} {u : Session}
    (haddr : withDefault false h addr s = .ok a u) (hrun : execute h (.act addr e.action) s = .ok () t) :
    e.perform a u = .ok () t := by
  obtain ⟨_,_,hwindow,haction⟩ := ok_of_bind hrun
  obtain rfl := requireWindow_ok hwindow
  rwa [e.runAction_action, bind_of_ok haddr] at haction

section
variable {e : SingleEdit} {addr : Option Addr} {k : Handle} {r : Span} {v : Session}

/-- A command text of a single edit that succeeds has recorded the edit in the buffer of its range,
and left that buffer the dot the edit leaves. -/
theorem pending_single (hlt : k < s.workspace.known.length) (hlog : (s.buffer k).log.isEmpty = true)
    (hcalls : textCalls h text ((begin h).final s) = [c]) (hcmd : c.cmd = .act addr e.action)
    (haddr : withDefault false c.home addr c.before = .ok ⟨r, k⟩ v) (hr : r.Within (s.buffer k).text)
    (hrun : pending h text s = .ok none t) :
    s.workspace.SameHandles t.workspace ∧ (v.buffer k).text = (s.buffer k).text ∧
      (v.buffer k).log = (s.buffer k).log ∧
      ∃ u, v.Recorded k [e.request r] u ∧ (u.buffer k).dot = e.leaves r ∧ t.buffer k = u.buffer k := by
  obtain ⟨b,hbegin,hb⟩ := begin_begun h s
  rw [final_of_ok hbegin] at hcalls
  unfold pending at hrun
  rw [bind_of_ok hbegin] at hrun
  have htext : runText h text b = .ok () t := by
    rcases carryOut_run hrun with ⟨-,htext⟩ | ⟨_,_,hnone,-⟩
    · exact htext
    · cases hnone
  obtain ⟨hbefore,u,hexecute,hafter⟩ := runText_call hcalls hcmd htext
  rw [hcmd] at hexecute
  have hperform := execute_single haddr hexecute
  -- looking up the range has set dots at most
  have hpointed := follows_withDefault (R := Session.Pointed) false c.home addr c.before
  rw [final_of_ok haddr] at hpointed
  obtain ⟨dot,hv⟩ := hpointed.buffer k
  obtain ⟨editClean,hbk⟩ := hb.buffer k hlt
  have hsame : c.before.buffer k = b.buffer k := congrArg (·.buffer k) hbefore.workspace
  rw [hsame, hbk] at hv
  have hlisted : v.workspace.listed = s.workspace.listed := by
    rw [hpointed.handles.listed, hbefore.workspace, hb.handles.listed]
  have hlength : v.workspace.known.length = s.workspace.known.length := by
    rw [hpointed.handles.length, hbefore.workspace, hb.handles.length]
  have hready : v.Ready k v.patterns.engine (s.buffer k).text 0 := by
    refine ⟨hlength ▸ hlt,?_,?_,?_,rfl⟩ <;> rw [hv]
    · exact EditLog.sound_of_isEmpty hlog
    · exact EditLog.below_of_isEmpty hlog
  obtain ⟨w,hw,hrecorded,hdot⟩ := perform_recorded e hr.ordered (hready.mono hr.start)
  rw [hperform] at hw
  cases hw
  refine ⟨⟨?_,?_⟩,by rw [hv],by rw [hv],u,hrecorded,hdot,congrArg (·.buffer k) hafter.workspace⟩
  · rw [hafter.workspace, hrecorded.handles.listed, hlisted]
  · rw [hafter.workspace, hrecorded.handles.length, hlength]

/-- After a command text that executes one append, insertion, change or deletion, and succeeds, the
text is edited at the range its address stands for, and dot is where the new text is, which it
selects: behind the range, in front of it or in its place. Without new text it is the empty dot
there. -/
theorem edit_selects_new (hk : k ∈ s.workspace.listed) (hlt : k < s.workspace.known.length)
    (hlog : (s.buffer k).log.isEmpty = true) (hcalls : editCalls h text s = [c])
    (hcmd : c.cmd = .act addr e.action) (haddr : withDefault false c.home addr c.before = .ok ⟨r, k⟩ v)
    (hr : r.Within (s.buffer k).text) (hrun : edit h text s = .ok none t) :
    let old := (s.buffer k).text
    let new := t.buffer k
    new.text = old.slice 0 r.q0 ++ e.effect (old.slice r.q0 r.q1) ++ old.slice r.q1 old.length ∧
      new.dot = ⟨e.place r, e.place r + e.text.length⟩ ∧ new.slice new.dot.q0 new.dot.q1 = e.text := by
  unfold editCalls at hcalls
  split at hcalls
  · cases hcalls
  rename_i haccepted
  obtain ⟨b,u,hpending,hcommit,rfl⟩ := pending_of_accepted (Bool.eq_false_iff.mpr haccepted) hrun
  obtain ⟨hhandles,htext,hempty,w,hrecorded,hdot,hb⟩ :=
    pending_single hlt hlog hcalls hcmd haddr hr hpending
  obtain ⟨-,-,hbuffers⟩ := commitBuffers_ok hcommit
  have hdone := hbuffers k (hhandles.length ▸ hlt)
  rw [if_pos (hhandles.listed ▸ hk), hb] at hdone
  obtain ⟨done,hdone⟩ := hdone
  rw [← htext] at hr ⊢
  exact hrecorded.commit_edit (hempty ▸ hlog) hr hdot hdone

/-- Dot and the search behind it make up the range, and the new text is shorter than what it replaces. -/
theorem edit_selects_new_shorter :
    let s : Session := {
      workspace := { known := [{ text := "hello world".toList, dot := ⟨6, 8⟩ }], listed := [0] } }
    let x : Run (Option EditError) := edit (some 0) ".;/l/c/own/".toList
    let t : Session := x.final s
    let e : SingleEdit := .change "own".toList
    let addr : Addr := .compound (some [.dot]) .semicolon (.chain [.forward "l".toList])
    let r : Span := ⟨6, 10⟩
    0 ∈ s.workspace.listed ∧ 0 < s.workspace.known.length ∧ (s.buffer 0).log.isEmpty = true ∧
      ∃ c v, editCalls (some 0) ".;/l/c/own/".toList s = [c] ∧ c.cmd = .act addr e.action ∧
        withDefault false c.home addr c.before = .ok ⟨r, 0⟩ v ∧ r.Within (s.buffer 0).text ∧ x s = .ok none t ∧
        let old := (s.buffer 0).text
        let new := t.buffer 0
        new.text = old.slice 0 r.q0 ++ e.effect (old.slice r.q0 r.q1) ++ old.slice r.q1 old.length ∧
          new.dot = ⟨e.place r, e.place r + e.text.length⟩ ∧ new.slice new.dot.q0 new.dot.q1 = e.text := by
  intro s x t e addr r
  let cs : List Call := editCalls (some 0) ".;/l/c/own/".toList s
  obtain ⟨c,hc⟩ := List.length_eq_one_iff.mp (show cs.length = 1 by decide +kernel)
  have hcmds : cs.map Call.action? = [some (some addr, e.action)] := by decide +kernel
  have hvalues : cs.map (fun c => (withDefault false c.home (some addr)).value c.before) =
      [some ⟨r, 0⟩] := by
    decide +kernel
  rw [hc] at hcmds hvalues
  have hcmd := Call.cmd_of_action? (List.cons.inj hcmds).1
  have haddr := ok_of_value (List.cons.inj hvalues).1
  have hr : r.Within (s.buffer 0).text := by constructor <;> decide
  have hrun : x s = .ok none t := ok_of_value (by decide +kernel)
  have hlisted : 0 ∈ s.workspace.listed := List.mem_cons_self
  exact ⟨hlisted,by decide,rfl,c,_,hc,hcmd,haddr,hr,hrun,
    edit_selects_new hlisted (by decide) rfl hc hcmd haddr hr hrun⟩

end

end Run

end StructuralEdit
