import StructuralEdit.Proofs.Buffer.Commit
import StructuralEdit.Proofs.Log.Simultaneous
import StructuralEdit.Proofs.Search.Scan
import StructuralEdit.Proofs.Session.Moves

/-! # Recording in sequence

A part of a command that records requests in one buffer leaves a session that differs
in the log and the dot of that buffer, and in the patterns remembered. If the requests
come in sequence nothing is reported, and the commit makes one simultaneous edit of them.
-/
namespace StructuralEdit
open Pattern

theorem inSequence_iff {start stop : Int} {cs : List ChangeRequest} :
    InSequence start stop cs ↔ Sequenced start stop (cs.map ChangeRequest.span) := by
  induction cs generalizing start with
  | nil => exact .rfl
  | cons c cs ih => exact and_congr .rfl (and_congr .rfl ih)

namespace Session
variable {h : Handle} {cs ds : List ChangeRequest} {s t u : Session}

/-- One session comes from another by recording requests in the log of a buffer, none of which
gives a warning. Nothing is reported, no other buffer is touched, and the same loops are at work. -/
structure Recorded (h : Handle) (cs : List ChangeRequest) (s t : Session) : Prop where
  handles : s.workspace.SameHandles t.workspace
  others : ∀ k ≠ h, t.buffer k = s.buffer k
  buffer : ∃ dot, t.buffer h = { s.buffer h with log := ((s.buffer h).log.recordAll cs).1, dot }
  quiet : ((s.buffer h).log.recordAll cs).2 = []
  messages : t.messages = s.messages
  notices : t.notices = s.notices
  nest : t.nest = s.nest
  patterns : t.patterns.Alike s.patterns

namespace Recorded

theorem text (hr : s.Recorded h cs t) : (t.buffer h).text = (s.buffer h).text := by
  obtain ⟨dot,hb⟩ := hr.buffer
  rw [hb]

theorem log (hr : s.Recorded h cs t) : (t.buffer h).log = ((s.buffer h).log.recordAll cs).1 := by
  obtain ⟨dot,hb⟩ := hr.buffer
  rw [hb]

theorem refl (h : Handle) (s : Session) : s.Recorded h [] s :=
  ⟨.refl _,fun _ _ => rfl,⟨_,rfl⟩,rfl,rfl,rfl,rfl,.refl _⟩

theorem trans (hr : s.Recorded h cs t) (hr' : t.Recorded h ds u) : s.Recorded h (cs ++ ds) u := by
  obtain ⟨dot,hb⟩ := hr'.buffer
  constructor
  · exact ⟨hr'.handles.listed.trans hr.handles.listed,hr'.handles.length.trans hr.handles.length⟩
  · exact fun k hk => (hr'.others k hk).trans (hr.others k hk)
  · obtain ⟨dot',hb'⟩ := hr.buffer
    refine ⟨dot,?_⟩
    rw [hb, hb', EditLog.recordAll_append]
  · rw [EditLog.recordAll_append, hr.quiet, ← hr.log, hr'.quiet]
    rfl
  · exact hr'.messages.trans hr.messages
  · exact hr'.notices.trans hr.notices
  · exact hr'.nest.trans hr.nest
  · exact hr'.patterns.trans hr.patterns

theorem of_patterns (h : Handle) (s : Session) {patterns : PatternMemory}
    (halike : patterns.Alike s.patterns) : s.Recorded h [] { s with patterns } :=
  ⟨.refl _,fun _ _ => rfl,⟨_,rfl⟩,rfl,rfl,rfl,rfl,halike⟩

/-- A request that does nothing may as well be recorded. -/
theorem of_idle {c : ChangeRequest} (hr : s.Recorded h [] t) (hc : c.Idle) : s.Recorded h [c] t := by
  have hrecord : (s.buffer h).log.recordAll [c] = (s.buffer h).log.recordAll [] := by
    simp only [EditLog.recordAll, ChangeRequest.record_idle hc, Option.toList_none, List.nil_append]
  obtain ⟨handles,others,buffer,quiet,messages,notices,nest,patterns⟩ := hr
  rw [← hrecord] at buffer quiet
  exact ⟨handles,others,buffer,quiet,messages,notices,nest,patterns⟩

/-- The commit of requests in sequence makes them one simultaneous edit of the text. -/
theorem commit (hr : s.Recorded h cs t) (hlog : (s.buffer h).log.isEmpty = true)
    (hcs : InSequence 0 (s.buffer h).size cs) (seq : Int) :
    ∃ r d, Buffer.commit seq (t.buffer h) = .ok r d ∧
      d.text = (s.buffer h).text.simultaneous 0 cs := by
  have hs : (s.buffer h).log.Sound := EditLog.sound_of_isEmpty hlog
  have hreplay := hcs.replay_recordAll (t := (s.buffer h).text) (Int.le_refl 0) hs
  simp only [List.isEmpty_iff.mp hlog, Text.replay_nil, Int.toNat_zero, List.take_zero,
    List.nil_append] at hreplay
  rw [← hreplay, ← hr.log, ← hr.text]
  cases hl : (t.buffer h).log.isEmpty with
  | true =>
    refine ⟨_,_,Buffer.commit_of_isEmpty seq hl,?_⟩
    rw [List.isEmpty_iff.mp hl, Text.replay_nil]
  | false =>
    have ht : (t.buffer h).log.Sound := hr.log ▸ EditLog.sound_recordAll (hcs.proper (Int.le_refl 0)) hs
    obtain ⟨v,hcommit⟩ := Buffer.commit_of_sound seq hl ht
    exact ⟨_,_,hcommit,rfl⟩

end Recorded

end Session

namespace Run
variable {h : Handle} {s : Session}

theorem setDot_recorded (r : Span) (hk : h < s.workspace.known.length) :
    ∃ t, setDot h r s = .ok () t ∧ s.Recorded h [] t ∧ (t.buffer h).dot = r := by
  refine ⟨_,rfl,⟨⟨rfl,s.workspace.length_known_update h _⟩,fun k hkh => ?_,⟨r,?_⟩,rfl,rfl,rfl,rfl,.refl _⟩,?_⟩
  · exact s.workspace.buffer_update_of_ne _ hkh
  · exact (s.workspace.buffer_update h _ hk).trans (if_pos rfl)
  · exact congrArg Buffer.dot ((s.workspace.buffer_update h _ hk).trans (if_pos rfl))

/-- Recording a request that gives no warning; the dot stays. -/
theorem record_recorded {c : ChangeRequest} (hk : h < s.workspace.known.length)
    (hq : (c.record (s.buffer h).log).2 = none) :
    ∃ t, record h c.record s = .ok () t ∧ s.Recorded h [c] t ∧ (t.buffer h).dot = (s.buffer h).dot := by
  let log := (c.record (s.buffer h).log).1
  let t : Session := { s with workspace := s.workspace.update h fun b => { b with log } }
  have hrun : record h c.record s = reportOrder (c.record (s.buffer h).log).2 t := rfl
  have hb : t.buffer h = { s.buffer h with log } := (s.workspace.buffer_update h _ hk).trans (if_pos rfl)
  refine ⟨t,by rw [hrun, hq]; rfl,?_,?_⟩
  · refine ⟨⟨rfl,s.workspace.length_known_update h _⟩,fun k hkh => ?_,⟨_,hb⟩,?_,rfl,rfl,rfl,.refl _⟩
    · exact s.workspace.buffer_update_of_ne _ hkh
    · exact EditLog.recordAll_cons_quiet.mpr ⟨hq,rfl⟩
  · rw [hb]

/-- Recording one request for each member of a list, none of them giving a warning. -/
theorem forIn_recorded {α : Type} {l : List α} {f : α → ChangeRequest}
    (hk : h < s.workspace.known.length) (hq : ((s.buffer h).log.recordAll (l.map f)).2 = []) :
    ∃ t, (forIn l PUnit.unit fun a _ => do
        record h (f a).record
        return .yield PUnit.unit : Run PUnit) s = .ok PUnit.unit t ∧ s.Recorded h (l.map f) t := by
  induction l generalizing s with
  | nil => exact ⟨s,rfl,.refl h s⟩
  | cons a rest ih =>
    obtain ⟨hone,hmore⟩ := EditLog.recordAll_cons_quiet.mp hq
    obtain ⟨t,ht,hr,-⟩ := record_recorded hk hone
    have hlog : (t.buffer h).log = ((f a).record (s.buffer h).log).1 := hr.log
    obtain ⟨u,hu,hr'⟩ := ih (hr.handles.length ▸ hk) (hlog ▸ hmore)
    refine ⟨u,?_,hr.trans hr'⟩
    rw [List.forIn_cons, bind_assoc, bind_of_ok ht]
    exact hu

end Run

namespace Run
variable {h : Handle} {s : Session} {pattern : Text} {re : Regex}

theorem compile_recorded (h : Handle) (place : Text)
    (hre : Regex.compile s.patterns.engine pattern = .ok re) :
    ∃ t, compile pattern place s = .ok re t ∧ s.Recorded h [] t ∧ t.workspace = s.workspace := by
  have hrun := compile_eq pattern place s
  rw [hre] at hrun
  exact ⟨_,hrun,.of_patterns h s (s.patterns.alike_compile pattern),rfl⟩

/-- Compiling the pattern of a loop and collecting its matches. -/
theorem collect_recorded {text : Text} {r : Span} {ms : List Match} (h : Handle) (letter : Char)
    (hre : Regex.compile s.patterns.engine pattern = .ok re)
    (hms : re.forward text r.q0 (some r.q1) none = .ok ms) :
    ∃ t, (do
        let re ← compileFor letter pattern
        return (← searching (re.forward text r.q0 (some r.q1) none)).map Match.span : Run (List Span)) s =
      .ok (ms.map Match.span) t ∧ s.Recorded h [] t := by
  obtain ⟨t,ht,hr,-⟩ := compile_recorded h (letter :: " command".toList) hre
  refine ⟨t,?_,hr⟩
  rw [compileFor, bind_of_ok ht, hms]
  rfl

end Run

end StructuralEdit
