import Mathlib.Data.List.Induction
import StructuralEdit.Proofs.Buffer.DotMoves
import StructuralEdit.Proofs.Session.Substitution
import StructuralEdit.Session.Edit

/-! # What dot covers after replacements inside it

A dot with replacements inside it keeps its start and grows by what they make the text grow, but for those
at its end: text taken out there is not covered any more once it is put in again. Such replacements are
lost one after the other as long as each ends where the next one begins.
-/
namespace StructuralEdit

/-! ## One change inside dot -/

/-- How much longer a request makes the text. -/
def ChangeRequest.growth (c : ChangeRequest) : Int := c.text.length - (c.span.q1 - c.span.q0)

def totalGrowth : List ChangeRequest → Int
  | [] => 0
  | c :: cs => c.growth + totalGrowth cs

theorem totalGrowth_append (cs ds : List ChangeRequest) :
    totalGrowth (cs ++ ds) = totalGrowth cs + totalGrowth ds := by
  induction cs with
  | nil => exact (Int.zero_add _).symm
  | cons c cs ih => rw [List.cons_append, totalGrowth, ih, totalGrowth, Int.add_assoc]

/-- How much of the new text dot does not cover after some requests inside it, the last one first. -/
def Span.lost (dot : Span) : List ChangeRequest → Nat
  | [] => 0
  | c :: cs =>
    if c.span.q1 = dot.q1 ∧ dot.q0 < c.span.q0 then c.text.length + lost ⟨dot.q0, c.span.q0⟩ cs else 0

namespace ChangeRequest
variable {c : ChangeRequest} {t : Text} {p q : Int}

theorem dotAfter_change {size : Nat} {dot : Span} (hc : c.span.q0 ≤ size) (hlen : c.span.q1 ≤ size) :
    c.change.dotAfter size dot = c.change.cover (Buffer.dotAfterInsert
      (Buffer.dotAfterDelete dot c.span.q0 (c.span.q1 - c.span.q0)) c.span.q0 c.text.length) := by
  rw [Change.dotAfter, q0_change, stop_change, text_change, Int.min_eq_left hc, Int.min_eq_left hlen]

theorem length_applyTo (h0 : 0 ≤ c.span.q0) (hc : c.span.q0 ≤ c.span.q1) (hlen : c.span.q1 ≤ t.length) :
    ((c.change.applyTo t).length : Int) = t.length + c.growth := by
  simp only [Change.applyTo, q0_change, stop_change, text_change, List.length_append, List.length_take,
    List.length_drop, growth]
  omega

/-- A request inside dot that does not reach its end, or begins where dot begins, makes dot grow. -/
theorem dotAfter_covered (hp : p ≤ c.span.q0) (hc : c.span.q0 ≤ c.span.q1) (hq : c.span.q1 ≤ q)
    (hlen : q ≤ t.length) (h : c.span.q1 < q ∨ c.span.q0 = p) :
    c.change.dotAfter t.length ⟨p, q⟩ = ⟨p, q + c.growth⟩ := by
  have hdelete : Buffer.dotAfterDelete ⟨p, q⟩ c.span.q0 (c.span.q1 - c.span.q0) =
      ⟨p, q - (c.span.q1 - c.span.q0)⟩ := by
    simp only [Buffer.dotAfterDelete, Span.mk.injEq]
    constructor <;> split <;> omega
  rw [dotAfter_change (by omega) (by omega), hdelete, Buffer.dotAfterInsert, if_neg (by simp only; omega)]
  simp only [Change.cover, q0_change, text_change, growth]
  by_cases hbehind : c.span.q0 < q - (c.span.q1 - c.span.q0)
  · rw [if_pos hbehind, if_neg (by omega)]
    simp only [Span.mk.injEq, true_and]
    omega
  · -- all of dot is taken out
    rw [if_neg hbehind, if_pos (by omega)]
    simp only [Span.mk.injEq, true_and]
    omega

/-- What a request puts in at the end of dot, but not at its start, is not covered. -/
theorem dotAfter_lost (hp : p < c.span.q0) (hc : c.span.q0 ≤ c.span.q1) (hlen : c.span.q1 ≤ t.length) :
    c.change.dotAfter t.length ⟨p, c.span.q1⟩ = ⟨p, c.span.q0⟩ := by
  have hdelete : Buffer.dotAfterDelete ⟨p, c.span.q1⟩ c.span.q0 (c.span.q1 - c.span.q0) = ⟨p, c.span.q0⟩ := by
    simp only [Buffer.dotAfterDelete, Span.mk.injEq]
    constructor <;> split <;> omega
  rw [dotAfter_change (by omega) (by omega), hdelete, Buffer.dotAfterInsert, if_neg (by simp only; omega),
    if_neg (by simp only; omega)]
  exact if_neg fun h => Int.ne_of_lt hp h.1

theorem applyTo_idle (hc : c.Idle) (t : Text) : c.change.applyTo t = t := by
  rw [Change.applyTo, q0_change, stop_change, text_change, hc.1, hc.2, List.append_nil, List.take_append_drop]

theorem dotAfter_idle (hc : c.Idle) (size : Nat) (dot : Span) : c.change.dotAfter size dot = dot := by
  have hdeleted : min c.span.q1 (size : Int) - min c.span.q0 size = 0 := by
    rw [hc.1]
    omega
  rw [Change.dotAfter, q0_change, stop_change, hdeleted, text_change, hc.2]
  simp [Change.cover, hc.2]

end ChangeRequest

/-! ## Requests in sequence inside dot -/

theorem InSequence.concat {cs : List ChangeRequest} {c : ChangeRequest} {p q : Int}
    (h : InSequence p q (cs ++ [c])) :
    InSequence p c.span.q0 cs ∧ c.span.q0 ≤ c.span.q1 ∧ c.span.q1 ≤ q := by
  induction cs generalizing p with
  | nil => exact h
  | cons d cs ih =>
    obtain ⟨h0,h1,hcs⟩ := h
    obtain ⟨hrest,hlast⟩ := ih hcs
    exact ⟨⟨h0,h1,hrest⟩,hlast⟩

/-- Nothing is lost unless there is a request at the end of dot. -/
theorem InSequence.lost_eq_zero {cs : List ChangeRequest} {p q stop : Int} (h : InSequence p stop cs)
    (hstop : stop < q ∨ stop = p) : Span.lost ⟨p, q⟩ cs.reverse = 0 := by
  cases cs using List.reverseRecOn with
  | nil => rfl
  | append_singleton cs c =>
    obtain ⟨hcs,hc,hlast⟩ := h.concat
    have hfirst := hcs.start_le_stop
    rw [List.reverse_append, List.reverse_singleton, List.singleton_append, Span.lost, if_neg]
    simp only
    omega

/-- Requests in sequence inside dot, made from the last one on. -/
theorem InSequence.replayDot {cs : List ChangeRequest} {t : Text} {p q stop : Int} (h : InSequence p stop cs)
    (h0 : 0 ≤ p) (hstop : stop ≤ q) (hq : q ≤ t.length) :
    t.replayDot ⟨p, q⟩ (cs.reverse.map ChangeRequest.change) =
      ⟨p, q + totalGrowth cs - Span.lost ⟨p, q⟩ cs.reverse⟩ := by
  induction cs using List.reverseRecOn generalizing t q stop with
  | nil => simp [Text.replayDot, totalGrowth, Span.lost]
  | append_singleton cs c ih =>
    obtain ⟨hcs,hc,hlast⟩ := h.concat
    have hfirst := hcs.start_le_stop
    have hgrowth : totalGrowth (cs ++ [c]) = totalGrowth cs + c.growth := by
      rw [totalGrowth_append, totalGrowth, totalGrowth, Int.add_zero]
    have hlen := ChangeRequest.length_applyTo (t := t) (c := c) (by omega) hc (by omega)
    rw [List.reverse_append, List.reverse_singleton, List.singleton_append, List.map_cons, Text.replayDot, hgrowth,
      Span.lost]
    by_cases hend : c.span.q1 = q ∧ p < c.span.q0
    · obtain ⟨rfl,hp⟩ := hend
      have hfits : c.span.q0 ≤ (c.change.applyTo t).length := by
        rw [hlen, ChangeRequest.growth]
        omega
      rw [if_pos ⟨rfl,hp⟩, ChangeRequest.dotAfter_lost hp hc hq, ih hcs (Int.le_refl _) hfits]
      simp only [Span.mk.injEq, true_and, ChangeRequest.growth]
      omega
    · -- nothing more is lost from here on
      have hcovered : c.span.q1 < q ∨ c.span.q0 = p := by omega
      have hgrown : c.span.q0 < q + c.growth ∨ c.span.q0 = p := by
        rw [ChangeRequest.growth]
        omega
      have hstop : c.span.q0 ≤ q + c.growth := by
        rw [ChangeRequest.growth]
        omega
      rw [if_neg hend, ChangeRequest.dotAfter_covered hfirst hc (by omega) hq hcovered,
        ih hcs hstop (by omega), hcs.lost_eq_zero hgrown]
      simp only [Span.mk.injEq, true_and]
      omega

theorem InSequence.mono {cs : List ChangeRequest} {p q p' q' : Int} (h : InSequence p q cs) (hp : p' ≤ p)
    (hq : q ≤ q') : InSequence p' q' cs := by
  rw [inSequence_iff] at h ⊢
  exact h.mono hp hq

theorem InSequence.length_simultaneous {cs : List ChangeRequest} {t : Text} {p : Int}
    (h : InSequence p t.length cs) (h0 : 0 ≤ p) :
    ((t.simultaneous p cs).length : Int) = t.length - p + totalGrowth cs := by
  induction cs generalizing p with
  | nil =>
    have hslice := Text.length_slice h0 h (Int.le_refl _)
    simp [Text.simultaneous, totalGrowth, hslice]
  | cons c cs ih =>
    obtain ⟨hp,hc,hcs⟩ := h
    have hlen := hcs.start_le_stop
    have hslice := Text.length_slice h0 hp (Int.le_trans hc hlen)
    have hrest := ih hcs (by omega)
    rw [Text.simultaneous, List.length_append, List.length_append, totalGrowth, ChangeRequest.growth]
    omega

theorem Text.replayDot_active {cs : List ChangeRequest} {t : Text} {dot : Span} :
    t.replayDot dot ((cs.filter fun c => !decide c.Idle).map ChangeRequest.change) =
      t.replayDot dot (cs.map ChangeRequest.change) := by
  induction cs generalizing t dot with
  | nil => rfl
  | cons c cs ih =>
    by_cases hc : c.Idle
    · rw [List.filter_cons_of_neg (by simpa using hc), List.map_cons, Text.replayDot, c.applyTo_idle hc,
        c.dotAfter_idle hc, ih]
    · rw [List.filter_cons_of_pos (by simpa using hc), List.map_cons, List.map_cons, Text.replayDot, Text.replayDot,
        ih]

theorem Buffer.dot_of_commit {b d : Buffer} {seq : Int} {done : Bool} (hs : b.log.Sound)
    (h : commit seq b = .ok done d) : d.dot = b.text.replayDot b.dot b.log.changes := by
  cases hl : b.log.isEmpty with
  | true =>
    rw [commit_of_isEmpty seq hl] at h
    cases h
    rw [List.isEmpty_iff.mp hl]
    rfl
  | false =>
    obtain ⟨v,hcommit⟩ := commit_of_sound seq hl hs
    rw [hcommit] at h
    cases h
    rfl

/-- The commit of replacements in sequence inside dot. -/
theorem Session.Recorded.commit_covering {h : Handle} {cs : List ChangeRequest} {s t : Session} {r : Span}
    (hr : s.Recorded h cs t) (hlog : (s.buffer h).log.isEmpty = true) (hkind : ∀ c ∈ cs, c.kind = .replace)
    (hdot : (t.buffer h).dot = r) (hwithin : r.Within (s.buffer h).text) (hcs : InSequence r.q0 r.q1 cs)
    (seq : Int) : ∃ done d, Buffer.commit seq (t.buffer h) = .ok done d ∧
      d.text = (s.buffer h).text.simultaneous 0 cs ∧
      d.dot = ⟨r.q0, r.q1 + (d.text.length - (s.buffer h).text.length) - r.lost cs.reverse⟩ := by
  obtain ⟨h0,h1,h2⟩ := hwithin
  have hwhole := hcs.mono h0 h2
  obtain ⟨done,d,hcommit,htext⟩ := hr.commit hlog hwhole seq
  have hsound : (t.buffer h).log.Sound :=
    hr.log ▸ EditLog.sound_recordAll (hwhole.proper (Int.le_refl 0)) (EditLog.sound_of_isEmpty hlog)
  have hchanges : (t.buffer h).log.changes =
      (cs.reverse.filter fun c => !decide c.Idle).map ChangeRequest.change := by
    have hentries := EditLog.entries_replaceAll (l := (s.buffer h).log) hkind
    rw [EditLog.entries, EditLog.entries, List.isEmpty_iff.mp hlog, ← hr.log, List.reverse_nil, List.nil_append]
      at hentries
    rw [← List.reverse_reverse (t.buffer h).log.changes, hentries, List.filter_reverse, List.map_reverse]
  have hgrowth := hwhole.length_simultaneous (Int.le_refl 0)
  have hreplay : (s.buffer h).text.replayDot r (cs.reverse.map ChangeRequest.change) =
      ⟨r.q0, r.q1 + totalGrowth cs - r.lost cs.reverse⟩ := hcs.replayDot h0 (Int.le_refl _) h2
  refine ⟨done,d,hcommit,htext,?_⟩
  rw [Buffer.dot_of_commit hsound hcommit, hchanges, Text.replayDot_active, hdot, hr.text, hreplay, htext, hgrowth]
  simp only [Span.mk.injEq, true_and]
  omega

namespace Run
open Pattern
variable {s : Session} {a : Target} {pattern template : Text} {re : Regex} {count : Int} {all : Bool}

/-- A substitution in a buffer with nothing pending, where something is selected: after the commit dot begins
where its range does, and ends where the range ends in the text it makes, less what is put in for matches at
the end of the range. -/
theorem substitute_covers (template : Text) (count : Int) (all : Bool)
    (ha : a.buffer < s.workspace.known.length) (hlog : (s.buffer a.buffer).log.isEmpty = true)
    (hr : a.r.Within (s.buffer a.buffer).text) (hre : Regex.compile s.patterns.engine pattern = .ok re)
    (hs : re.Serves (s.buffer a.buffer).text.toArray) :
    ∃ ms, (∃ u, loopRanges (.matching pattern) a s = .ok (ms.map Match.span) u) ∧
      let text := (s.buffer a.buffer).text
      let chosen := Replacement.pick all count ms
      let requests := chosen.map (Replacement.request text template)
      chosen ≠ [] → ∃ t, substitute a pattern count template all s = .ok () t ∧
        ∀ seq, ∃ r d, Buffer.commit seq (t.buffer a.buffer) = .ok r d ∧
          d.text = text.simultaneous 0 requests ∧
          d.dot = ⟨a.r.q0, a.r.q1 + (d.text.length - text.length) - a.r.lost requests.reverse⟩ ∧
          (d.dot = ⟨a.r.q0, a.r.q1 + (d.text.length - text.length)⟩ ↔ a.r.lost requests.reverse = 0) := by
  obtain ⟨ms,hms,hsequenced,hselected⟩ := Replacement.exists_selected hs hr
  obtain ⟨u,hvisits,-⟩ := collect_recorded (s := s) a.buffer 'x' hre hms
  refine ⟨ms,⟨u,hvisits⟩,?_⟩
  intro text chosen requests hchosen
  have hcs : InSequence a.r.q0 a.r.q1 requests := Replacement.inSequence_requests hsequenced
  have hquiet := (hcs.mono hr.start hr.stop).quiet (Int.le_refl 0) (EditLog.below_of_isEmpty hlog)
    (EditLog.sound_of_isEmpty hlog)
  obtain ⟨t,hrecorded,hrun,hdot⟩ := substitute_selected ha hre (hselected all count) hquiet
  have hsome : ¬ (chosen = [] ∧ s.nest = 0) := fun hnone => hchosen hnone.1
  rw [if_neg hsome] at hrun
  refine ⟨t,hrun,fun seq => ?_⟩
  obtain ⟨done,d,hcommit,htext,hd⟩ :=
    hrecorded.commit_covering hlog Replacement.kind_of_request (hdot hsome) hr hcs seq
  have hcovers : d.dot = ⟨a.r.q0, a.r.q1 + (d.text.length - text.length) - a.r.lost requests.reverse⟩ := hd
  refine ⟨done,d,hcommit,htext,hcovers,?_⟩
  rw [hcovers]
  simp only [Span.mk.injEq, true_and]
  omega

theorem substitute_covers_front :
    let s : Session := { workspace := { known := [{ text := "ab".toList }], listed := [0] } }
    let a : Target := ⟨⟨0, 2⟩, 0⟩
    ∃ re, Regex.compile s.patterns.engine "a".toList = .ok re ∧ re.Serves (s.buffer 0).text.toArray ∧
      0 < s.workspace.known.length ∧ (s.buffer 0).log.isEmpty = true ∧ a.r.Within (s.buffer 0).text ∧
      ∃ t, substitute a "a".toList 1 "xyz".toList true s = .ok () t ∧
        ∀ seq, ∃ r d, Buffer.commit seq (t.buffer 0) = .ok r d ∧ d.dot = ⟨0, 2 + (d.text.length - 2)⟩ := by
  intro s a
  obtain ⟨re,hre,hs⟩ : ∃ re, Regex.compile s.patterns.engine "a".toList = .ok re ∧
      re.Serves (s.buffer 0).text.toArray :=
    Regex.exists_compile (by decide +kernel)
  have hk : 0 < s.workspace.known.length := by decide
  have hlog : (s.buffer 0).log.isEmpty = true := by decide
  have hr : a.r.Within (s.buffer 0).text := by decide
  obtain ⟨ms,⟨u,hvisits⟩,hcovers⟩ := substitute_covers "xyz".toList 1 true hk hlog hr hre hs
  have hms : ms.map Match.span = [⟨0, 1⟩] := by
    have hone : value (loopRanges (.matching "a".toList) a) s = some [⟨0, 1⟩] := by decide +kernel
    rw [ok_of_value hone, EStateM.Result.ok.injEq] at hvisits
    exact hvisits.1.symm
  obtain ⟨m,rfl,hm⟩ := List.map_eq_singleton_iff.mp hms
  obtain ⟨t,ht,hcommit⟩ := hcovers (List.cons_ne_nil m [])
  refine ⟨re,hre,hs,hk,hlog,hr,t,ht,fun seq => ?_⟩
  obtain ⟨r,d,hd,-,-,hiff⟩ := hcommit seq
  refine ⟨r,d,hd,hiff.mpr (if_neg fun hend => ?_)⟩
  have hstop : m.span.q1 = 2 := hend.1
  rw [hm] at hstop
  cases hstop

/-- A match at the end of the range is replaced, and dot ends in front of its new text. -/
theorem dot_leaves_replaced :
    let s : Session := { workspace := { known := [{ text := "ab".toList }], listed := [0] } }
    let t : Session := (edit (some 0) ",s/b/x/".toList).final s
    edit (some 0) ",s/b/x/".toList s = .ok none t ∧ (t.buffer 0).text = "ax".toList ∧
      (t.buffer 0).dot = ⟨0, 1⟩ := by
  intro s t
  have hrun : edit (some 0) ",s/b/x/".toList s = .ok none t := ok_of_value (by decide +kernel)
  exact ⟨hrun,by decide +kernel,by decide +kernel⟩

end Run

end StructuralEdit
