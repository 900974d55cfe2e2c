import StructuralEdit.Proofs.Search.Selection
import StructuralEdit.Proofs.Session.Recording
import StructuralEdit.Session.Execute

/-! # Substitution is exact

A substitution replaces matches that a loop over the same pattern visits in the same
range: from the one counted on, or that one alone. Each is replaced by the template
expanded for it, all at once, and nothing else is changed.
-/
namespace StructuralEdit
open Pattern

/-- Replacements that do something are entered in order, each as a change of its own. -/
theorem EditLog.entries_replaceAll {l : EditLog} {cs : List ChangeRequest}
    (hcs : ∀ c ∈ cs, c.kind = .replace) : (l.recordAll cs).1.entries =
      l.entries ++ (cs.filter fun c => !decide c.Idle).map ChangeRequest.change := by
  induction cs generalizing l with
  | nil => simp
  | cons c cs ih =>
    rw [log_recordAll_cons, ih fun d hd => hcs d (List.mem_cons_of_mem c hd)]
    rcases c.record_cases l with ⟨hi,h⟩ | ⟨hi,h⟩ | ⟨-,e,older,-,hj,-⟩
    · simp [h, hi]
    · simp [h, hi]
    · have hk := hcs c List.mem_cons_self
      cases c with
      | insert | delete => cases hk
      | replace => exact hj.elim

namespace Replacement
variable {text template : Text} {all : Bool} {count : Int} {ms : List Match}

theorem pick_sublist (all : Bool) (count : Int) (ms : List Match) : (pick all count ms).Sublist ms := by
  unfold pick
  split
  · exact List.drop_sublist ..
  · exact (List.take_sublist ..).trans (List.drop_sublist ..)

/-- The replacement of a match. -/
def request (text template : Text) (m : Match) : ChangeRequest :=
  .replace m.start m.stop (expand text m.spans template)

/-- The template that stands for the whole match changes nothing. -/
theorem text_request_whole (text : Text) (m : Match) :
    (request text ['&'] m).text = text.slice m.start m.stop := by
  simp [request, ChangeRequest.text, expand, Match.spans, Match.span]

theorem kind_of_request : ∀ c ∈ ms.map (request text template), c.kind = .replace := by
  intro c hc
  obtain ⟨m,-,rfl⟩ := List.mem_map.mp hc
  rfl

/-- What is picked from matches one behind the other is replaced in sequence. -/
theorem inSequence_requests {start stop : Int} (h : Sequenced start stop (ms.map Match.span)) :
    InSequence start stop ((pick all count ms).map (request text template)) := by
  have hspans : ((pick all count ms).map (request text template)).map ChangeRequest.span =
      (pick all count ms).map Match.span := by
    rw [List.map_map]
    rfl
  rw [inSequence_iff, hspans]
  exact h.sublist ((pick_sublist all count ms).map Match.span)

theorem simultaneous_whole (h : InSequence 0 text.length (ms.map (request text ['&']))) :
    text.simultaneous 0 (ms.map (request text ['&'])) = text := by
  rw [Text.simultaneous_self h (Int.le_refl 0), Text.slice_whole]
  intro c hc
  obtain ⟨m,-,rfl⟩ := List.mem_map.mp hc
  exact text_request_whole text m

end Replacement

/-- Replacements recorded in an empty log stand in it as far as they do something. -/
theorem Session.Recorded.entries_replaced {s t : Session} {k : Handle} {cs : List ChangeRequest}
    (h : s.Recorded k cs t) (hlog : (s.buffer k).log.isEmpty = true) (hcs : ∀ c ∈ cs, c.kind = .replace) :
    (t.buffer k).log.entries = (cs.filter fun c => !decide c.Idle).map ChangeRequest.change := by
  rw [h.log, EditLog.entries_replaceAll hcs, EditLog.entries, List.isEmpty_iff.mp hlog]
  rfl

namespace Run
variable {s : Session} {a : Target} {pattern template : Text} {re : Regex} {count : Int} {all : Bool}

/-- Once matches are selected their replacements are recorded, and dot is set to the range. That there
is none is an error outside of loops. -/
theorem substitute_selected {chosen : List Match} (ha : a.buffer < s.workspace.known.length)
    (hre : Regex.compile s.patterns.engine pattern = .ok re)
    (hselected : Replacement.selected re (s.buffer a.buffer).text a.r all count = .ok chosen)
    (hquiet : ((s.buffer a.buffer).log.recordAll
      (chosen.map (Replacement.request (s.buffer a.buffer).text template))).2 = []) :
    ∃ t, s.Recorded a.buffer (chosen.map (Replacement.request (s.buffer a.buffer).text template)) t ∧
      substitute a pattern count template all s =
        (if chosen = [] ∧ s.nest = 0 then .error (.edit .noSubstitution) t else .ok () t) ∧
      (¬ (chosen = [] ∧ s.nest = 0) → (t.buffer a.buffer).dot = a.r) := by
  obtain ⟨t,ht,hr,hw⟩ := compile_recorded a.buffer ('s' :: " command".toList) hre
  have hb : t.buffer a.buffer = s.buffer a.buffer := by
    rw [Session.buffer, hw]
    rfl
  have hread : buffer a.buffer t = .ok (s.buffer a.buffer) t := by
    rw [← hb]
    rfl
  have hsearch : searching (Replacement.selected re (s.buffer a.buffer).text a.r all count) t = .ok chosen t := by
    rw [hselected]
    rfl
  rw [← hb] at hquiet
  obtain ⟨u,hu,hr'⟩ := forIn_recorded (hr.handles.length ▸ ha) hquiet
  have hall := hr.trans hr'
  rw [List.nil_append, hb] at hall
  rw [hb] at hu
  have hrun : substitute a pattern count template all s =
      (do
        if chosen.isEmpty && (← get).nest = 0 then fail .noSubstitution
        setDot a.buffer a.r : Run Unit) u := by
    unfold substitute
    rw [compileFor, bind_of_ok ht, bind_of_ok hread]
    simp only
    rw [bind_of_ok hsearch]
    exact bind_of_ok hu
  have hguard : (chosen.isEmpty && decide (u.nest = 0)) = true ↔ chosen = [] ∧ s.nest = 0 := by
    rw [hall.nest, Bool.and_eq_true, List.isEmpty_iff, decide_eq_true_eq]
  rw [bind_of_ok (get_eq u)] at hrun
  by_cases hfail : chosen = [] ∧ s.nest = 0
  · refine ⟨u,hall,?_,absurd hfail⟩
    rw [hrun, if_pos hfail, if_pos (hguard.mpr hfail)]
    rfl
  · obtain ⟨v,hv,hr'',hdot⟩ := setDot_recorded a.r (hall.handles.length ▸ ha)
    have hdone := hall.trans hr''
    rw [List.append_nil] at hdone
    refine ⟨v,hdone,?_,fun _ => hdot⟩
    rw [hrun, if_neg hfail, if_neg fun h => hfail (hguard.mp h)]
    exact hv

/-- A substitution in a buffer with nothing pending selects from the matches that a loop over its
pattern visits in the range. It records their replacements in order and without a warning, so that
the commit replaces each by its expanded template and changes nothing else. Where nothing is
selected nothing is recorded, and that is an error outside of loops. -/
theorem substitute_exact (ha : a.buffer < s.workspace.known.length)
    (hlog : (s.buffer a.buffer).log.isEmpty = true) (h0 : 0 ≤ a.r.q0) (h1 : a.r.q0 ≤ a.r.q1)
    (h2 : a.r.q1 ≤ (s.buffer a.buffer).size) (hre : Regex.compile s.patterns.engine pattern = .ok re)
    (hs : re.Serves (s.buffer a.buffer).text.toArray) :
    ∃ ms, (∃ u, loopRanges (.matching pattern) a s = .ok (ms.map Match.span) u) ∧
      let text := (s.buffer a.buffer).text
      let chosen := Replacement.pick all count ms
      let requests := chosen.map (Replacement.request text template)
      ∃ t, s.Recorded a.buffer requests t ∧
        (t.buffer a.buffer).log.entries =
          (requests.filter fun c => !decide c.Idle).map ChangeRequest.change ∧
        substitute a pattern count template all s =
          (if chosen = [] ∧ s.nest = 0 then .error (.edit .noSubstitution) t else .ok () t) ∧
        ∀ seq, ∃ r d, Buffer.commit seq (t.buffer a.buffer) = .ok r d ∧
          d.text = text.simultaneous 0 requests ∧ (template = ['&'] → d.text = text) := by
  obtain ⟨ms,hms,hsequenced,hselected⟩ := Replacement.exists_selected hs ⟨h0,h1,h2⟩
  obtain ⟨v,hvisits,-⟩ := collect_recorded (s := s) a.buffer 'x' hre hms
  refine ⟨ms,⟨v,hvisits⟩,?_⟩
  intro text chosen requests
  have hcs : InSequence 0 text.length requests := Replacement.inSequence_requests (hsequenced.mono h0 h2)
  have hquiet := hcs.quiet (Int.le_refl 0) (EditLog.below_of_isEmpty hlog) (EditLog.sound_of_isEmpty hlog)
  obtain ⟨t,hrecorded,hrun,-⟩ := substitute_selected ha hre (hselected all count) hquiet
  refine ⟨t,hrecorded,hrecorded.entries_replaced hlog Replacement.kind_of_request,hrun,fun seq => ?_⟩
  obtain ⟨r,d,hd,htext⟩ := hrecorded.commit hlog hcs seq
  refine ⟨r,d,hd,htext,?_⟩
  rintro rfl
  exact htext.trans (Replacement.simultaneous_whole hcs)

/-- Matches of a pattern that matches the empty text too, from the second one on. -/
theorem substitute_exact_nullable :
    let s : Session := { workspace := { known := [{ text := "baac".toList }], listed := [0] } }
    let a : Target := ⟨⟨0, 4⟩, 0⟩
    let template := "<&>".toList
    ∃ re, Regex.compile s.patterns.engine "a*".toList = .ok re ∧ re.Serves (s.buffer a.buffer).text.toArray ∧
      a.buffer < s.workspace.known.length ∧ (s.buffer a.buffer).log.isEmpty = true ∧ 0 ≤ a.r.q0 ∧
      a.r.q0 ≤ a.r.q1 ∧ a.r.q1 ≤ (s.buffer a.buffer).size ∧
      ∃ ms, (∃ u, loopRanges (.matching "a*".toList) a s = .ok (ms.map Match.span) u) ∧
        let text := (s.buffer a.buffer).text
        let chosen := Replacement.pick true 2 ms
        let requests := chosen.map (Replacement.request text template)
        ∃ t, s.Recorded a.buffer requests t ∧
          (t.buffer a.buffer).log.entries =
            (requests.filter fun c => !decide c.Idle).map ChangeRequest.change ∧
          substitute a "a*".toList 2 template true s =
            (if chosen = [] ∧ s.nest = 0 then .error (.edit .noSubstitution) t else .ok () t) ∧
          ∀ seq, ∃ r d, Buffer.commit seq (t.buffer a.buffer) = .ok r d ∧
            d.text = text.simultaneous 0 requests ∧ (template = ['&'] → d.text = text) := by
  intro s a template
  obtain ⟨re,hre,hs⟩ : ∃ re, Regex.compile s.patterns.engine "a*".toList = .ok re ∧
      re.Serves (s.buffer a.buffer).text.toArray := Regex.exists_compile (by decide +kernel)
  exact ⟨re,hre,hs,by decide,by decide,by decide,by decide,by decide,
    substitute_exact (by decide) (by decide) (by decide) (by decide) (by decide) hre hs⟩

end Run

end StructuralEdit
