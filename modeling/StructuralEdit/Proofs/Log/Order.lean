import Mathlib.Data.List.Chain
import StructuralEdit.Proofs.Log.Request

/-! # What the order warnings promise

A log whose requests gave no warning holds its changes by increasing start, and each
deletion behind the change before it. An insertion or a replacement is held against
the start of the newest change only: made inside that change it overlaps it unreported,
and there is no other way for changes to overlap unreported.
-/
namespace StructuralEdit

namespace ChangeRequest

/-- A request that gives no warning is idle, or not before its limit. -/
theorem limit_le_of_quiet {c : ChangeRequest} {l : EditLog} (hw : l.warned = false)
    (hq : (c.record l).2 = none) : c.Idle ∨ c.limit l ≤ c.span.q0 := by
  rcases c.record_cases l with ⟨hi,-⟩ | ⟨-,h⟩ | ⟨-,e,older,-,-,h⟩
  · exact .inl hi
  · rw [h, EditLog.push_quiet_iff, EditLog.late_eq_false_iff hw] at hq
    exact .inr hq.1
  · rw [h, EditLog.merge_quiet_iff, EditLog.late_eq_false_iff hw] at hq
    exact .inr hq

/-- It leaves the log unwarned as well. -/
theorem unwarned_of_quiet {c : ChangeRequest} {l : EditLog} (hw : l.warned = false)
    (hq : (c.record l).2 = none) : (c.record l).1.warned = false := by
  rcases c.record_cases l with ⟨-,h⟩ | ⟨-,h⟩ | ⟨-,e,older,-,-,h⟩ <;> rw [h] at hq ⊢
  · exact hw
  · obtain ⟨hlate,hle⟩ := EditLog.push_quiet_iff.mp hq
    simp only [EditLog.push, hw, hlate, Bool.or_false, Bool.false_or, decide_eq_false_iff_not]
    omega
  · simp only [EditLog.merge, hw, EditLog.merge_quiet_iff.mp hq, Bool.or_false]

/-- An insertion or a replacement that begins inside the newest change, not behind it. -/
def Inside (c : ChangeRequest) (l : EditLog) : Prop :=
  c.kind ≠ .delete ∧ ¬ c.Idle ∧ l.lastStart ≤ c.span.q0 ∧ c.span.q0 < l.lastStop

theorem not_inside_iff {c : ChangeRequest} {l : EditLog} (hi : ¬ c.Idle)
    (hle : c.limit l ≤ c.span.q0) : ¬ c.Inside l ↔ l.lastStop ≤ c.span.q0 := by
  cases c with
  | delete q0 q1 => exact iff_of_true (fun h => h.1 rfl) hle
  | insert | replace =>
    constructor
    · intro h
      by_contra hlt
      exact h ⟨(fun hk => by cases hk),hi,hle,by omega⟩
    · intro h hin
      have := hin.2.2.2
      omega

end ChangeRequest

namespace EditLog

/-- Every change starts at or behind the end of the change before it. -/
def Ordered (l : EditLog) : Prop := l.entries.IsChain fun a b => a.stop ≤ b.q0

theorem ordered_iff (l : EditLog) : l.Ordered ↔ l.changes.IsChain fun b a => a.stop ≤ b.q0 :=
  List.isChain_reverse

/-- What holds of neighbours in every unreported log. -/
def Follows (a b : Change) : Prop := a.q0 ≤ b.q0 ∧ (b.kind = .delete → a.stop ≤ b.q0)

/-- No request begins inside the change that is the newest one when it is made. -/
def NoneInside : EditLog → List ChangeRequest → Prop
  | _, [] => True
  | l, c :: cs => ¬ c.Inside l ∧ NoneInside (c.record l).1 cs

/-- The end of the newest change, as a bound on whatever change is newest. -/
theorem lastStop_le_iff {l : EditLog} {q : Int} (hq : 0 ≤ q) :
    l.lastStop ≤ q ↔ ∀ e ∈ l.changes.head?, e.stop ≤ q := by
  unfold lastStop
  cases l.changes with
  | nil => simpa using hq
  | cons e older => simp

/-- One request, unreported: the log stays in order exactly if the request is not inside. -/
theorem ordered_record_iff {l : EditLog} {c : ChangeRequest} (hl : l.Sound) (hc : c.Proper)
    (hw : l.warned = false) (hq : (c.record l).2 = none) :
    (c.record l).1.Ordered ↔ l.Ordered ∧ ¬ c.Inside l := by
  have hlim := ChangeRequest.limit_le_of_quiet hw hq
  rcases c.record_cases l with ⟨hi,h⟩ | ⟨hi,h⟩ | ⟨hi,e,older,hle,hj,h⟩
  · rw [h]
    exact ⟨fun ho => ⟨ho,fun hin => hin.2.1 hi⟩,fun ho => ho.1⟩
  · rw [ChangeRequest.not_inside_iff hi (hlim.resolve_left hi), lastStop_le_iff hc.1]
    have hp : (c.record l).1.changes = c.change :: l.changes := by rw [h]; rfl
    rw [ordered_iff, ordered_iff, hp, List.isChain_cons]
    exact and_comm
  · have hn : ¬ c.Inside l := by
      rw [ChangeRequest.not_inside_iff hi (hlim.resolve_left hi)]
      simp only [lastStop, hle]
      exact Int.le_of_eq (ChangeRequest.stop_of_joins hj (hl e (by simp [hle])))
    have hm : (c.record l).1.changes = c.joined e :: older := by rw [h]; simp [merge, hle]
    rw [ordered_iff, ordered_iff, hm, hle, List.isChain_cons, List.isChain_cons]
    exact ⟨fun ho => ⟨ho,hn⟩,fun ho => ho.1⟩

/-- A whole run of requests: it ends in order exactly if it began so and none was inside. -/
theorem ordered_recordAll_iff {l : EditLog} {cs : List ChangeRequest} (hl : l.Sound)
    (hc : ∀ c ∈ cs, c.Proper) (hw : l.warned = false) (hq : (l.recordAll cs).2 = []) :
    (l.recordAll cs).1.Ordered ↔ l.Ordered ∧ l.NoneInside cs := by
  induction cs generalizing l with
  | nil => exact ⟨fun h => ⟨h,trivial⟩,fun h => h.1⟩
  | cons c cs ih =>
    obtain ⟨hq,hqs⟩ := recordAll_cons_quiet.mp hq
    have hcp := hc c List.mem_cons_self
    have hih := ih (ChangeRequest.sound_record hcp hl)
      (fun d hd => hc d (List.mem_cons_of_mem c hd)) (ChangeRequest.unwarned_of_quiet hw hq) hqs
    rw [log_recordAll_cons, hih, ordered_record_iff hl hcp hw hq, NoneInside, and_assoc]

/-- One request, unreported, keeps the order by starts and the deletions behind. -/
theorem follows_record {l : EditLog} {c : ChangeRequest} (hw : l.warned = false)
    (hq : (c.record l).2 = none) (hl : l.Sound)
    (hf : l.changes.IsChain fun b a => Follows a b) :
    (c.record l).1.changes.IsChain fun b a => Follows a b := by
  have hlim := ChangeRequest.limit_le_of_quiet hw hq
  rcases c.record_cases l with ⟨-,h⟩ | ⟨hi,h⟩ | ⟨-,e,older,hle,-,h⟩
  · rwa [h]
  · have hle := hlim.resolve_left hi
    have hp : (c.record l).1.changes = c.change :: l.changes := by rw [h]; rfl
    rw [hp, List.isChain_cons]
    refine ⟨?_,hf⟩
    intro a ha
    have hs := (hl a (List.mem_of_mem_head? ha)).start_le_stop
    obtain ⟨older,hcons⟩ : ∃ older, l.changes = a :: older :=
      ⟨_,List.eq_cons_of_mem_head? ha⟩
    cases c with
    | delete q0 q1 =>
      simp only [ChangeRequest.limit, lastStop, hcons] at hle
      exact ⟨Int.le_trans hs hle,fun _ => hle⟩
    | insert | replace =>
      simp only [ChangeRequest.limit, lastStart, hcons] at hle
      exact ⟨hle,fun hk => by cases hk⟩
  · have hm : (c.record l).1.changes = c.joined e :: older := by rw [h]; simp [merge, hle]
    rw [hm, List.isChain_cons]
    rw [hle, List.isChain_cons] at hf
    exact hf

theorem follows_recordAll {l : EditLog} {cs : List ChangeRequest} (hl : l.Sound)
    (hc : ∀ c ∈ cs, c.Proper) (hw : l.warned = false) (hq : (l.recordAll cs).2 = [])
    (hf : l.changes.IsChain fun b a => Follows a b) :
    (l.recordAll cs).1.changes.IsChain fun b a => Follows a b := by
  induction cs generalizing l with
  | nil => exact hf
  | cons c cs ih =>
    obtain ⟨hq,hqs⟩ := recordAll_cons_quiet.mp hq
    exact ih (ChangeRequest.sound_record (hc c List.mem_cons_self) hl)
      (fun d hd => hc d (List.mem_cons_of_mem c hd)) (ChangeRequest.unwarned_of_quiet hw hq) hqs
      (follows_record hw hq hl hf)

/-- Requests on a fresh log, none of them reported: the changes are entered by increasing start,
deletions behind the change before them, and they are free of overlaps exactly if no insertion
or replacement was made inside the change that was then the newest. -/
theorem unreported_ordered_iff (cs : List ChangeRequest) (hc : ∀ c ∈ cs, c.Proper)
    (hq : (recordAll {} cs).2 = []) :
    (recordAll {} cs).1.entries.IsChain Follows ∧
      ((recordAll {} cs).1.Ordered ↔ NoneInside {} cs) := by
  have hs : Sound {} := sound_of_isEmpty rfl
  constructor
  · exact List.isChain_reverse.mpr (follows_recordAll hs hc rfl hq List.isChain_nil)
  · rw [ordered_recordAll_iff hs hc rfl hq]
    exact ⟨fun h => h.2,fun h => ⟨List.isChain_nil,h⟩⟩

theorem unreported_ordered_iff_deletions :
    (∀ c ∈ [ChangeRequest.delete 0 3, .replace 3 4 ['x'], .delete 4 5], c.Proper) ∧
      (recordAll {} [.delete 0 3, .replace 3 4 ['x'], .delete 4 5]).2 = [] ∧
      (recordAll {} [.delete 0 3, .replace 3 4 ['x'], .delete 4 5]).1.entries.IsChain Follows ∧
      ((recordAll {} [.delete 0 3, .replace 3 4 ['x'], .delete 4 5]).1.Ordered ↔
        NoneInside {} [.delete 0 3, .replace 3 4 ['x'], .delete 4 5]) :=
  ⟨by decide,by decide,unreported_ordered_iff _ (by decide) (by decide)⟩

/-- Text inserted inside a deletion overlaps it, and no warning says so. -/
theorem overlap_unreported :
    (recordAll {} [.delete 0 3, .insert 1 ['x']]).2 = [] ∧
      ¬ (recordAll {} [.delete 0 3, .insert 1 ['x']]).1.Ordered := by
  constructor
  · decide
  · rw [ordered_iff]
    decide

end EditLog

end StructuralEdit
