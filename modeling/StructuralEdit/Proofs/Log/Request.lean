import StructuralEdit.Buffer.EditLog

/-! # Requests for changes

A change reaches an edit log as one of three requests. All that a log can do with
one is to leave it out, to enter it as a change of its own, or to extend the newest
change by it; what is proved of recording is proved for these three cases.
-/
namespace StructuralEdit

/-- A change as a command asks for it. -/
inductive ChangeRequest
  | insert (q0 : Int) (text : Text)
  | delete (q0 q1 : Int)
  | replace (q0 q1 : Int) (text : Text)
deriving DecidableEq

namespace ChangeRequest

def kind : ChangeRequest → ChangeKind
  | insert .. => .insert
  | delete .. => .delete
  | replace .. => .replace

/-- The range that is taken out; an insertion takes out the empty one. -/
def span : ChangeRequest → Span
  | insert q0 _ => .point q0
  | delete q0 q1 | replace q0 q1 _ => ⟨q0, q1⟩

/-- The text that is put in. -/
def text : ChangeRequest → Text
  | insert _ t | replace _ _ t => t
  | delete .. => []

/-- Nothing is taken out and nothing put in. -/
def Idle (c : ChangeRequest) : Prop := c.span.q0 = c.span.q1 ∧ c.text = []

instance (c : ChangeRequest) : Decidable c.Idle := inferInstanceAs (Decidable (_ ∧ _))

/-- The ends of the range lie in order, and not before the text. -/
def Proper (c : ChangeRequest) : Prop := 0 ≤ c.span.q0 ∧ c.span.q0 ≤ c.span.q1

instance (c : ChangeRequest) : Decidable c.Proper := inferInstanceAs (Decidable (_ ∧ _))

def record : ChangeRequest → EditLog → EditLog × Option OrderWarning
  | insert q0 t, l => l.insert q0 t
  | delete q0 q1, l => l.delete q0 q1
  | replace q0 q1 t, l => l.replace q0 q1 t

/-- The request as a change of its own. -/
def change (c : ChangeRequest) : Change := ⟨c.kind, c.span.q0, c.span.q1 - c.span.q0, c.text⟩

@[simp] theorem q0_change (c : ChangeRequest) : c.change.q0 = c.span.q0 := rfl
@[simp] theorem text_change (c : ChangeRequest) : c.change.text = c.text := rfl
@[simp] theorem stop_change (c : ChangeRequest) : c.change.stop = c.span.q1 := by
  simp only [change, Change.stop]
  omega

/-- The offset a request must not lie before: a deletion is held against the end of the newest
change, the others against its start. -/
def limit (c : ChangeRequest) (l : EditLog) : Int :=
  match c with
  | delete .. => l.lastStop
  | insert .. | replace .. => l.lastStart

/-- A change that a request extends: an insertion at the same offset, or a deletion that ends
where this one begins. -/
def Joins (c : ChangeRequest) (e : Change) : Prop :=
  match c with
  | insert q0 _ => e.kind = .insert ∧ e.q0 = q0
  | delete q0 _ => e.kind = .delete ∧ e.stop = q0
  | replace .. => False

/-- A change extended by a request. -/
def joined (c : ChangeRequest) (e : Change) : Change :=
  { e with deleted := e.deleted + (c.span.q1 - c.span.q0), text := e.text ++ c.text }

@[simp] theorem q0_joined (c : ChangeRequest) (e : Change) : (c.joined e).q0 = e.q0 := rfl

/-- Everything that recording a request can do. -/
theorem record_cases (c : ChangeRequest) (l : EditLog) :
    (c.Idle ∧ c.record l = (l, none)) ∨
    (¬ c.Idle ∧ c.record l = l.push c.change (l.late c.span.q0 (c.limit l))) ∨
    (¬ c.Idle ∧ ∃ e older, l.changes = e :: older ∧ c.Joins e ∧
      c.record l = l.merge (c.joined e) (l.late c.span.q0 (c.limit l))) := by
  cases c with
  | replace q0 q1 t =>
    by_cases h : q0 = q1 ∧ t = []
    · exact .inl ⟨h, if_pos h⟩
    · exact .inr (.inl ⟨h, if_neg h⟩)
  | insert q0 t =>
    by_cases h : t = []
    · exact .inl ⟨⟨rfl, h⟩, if_pos h⟩
    have hidle : ¬ (insert q0 t).Idle := fun hi => h hi.2
    cases hl : l.changes with
    | nil =>
      refine .inr (.inl ⟨hidle, ?_⟩)
      simp [record, EditLog.insert, h, hl, change, kind, span, text, limit, Span.point]
    | cons e older =>
      by_cases hj : e.kind = .insert ∧ e.q0 = q0
      · refine .inr (.inr ⟨hidle, e, older, rfl, hj, ?_⟩)
        simp [record, EditLog.insert, h, hl, hj, joined, span, text, limit, Span.point]
      · refine .inr (.inl ⟨hidle, ?_⟩)
        simp [record, EditLog.insert, h, hl, hj, change, kind, span, text, limit, Span.point]
  | delete q0 q1 =>
    by_cases h : q0 = q1
    · exact .inl ⟨⟨h, rfl⟩, if_pos h⟩
    have hidle : ¬ (delete q0 q1).Idle := fun hi => h hi.1
    cases hl : l.changes with
    | nil =>
      refine .inr (.inl ⟨hidle, ?_⟩)
      simp [record, EditLog.delete, h, hl, change, kind, span, text, limit]
    | cons e older =>
      by_cases hj : e.kind = .delete ∧ e.stop = q0
      · refine .inr (.inr ⟨hidle, e, older, rfl, hj, ?_⟩)
        simp [record, EditLog.delete, h, hl, hj, joined, span, text, limit]
      · refine .inr (.inl ⟨hidle, ?_⟩)
        simp [record, EditLog.delete, h, hl, hj, change, kind, span, text, limit]

theorem record_idle {c : ChangeRequest} {l : EditLog} (hi : c.Idle) : c.record l = (l, none) := by
  rcases c.record_cases l with ⟨-,h⟩ | ⟨hne,-⟩ | ⟨hne,-⟩
  · exact h
  · exact absurd hi hne
  · exact absurd hi hne

end ChangeRequest

namespace EditLog

theorem push_quiet_iff {l : EditLog} {e : Change} {late : Bool} :
    (l.push e late).2 = none ↔ late = false ∧ l.lastStart ≤ e.q0 := by
  by_cases h : e.q0 < l.lastStart
  · have hle : ¬ l.lastStart ≤ e.q0 := by omega
    cases late <;> simp [push, h, hle]
  · have hle : l.lastStart ≤ e.q0 := by omega
    cases late <;> simp [push, h, hle]

theorem merge_quiet_iff {l : EditLog} {e : Change} {late : Bool} :
    (l.merge e late).2 = none ↔ late = false := by
  cases late <;> simp [merge]

theorem late_eq_false_iff {l : EditLog} {q limit : Int} (hw : l.warned = false) :
    l.late q limit = false ↔ limit ≤ q := by
  simp [late, hw]

/-- Record requests one after another; the warnings they give are returned in order. -/
def recordAll (l : EditLog) : List ChangeRequest → EditLog × List OrderWarning
  | [] => (l, [])
  | c :: cs =>
    let (l, warning) := c.record l
    let (l, warnings) := l.recordAll cs
    (l, warning.toList ++ warnings)

@[simp] theorem recordAll_nil (l : EditLog) : l.recordAll [] = (l, []) := rfl

@[simp] theorem log_recordAll_cons (l : EditLog) (c : ChangeRequest) (cs : List ChangeRequest) :
    (l.recordAll (c :: cs)).1 = ((c.record l).1.recordAll cs).1 := rfl

theorem warnings_recordAll_cons (l : EditLog) (c : ChangeRequest) (cs : List ChangeRequest) :
    (l.recordAll (c :: cs)).2 = (c.record l).2.toList ++ ((c.record l).1.recordAll cs).2 := rfl

theorem recordAll_cons_quiet {l : EditLog} {c : ChangeRequest} {cs : List ChangeRequest} :
    (l.recordAll (c :: cs)).2 = [] ↔ (c.record l).2 = none ∧ ((c.record l).1.recordAll cs).2 = [] := by
  rw [warnings_recordAll_cons, List.append_eq_nil_iff, Option.toList_eq_nil_iff]

theorem recordAll_append (l : EditLog) (cs ds : List ChangeRequest) :
    l.recordAll (cs ++ ds) =
      (((l.recordAll cs).1.recordAll ds).1, (l.recordAll cs).2 ++ ((l.recordAll cs).1.recordAll ds).2) := by
  induction cs generalizing l with
  | nil => rfl
  | cons c cs ih =>
    apply Prod.ext
    · rw [List.cons_append, log_recordAll_cons, ih]
      rfl
    · rw [List.cons_append, warnings_recordAll_cons, warnings_recordAll_cons, ih, List.append_assoc]
      rfl

end EditLog

/-- What every recorded change is like: its range lies in order, an insertion takes nothing out
and a deletion puts nothing in. -/
structure Change.Sound (e : Change) : Prop where
  start : 0 ≤ e.q0
  length : 0 ≤ e.deleted
  insert : e.kind = .insert → e.deleted = 0
  delete : e.kind = .delete → e.text = []

theorem Change.Sound.start_le_stop {e : Change} (h : e.Sound) : e.q0 ≤ e.stop := by
  have := h.length
  simp only [Change.stop]
  omega

theorem ChangeRequest.sound_change {c : ChangeRequest} (hc : c.Proper) : c.change.Sound := by
  obtain ⟨h0,h1⟩ := hc
  refine ⟨h0,?_,?_,?_⟩
  · simp only [change]
    omega
  · intro hk
    cases c with
    | insert q0 t => simp [change, span, Span.point]
    | delete | replace => cases hk
  · intro hk
    cases c with
    | delete q0 q1 => rfl
    | insert | replace => cases hk

theorem ChangeRequest.sound_joined {c : ChangeRequest} {e : Change} (hc : c.Proper) (he : e.Sound)
    (hj : c.Joins e) : (c.joined e).Sound := by
  obtain ⟨h0,h1⟩ := hc
  obtain ⟨hs,hl,hi,hd⟩ := he
  refine ⟨hs,?_,?_,?_⟩
  · simp only [joined]
    omega
  · intro hk
    cases c with
    | insert q0 t => simpa [joined, span, Span.point] using hi hk
    | delete q0 q1 => exact absurd (hj.1.symm.trans hk) (by decide)
    | replace => exact hj.elim
  · intro hk
    cases c with
    | insert q0 t => exact absurd (hj.1.symm.trans hk) (by decide)
    | delete q0 q1 => simpa [joined, text] using hd hk
    | replace => exact hj.elim

/-- A request joins a change that ends where its own range begins. -/
theorem ChangeRequest.stop_of_joins {c : ChangeRequest} {e : Change} (hj : c.Joins e) (he : e.Sound) :
    e.stop = c.span.q0 := by
  cases c with
  | insert q0 t =>
    have hd := he.insert hj.1
    have hq : e.q0 = q0 := hj.2
    simp only [Change.stop, span, Span.point]
    omega
  | delete q0 q1 => exact hj.2
  | replace => exact hj.elim

theorem ChangeRequest.stop_joined {c : ChangeRequest} {e : Change} (hj : c.Joins e) (he : e.Sound) :
    (c.joined e).stop = c.span.q1 := by
  have h := stop_of_joins hj he
  simp only [Change.stop, joined] at h ⊢
  omega

/-- Every change of the log is sound. -/
def EditLog.Sound (l : EditLog) : Prop := ∀ e ∈ l.changes, e.Sound

theorem EditLog.sound_of_isEmpty {l : EditLog} (h : l.isEmpty = true) : l.Sound := by
  intro e he
  simp [List.isEmpty_iff.mp h] at he

theorem ChangeRequest.sound_record {c : ChangeRequest} {l : EditLog} (hc : c.Proper) (hl : l.Sound) :
    (c.record l).1.Sound := by
  rcases c.record_cases l with ⟨-,h⟩ | ⟨-,h⟩ | ⟨-,e,older,hle,hj,h⟩ <;> rw [h]
  · exact hl
  · intro e he
    rcases List.mem_cons.mp he with rfl | he
    · exact sound_change hc
    · exact hl e he
  · intro d hd
    have hd : d ∈ c.joined e :: l.changes.tail := hd
    rw [hle] at hd
    rcases List.mem_cons.mp hd with rfl | hd
    · exact sound_joined hc (hl e (by simp [hle])) hj
    · exact hl d (by simp [hle, show d ∈ older from hd])

theorem EditLog.sound_recordAll {l : EditLog} {cs : List ChangeRequest} (hc : ∀ c ∈ cs, c.Proper)
    (hl : l.Sound) : (l.recordAll cs).1.Sound := by
  induction cs generalizing l with
  | nil => exact hl
  | cons c cs ih =>
    exact ih (fun d hd => hc d (List.mem_cons_of_mem c hd))
      (ChangeRequest.sound_record (hc c List.mem_cons_self) hl)

end StructuralEdit
