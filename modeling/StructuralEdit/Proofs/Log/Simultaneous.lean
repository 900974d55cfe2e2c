import StructuralEdit.Proofs.Log.Replay

/-! # Changes in sequence are one simultaneous edit

Requests whose ranges lie behind one another are recorded without a warning, and the
log they leave does to a text what cutting it at the offsets of all requests at once
does. Behind the range of a request, the changes of the requests before it see
the text that the later requests have made; they do not reach into it.
-/
namespace StructuralEdit

/-- The ranges of the requests lie one behind the other in `[start, stop]`. -/
def InSequence (start stop : Int) : List ChangeRequest → Prop
  | [] => start ≤ stop
  | c :: cs => start ≤ c.span.q0 ∧ c.span.q0 ≤ c.span.q1 ∧ InSequence c.span.q1 stop cs

/-- The text from `p` on, cut at the offsets of all requests, each range replaced by the text of
its request. -/
def Text.simultaneous (t : Text) (p : Int) : List ChangeRequest → Text
  | [] => t.slice p t.length
  | c :: cs => t.slice p c.span.q0 ++ c.text ++ t.simultaneous c.span.q1 cs

namespace InSequence

theorem start_le_stop {start stop : Int} {cs : List ChangeRequest} (h : InSequence start stop cs) :
    start ≤ stop := by
  induction cs generalizing start with
  | nil => exact h
  | cons c cs ih =>
    obtain ⟨h0,h1,hcs⟩ := h
    have := ih hcs
    omega

theorem proper {start stop : Int} {cs : List ChangeRequest} (h : InSequence start stop cs)
    (h0 : 0 ≤ start) : ∀ c ∈ cs, c.Proper := by
  induction cs generalizing start with
  | nil => intro c hc; cases hc
  | cons d cs ih =>
    obtain ⟨hd0,hd1,hcs⟩ := h
    intro c hc
    rcases List.mem_cons.mp hc with rfl | hc
    · exact ⟨by omega,hd1⟩
    · exact ih hcs (by omega) c hc

end InSequence

/-- Neither end of the newest change lies behind an offset. -/
def EditLog.Below (l : EditLog) (p : Int) : Prop := l.lastStart ≤ p ∧ l.lastStop ≤ p

namespace ChangeRequest

/-- A request behind the newest change gives no warning, and the newest change is then its own or
ends with it. -/
theorem record_below {c : ChangeRequest} {l : EditLog} {p : Int} (hl : l.Below p)
    (h0 : p ≤ c.span.q0) (h1 : c.span.q0 ≤ c.span.q1) (hs : l.Sound) :
    (c.record l).2 = none ∧ (c.record l).1.Below c.span.q1 := by
  obtain ⟨hstart,hstop⟩ := hl
  have hlate : l.late c.span.q0 (c.limit l) = false := by
    have hlim : c.limit l ≤ c.span.q0 := by cases c <;> simp only [limit] <;> omega
    simp only [EditLog.late, Bool.and_eq_false_imp, decide_eq_true_eq]
    intro hlt
    omega
  rcases c.record_cases l with ⟨-,h⟩ | ⟨-,h⟩ | ⟨-,e,older,hle,hj,h⟩ <;> rw [h]
  · exact ⟨rfl,Int.le_trans hstart (Int.le_trans h0 h1),Int.le_trans hstop (Int.le_trans h0 h1)⟩
  · refine ⟨EditLog.push_quiet_iff.mpr ⟨hlate,?_⟩,h1,?_⟩
    · rw [q0_change]
      omega
    · exact Int.le_of_eq c.stop_change
  · refine ⟨EditLog.merge_quiet_iff.mpr hlate,?_,?_⟩
    · simp only [EditLog.lastStart, hle] at hstart
      exact Int.le_trans hstart (Int.le_trans h0 h1)
    · exact Int.le_of_eq (stop_joined hj (hs e (by simp [hle])))

/-- What recording a request does to the replay of a log: where the text beyond the range of the
request is `rest`, its text stands in front of `rest` when the older changes are made. -/
theorem replay_record {c : ChangeRequest} {l : EditLog} {t : Text} (rest : Text) (hs : l.Sound)
    (hc : c.Proper) (hlen : c.span.q1 ≤ t.length) :
    Text.replay (t.take c.span.q1.toNat ++ rest) (c.record l).1.changes =
      Text.replay (t.take c.span.q0.toNat ++ c.text ++ rest) l.changes := by
  obtain ⟨h0,h1⟩ := hc
  have hl0 : (t.take c.span.q0.toNat).length = c.span.q0.toNat := by
    rw [List.length_take]
    omega
  have hl1 : (t.take c.span.q1.toNat).length = c.span.q1.toNat := by
    rw [List.length_take]
    omega
  have htake {q : Int} (hq : q ≤ c.span.q1) :
      (t.take c.span.q1.toNat ++ rest).take q.toNat = t.take q.toNat := by
    rw [List.take_append_of_le_length (by omega), List.take_take, Nat.min_eq_left (by omega)]
  rcases c.record_cases l with ⟨hi,h⟩ | ⟨-,h⟩ | ⟨-,e,older,hle,hj,h⟩ <;> rw [h]
  · rw [hi.1, hi.2, List.append_nil]
  · have hcut : c.change.applyTo (t.take c.span.q1.toNat ++ rest) =
        t.take c.span.q0.toNat ++ c.text ++ rest := by
      rw [Change.applyTo, q0_change, stop_change, text_change, htake h1, List.drop_left' hl1]
    exact congrArg (Text.replay · l.changes) hcut
  · have he := hs e (by simp [hle])
    have hstop := stop_of_joins hj he
    have hq := he.start_le_stop
    have hnew : (c.joined e).applyTo (t.take c.span.q1.toNat ++ rest) =
        t.take e.q0.toNat ++ (e.text ++ c.text) ++ rest := by
      rw [Change.applyTo, q0_joined, stop_joined hj he, htake (by omega), List.drop_left' hl1]
      rfl
    have hold : e.applyTo (t.take c.span.q0.toNat ++ c.text ++ rest) =
        t.take e.q0.toNat ++ e.text ++ (c.text ++ rest) := by
      rw [List.append_assoc (t.take _), Change.applyTo, hstop, List.drop_left' hl0,
        List.take_append_of_le_length (by omega), List.take_take, Nat.min_eq_left (by omega)]
    have hm : (l.merge (c.joined e) (l.late c.span.q0 (c.limit l))).1.changes = c.joined e :: older := by
      simp [EditLog.merge, hle]
    rw [hm, hle, Text.replay_cons, Text.replay_cons, hnew, hold]
    simp only [List.append_assoc]

end ChangeRequest

theorem Text.slice_eq {t : Text} {p q : Int} (h0 : 0 ≤ p) (hpq : p ≤ q) (hq : q ≤ t.length) :
    t.slice p q = (t.take q.toNat).drop p.toNat := by
  have hc {r : Int} (hr0 : 0 ≤ r) (hr : r ≤ t.length) : t.clip r = r.toNat := by
    rw [clip, if_neg (by omega), Nat.min_eq_left (by omega)]
  rw [slice, hc h0 (by omega), hc (by omega) hq]

theorem Text.length_slice {t : Text} {p q : Int} (h0 : 0 ≤ p) (hpq : p ≤ q) (hq : q ≤ t.length) :
    ((t.slice p q).length : Int) = q - p := by
  rw [slice_eq h0 hpq hq, List.length_drop, List.length_take]
  omega

/-- A text up to an offset, continued by a slice. -/
theorem Text.take_append_slice {t : Text} {p q : Int} (h0 : 0 ≤ p) (hpq : p ≤ q) (hq : q ≤ t.length) :
    t.take p.toNat ++ t.slice p q = t.take q.toNat := by
  have htake : t.take p.toNat = (t.take q.toNat).take p.toNat := by
    rw [List.take_take, Nat.min_eq_left (by omega)]
  rw [slice_eq h0 hpq hq, htake, List.take_append_drop]

theorem Text.slice_append_slice {t : Text} {p q r : Int} (h0 : 0 ≤ p) (hpq : p ≤ q) (hqr : q ≤ r)
    (hr : r ≤ t.length) : t.slice p q ++ t.slice q r = t.slice p r := by
  have hlen : p.toNat ≤ (t.take q.toNat).length := by
    rw [List.length_take]
    omega
  rw [slice_eq h0 hpq (by omega), slice_eq h0 (by omega) hr,
    ← take_append_slice (by omega : 0 ≤ q) hqr hr, List.drop_append_of_le_length hlen]

theorem Text.slice_self (t : Text) (q : Int) : t.slice q q = [] := by
  rw [slice, List.drop_eq_nil_of_le (List.length_take_le _ _)]

theorem Text.slice_whole (t : Text) : t.slice 0 t.length = t := by
  rw [slice_eq (Int.le_refl 0) (Int.natCast_nonneg _) (Int.le_refl _), Int.toNat_natCast,
    List.take_length, Int.toNat_zero, List.drop_zero]

/-- In front of the first request the text stays. -/
theorem Text.simultaneous_from {t : Text} {p q : Int} {cs : List ChangeRequest} (h0 : 0 ≤ p) (hpq : p ≤ q)
    (h : InSequence q t.length cs) : t.simultaneous p cs = t.slice p q ++ t.simultaneous q cs := by
  cases cs with
  | nil => exact (slice_append_slice h0 hpq h (Int.le_refl _)).symm
  | cons c cs =>
    obtain ⟨hc0,hc1,hcs⟩ := h
    have hslice := slice_append_slice h0 hpq hc0 (Int.le_trans hc1 hcs.start_le_stop)
    simp only [simultaneous, ← List.append_assoc, hslice]

/-- Requests that put in what they take out change nothing. -/
theorem Text.simultaneous_self {t : Text} {p : Int} {cs : List ChangeRequest}
    (h : InSequence p t.length cs) (h0 : 0 ≤ p) (hcs : ∀ c ∈ cs, c.text = t.slice c.span.q0 c.span.q1) :
    t.simultaneous p cs = t.slice p t.length := by
  induction cs generalizing p with
  | nil => rfl
  | cons c cs ih =>
    obtain ⟨hc0,hc1,hrest⟩ := h
    have hle := hrest.start_le_stop
    rw [simultaneous, ih hrest (by omega) fun d hd => hcs d (List.mem_cons_of_mem c hd),
      hcs c List.mem_cons_self, slice_append_slice h0 hc0 hc1 hle,
      slice_append_slice h0 (by omega) hle (Int.le_refl _)]

namespace InSequence

/-- A run of requests in sequence behind the newest change gives no warning. -/
theorem quiet {cs : List ChangeRequest} {l : EditLog} {p stop : Int} (h : InSequence p stop cs)
    (h0 : 0 ≤ p) (hl : l.Below p) (hs : l.Sound) : (l.recordAll cs).2 = [] := by
  induction cs generalizing l p with
  | nil => rfl
  | cons c cs ih =>
    obtain ⟨hc0,hc1,hcs⟩ := h
    obtain ⟨hq,hb⟩ := ChangeRequest.record_below hl hc0 hc1 hs
    exact EditLog.recordAll_cons_quiet.mpr
      ⟨hq,ih hcs (by omega) hb (ChangeRequest.sound_record ⟨by omega,hc1⟩ hs)⟩

/-- Such a run leaves the newest change in the range of the run. -/
theorem below_recordAll {cs : List ChangeRequest} {l : EditLog} {p stop : Int}
    (h : InSequence p stop cs) (h0 : 0 ≤ p) (hl : l.Below p) (hs : l.Sound) :
    (l.recordAll cs).1.Below stop := by
  induction cs generalizing l p with
  | nil => exact ⟨Int.le_trans hl.1 h,Int.le_trans hl.2 h⟩
  | cons c cs ih =>
    obtain ⟨hc0,hc1,hcs⟩ := h
    obtain ⟨-,hb⟩ := ChangeRequest.record_below hl hc0 hc1 hs
    exact ih hcs (by omega) hb (ChangeRequest.sound_record ⟨by omega,hc1⟩ hs)

/-- Replaying what a run of requests in sequence leaves: the changes that were there before are
made on the text in which the run has been carried out behind `p`. -/
theorem replay_recordAll {cs : List ChangeRequest} {l : EditLog} {t : Text} {p : Int}
    (h : InSequence p t.length cs) (h0 : 0 ≤ p) (hs : l.Sound) :
    t.replay (l.recordAll cs).1.changes =
      Text.replay (t.take p.toNat ++ t.simultaneous p cs) l.changes := by
  induction cs generalizing l p with
  | nil =>
    have hp : p ≤ t.length := h
    rw [Text.simultaneous, Text.take_append_slice h0 hp (Int.le_refl _), Int.toNat_natCast, List.take_length]
    rfl
  | cons c cs ih =>
    obtain ⟨hc0,hc1,hcs⟩ := h
    have hproper : c.Proper := ⟨by omega,hc1⟩
    have hlen := hcs.start_le_stop
    rw [EditLog.log_recordAll_cons, ih hcs (by omega) (ChangeRequest.sound_record hproper hs),
      ChangeRequest.replay_record _ hs hproper hlen, Text.simultaneous,
      ← Text.take_append_slice h0 hc0 (by omega)]
    simp only [List.append_assoc]

end InSequence

namespace EditLog

theorem below_of_isEmpty {l : EditLog} (h : l.isEmpty = true) : l.Below 0 := by
  simp [Below, lastStart, lastStop, List.isEmpty_iff.mp h]

end EditLog

namespace Buffer

/-- Requests in sequence on an empty log give no warning, and applying the log they leave puts
the text of each request in the place of its range, all ranges counted in the text as it was. -/
theorem applyLog_inSequence (b : Buffer) (cs : List ChangeRequest) (hb : b.log.isEmpty = true)
    (h : InSequence 0 b.size cs) :
    (b.log.recordAll cs).2 = [] ∧
      ∃ d, applyLog { b with log := (b.log.recordAll cs).1 } = .ok () d ∧
        d.text = b.text.simultaneous 0 cs ∧ d.log.isEmpty = true := by
  have hnil : b.log.changes = [] := List.isEmpty_iff.mp hb
  have hs : b.log.Sound := EditLog.sound_of_isEmpty hb
  have hbelow : b.log.Below 0 := by simp [EditLog.Below, EditLog.lastStart, EditLog.lastStop, hnil]
  refine ⟨h.quiet (Int.le_refl 0) hbelow hs,?_⟩
  obtain ⟨v,happly⟩ := applyLog_eq (b := { b with log := (b.log.recordAll cs).1 })
    (EditLog.sound_recordAll (h.proper (Int.le_refl 0)) hs)
  refine ⟨_,happly,?_,rfl⟩
  have hreplay := h.replay_recordAll (t := b.text) (Int.le_refl 0) hs
  simpa [hnil] using hreplay

theorem applyLog_inSequence_mixed :
    let b : Buffer := { text := "hello world".toList }
    let cs : List ChangeRequest :=
      [.replace 0 5 "HELLO".toList, .insert 5 ",".toList, .insert 5 "_".toList, .delete 5 6, .delete 6 8,
        .replace 8 8 "-".toList, .insert 11 "!".toList]
    b.log.isEmpty = true ∧ InSequence 0 b.size cs ∧ (b.log.recordAll cs).2 = [] ∧
      ∃ d, applyLog { b with log := (b.log.recordAll cs).1 } = .ok () d ∧
        d.text = b.text.simultaneous 0 cs ∧ d.log.isEmpty = true := by
  intro b cs
  have hb : b.log.isEmpty = true := rfl
  have h : InSequence 0 b.size cs := by simp [InSequence, cs, b, ChangeRequest.span, Span.point, size]
  exact ⟨hb,h,applyLog_inSequence b cs hb h⟩

end Buffer

end StructuralEdit
