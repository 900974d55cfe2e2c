import StructuralEdit.Proofs.Address.Within
import StructuralEdit.Proofs.Log.Simultaneous

/-! # Spans in sequence

What a loop visits are spans that lie one behind the other in the range of the loop. The
lines of a range and the pieces between spans in sequence do, and a loop inside a loop
keeps to the sequence.
-/
namespace StructuralEdit

/-- Spans one behind the other in `[start, stop]`, none of them reversed. -/
def Sequenced (start stop : Int) : List Span → Prop
  | [] => start ≤ stop
  | r :: rs => start ≤ r.q0 ∧ r.q0 ≤ r.q1 ∧ Sequenced r.q1 stop rs

namespace Sequenced
variable {start mid stop : Int} {rs rs' : List Span}

theorem start_le_stop (h : Sequenced start stop rs) : start ≤ stop := by
  induction rs generalizing start with
  | nil => exact h
  | cons r rs ih =>
    obtain ⟨h0,h1,hrs⟩ := h
    have := ih hrs
    omega

theorem mono {start' stop' : Int} (h : Sequenced start stop rs) (h0 : start' ≤ start)
    (h1 : stop ≤ stop') : Sequenced start' stop' rs := by
  induction rs generalizing start start' with
  | nil =>
    have hle : start ≤ stop := h
    exact Int.le_trans h0 (Int.le_trans hle h1)
  | cons r rs ih =>
    obtain ⟨hr0,hr1,hrs⟩ := h
    exact ⟨Int.le_trans h0 hr0,hr1,ih hrs (Int.le_refl _)⟩

/-- Each span lies between the ends. -/
theorem bounds (h : Sequenced start stop rs) : ∀ r ∈ rs, start ≤ r.q0 ∧ r.q0 ≤ r.q1 ∧ r.q1 ≤ stop := by
  induction rs generalizing start with
  | nil => nofun
  | cons r rs ih =>
    obtain ⟨hr0,hr1,hrs⟩ := h
    refine List.forall_mem_cons.mpr ⟨⟨hr0,hr1,hrs.start_le_stop⟩,fun r' hr' => ?_⟩
    obtain ⟨h0,hordered⟩ := ih hrs r' hr'
    exact ⟨Int.le_trans hr0 (Int.le_trans hr1 h0),hordered⟩

/-- In a text that holds both ends each span lies in the text. -/
theorem within {t : Text} (h : Sequenced start stop rs) (h0 : 0 ≤ start) (hstop : stop ≤ t.length) :
    ∀ r ∈ rs, r.Within t := by
  intro r hr
  obtain ⟨hr0,hr1,hr2⟩ := h.bounds r hr
  exact ⟨Int.le_trans h0 hr0,hr1,Int.le_trans hr2 hstop⟩

/-- Some of the spans, in the same order. -/
theorem sublist (hsub : rs'.Sublist rs) (h : Sequenced start stop rs) : Sequenced start stop rs' := by
  induction hsub generalizing start with
  | slnil => exact h
  | cons r hsub ih =>
    obtain ⟨h0,h1,hrs⟩ := h
    exact (ih hrs).mono (Int.le_trans h0 h1) (Int.le_refl _)
  | cons_cons r hsub ih =>
    obtain ⟨h0,h1,hrs⟩ := h
    exact ⟨h0,h1,ih hrs⟩

theorem append (h : Sequenced start mid rs) (h' : Sequenced mid stop rs') :
    Sequenced start stop (rs ++ rs') := by
  induction rs generalizing start with
  | nil => exact h'.mono h (Int.le_refl _)
  | cons r rs ih =>
    obtain ⟨h0,h1,hrs⟩ := h
    exact ⟨h0,h1,ih hrs⟩

/-- Inside each span there may be spans in sequence in its place. -/
theorem flatMap {f : Span → List Span} (h : Sequenced start stop rs)
    (hf : ∀ r : Span, start ≤ r.q0 → r.q0 ≤ r.q1 → r.q1 ≤ stop → Sequenced r.q0 r.q1 (f r)) :
    Sequenced start stop (rs.flatMap f) := by
  induction rs generalizing start with
  | nil => exact h
  | cons r rs ih =>
    obtain ⟨h0,h1,hrs⟩ := h
    have hinner := hf r h0 h1 hrs.start_le_stop
    refine (hinner.mono h0 (Int.le_refl _)).append (ih hrs fun r' hr' => hf r' ?_)
    exact Int.le_trans h0 (Int.le_trans h1 hr')

/-- A span inside each span. -/
theorem map_within {f : Span → Span} (h : Sequenced start stop rs)
    (hf : ∀ r : Span, r.q0 ≤ r.q1 → r.q0 ≤ (f r).q0 ∧ (f r).q0 ≤ (f r).q1 ∧ (f r).q1 ≤ r.q1) :
    Sequenced start stop (rs.map f) := by
  induction rs generalizing start with
  | nil => exact h
  | cons r rs ih =>
    obtain ⟨h0,h1,hrs⟩ := h
    obtain ⟨hf0,hf1,hf2⟩ := hf r h1
    exact ⟨Int.le_trans h0 hf0,hf1,(ih hrs).mono hf2 (Int.le_refl _)⟩

/-- The pieces between spans in sequence. -/
theorem gaps {q0 q1 : Int} (h : Sequenced q0 q1 rs) : Sequenced q0 q1 (Span.gaps ⟨q0, q1⟩ rs) := by
  induction rs generalizing q0 with
  | nil => exact ⟨Int.le_refl _,h,Int.le_refl _⟩
  | cons r rs ih =>
    obtain ⟨h0,h1,hrs⟩ := h
    exact ⟨Int.le_refl _,h0,(ih hrs).mono h1 (Int.le_refl _)⟩

/-- The lines of a text. -/
theorem lines (q : Int) (t : Text) : Sequenced q (q + t.length) (Lines.ranges q t) := by
  induction t generalizing q with
  | nil => exact Int.le_of_eq (Int.add_zero q).symm
  | cons c rest ih =>
    have hrest := ih (q + 1)
    have hstop : q + (c :: rest).length = q + 1 + rest.length := by
      rw [List.length_cons]
      omega
    rw [hstop, Lines.ranges]
    split
    · exact ⟨Int.le_refl _,Int.le_refl _,hrest.mono (by simp only [Span.point]; omega) (Int.le_refl _)⟩
    · split
      · exact ⟨Int.le_refl _,by simp only; omega,by simp only [Sequenced]; omega⟩
      · rename_i r more hr
        rw [hr] at hrest
        obtain ⟨h0,h1,hmore⟩ := hrest
        exact ⟨Int.le_refl _,by simp only; omega,hmore⟩

/-- The lines of a range of a text. -/
theorem linesOf {t : Text} {r : Span} (hr : r.Within t) :
    Sequenced r.q0 r.q1 (Lines.ranges r.q0 (t.slice r.q0 r.q1)) := by
  have hlines := lines r.q0 (t.slice r.q0 r.q1)
  rwa [Text.length_slice hr.start hr.ordered hr.stop, Int.add_comm, Int.sub_add_cancel] at hlines

end Sequenced

/-! ## Taking a range apart -/

/-- Spans right behind one another from `start` to `stop`, none of them reversed. -/
def Contiguous (start stop : Int) : List Span → Prop
  | [] => start = stop
  | r :: rs => r.q0 = start ∧ start ≤ r.q1 ∧ Contiguous r.q1 stop rs

/-- The spans of two lists in turn. -/
def Span.alternate : List Span → List Span → List Span
  | g :: gs, r :: rs => g :: r :: alternate gs rs
  | gs, [] => gs
  | [], rs => rs

/-- Spans taken in turn with the pieces between them are contiguous. -/
theorem Sequenced.contiguous {start stop : Int} {rs : List Span} (h : Sequenced start stop rs) :
    Contiguous start stop (Span.alternate (Span.gaps ⟨start, stop⟩ rs) rs) := by
  induction rs generalizing start with
  | nil => exact ⟨rfl,h,rfl⟩
  | cons r rs ih =>
    obtain ⟨h0,h1,hrs⟩ := h
    exact ⟨rfl,h0,rfl,h1,ih hrs⟩

theorem Contiguous.start_le_stop {start stop : Int} {rs : List Span} (h : Contiguous start stop rs) :
    start ≤ stop := by
  induction rs generalizing start with
  | nil => exact Int.le_of_eq h
  | cons r rs ih =>
    obtain ⟨-,h1,hrs⟩ := h
    exact Int.le_trans h1 (ih hrs)

/-- The texts of contiguous spans make up the text from the start of the first to the end of the last. -/
theorem Contiguous.text {t : Text} {start stop : Int} {rs : List Span} (h : Contiguous start stop rs)
    (h0 : 0 ≤ start) (hstop : stop ≤ t.length) :
    rs.flatMap (fun r => t.slice r.q0 r.q1) = t.slice start stop := by
  induction rs generalizing start with
  | nil =>
    obtain rfl : start = stop := h
    exact (t.slice_self start).symm
  | cons r rs ih =>
    obtain ⟨rfl,h1,hrs⟩ := h
    rw [List.flatMap_cons, ih hrs (Int.le_trans h0 h1), Text.slice_append_slice h0 h1 hrs.start_le_stop hstop]

/-- A range of a text is taken apart by some spans: with the pieces in front of them, between them and
behind them it is whole. -/
structure Splits (t : Text) (r : Span) (rs gs : List Span) : Prop where
  count : gs.length = rs.length + 1
  within : ∀ r' ∈ rs ++ gs, r.q0 ≤ r'.q0 ∧ r'.q0 ≤ r'.q1 ∧ r'.q1 ≤ r.q1
  contiguous : Contiguous r.q0 r.q1 (Span.alternate gs rs)
  text : (Span.alternate gs rs).flatMap (fun r' => t.slice r'.q0 r'.q1) = t.slice r.q0 r.q1

/-- Spans in sequence take their range apart. -/
theorem Sequenced.splits {t : Text} {r : Span} {rs : List Span} (h : Sequenced r.q0 r.q1 rs) (hr : r.Within t) :
    Splits t r rs (r.gaps rs) where
  count := r.length_gaps rs
  within := List.forall_mem_append.mpr ⟨h.bounds,h.gaps.bounds⟩
  contiguous := h.contiguous
  text := h.contiguous.text hr.start hr.stop

end StructuralEdit
