import StructuralEdit.Proofs.Address.Line
import StructuralEdit.Proofs.Search.Sequenced

/-! # The lines of a range

A range is gone through from newline to newline. The first line begins where the range does, each other one behind
the newline that ends the one before, so that the lines make up the text of the range with a newline between any
two of them, and one more behind the last if the range ends with it.
-/
namespace StructuralEdit
variable {t u v w rest : Text} {p q : Int} {rs : List Span}

/-- A slice falls into two pieces where its text does. -/
theorem Text.slice_split (h0 : 0 ≤ p) (hpq : p ≤ q) (hq : q ≤ t.length) (h : t.slice p q = v ++ u) :
    p + v.length ≤ q ∧ t.slice p (p + v.length) = v ∧ t.slice (p + v.length) q = u := by
  have hlen := length_slice h0 hpq hq
  rw [h, List.length_append] at hlen
  have hmid : p ≤ p + v.length ∧ p + v.length ≤ q := by omega
  have hfirst := length_slice h0 hmid.1 (Int.le_trans hmid.2 hq)
  have hsplit := slice_append_slice h0 hmid.1 hmid.2 hq
  exact ⟨hmid.2,List.append_inj (hsplit.trans h) (by omega)⟩

/-- Spans behind one another from `start` on, none of them reversed, with one character between any two. -/
def Spaced (start : Int) : List Span → Prop
  | [] => True
  | r :: rs => r.q0 = start ∧ start ≤ r.q1 ∧ Spaced (r.q1 + 1) rs

theorem Spaced.start_le (h : Spaced p rs) : ∀ r ∈ rs, p ≤ r.q0 := by
  induction rs generalizing p with
  | nil => nofun
  | cons r rs ih =>
    obtain ⟨h0,h1,hrs⟩ := h
    refine List.forall_mem_cons.mpr ⟨Int.le_of_eq h0.symm,fun r' hr' => ?_⟩
    have hbehind := ih hrs r' hr'
    omega

theorem Spaced.increasing (h : Spaced p rs) : rs.Pairwise fun a b => a.q1 < b.q0 := by
  induction rs generalizing p with
  | nil => exact .nil
  | cons r rs ih => exact .cons (fun r' hr' => Int.lt_of_add_one_le (h.2.2.start_le r' hr')) (ih h.2.2)

namespace Lines

theorem ranges_line (hw : '\n' ∉ w) (p : Int) :
    ranges p (w ++ '\n' :: rest) = ⟨p, p + w.length⟩ :: ranges (p + w.length + 1) rest := by
  induction w, hw using unbroken generalizing p with
  | nil => simp [ranges, Span.point]
  | cons c w hw hcw hc ih =>
    have hstop : p + 1 + w.length = p + (c :: w).length := by
      rw [List.length_cons]
      omega
    rw [List.cons_append, ranges, hc, if_neg (by decide), ih, hstop]

theorem ranges_last (hw : '\n' ∉ w) (hne : w ≠ []) (p : Int) : ranges p w = [⟨p, p + w.length⟩] := by
  induction w, hw using unbroken generalizing p with
  | nil => exact absurd rfl hne
  | cons c w hw hcw hc ih =>
    rw [ranges, hc, if_neg (by decide)]
    cases w with
    | nil => rfl
    | cons d w =>
      have hstop : p + 1 + (d :: w).length = p + (c :: d :: w).length := by
        simp only [List.length_cons]
        omega
      rw [ih (List.cons_ne_nil d w), hstop]

/-- The newline that a text ends with, if it does. -/
def finalNewline (t : Text) : Text := if t.getLast? = some '\n' then ['\n'] else []

theorem finalNewline_of_notMem (hw : '\n' ∉ w) : finalNewline w = [] :=
  if_neg fun h => hw (List.mem_of_getLast? h)

/-- Lines in front of a line are joined to it with the newline between them. -/
theorem join_line {vs : List Text} (hrest : rest = [] ↔ vs = [])
    (h : rest = ['\n'].intercalate vs ++ finalNewline rest) :
    w ++ '\n' :: rest = ['\n'].intercalate (w :: vs) ++ finalNewline (w ++ '\n' :: rest) := by
  cases vs with
  | nil =>
    rw [hrest.mpr rfl, List.intercalate_singleton, finalNewline, if_pos List.getLast?_concat]
  | cons v vs =>
    obtain ⟨c,more,rfl⟩ := List.exists_cons_of_ne_nil (mt hrest.mp (List.cons_ne_nil v vs))
    have hlast : finalNewline (w ++ '\n' :: c :: more) = finalNewline (c :: more) := by
      simp [finalNewline, List.getLast?_append, List.getLast?_cons_cons]
    rw [hlast, List.intercalate_cons_cons, List.append_assoc, ← h]
    simp

/-- Spans are the lines of a range, in order and without the newlines that end them: none if the range is empty. -/
structure Rows (t : Text) (r : Span) (rs : List Span) : Prop where
  empty : rs = [] ↔ r.q0 = r.q1
  within : ∀ r' ∈ rs, r.q0 ≤ r'.q0 ∧ r'.q0 ≤ r'.q1 ∧ r'.q1 ≤ r.q1
  increasing : rs.Pairwise fun a b => a.q1 < b.q0
  spaced : Spaced r.q0 rs
  unbroken : ∀ r' ∈ rs, '\n' ∉ t.slice r'.q0 r'.q1
  joined : t.slice r.q0 r.q1 =
    ['\n'].intercalate (rs.map fun r' => t.slice r'.q0 r'.q1) ++ finalNewline (t.slice r.q0 r.q1)

theorem Rows.none (t : Text) (p : Int) : Rows t ⟨p, p⟩ [] :=
  ⟨iff_of_true rfl rfl,nofun,.nil,trivial,nofun,by rw [Text.slice_self]; rfl⟩

/-- A range without a newline is one line. -/
theorem Rows.single (hpq : p < q) (h : '\n' ∉ t.slice p q) : Rows t ⟨p, q⟩ [⟨p, q⟩] := by
  refine ⟨iff_of_false (List.cons_ne_nil _ _) (Int.ne_of_lt hpq),?_,List.pairwise_singleton _ _,?_,?_,?_⟩
  · exact List.forall_mem_singleton.mpr ⟨Int.le_refl p,Int.le_of_lt hpq,Int.le_refl q⟩
  · exact ⟨rfl,Int.le_of_lt hpq,trivial⟩
  · exact List.forall_mem_singleton.mpr h
  · rw [finalNewline_of_notMem h, List.map_singleton, List.intercalate_singleton, List.append_nil]

/-- A line in front of the lines behind its newline. -/
theorem Rows.cons (h0 : 0 ≤ p) (hpq : p ≤ q) (hq : q ≤ t.length) (hw : '\n' ∉ w)
    (hrange : t.slice p q = w ++ '\n' :: rest) (h : Rows t ⟨p + w.length + 1, q⟩ rs) :
    Rows t ⟨p, q⟩ (⟨p, p + w.length⟩ :: rs) := by
  obtain ⟨hmid,hline,hbehind⟩ := Text.slice_split h0 hpq hq hrange
  obtain ⟨hnext,-,hrest⟩ := Text.slice_split (v := ['\n']) (by omega) hmid hq hbehind
  rw [List.length_singleton, Int.natCast_one] at hnext hrest
  obtain ⟨hempty,hwithin,-,hspaced,hunbroken,hjoined⟩ := h
  dsimp only at hempty hwithin hspaced hjoined
  have hstart : p ≤ p + w.length := by omega
  have hspaced' : Spaced p (⟨p, p + w.length⟩ :: rs) := ⟨rfl,hstart,hspaced⟩
  refine ⟨iff_of_false (List.cons_ne_nil _ _) (by simp only; omega),?_,hspaced'.increasing,hspaced',?_,?_⟩
  · refine List.forall_mem_cons.mpr ⟨⟨Int.le_refl p,hstart,hmid⟩,fun r hr => ?_⟩
    obtain ⟨hbehind,hordered⟩ := hwithin r hr
    exact ⟨Int.le_trans hstart (by omega),hordered⟩
  · exact List.forall_mem_cons.mpr ⟨by rwa [hline],hunbroken⟩
  · have hnil : rest = [] ↔ rs.map (fun r' => t.slice r'.q0 r'.q1) = [] := by
      have hlen := Text.length_slice (by omega) hnext hq
      rw [hrest] at hlen
      rw [List.map_eq_nil_iff, hempty, ← List.length_eq_zero_iff]
      omega
    rw [hrest] at hjoined
    rw [hrange, List.map_cons, hline]
    exact join_line hnil hjoined

/-- A loop over the lines of a range finds them. -/
theorem rows_ranges (h0 : 0 ≤ p) (hpq : p ≤ q) (hq : q ≤ t.length) : Rows t ⟨p, q⟩ (ranges p (t.slice p q)) := by
  generalize hrange : t.slice p q = u
  induction u using linewise generalizing p with
  | last w hw =>
    have hlen := Text.length_slice h0 hpq hq
    rw [hrange] at hlen
    by_cases hnil : w = []
    · obtain rfl : p = q := by
        rw [hnil, List.length_nil] at hlen
        omega
      rw [hnil]
      exact .none t p
    · have hstop : p + w.length = q := by omega
      have hlt := List.length_pos_iff.mpr hnil
      rw [ranges_last hw hnil, hstop]
      exact .single (by omega) (by rwa [hrange])
  | line w rest hw ih =>
    obtain ⟨hmid,-,hbehind⟩ := Text.slice_split h0 hpq hq hrange
    obtain ⟨hnext,-,hrest⟩ := Text.slice_split (v := ['\n']) (by omega) hmid hq hbehind
    rw [ranges_line hw]
    exact .cons h0 hpq hq hw hrange (ih (by omega) hnext hrest)

end Lines
end StructuralEdit
