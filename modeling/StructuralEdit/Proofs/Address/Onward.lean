import StructuralEdit.Address.Raw
import StructuralEdit.Proofs.Address.Line

/-! # Lines onward from a span

Lines are counted once for addresses that are parsed, and once for those evaluated as they are read. The
first count begins behind the span and takes a newline at its end for one counted; the other begins at the
next line, and takes the end of the text for one line more.
-/
namespace StructuralEdit.RawAddress
open Lines
variable {t w rest : Text} {r : Span} {n k q : Nat}

/-- Two counts lead to the same span, or both of them out of range. -/
inductive Agree : Outcome → Except CountFault Span → Prop
  | span (r : Span) : Agree (.ok r) (.ok r)
  | outOfRange : Agree (.error (.warned .outOfRange)) (.error .outOfRange)

/-! ## Counting onward -/

theorem countFore_append (hw : '\n' ∉ w) (n : Nat) (q0 q1 : Int) :
    countFore (n + 1) (w ++ rest) q0 q1 = countFore (n + 1) rest q0 (q1 + w.length) := by
  induction w, hw using unbroken generalizing q1 with
  | nil => simp
  | cons c w hw hcw hc ih =>
    have hstop : q1 + 1 + w.length = q1 + (c :: w).length := by
      rw [List.length_cons]
      omega
    rw [List.cons_append, countFore, hc, if_neg (by decide), ih, hstop]

theorem countFore_line (hw : '\n' ∉ w) (n : Nat) (q0 q1 : Int) :
    countFore (n + 1) (w ++ '\n' :: rest) q0 q1 =
      countFore n rest (if n = 0 then q0 else q1 + (w.length + 1 : Nat)) (q1 + (w.length + 1 : Nat)) := by
  rw [countFore_append hw, Int.natCast_add, ← Int.add_assoc]
  rfl

theorem countFore_last (hw : '\n' ∉ w) (n : Nat) (q0 q1 : Int) :
    countFore (n + 1) w q0 q1 = (n + 1, q0, q1 + w.length) := by
  have happend : countFore (n + 1) (w ++ []) q0 q1 = countFore (n + 1) [] q0 (q1 + w.length) :=
    countFore_append hw n q0 q1
  rwa [List.append_nil] at happend

/-- Counting over one line more than are skipped passes that line, whose newline may be missing. -/
theorem countFore_of_skip (h : skip n t = some k) (q0 q1 : Int) :
    countFore (n + 1) t q0 q1 = (if '\n' ∈ t.drop k then 0 else 1, if n = 0 then q0 else q1 + k,
      q1 + (k + lineLength (t.drop k) : Nat)) := by
  induction t using linewise generalizing n k q0 q1 with
  | last w hw =>
    cases n with
    | zero =>
      obtain rfl : 0 = k := by simpa [skip] using h
      rw [countFore_last hw, List.drop_zero, if_neg hw, lineLength_last hw]
      simp
    | succ n =>
      rw [skip_last hw] at h
      cases h
  | line w rest hw ih =>
    rw [countFore_line hw]
    cases n with
    | zero =>
      obtain rfl : 0 = k := by simpa [skip] using h
      rw [List.drop_zero, if_pos (by simp), lineLength_line hw]
      simp [countFore]
    | succ n =>
      rw [skip_line hw, Option.map_eq_some_iff] at h
      obtain ⟨m,hm,rfl⟩ := h
      have hdrop : (w ++ '\n' :: rest).drop (m + (w.length + 1)) = rest.drop m := by
        rw [show m + (w.length + 1) = w.length + (m + 1) by omega, List.drop_length_add_append,
          List.drop_succ_cons]
      have hzero : n = 0 → m = 0 := by
        rintro rfl
        rw [skip, Option.some_inj] at hm
        exact hm.symm
      rw [ih hm, hdrop, if_neg (Nat.succ_ne_zero n), if_neg (Nat.succ_ne_zero n), Nat.add_right_comm m]
      simp only [Prod.mk.injEq, true_and]
      constructor
      · split <;> omega
      · omega

/-- If there are not so many newlines to skip, more than one line is left to count. -/
theorem countFore_of_skip_none (h : skip n t = none) (q0 q1 : Int) : 1 < (countFore (n + 1) t q0 q1).1 := by
  induction t using linewise generalizing n q0 q1 with
  | last w hw =>
    cases n with
    | zero =>
      rw [skip] at h
      cases h
    | succ n =>
      rw [countFore_last hw]
      simp
  | line w rest hw ih =>
    cases n with
    | zero =>
      rw [skip] at h
      cases h
    | succ n =>
      rw [skip_line hw, Option.map_eq_none_iff] at h
      rw [countFore_line hw]
      exact ih h _ _

/-- Counting lines from an offset of the text. -/
theorem linesFrom_eq (hq : q ≤ t.length) (n : Nat) : linesFrom t q (n + 1 : Nat) =
    match skip n (t.drop q) with
    | none => .error (.warned .outOfRange)
    | some k => .ok ⟨(q + k : Nat), (q + k + lineLength (t.drop (q + k)) : Nat)⟩ := by
  have hread : countFore ((n + 1 : Nat) : Int).toNat (t.readOn q) q q = countFore (n + 1) (t.drop q) q q := by
    rw [Int.toNat_natCast, Text.readOn_of_nat]
  unfold linesFrom
  simp only [bind, Except.bind, hread]
  rw [if_neg (by omega)]
  cases hk : skip n (t.drop q) with
  | none =>
    have hleft := countFore_of_skip_none hk q q
    rw [if_pos (by omega)]
  | some k =>
    have hle := skip_le hk
    rw [List.length_drop] at hle
    rw [countFore_of_skip hk, List.drop_drop]
    -- a line that no newline ends reaches to the end of the text
    have hend : ¬(0 < (if '\n' ∈ t.drop (q + k) then 0 else 1) ∧
        ¬((if '\n' ∈ t.drop (q + k) then 0 else 1) = 1 ∧
          (q : Int) + (k + lineLength (t.drop (q + k)) : Nat) = t.length)) := by
      split
      · simp
      · rename_i hmem
        rw [lineLength_last hmem, List.length_drop]
        omega
    have hstart : (if n = 0 then (q : Int) else q + k) = (q + k : Nat) := by
      split
      · subst n
        rw [skip, Option.some_inj] at hk
        omega
      · omega
    have hstop : (q : Int) + (k + lineLength (t.drop (q + k)) : Nat) = (q + k + lineLength (t.drop (q + k)) : Nat) := by
      omega
    rw [if_neg hend, hstart, hstop]
    rfl

theorem linesFrom_agree (hq : q ≤ t.length) (n : Nat) :
    Agree (linesFrom t q (n + 1 : Nat)) (lineAfter t q n) := by
  rw [linesFrom_eq hq, lineAfter_eq hq]
  cases skip n (t.drop q) with
  | none => exact .outOfRange
  | some k => exact .span _

/-! ## Lines onward from a span -/

theorem charAt?_of_lt (hq : q < t.length) : t.charAt? q = some t[q] := by
  rw [Text.charAt?, if_neg (by omega), Int.toNat_natCast, List.getElem?_eq_getElem hq]

/-- The next line begins behind the newline in front of an offset, or else behind the next one. -/
theorem nextLineStart_eq (hq : q < t.length) : nextLineStart t (q + 1 : Nat) =
    (q + 1 + if t[q] = '\n' then 0 else lineLength (t.drop (q + 1)) : Nat) := by
  have hc : t.charAt? ((q + 1 : Nat) - 1) = some t[q] := by
    rw [Int.natCast_add, Int.natCast_one, Int.add_sub_cancel, charAt?_of_lt hq]
  have hfront : ¬((q + 1 : Nat) : Int) ≤ 0 := by omega
  unfold nextLineStart
  simp only [hc, Option.some_inj, hfront, false_or, Text.readOn_of_nat]
  by_cases hnewline : t[q] = '\n'
  · simp [hnewline]
  · by_cases hend : (t.length : Int) ≤ (q + 1 : Nat)
    · have hrest : t.drop (q + 1) = [] := List.drop_eq_nil_of_le (by omega)
      rw [if_pos (.inl hend), if_neg hnewline, hrest]
      rfl
    · rw [if_neg (not_or.mpr ⟨hend,hnewline⟩), if_neg hnewline]
      omega

theorem onward_eq (hq : q < t.length) (n : Nat) : onward t (q + 1 : Nat) (n + 1 : Nat) =
    lineAfter t (q + 1 : Nat) (if t[q] = '\n' then n else n + 1) := by
  have hc : t.charAt ((q + 1 : Nat) - 1) = .ok t[q] := by
    rw [Int.natCast_add, Int.natCast_one, Int.add_sub_cancel, Text.charAt, charAt?_of_lt hq]
  have hcount : (if t[q] = '\n' then ((n + 1 : Nat) : Int) - 1 else (n + 1 : Nat)).toNat =
      if t[q] = '\n' then n else n + 1 := by
    split <;> omega
  unfold onward
  rw [if_neg (by omega), if_neg (by omega), hc, ← hcount]
  rfl

/-- The counts agree where a newline stands in front of the span's end or behind it. -/
theorem fore_agree (hq : q < t.length) (hmem : '\n' ∈ t.drop q) (n : Nat) :
    Agree (linesFrom t (nextLineStart t (q + 1 : Nat)) (n + 1 : Nat)) (onward t (q + 1 : Nat) (n + 1 : Nat)) := by
  rw [nextLineStart_eq hq, onward_eq hq]
  by_cases hc : t[q] = '\n'
  · rw [if_pos hc, if_pos hc]
    exact linesFrom_agree (by omega) n
  · rw [if_neg hc, if_neg hc]
    rw [List.drop_eq_getElem_cons hq, List.mem_cons, or_iff_right (Ne.symm hc)] at hmem
    obtain ⟨w,rest,heq,hw⟩ := List.eq_append_cons_of_mem hmem
    have hlength := lineLength_le (t.drop (q + 1))
    rw [List.length_drop] at hlength
    have hrest : t.drop (q + 1 + (w.length + 1)) = rest := by
      rw [← List.drop_drop, heq, List.drop_length_add_append]
      rfl
    have hlen : lineLength (t.drop (q + 1)) = w.length + 1 := by rw [heq, lineLength_line hw]
    rw [lineAfter_eq (by omega), linesFrom_eq (by omega), hlen, heq, hrest, skip_line hw]
    cases skip n rest with
    | none => exact .outOfRange
    | some k =>
      have hstart : q + 1 + (w.length + 1) + k = q + 1 + (k + (w.length + 1)) := by omega
      simp only [Option.map_some, hstart]
      exact .span _

/-- Where there is none, one line onward leads to the end of the text for the one count, and out of
range for the other. -/
theorem fore_last (hq : q < t.length) (hmem : '\n' ∉ t.drop q) (n : Nat) :
    linesFrom t (nextLineStart t (q + 1 : Nat)) (n + 1 : Nat) =
        (if n = 0 then .ok (.point t.length) else .error (.warned .outOfRange)) ∧
      onward t (q + 1 : Nat) (n + 1 : Nat) = .error .outOfRange := by
  rw [List.drop_eq_getElem_cons hq, List.mem_cons, not_or] at hmem
  obtain ⟨hc,hrest⟩ := hmem
  have hstart : q + 1 + lineLength (t.drop (q + 1)) = t.length := by
    rw [lineLength_last hrest, List.length_drop]
    omega
  rw [nextLineStart_eq hq, onward_eq hq, if_neg (Ne.symm hc), if_neg (Ne.symm hc), hstart,
    linesFrom_eq (Nat.le_refl _), lineAfter_eq (by omega), skip_last hrest, List.drop_length]
  constructor
  · cases n with
    | zero => simp [skip, lineLength, Span.point]
    | succ n => simp [skip]
  · rfl

/-- Counted from the start of the text the counts agree. -/
theorem absolute_agree (t : Text) (n : Nat) : Agree (linesFrom t 0 n) (absolute t n) := by
  cases n with
  | zero =>
    have hzero : linesFrom t 0 0 = .ok (.point 0) := by simp [linesFrom, countFore, Span.point, pure, Except.pure]
    rw [Int.natCast_zero, hzero]
    exact .span _
  | succ n =>
    rw [absolute_succ]
    exact linesFrom_agree (Nat.zero_le _) n

/-- Lines counted from the start of the text: both counts lead to the line of that number, and out of
range exactly if there are not so many. Lines counted onward from a span: both counts lead to the same line or out
of range, but for one line onward where no newline stands right in front of the end of the
span or behind it. -/
theorem number_onward_agree (hr : r.Within t) (n : Nat) :
    (Agree (number t r n .none .line) (Lines.address t n r 0) ∧
      (∀ r', Lines.address t n r 0 = .ok r' ↔ if n = 0 then r' = .point 0 else IsLine t n r') ∧
      (Lines.address t n r 0 = .error .outOfRange ↔ t.count '\n' + 1 < n)) ∧
    (0 < n → if 0 < r.q1 ∧ n = 1 ∧ '\n' ∉ t.slice (r.q1 - 1) t.length then
        number t r n .fore .line = .ok (.point t.length) ∧ Lines.address t n r 1 = .error .outOfRange
      else Agree (number t r n .fore .line) (Lines.address t n r 1)) := by
  refine ⟨⟨absolute_agree t n,fun r' => absolute_ok_iff,absolute_error_iff⟩,fun hn => ?_⟩
  obtain ⟨n,rfl⟩ := Nat.exists_eq_succ_of_ne_zero (Nat.ne_of_gt hn)
  obtain ⟨h0,h1,h2⟩ := hr
  have hfore : number t r (n + 1 : Nat) .fore .line = linesFrom t (nextLineStart t r.q1) (n + 1 : Nat) := rfl
  have haddress : Lines.address t (n + 1 : Nat) r 1 = onward t r.q1 (n + 1 : Nat) := rfl
  rw [Nat.succ_eq_add_one, hfore, haddress]
  by_cases hstart : r.q1 = 0
  · rw [if_neg (by omega), hstart]
    exact absolute_agree t (n + 1)
  · obtain ⟨q,hq⟩ : ∃ q : Nat, r.q1 = (q + 1 : Nat) := ⟨(r.q1 - 1).toNat,by omega⟩
    have hlt : q < t.length := by omega
    have hslice : t.slice (r.q1 - 1) t.length = t.drop q := by
      rw [← Text.slice_behind (Nat.le_of_lt hlt)]
      congr 1
      omega
    rw [hslice, hq]
    by_cases hmem : '\n' ∈ t.drop q
    · rw [if_neg fun h => h.2.2 hmem]
      exact fore_agree hlt hmem n
    · obtain ⟨hnumber,hout⟩ := fore_last hlt hmem n
      rw [hnumber, hout]
      by_cases hone : n = 0
      · rw [if_pos ⟨by omega,by omega,hmem⟩, if_pos hone]
        exact ⟨rfl,rfl⟩
      · rw [if_neg (by omega), if_neg hone]
        exact .outOfRange

theorem number_onward_agree_unended : (⟨2, 3⟩ : Span).Within "a\nb".toList ∧
    Lines.address "a\nb".toList 1 ⟨2, 3⟩ 0 = .ok ⟨0, 2⟩ ∧
    number "a\nb".toList ⟨2, 3⟩ 1 .fore .line = .ok (.point 3) ∧
    Lines.address "a\nb".toList 1 ⟨2, 3⟩ 1 = .error .outOfRange := by
  have hr : (⟨2, 3⟩ : Span).Within "a\nb".toList := by decide
  obtain ⟨⟨-,hline,-⟩,hfore⟩ := number_onward_agree hr 1
  have hfirst := (hline ⟨0, 2⟩).mpr (by
    rw [if_neg (by decide)]
    exact isLine_iff.mpr ⟨0,by rw [skip],by decide⟩)
  have hend := hfore (by decide)
  rw [if_pos (by decide)] at hend
  exact ⟨hr,hfirst,hend⟩

end StructuralEdit.RawAddress
