import StructuralEdit.Proofs.Address.Within
import StructuralEdit.Proofs.Log.Simultaneous

/-! # Lines of a text

A text is a run of lines: each ends with the next newline, and the last one, which has none,
with the text. Skipping newlines leads to where a line begins, and counting up to the next
newline to where it ends, so that a line is known by the newlines in front of it.
-/
namespace StructuralEdit

namespace Text
variable {t : Text} {k : Nat}

theorem slice_before (hk : k ≤ t.length) : t.slice 0 k = t.take k := by
  rw [slice_eq (Int.le_refl 0) (Int.natCast_nonneg k) (by omega), Int.toNat_natCast, Int.toNat_zero,
    List.drop_zero]

theorem slice_add {m : Nat} (hk : k + m ≤ t.length) : t.slice k (k + m : Nat) = (t.drop k).take m := by
  rw [slice_eq (Int.natCast_nonneg k) (by omega) (by omega), Int.toNat_natCast, Int.toNat_natCast,
    List.drop_take, Nat.add_sub_cancel_left]

theorem slice_behind (hk : k ≤ t.length) : t.slice k t.length = t.drop k := by
  rw [slice_eq (Int.natCast_nonneg k) (by omega) (Int.le_refl _), Int.toNat_natCast, Int.toNat_natCast,
    List.take_length]

end Text

namespace Lines
variable {t w rest : Text} {r : Span} {n k : Nat}

/-- Induction on the lines of a text. -/
@[elab_as_elim]
theorem linewise {motive : Text → Prop} (last : ∀ w, '\n' ∉ w → motive w)
    (line : ∀ w rest, '\n' ∉ w → motive rest → motive (w ++ '\n' :: rest)) (t : Text) : motive t := by
  by_cases hmem : '\n' ∈ t
  · obtain ⟨w,rest,heq,hw⟩ := List.eq_append_cons_of_mem hmem
    have hlen : rest.length < t.length := by
      rw [heq, List.length_append, List.length_cons]
      omega
    rw [heq]
    exact line w rest hw (linewise last line rest)
  · exact last t hmem
termination_by t.length

/-- Induction on a piece of one line. -/
@[elab_as_elim]
theorem unbroken {motive : (w : Text) → '\n' ∉ w → Prop} (nil : motive [] List.not_mem_nil)
    (cons : ∀ c w hw hcw, (c == '\n') = false → motive w hw → motive (c :: w) hcw) (w : Text) (hw : '\n' ∉ w) :
    motive w hw := by
  induction w with
  | nil => exact nil
  | cons c w ih =>
    obtain ⟨hc,hrest⟩ := not_or.mp (mt List.mem_cons.mpr hw)
    exact cons c w hrest hw (beq_false_of_ne (Ne.symm hc)) (ih hrest)

theorem count_line (hw : '\n' ∉ w) : (w ++ '\n' :: rest).count '\n' = rest.count '\n' + 1 := by
  rw [List.count_append, List.count_eq_zero.mpr hw, List.count_cons_self, Nat.zero_add]

/-! ## Where a line ends -/

/-- What stands in front of the next newline counts for its length only. -/
theorem lineLength_append (hw : '\n' ∉ w) : lineLength (w ++ rest) = w.length + lineLength rest := by
  induction w, hw using unbroken with
  | nil => rw [List.nil_append, List.length_nil, Nat.zero_add]
  | cons c w hw hcw hc ih =>
    rw [List.cons_append, lineLength, hc, if_neg (by decide), ih, List.length_cons, Nat.add_right_comm]

theorem lineLength_line (hw : '\n' ∉ w) : lineLength (w ++ '\n' :: rest) = w.length + 1 := lineLength_append hw

theorem lineLength_last (hw : '\n' ∉ w) : lineLength w = w.length := by
  have happend : lineLength (w ++ []) = w.length + lineLength [] := lineLength_append hw
  rwa [List.append_nil] at happend

/-- A line that ends with a newline ends there whatever follows. -/
theorem lineLength_append_of_mem (h : '\n' ∈ t) : lineLength (t ++ rest) = lineLength t := by
  obtain ⟨w,u,rfl,hw⟩ := List.eq_append_cons_of_mem h
  rw [List.append_assoc, List.cons_append, lineLength_line hw, lineLength_line hw]

/-- A piece is one line: it ends with its only newline, or has none and nothing follows it. -/
def Single (line rest : Text) : Prop := (∃ w, '\n' ∉ w ∧ line = w ++ ['\n']) ∨ '\n' ∉ line ∧ rest = []

theorem single_lineLength (t : Text) : Single (t.take (lineLength t)) (t.drop (lineLength t)) := by
  cases t using linewise with
  | last w hw =>
    rw [lineLength_last hw, List.take_length, List.drop_length]
    exact .inr ⟨hw,rfl⟩
  | line w rest hw =>
    have hlen : lineLength (w ++ '\n' :: rest) = (w ++ ['\n']).length := by
      rw [lineLength_line hw, List.length_append]
      rfl
    have happend : w ++ '\n' :: rest = (w ++ ['\n']) ++ rest := by simp
    rw [hlen, happend, List.take_left, List.drop_left]
    exact .inl ⟨w,hw,rfl⟩

theorem Single.lineLength {line : Text} (h : Single line rest) : lineLength (line ++ rest) = line.length := by
  rcases h with ⟨w,hw,rfl⟩ | ⟨hline,rfl⟩
  · rw [List.append_assoc, List.singleton_append, lineLength_line hw, List.length_append, List.length_singleton]
  · rw [List.append_nil, lineLength_last hline]

theorem lineEnd_eq (hk : k ≤ t.length) : lineEnd t k = .ok (k + lineLength (t.drop k) : Nat) := by
  unfold lineEnd
  split
  · rw [List.drop_eq_nil_of_le (by omega)]
    rfl
  · rw [if_neg (by omega), Text.readOn_of_nat]
    rfl

/-! ## Where a line begins -/

theorem skip_append (hw : '\n' ∉ w) (n : Nat) :
    skip (n + 1) (w ++ rest) = (skip (n + 1) rest).map (· + w.length) := by
  induction w, hw using unbroken with
  | nil => simp
  | cons c w hw hcw hc ih =>
    rw [List.cons_append, skip, hc, if_neg (by decide), ih, Option.map_map]
    rfl

theorem skip_line (hw : '\n' ∉ w) (n : Nat) :
    skip (n + 1) (w ++ '\n' :: rest) = (skip n rest).map (· + (w.length + 1)) := by
  have hnewline : skip (n + 1) ('\n' :: rest) = (skip n rest).map (· + 1) := rfl
  rw [skip_append hw, hnewline, Option.map_map]
  congr 1
  funext k
  exact (Nat.add_right_comm k 1 w.length).trans (Nat.add_assoc k w.length 1)

theorem skip_last (hw : '\n' ∉ w) (n : Nat) : skip (n + 1) w = none := by
  have happend : skip (n + 1) (w ++ []) = (skip (n + 1) []).map (· + w.length) := skip_append hw n
  rwa [List.append_nil] at happend

/-- A piece ends where a line begins: it is empty or ends with a newline. -/
def Complete (front : Text) : Prop := front = [] ∨ front.getLast? = some '\n'

theorem Complete.eq_nil {front : Text} (h : Complete front) (hfront : '\n' ∉ front) : front = [] :=
  h.resolve_right fun hlast => hfront (List.mem_of_getLast? hlast)

theorem complete_line_append {w front : Text} : Complete (w ++ '\n' :: front) ↔ Complete front := by
  cases front with
  | nil => simp [Complete]
  | cons c front => simp [Complete, List.getLast?_append, List.getLast?_cons_cons]

theorem skip_zero_iff : skip 0 t = some k ↔
    k ≤ t.length ∧ (t.take k).count '\n' = 0 ∧ Complete (t.take k) := by
  rw [skip, Option.some_inj]
  constructor
  · rintro rfl
    simp [Complete]
  · rintro ⟨hk,hcount,hcomplete⟩
    have hlen : (t.take k).length = k := List.length_take_of_le hk
    rwa [hcomplete.eq_nil (List.count_eq_zero.mp hcount)] at hlen

/-- Skipping some newlines leads behind the last of them. -/
theorem skip_eq_some_iff : skip n t = some k ↔
    k ≤ t.length ∧ (t.take k).count '\n' = n ∧ Complete (t.take k) := by
  induction t using linewise generalizing n k with
  | last w hw =>
    cases n with
    | zero => exact skip_zero_iff
    | succ n =>
      have hnone : (w.take k).count '\n' = 0 := List.count_eq_zero.mpr fun h => hw (List.mem_of_mem_take h)
      rw [skip_last hw, hnone]
      simp
  | line w rest hw ih =>
    cases n with
    | zero => exact skip_zero_iff
    | succ n =>
      have htake (m : Nat) : (w ++ '\n' :: rest).take (m + (w.length + 1)) = w ++ '\n' :: rest.take m := by
        rw [show m + (w.length + 1) = w.length + (m + 1) by omega, List.take_length_add_append,
          List.take_succ_cons]
      rw [skip_line hw, Option.map_eq_some_iff]
      constructor
      · rintro ⟨m,hm,rfl⟩
        obtain ⟨hle,hn,hcomplete⟩ := ih.mp hm
        rw [htake, count_line hw, hn, complete_line_append, List.length_append, List.length_cons]
        exact ⟨by omega,rfl,hcomplete⟩
      · rintro ⟨hle,hn,hcomplete⟩
        have hlt : w.length < k := by
          refine Nat.lt_of_not_le fun hk => ?_
          rw [List.take_append_of_le_length hk, List.count_eq_zero.mpr fun h => hw (List.mem_of_mem_take h)] at hn
          cases hn
        obtain ⟨m,rfl⟩ : ∃ m, k = m + (w.length + 1) := ⟨k - (w.length + 1),by omega⟩
        rw [List.length_append, List.length_cons] at hle
        rw [htake, count_line hw] at hn
        rw [htake, complete_line_append] at hcomplete
        exact ⟨m,ih.mpr ⟨by omega,by omega,hcomplete⟩,rfl⟩

/-- There are as many newlines to skip as the text has. -/
theorem skip_eq_none_iff : skip n t = none ↔ t.count '\n' < n := by
  induction t using linewise generalizing n with
  | last w hw =>
    rw [List.count_eq_zero.mpr hw]
    cases n with
    | zero => simp [skip]
    | succ n => simp [skip_last hw]
  | line w rest hw ih =>
    rw [count_line hw]
    cases n with
    | zero => simp [skip]
    | succ n => rw [skip_line hw, Option.map_eq_none_iff, ih, Nat.succ_lt_succ_iff]

/-! ## Lines by their number -/

/-- A span is line `n` of a text: behind `n - 1` newlines, where a line begins, it is a line. -/
structure IsLine (t : Text) (n : Nat) (r : Span) : Prop where
  within : r.Within t
  number : (t.slice 0 r.q0).count '\n' + 1 = n
  start : Complete (t.slice 0 r.q0)
  single : Single (t.slice r.q0 r.q1) (t.slice r.q1 t.length)

theorem isLine_iff : IsLine t (n + 1) r ↔
    ∃ k, skip n t = some k ∧ r = ⟨k, (k + lineLength (t.drop k) : Nat)⟩ := by
  have hslices {k m : Nat} (hk : k + m ≤ t.length) : t.slice 0 k = t.take k ∧
      t.slice k (k + m : Nat) = (t.drop k).take m ∧ t.slice (k + m : Nat) t.length = (t.drop k).drop m := by
    rw [List.drop_drop]
    exact ⟨Text.slice_before (by omega),Text.slice_add hk,Text.slice_behind hk⟩
  constructor
  · rintro ⟨⟨h0,h1,h2⟩,hnumber,hstart,hsingle⟩
    obtain ⟨k,hk⟩ := Int.eq_ofNat_of_zero_le h0
    obtain ⟨m,hm⟩ := Int.eq_ofNat_of_zero_le (Int.sub_nonneg_of_le h1)
    obtain rfl : r = ⟨k, (k + m : Nat)⟩ := by
      obtain ⟨q0,q1⟩ := r
      simp only at hk hm
      rw [hk, show q1 = (k + m : Nat) by omega]
    have hle : k + m ≤ t.length := by omega
    obtain ⟨hfront,hline,hrest⟩ := hslices hle
    rw [hfront] at hnumber hstart
    rw [hline, hrest] at hsingle
    have hlength := hsingle.lineLength
    rw [List.take_append_drop, List.length_take_of_le (by rw [List.length_drop]; omega)] at hlength
    exact ⟨k,skip_eq_some_iff.mpr ⟨by omega,by omega,hstart⟩,by rw [hlength]⟩
  · rintro ⟨k,hk,rfl⟩
    obtain ⟨hle,hcount,hcomplete⟩ := skip_eq_some_iff.mp hk
    have hlen := lineLength_le (t.drop k)
    rw [List.length_drop] at hlen
    have hstop : k + lineLength (t.drop k) ≤ t.length := by omega
    obtain ⟨hfront,hline,hrest⟩ := hslices hstop
    refine ⟨⟨Int.natCast_nonneg k,by simp only; omega,Int.ofNat_le.mpr hstop⟩,?_,?_,?_⟩
    · rw [hfront, hcount]
    · rwa [hfront]
    · rw [hline, hrest]
      exact single_lineLength _

/-- The line behind some newlines, if there are so many. -/
theorem lineAfter_eq {q : Nat} (hq : q ≤ t.length) (n : Nat) : lineAfter t q n =
    match skip n (t.drop q) with
    | none => .error .outOfRange
    | some k => .ok ⟨(q + k : Nat), (q + k + lineLength (t.drop (q + k)) : Nat)⟩ := by
  unfold lineAfter
  rw [Text.readOn_of_nat]
  cases hk : skip n (t.drop q) with
  | none => rfl
  | some k =>
    have hle := skip_le hk
    rw [List.length_drop] at hle
    have hend := lineEnd_eq (t := t) (k := q + k) (by omega)
    rw [Int.natCast_add] at hend
    simp only [hend]
    rfl

theorem absolute_succ (t : Text) (n : Nat) : absolute t (n + 1 : Nat) = lineAfter t 0 n := by
  have hcount : ((n + 1 : Nat) - 1 : Int).toNat = n := by omega
  rw [absolute, if_neg (by omega), hcount]

/-- Counting leads to the line of that number. -/
theorem absolute_ok_iff : absolute t n = .ok r ↔ if n = 0 then r = .point 0 else IsLine t n r := by
  cases n with
  | zero => simp [absolute, eq_comm]
  | succ n =>
    have hline := lineAfter_eq (Nat.zero_le t.length) n
    simp only [Nat.zero_add, List.drop_zero] at hline
    rw [if_neg (Nat.succ_ne_zero n), isLine_iff, absolute_succ, ← Int.natCast_zero, hline]
    cases skip n t with
    | none => simp
    | some k => simp [eq_comm]

/-- It leads out of range if the text has not so many lines. -/
theorem absolute_error_iff : absolute t n = .error .outOfRange ↔ t.count '\n' + 1 < n := by
  cases n with
  | zero => simp [absolute]
  | succ n =>
    have hline := lineAfter_eq (Nat.zero_le t.length) n
    have hnone := skip_eq_none_iff (t := t) (n := n)
    simp only [Nat.zero_add, List.drop_zero] at hline
    rw [absolute_succ, ← Int.natCast_zero, hline, Nat.succ_lt_succ_iff, ← hnone]
    cases skip n t with
    | none => simp
    | some k => simp

end Lines
end StructuralEdit
