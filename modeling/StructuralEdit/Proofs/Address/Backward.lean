import Mathlib.Data.List.TakeWhile
import StructuralEdit.Proofs.Address.Onward

/-! # Lines in front of a span

Counted back, lines are known by the newlines between them and the span. One line more than there are
is line `0`, the start of the text, and one further is out of range.
-/
namespace StructuralEdit

namespace Lines
variable {t u w rest front : Text} {n q : Nat}

theorem exists_newline (h : n < t.count '\n') :
    ∃ front rest, t = front ++ '\n' :: rest ∧ front.count '\n' = n := by
  induction t using linewise generalizing n with
  | last w hw =>
    rw [List.count_eq_zero.mpr hw] at h
    cases h
  | line w rest hw ih =>
    cases n with
    | zero => exact ⟨w,rest,rfl,List.count_eq_zero.mpr hw⟩
    | succ n =>
      rw [count_line hw] at h
      obtain ⟨front,u,rfl,hfront⟩ := ih (by omega : n < rest.count '\n')
      refine ⟨w ++ '\n' :: front,u,by simp,?_⟩
      rw [count_line hw, hfront]

/-! ## Counting back -/

theorem back_append (hw : '\n' ∉ w) (n : Nat) (q : Int) :
    back (n + 1) (w ++ rest) q = back (n + 1) rest (q - w.length) := by
  induction w, hw using unbroken generalizing q with
  | nil => simp
  | cons c w hw hcw hc ih =>
    have hstop : q - 1 - w.length = q - (c :: w).length := by
      rw [List.length_cons]
      omega
    rw [List.cons_append, back, hc, if_neg (by decide), ih, hstop]

theorem back_line (hw : '\n' ∉ w) (n : Nat) : back (n + 1) (w ++ '\n' :: rest) (w ++ '\n' :: rest).length =
    if n = 0 then .ok (rest.length + 1 : Nat) else back n rest rest.length := by
  have hstop : ((w ++ '\n' :: rest).length : Int) - w.length = (rest.length + 1 : Nat) := by
    rw [List.length_append, List.length_cons]
    omega
  have hrest : ((rest.length + 1 : Nat) : Int) - 1 = rest.length := by omega
  rw [back_append hw, hstop, back, if_pos (by decide), hrest]

theorem back_last (hw : '\n' ∉ w) (n : Nat) :
    back (n + 1) w w.length = if n = 0 then .ok 0 else .error .outOfRange := by
  have happend : back (n + 1) (w ++ []) w.length = back (n + 1) [] (w.length - w.length) :=
    back_append hw n w.length
  rw [List.append_nil] at happend
  rw [happend, back, Int.sub_self, if_neg (by decide)]

theorem back_newline (hn : front.count '\n' = n) :
    back (n + 1) (front ++ '\n' :: rest) (front ++ '\n' :: rest).length = .ok (rest.length + 1 : Nat) := by
  induction front using linewise generalizing n with
  | last w hw =>
    rw [List.count_eq_zero.mpr hw] at hn
    rw [back_line hw, if_pos hn.symm]
  | line w front hw ih =>
    rw [count_line hw] at hn
    subst hn
    rw [List.append_assoc, List.cons_append, back_line hw, if_neg (Nat.succ_ne_zero _)]
    exact ih rfl

/-- Counting back over all newlines and once more leads to the start of the text, and any further out of range. -/
theorem back_all (hn : t.count '\n' ≤ n) : back (n + 1) t t.length =
    if n = t.count '\n' then .ok 0 else .error .outOfRange := by
  induction t using linewise generalizing n with
  | last w hw => rw [back_last hw, List.count_eq_zero.mpr hw]
  | line w rest hw ih =>
    rw [count_line hw] at hn ⊢
    obtain ⟨n,rfl⟩ := Nat.exists_eq_add_of_le' (Nat.le_of_add_left_le hn)
    rw [back_line hw, if_neg (Nat.succ_ne_zero n), ih (by omega)]
    simp only [Nat.add_right_cancel_iff]

/-! ## Where the line in front begins -/

theorem lineStart_eq (hq : q ≤ t.length) :
    lineStart t q = .ok (((t.take q).reverse.dropWhile (· != '\n')).length : Nat) := by
  unfold lineStart
  split
  · obtain rfl : q = 0 := by omega
    rfl
  · rw [if_neg (by omega), Text.readBack_of_nat t q hq]

/-- A text up to where its last line begins. -/
theorem exists_last (t : Text) : ∃ front w, t = front ++ w ∧ Complete front ∧ '\n' ∉ w ∧
    (t.reverse.dropWhile (· != '\n')).length = front.length := by
  have hsplit : t.reverse.takeWhile (· != '\n') ++ t.reverse.dropWhile (· != '\n') = t.reverse :=
    List.takeWhile_append_dropWhile
  have hfirst := List.head?_dropWhile_not (· != '\n') t.reverse
  generalize t.reverse.dropWhile (· != '\n') = before at hsplit hfirst
  refine ⟨before.reverse,(t.reverse.takeWhile (· != '\n')).reverse,?_,?_,?_,List.length_reverse.symm⟩
  · rw [← List.reverse_append, hsplit, List.reverse_reverse]
  · cases before with
    | nil => exact .inl rfl
    | cons c before =>
      have hc : c = '\n' := by simpa using hfirst
      rw [hc, List.reverse_cons]
      exact .inr List.getLast?_concat
  · intro hmem
    have hnot := List.mem_takeWhile_imp (List.mem_reverse.mp hmem)
    simp at hnot

/-- The line that a newline ends. -/
theorem isLine_of_newline (ht : t = front ++ '\n' :: rest) : ∃ s : Nat, lineStart t front.length = .ok s ∧
    IsLine t (front.count '\n' + 1) ⟨s, (front.length + 1 : Nat)⟩ := by
  obtain ⟨u,w,hfront,hu,hw,hlen⟩ := exists_last front
  have hsplit : t = u ++ (w ++ '\n' :: rest) := by rw [ht, hfront, List.append_assoc]
  have hstart : lineStart t front.length = .ok u.length := by
    rw [lineStart_eq (by rw [ht, List.length_append]; omega), ht, List.take_left, hlen]
  have hcount : u.count '\n' = front.count '\n' := by
    rw [hfront, List.count_append, List.count_eq_zero.mpr hw, Nat.add_zero]
  have hskip : skip (front.count '\n') t = some u.length := by
    rw [skip_eq_some_iff, hsplit, List.take_left, List.length_append]
    exact ⟨Nat.le_add_right _ _,hcount,hu⟩
  have hstop : u.length + lineLength (t.drop u.length) = front.length + 1 := by
    rw [hsplit, List.drop_left, lineLength_line hw, hfront, List.length_append, Nat.add_assoc]
  exact ⟨u.length,hstart,isLine_iff.mpr ⟨u.length,hskip,by rw [hstop]⟩⟩

theorem backward_eq (hq : q ≤ t.length) (n : Nat) : backward t q (n + 1 : Nat) = (do
    let stop ← back (n + 1) (t.take q).reverse (t.take q).reverse.length
    let first ← reading (lineStart t (if 0 < stop then stop - 1 else stop))
    return ⟨first, stop⟩) := by
  have hlen : (t.take q).reverse.length = q := by rw [List.length_reverse, List.length_take_of_le hq]
  have hpos : ((n + 1 : Nat) : Int) ≠ 0 := by omega
  unfold backward
  rw [Text.readBack_of_nat t q hq, Int.toNat_natCast, hlen]
  simp only [hpos, ne_eq, not_false_eq_true, true_and]

theorem backward_newline (hq : q ≤ t.length) (hbefore : (t.take q).reverse = front ++ '\n' :: rest)
    (hn : front.count '\n' = n) {s : Int} (hs : lineStart t rest.length = .ok s) :
    backward t q (n + 1 : Nat) = .ok ⟨s, (rest.length + 1 : Nat)⟩ := by
  have hpos : (0 : Int) < (rest.length + 1 : Nat) := by omega
  have hpred : ((rest.length + 1 : Nat) : Int) - 1 = rest.length := by omega
  rw [backward_eq hq, hbefore, back_newline hn]
  simp only [bind, Except.bind, hpos, if_true, hpred, hs]
  rfl

theorem backward_all (hq : q ≤ t.length) (hn : (t.take q).count '\n' ≤ n) : backward t q (n + 1 : Nat) =
    if n = (t.take q).count '\n' then .ok (.point 0) else .error .outOfRange := by
  rw [← List.count_reverse] at hn ⊢
  rw [backward_eq hq, back_all hn]
  split <;> rfl

end Lines

namespace RawAddress
open Lines
variable {t u w rest front : Text} {r : Span} {n q : Nat}

theorem countBack_append (hw : '\n' ∉ w) (n q1 : Nat) :
    countBack (n + 1) (w ++ rest) q1 = countBack (n + 1) rest q1 := by
  induction w, hw using unbroken with
  | nil => rfl
  | cons c w hw hcw hc ih => rw [List.cons_append, countBack, hc, if_neg (by decide), ih]

theorem countBack_line (hw : '\n' ∉ w) (n q1 : Nat) :
    countBack (n + 1) (w ++ '\n' :: rest) q1 = countBack n rest (rest.length + 1) := by
  rw [countBack_append hw]
  rfl

theorem countBack_last (hw : '\n' ∉ w) (n q1 : Nat) : countBack (n + 1) w q1 = (n + 1, 0, q1) := by
  have happend : countBack (n + 1) (w ++ []) q1 = countBack (n + 1) [] q1 := countBack_append hw n q1
  rw [List.append_nil] at happend
  rw [happend, countBack]
  nofun

theorem countBack_newline (hn : front.count '\n' = n) (q1 : Nat) :
    countBack (n + 1) (front ++ '\n' :: rest) q1 = (0, rest.length, rest.length + 1) := by
  induction front using linewise generalizing n q1 with
  | last w hw =>
    rw [List.count_eq_zero.mpr hw] at hn
    subst hn
    rw [countBack_line hw, countBack]
  | line w front hw ih =>
    rw [count_line hw] at hn
    subst hn
    rw [List.append_assoc, List.cons_append, countBack_line hw]
    exact ih rfl _

/-- Counting back over all newlines and once more ends with one line left, its range that of the first line. -/
theorem countBack_all (hn : t.count '\n' = n) (q1 : Nat) :
    countBack (n + 1) t q1 = (1, 0, if n = 0 then q1 else lineLength t.reverse) := by
  induction t using linewise generalizing n q1 with
  | last w hw =>
    rw [List.count_eq_zero.mpr hw] at hn
    subst hn
    rw [countBack_last hw, if_pos rfl]
  | line w rest hw ih =>
    rw [count_line hw] at hn
    subst hn
    have hreverse : (w ++ '\n' :: rest).reverse = rest.reverse ++ '\n' :: w.reverse := by simp
    rw [countBack_line hw, ih rfl, if_neg (Nat.succ_ne_zero _), hreverse]
    -- the newline counted last is the first one of the text
    by_cases hmem : '\n' ∈ rest
    · rw [if_neg fun h => List.count_eq_zero.mp h hmem,
        lineLength_append_of_mem (List.mem_reverse.mpr hmem)]
    · rw [if_pos (List.count_eq_zero.mpr hmem), lineLength_line (mt List.mem_reverse.mp hmem), List.length_reverse]

theorem countBack_beyond (hn : t.count '\n' < n) (q1 : Nat) : 1 < (countBack (n + 1) t q1).1 := by
  induction t using linewise generalizing n q1 with
  | last w hw =>
    rw [countBack_last hw]
    simp only
    omega
  | line w rest hw ih =>
    rw [count_line hw] at hn
    obtain ⟨n,rfl⟩ := Nat.exists_eq_add_of_le' (Nat.one_le_of_lt hn)
    rw [countBack_line hw]
    exact ih (by omega) _

/-- Where lines are counted back from: where the line begins that an offset stands in, or where the text ends. -/
def origin (t : Text) (q : Nat) : Except OffsetFault Int := if q < t.length then lineStart t q else .ok q

/-- The characters passed over there have no newline to count. -/
theorem exists_origin (hq : q ≤ t.length) : ∃ start : Nat, origin t q = .ok start ∧ start ≤ t.length ∧
    ∀ n q1, countBack (n + 1) (t.take start).reverse q1 = countBack (n + 1) (t.take q).reverse q1 := by
  unfold origin
  split
  · obtain ⟨front,w,hsplit,hfront,hw,hlen⟩ := exists_last (t.take q)
    have ht : t = front ++ (w ++ t.drop q) := by
      rw [← List.append_assoc, ← hsplit, List.take_append_drop]
    have htake : t.take front.length = front := by rw [ht, List.take_left]
    refine ⟨front.length,?_,?_,fun n q1 => ?_⟩
    · rw [lineStart_eq hq, hlen]
    · rw [ht, List.length_append]
      exact Nat.le_add_right _ _
    · rw [htake, hsplit, List.reverse_append, countBack_append (mt List.mem_reverse.mp hw)]
  · exact ⟨q,rfl,hq,fun n q1 => rfl⟩

theorem linesBack_eq (h0 : r.q0 = q) (hpos : 0 < q) (hq : q ≤ t.length) (n : Nat) :
    ∃ start : Nat, origin t q = .ok start ∧ linesBack t r (n + 1 : Nat) = (do
      let (left, q0, q1) := countBack (n + 1) (t.take q).reverse start
      if 1 < left then .error (.warned .outOfRange)
      return ⟨← reading (lineStart t q0), q1⟩) := by
  obtain ⟨start,hstart,hle,hcount⟩ := exists_origin hq
  have hfront : ¬r.q0 ≤ 0 := by omega
  have horigin : (if r.q0 < t.length then lineStart t r.q0 else .ok r.q0) = .ok start := by
    rw [← hstart, origin, h0]
    simp only [Int.ofNat_lt]
  have hbehind : ¬((t.length : Int) < start) := by omega
  refine ⟨start,hstart,?_⟩
  unfold linesBack
  rw [if_neg hfront, horigin]
  simp only [reading, bind, Except.bind, hbehind, if_false, Int.toNat_natCast, Text.readBack_of_nat t start hle,
    hcount]

theorem linesBack_newline (h0 : r.q0 = q) (hq : q ≤ t.length)
    (hbefore : (t.take q).reverse = front ++ '\n' :: rest) (hn : front.count '\n' = n) {s : Int}
    (hs : lineStart t rest.length = .ok s) : linesBack t r (n + 1 : Nat) = .ok ⟨s, (rest.length + 1 : Nat)⟩ := by
  have hpos : 0 < q := by
    refine Nat.pos_of_ne_zero ?_
    rintro rfl
    simp at hbefore
  obtain ⟨start,-,hback⟩ := linesBack_eq h0 hpos hq n
  rw [hback, hbefore, countBack_newline hn]
  simp only [hs]
  rfl

/-- The end of the first line if a span begins behind it or at the end of the text, else its start. -/
def firstStop (t : Text) (q : Nat) : Nat := if '\n' ∈ t.take q ∨ q = t.length then lineLength t else 0

theorem origin_first (hq : q ≤ t.length) (hnone : '\n' ∉ t.take q) : origin t q = .ok (firstStop t q) := by
  unfold origin firstStop
  by_cases hlt : q < t.length
  · obtain ⟨front,w,hsplit,hfront,hw,hlen⟩ := exists_last (t.take q)
    have hnil : front = [] := hfront.eq_nil fun h => hnone (by rw [hsplit]; exact List.mem_append_left w h)
    rw [if_pos hlt, if_neg (not_or.mpr ⟨hnone,Nat.ne_of_lt hlt⟩), lineStart_eq hq, hlen, hnil]
    rfl
  · obtain rfl : q = t.length := by omega
    rw [List.take_length] at hnone
    rw [if_neg hlt, if_pos (.inr rfl), lineLength_last hnone]

theorem firstStop_eq {start : Nat} (hq : q ≤ t.length) (hstart : origin t q = .ok start) :
    firstStop t q = if (t.take q).count '\n' = 0 then start else lineLength (t.take q) := by
  by_cases hmem : '\n' ∈ t.take q
  · have hline : lineLength (t.take q ++ t.drop q) = lineLength (t.take q) := lineLength_append_of_mem hmem
    rw [List.take_append_drop] at hline
    rw [firstStop, if_pos (.inl hmem), if_neg fun h => List.count_eq_zero.mp h hmem, hline]
  · rw [origin_first hq hmem, Except.ok.injEq, Int.natCast_inj] at hstart
    rw [if_pos (List.count_eq_zero.mpr hmem), hstart]

/-- Counting back over all newlines and once more leads from the start of the text to where the first line
ends, unless the span begins in that line. -/
theorem linesBack_all (h0 : r.q0 = q) (hq : q ≤ t.length) (hn : (t.take q).count '\n' ≤ n) :
    linesBack t r (n + 1 : Nat) = if n = (t.take q).count '\n' then .ok ⟨0, firstStop t q⟩
      else .error (.warned .outOfRange) := by
  rcases Nat.eq_zero_or_pos q with rfl | hpos
  · have hstop : firstStop t 0 = 0 := by
      have hstart : origin t 0 = .ok (0 : Nat) := by
        unfold origin
        split <;> rfl
      simpa using firstStop_eq hq hstart
    have hfront : r.q0 ≤ 0 := Int.le_of_eq h0
    unfold linesBack
    rw [if_pos hfront, hstop, h0]
    rcases Nat.eq_zero_or_pos n with rfl | hn
    · rfl
    · have hmany : (1 : Int) < (n + 1 : Nat) := by omega
      rw [if_pos hmany, if_neg (by simpa using Nat.ne_of_gt hn)]
      rfl
  · obtain ⟨start,hstart,hback⟩ := linesBack_eq h0 hpos hq n
    have hcount := List.count_reverse (l := t.take q) (a := '\n')
    rw [hback]
    rcases Nat.eq_or_lt_of_le hn with heq | hlt
    · rw [if_pos heq.symm, countBack_all (hcount.trans heq), List.reverse_reverse, ← heq, ← firstStop_eq hq hstart]
      rfl
    · have hleft := countBack_beyond (t := (t.take q).reverse) (hcount.trans_lt hlt) start
      rw [if_neg (Nat.ne_of_gt hlt)]
      simp only [hleft, if_true]
      rfl

/-- While there are newlines in front, both counts lead to the line that one of them ends. -/
theorem exists_line_back (h0 : r.q0 = q) (hq : q ≤ t.length) (hn : n < (t.take q).count '\n') :
    ∃ line, IsLine t ((t.take q).count '\n' - n) line ∧ linesBack t r (n + 1 : Nat) = .ok line ∧
      backward t q (n + 1 : Nat) = .ok line := by
  rw [← List.count_reverse] at hn
  obtain ⟨behind,front,hbefore,hbehind⟩ := exists_newline hn
  have htake : t.take q = front.reverse ++ '\n' :: behind.reverse := by
    rw [← List.reverse_reverse (t.take q), hbefore]
    simp
  have hsplit : t = front.reverse ++ '\n' :: (behind.reverse ++ t.drop q) := by
    rw [← List.cons_append, ← List.append_assoc, ← htake, List.take_append_drop]
  have hnumber : (t.take q).count '\n' - n = front.reverse.count '\n' + 1 := by
    rw [htake, List.count_append, List.count_cons_self, List.count_reverse (l := behind), hbehind]
    omega
  obtain ⟨s,hstart,hline⟩ := isLine_of_newline hsplit
  rw [List.length_reverse] at hstart hline
  rw [hnumber]
  exact ⟨_,hline,linesBack_newline h0 hq hbefore hbehind hstart,backward_newline hq hbefore hbehind hstart⟩

theorem firstStop_eq_zero_iff : firstStop t q = 0 ↔ ('\n' ∈ t.take q ∨ q = t.length → t = []) := by
  unfold firstStop
  split
  · rename_i h
    rw [forall_prop_of_true h]
    cases t with
    | nil => simp [lineLength]
    | cons c rest =>
      rw [lineLength]
      split <;> simp
  · rename_i h
    exact iff_of_true rfl fun h' => absurd h' h

theorem agree_ok_iff {r' : Span} : Agree (.ok r) (.ok r') ↔ r = r' := by
  constructor
  · rintro ⟨⟩
    rfl
  · rintro rfl
    exact .span r

theorem firstStop_line (t : Text) (q : Nat) :
    if '\n' ∈ t.take q ∨ q = t.length then IsLine t 1 ⟨0, firstStop t q⟩ else firstStop t q = 0 := by
  unfold firstStop
  split
  · refine isLine_iff.mpr ⟨0,by rw [skip],?_⟩
    rw [List.drop_zero, Nat.zero_add]
    rfl
  · rfl

/-- With `k` newlines in front of a span, both counts lead back by up to `k` lines to the same line, and by more
than `k + 1` out of range. By `k + 1` the one leads to line `0`, and the other does so only if the span begins in
line `1` and not at the end of the text; elsewhere it leads to line `1`. -/
theorem number_back_agree_iff {k : Nat} (hr : r.Within t) (hk : (t.slice 0 r.q0).count '\n' = k) (hn : 0 < n) :
    (Agree (number t r n .back .line) (Lines.address t n r (-1)) ↔
      (n = k + 1 → 0 < k ∨ r.q0 = t.length → t = [])) ∧
    (n ≤ k → ∃ line, IsLine t (k + 1 - n) line ∧ number t r n .back .line = .ok line ∧
      Lines.address t n r (-1) = .ok line) ∧
    (n = k + 1 → Lines.address t n r (-1) = .ok (.point 0) ∧ ∃ stop, number t r n .back .line = .ok ⟨0, stop⟩ ∧
      if 0 < k ∨ r.q0 = t.length then IsLine t 1 ⟨0, stop⟩ else stop = 0) ∧
    (k + 1 < n → number t r n .back .line = .error (.warned .outOfRange) ∧
      Lines.address t n r (-1) = .error .outOfRange) := by
  obtain ⟨n,rfl⟩ := Nat.exists_eq_succ_of_ne_zero (Nat.ne_of_gt hn)
  obtain ⟨q,h0⟩ := Int.eq_ofNat_of_zero_le hr.start
  have hq : q ≤ t.length := by
    have hstop := Int.le_trans hr.ordered hr.stop
    omega
  have hnumber : number t r (n + 1 : Nat) .back .line = linesBack t r (n + 1 : Nat) := rfl
  have haddress : Lines.address t (n + 1 : Nat) r (-1) = backward t q (n + 1 : Nat) := by rw [← h0]; rfl
  rw [h0, Text.slice_before hq] at hk
  subst hk
  rw [Nat.succ_eq_add_one, hnumber, haddress]
  rcases Nat.lt_trichotomy n ((t.take q).count '\n') with hlt | heq | hgt
  · obtain ⟨line,hline,hnumber,haddress⟩ := exists_line_back h0 hq hlt
    rw [hnumber, haddress, Nat.add_sub_add_right]
    refine ⟨iff_of_true (.span line) fun h => by omega,fun _ => ⟨line,hline,rfl,rfl⟩,fun h => by omega,
      fun h => by omega⟩
  · -- one step more than there are newlines
    have hnumber := linesBack_all h0 hq (Nat.le_of_eq heq.symm)
    have haddress := backward_all hq (Nat.le_of_eq heq.symm)
    rw [if_pos heq] at hnumber haddress
    rw [hnumber, haddress, ← heq]
    have hbehind : (0 < n ∨ r.q0 = t.length) ↔ ('\n' ∈ t.take q ∨ q = t.length) := by
      rw [heq, List.count_pos_iff, h0, Int.ofNat_inj]
    have hfirst := firstStop_line t q
    have hzero := firstStop_eq_zero_iff (t := t) (q := q)
    simp only [← hbehind] at hfirst hzero
    have hpoint : (⟨0, firstStop t q⟩ : Span) = .point 0 ↔ firstStop t q = 0 := by
      rw [Span.point, Span.mk.injEq, Int.natCast_eq_zero, and_iff_right rfl]
    refine ⟨?_,fun h => by omega,fun _ => ⟨rfl,firstStop t q,rfl,?_⟩,fun h => by omega⟩
    · rw [agree_ok_iff, hpoint, hzero]
      exact ⟨fun h _ => h,fun h => h rfl⟩
    · rwa [Int.natCast_eq_zero]
  · have hnumber := linesBack_all h0 hq (Nat.le_of_lt hgt)
    have haddress := backward_all hq (Nat.le_of_lt hgt)
    rw [if_neg (Nat.ne_of_gt hgt)] at hnumber haddress
    rw [hnumber, haddress]
    refine ⟨iff_of_true .outOfRange fun h => by omega,fun h => by omega,fun h => by omega,fun _ => ⟨rfl,rfl⟩⟩

theorem number_back_agree_iff_second : (⟨3, 3⟩ : Span).Within "a\nb\n".toList ∧
    number "a\nb\n".toList ⟨3, 3⟩ 1 .back .line = .ok ⟨0, 2⟩ ∧
    Lines.address "a\nb\n".toList 1 ⟨3, 3⟩ (-1) = .ok ⟨0, 2⟩ := by
  have hr : (⟨3, 3⟩ : Span).Within "a\nb\n".toList := by decide
  have hlines : (Text.slice "a\nb\n".toList 0 3).count '\n' = 1 := by decide
  obtain ⟨-,hline,-,-⟩ := number_back_agree_iff hr hlines Nat.one_pos
  obtain ⟨line,hfirst,hnumber,haddress⟩ := hline (Nat.le_refl 1)
  obtain ⟨k,hk,rfl⟩ := isLine_iff.mp hfirst
  obtain rfl : 0 = k := by simpa [skip] using hk
  exact ⟨hr,hnumber,haddress⟩

/-- From the second line, two lines back is line `0` for the one count and line `1` for the other. -/
theorem number_back_disagree : ¬∀ (t : Text) (r : Span) (n : Nat), r.Within t → 0 < n →
    Agree (number t r n .back .line) (Lines.address t n r (-1)) := by
  intro h
  have hagree := h "a\nb".toList ⟨2, 2⟩ 2 (by decide) (by decide)
  have hnumber : number "a\nb".toList ⟨2, 2⟩ (2 : Nat) .back .line = .ok ⟨0, 2⟩ := by decide
  have haddress : Lines.address "a\nb".toList (2 : Nat) ⟨2, 2⟩ (-1) = .ok (.point 0) := by decide
  rw [hnumber, haddress, agree_ok_iff] at hagree
  cases hagree

end RawAddress

end StructuralEdit
