import Mathlib.Logic.Function.Iterate
import StructuralEdit.Proofs.Address.Position

/-! # Runs of whole lines

A span is made of whole lines if a line begins where it does, and one ends where it does. Every span lies in a least
one of that kind, from where the line begins that its start is in to where the line ends that its end is in. A
bare newline command extends dot to it; where dot is made of whole lines already, it goes on to the line behind.
-/
namespace StructuralEdit.Lines
variable {t u : Text} {r r' : Span} {a c k n p q : Nat}

/-- A span is made of whole lines, or of none if it is empty where a line begins. -/
structure Whole (t : Text) (r : Span) : Prop where
  within : r.Within t
  start : Complete (t.slice 0 r.q0)
  stop : Complete (t.slice 0 r.q1) ∨ r.q1 = t.length

/-- Of the runs of whole lines that hold a span, one that lies in all of them. -/
structure Extends (t : Text) (r r' : Span) : Prop where
  whole : Whole t r'
  holds : r'.q0 ≤ r.q0 ∧ r.q1 ≤ r'.q1
  least : ∀ w, Whole t w → w.q0 ≤ r.q0 → r.q1 ≤ w.q1 → w.q0 ≤ r'.q0 ∧ r'.q1 ≤ w.q1

theorem Extends.unique {r'' : Span} (h : Extends t r r') (h' : Extends t r r'') : r' = r'' := by
  obtain ⟨hstart,hstop⟩ := h.least r'' h'.whole h'.holds.1 h'.holds.2
  obtain ⟨hstart',hstop'⟩ := h'.least r' h.whole h.holds.1 h.holds.2
  obtain ⟨q0,q1⟩ := r'
  obtain ⟨q0',q1'⟩ := r''
  rw [Span.mk.injEq]
  exact ⟨Int.le_antisymm hstart' hstart,Int.le_antisymm hstop hstop'⟩

/-- A run of whole lines is the least one itself. -/
theorem Whole.extends (h : Whole t r) : Extends t r r :=
  ⟨h,⟨Int.le_refl _,Int.le_refl _⟩,fun _ _ hstart hstop => ⟨hstart,hstop⟩⟩

/-- A line begins at the start of a text and behind each newline. -/
theorem complete_take_iff (hc : c ≤ t.length) : Complete (t.take c) ↔ c = 0 ∨ t[c - 1]? = some '\n' := by
  cases c with
  | zero => simp [Complete]
  | succ c =>
    have hlast : (t.take (c + 1)).getLast? = t[c]? := by
      rw [List.getLast?_eq_getElem?, List.length_take_of_le hc]
      simp
    have hne : t.take (c + 1) ≠ [] := by
      rw [← List.length_pos_iff, List.length_take_of_le hc]
      exact Nat.succ_pos c
    rw [Complete, hlast, or_iff_right hne, or_iff_right (Nat.succ_ne_zero c), Nat.add_sub_cancel]

theorem lineLength_le_of_newline (h : u[k]? = some '\n') : lineLength u ≤ k + 1 := by
  induction u generalizing k with
  | nil => cases h
  | cons d u ih =>
    rw [lineLength]
    split
    · omega
    · rename_i hd
      cases k with
      | zero => exact absurd (by simpa using h) hd
      | succ k => exact Nat.succ_le_succ (ih h)

/-! ## The run that a span lies in -/

/-- Back from an offset stands the last start of a line in front of it. -/
theorem exists_first (hp : p ≤ t.length) : ∃ a : Nat, a ≤ p ∧ backward t p 0 = .ok ⟨a, p⟩ ∧ Complete (t.take a) ∧
    ∀ c ≤ p, Complete (t.take c) → c ≤ a := by
  obtain ⟨front,w,hsplit,hfront,hw,hlen⟩ := exists_last (t.take p)
  have hlength : front.length + w.length = p := by rw [← List.length_append, ← hsplit, List.length_take_of_le hp]
  have htake : t.take front.length = front := by
    have hle : front.length ≤ p := by omega
    rw [← Nat.min_eq_left hle, ← List.take_take, hsplit, List.take_left]
  refine ⟨front.length,by omega,?_,by rwa [htake],fun c hc hcomplete => ?_⟩
  · unfold backward
    simp only [Int.toNat_zero, back, bind, Except.bind, ne_eq, not_true_eq_false, false_and, if_false, lineStart_eq hp,
      hlen]
    rfl
  · refine Nat.le_of_not_lt fun hlt => hw ?_
    -- the newline in front of `c` would stand behind the last one
    have hnewline := ((complete_take_iff (Nat.le_trans hc hp)).mp hcomplete).resolve_left (Nat.ne_zero_of_lt hlt)
    have hget : (t.take p)[c - 1]? = some '\n' := by rwa [List.getElem?_take_of_lt (by omega)]
    rw [hsplit, List.getElem?_append_right (by omega)] at hget
    exact List.mem_of_getElem? hget

/-- Onward from an offset stands the first end of a line that is not in front of it. -/
theorem exists_final (hq : q ≤ t.length) : ∃ b : Nat, q ≤ b ∧ b ≤ t.length ∧ onward t q 0 = .ok ⟨q, b⟩ ∧
    (Complete (t.take b) ∨ b = t.length) ∧ ∀ c, q ≤ c → Complete (t.take c) ∨ c = t.length → c ≤ t.length → b ≤ c := by
  cases q with
  | zero => exact ⟨0,Nat.le_refl 0,Nat.zero_le _,rfl,.inl (.inl rfl),fun c _ _ _ => Nat.zero_le c⟩
  | succ k =>
    have hlen := lineLength_le (t.drop k)
    rw [List.length_drop] at hlen
    have hpos := lineLength_pos (t := t.drop k) (List.ne_nil_of_length_pos (by rw [List.length_drop]; omega))
    refine ⟨k + lineLength (t.drop k),by omega,by omega,?_,?_,fun c hc hstop hle => ?_⟩
    · have hpred : ((k + 1 : Nat) : Int) - 1 = k := by omega
      unfold onward
      rw [if_neg (by omega), if_pos rfl, hpred, lineEnd_eq (by omega)]
      rfl
    · rcases single_lineLength (t.drop k) with ⟨w,-,hline⟩ | ⟨-,hrest⟩
      · refine .inl (.inr ?_)
        rw [List.take_add, hline, ← List.append_assoc, List.getLast?_concat]
      · rw [List.drop_drop, List.drop_eq_nil_iff] at hrest
        exact .inr (by omega)
    · rcases hstop with hcomplete | rfl
      · have hnewline := ((complete_take_iff hle).mp hcomplete).resolve_left (by omega)
        have hbound := lineLength_le_of_newline (u := t.drop k) (k := c - 1 - k) (by
          rw [List.getElem?_drop, Nat.add_sub_cancel' (by omega), hnewline])
        omega
      · omega

theorem whole_iff : Whole t ⟨p, q⟩ ↔
    p ≤ q ∧ q ≤ t.length ∧ Complete (t.take p) ∧ (Complete (t.take q) ∨ q = t.length) := by
  have hslices (hpq : p ≤ q) (hq : q ≤ t.length) : t.slice 0 p = t.take p ∧ t.slice 0 q = t.take q :=
    ⟨Text.slice_before (Nat.le_trans hpq hq),Text.slice_before hq⟩
  constructor
  · rintro ⟨⟨-,hordered,hstop⟩,hfirst,hlast⟩
    have hpq : p ≤ q := Int.ofNat_le.mp hordered
    have hq : q ≤ t.length := Int.ofNat_le.mp hstop
    obtain ⟨hp',hq'⟩ := hslices hpq hq
    rw [hp'] at hfirst
    rw [hq', Int.natCast_inj] at hlast
    exact ⟨hpq,hq,hfirst,hlast⟩
  · rintro ⟨hpq,hq,hfirst,hlast⟩
    obtain ⟨hp',hq'⟩ := hslices hpq hq
    refine ⟨⟨Int.natCast_nonneg p,Int.ofNat_le.mpr hpq,Int.ofNat_le.mpr hq⟩,?_,?_⟩
    · rwa [hp']
    · rwa [hq', Int.natCast_inj]

/-- Where a bare newline command leads from a span. -/
def next (t : Text) (r : Span) : Except CountFault Span := do
  let first ← address t 0 r (-1)
  let last ← address t 0 r 1
  let extended : Span := ⟨first.q0, last.q1⟩
  if extended = r then address t 1 r 1 else return extended

theorem next_eq {first last : Span} (hfirst : address t 0 r (-1) = .ok first) (hlast : address t 0 r 1 = .ok last) :
    next t r = if (⟨first.q0, last.q1⟩ : Span) = r then address t 1 r 1 else .ok ⟨first.q0, last.q1⟩ := by
  unfold next
  rw [hfirst, hlast]
  rfl

theorem exists_extends (hr : r.Within t) :
    ∃ r', Extends t r r' ∧ next t r = if r' = r then address t 1 r 1 else .ok r' := by
  obtain ⟨p,q,rfl,hpq,hq⟩ := hr.exists_nat
  obtain ⟨a,ha,hback,hfirst,hgreatest⟩ := exists_first (Nat.le_trans hpq hq)
  obtain ⟨b,hb,hlen,honward,hlast,hleast⟩ := exists_final hq
  refine ⟨⟨a, b⟩,⟨?_,?_,?_⟩,?_⟩
  · exact whole_iff.mpr ⟨by omega,hlen,hfirst,hlast⟩
  · exact ⟨Int.ofNat_le.mpr ha,Int.ofNat_le.mpr hb⟩
  · intro w hw hstart hstop
    obtain ⟨c,d,rfl,hcd,hd⟩ := hw.within.exists_nat
    obtain ⟨-,-,hfirst',hlast'⟩ := whole_iff.mp hw
    exact ⟨Int.ofNat_le.mpr (hgreatest c (Int.ofNat_le.mp hstart) hfirst'),
      Int.ofNat_le.mpr (hleast d (Int.ofNat_le.mp hstop) hlast' hd)⟩
  · have hback' : address t 0 ⟨p, q⟩ (-1) = .ok ⟨a, p⟩ := hback
    have honward' : address t 0 ⟨p, q⟩ 1 = .ok ⟨q, b⟩ := honward
    exact next_eq hback' honward'

theorem next_of_whole (hr : Whole t r) : next t r = address t 1 r 1 := by
  obtain ⟨r',hextends,hnext⟩ := exists_extends hr.within
  rw [hnext, if_pos (hextends.unique hr.extends)]

theorem next_of_not_whole (hr : r.Within t) (h : ¬Whole t r) : ∃ r', Extends t r r' ∧ next t r = .ok r' := by
  obtain ⟨r',hextends,hnext⟩ := exists_extends hr
  refine ⟨r',hextends,?_⟩
  rw [hnext, if_neg]
  rintro rfl
  exact h hextends.whole

/-! ## From line to line -/

/-- A line ends with the newline of its number, or with the text if there are not so many. -/
theorem IsLine.ends (h : IsLine t n r) : Complete (t.slice 0 r.q1) ∧ (t.slice 0 r.q1).count '\n' = n ∨
    r.q1 = t.length ∧ t.count '\n' < n := by
  obtain ⟨⟨h0,h1,h2⟩,hnumber,-,hsingle⟩ := h
  have hfront := Text.slice_append_slice (Int.le_refl 0) h0 h1 h2
  rcases hsingle with ⟨w,hw,hline⟩ | ⟨hnone,hrest⟩
  · rw [hline] at hfront
    rw [← hfront]
    refine .inl ⟨.inr ?_,?_⟩
    · rw [← List.append_assoc, List.getLast?_concat]
    · rw [List.count_append, count_line hw, List.count_nil, hnumber]
  · have hlen := Text.length_slice (Int.le_trans h0 h1) h2 (Int.le_refl _)
    rw [hrest, List.length_nil] at hlen
    have hstop : r.q1 = t.length := by omega
    rw [hstop, Text.slice_whole] at hfront
    rw [hstop] at hnone
    refine .inr ⟨hstop,?_⟩
    rw [← hfront, List.count_append, List.count_eq_zero.mpr hnone]
    omega

theorem IsLine.whole (h : IsLine t n r) : Whole t r :=
  ⟨h.within,h.start,h.ends.imp And.left And.left⟩

/-- Where a run of lines ends with a newline, the line behind it is next. -/
theorem next_of_complete (hr : Whole t r) (hstop : Complete (t.slice 0 r.q1)) :
    ∃ line, IsLine t ((t.slice 0 r.q1).count '\n' + 1) line ∧ next t r = .ok line := by
  obtain ⟨p,q,rfl,hpq,hq⟩ := hr.within.exists_nat
  dsimp only at hstop ⊢
  rw [Text.slice_before hq] at hstop ⊢
  have hline : IsLine t ((t.take q).count '\n' + 1) ⟨q, (q + lineLength (t.drop q) : Nat)⟩ :=
    isLine_iff.mpr ⟨q,skip_eq_some_iff.mpr ⟨hq,rfl,hstop⟩,rfl⟩
  have hafter : lineAfter t q 0 = .ok ⟨q, (q + lineLength (t.drop q) : Nat)⟩ := by
    rw [lineAfter_eq hq, skip]
    rfl
  refine ⟨_,hline,?_⟩
  rw [next_of_whole hr, ← hafter]
  change onward t q 1 = _
  cases q with
  | zero => rfl
  | succ k =>
    have hnewline := ((complete_take_iff hq).mp hstop).resolve_left (Nat.succ_ne_zero k)
    have hc : t[k] = '\n' := by
      rw [Nat.add_sub_cancel, List.getElem?_eq_getElem hq] at hnewline
      exact Option.some.inj hnewline
    have honward := RawAddress.onward_eq hq 0
    rw [if_pos hc] at honward
    exact honward

/-- Newline commands lead from the start of a text through its lines. -/
theorem iterate_next (hn : n ≤ t.count '\n') :
    ∃ line, IsLine t (n + 1) line ∧ (· >>= next t)^[n + 1] (.ok (.point 0)) = .ok line := by
  induction n with
  | zero =>
    have hstart : Complete (t.slice 0 0) := .inl (Text.slice_self t 0)
    have hwhole : Whole t (.point 0) := ⟨.point (Int.le_refl 0) (Int.natCast_nonneg _),hstart,.inl hstart⟩
    obtain ⟨line,hline,hnext⟩ := next_of_complete hwhole hstart
    have hnone : t.slice 0 (Span.point 0).q1 = [] := Text.slice_self t 0
    rw [hnone] at hline
    exact ⟨line,hline,hnext⟩
  | succ n ih =>
    obtain ⟨line,hline,hiterate⟩ := ih (Nat.le_of_succ_le hn)
    obtain ⟨hstop,hcount⟩ := hline.ends.resolve_right fun h => Nat.not_lt_of_le hn h.2
    obtain ⟨line',hline',hnext⟩ := next_of_complete hline.whole hstop
    rw [hcount] at hline'
    refine ⟨line',hline',?_⟩
    rw [Function.iterate_succ_apply', hiterate]
    exact hnext

end StructuralEdit.Lines
