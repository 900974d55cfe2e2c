import StructuralEdit.Address.Lines

/-! # Addresses lead into the text

From a span that lies in a text, counting lines or characters leads to a span that lies
in it again, or out of range. No character is read where there is none.
-/
namespace StructuralEdit

/-- A span lies in a text, its ends in order. -/
structure Span.Within (r : Span) (t : Text) : Prop where
  start : 0 ≤ r.q0
  ordered : r.q0 ≤ r.q1
  stop : r.q1 ≤ t.length

instance (r : Span) (t : Text) : Decidable (r.Within t) :=
  decidable_of_iff (0 ≤ r.q0 ∧ r.q0 ≤ r.q1 ∧ r.q1 ≤ t.length)
    ⟨fun ⟨h0,h1,h2⟩ => ⟨h0,h1,h2⟩,fun h => ⟨h.start,h.ordered,h.stop⟩⟩

namespace Span
variable {r : Span} {t t' : Text} {q : Int}

theorem Within.point (h0 : 0 ≤ q) (hq : q ≤ t.length) : (point q).Within t :=
  ⟨h0,Int.le_refl q,hq⟩

theorem Within.whole (t : Text) : (⟨0, t.length⟩ : Span).Within t :=
  ⟨Int.le_refl 0,Int.natCast_nonneg _,Int.le_refl _⟩

theorem Within.inner {r' : Span} (h : r.Within t) (h0 : r.q0 ≤ r'.q0) (h1 : r'.q0 ≤ r'.q1)
    (h2 : r'.q1 ≤ r.q1) : r'.Within t :=
  ⟨Int.le_trans h.start h0,h1,Int.le_trans h2 h.stop⟩

/-- It lies in every longer text too. -/
theorem Within.grow (h : r.Within t) (hle : t.length ≤ t'.length) : r.Within t' :=
  ⟨h.start,h.ordered,Int.le_trans h.stop (Int.ofNat_le.mpr hle)⟩

end Span

namespace Lines
variable {t : Text} {r r' : Span} {q n sign : Int}

/-! ## Lines of offsets in the text -/

theorem skip_le {n k : Nat} (h : skip n t = some k) : k ≤ t.length := by
  induction t generalizing n k with
  | nil =>
    cases n with
    | zero =>
      cases h
      exact Nat.le_refl 0
    | succ n => cases h
  | cons c rest ih =>
    cases n with
    | zero =>
      cases h
      exact Nat.zero_le _
    | succ n =>
      rw [skip] at h
      split at h <;> obtain ⟨m,hm,rfl⟩ := Option.map_eq_some_iff.mp h <;>
        exact Nat.succ_le_succ (ih hm)

theorem lineLength_pos (h : t ≠ []) : 0 < lineLength t := by
  cases t with
  | nil => exact absurd rfl h
  | cons c rest =>
    rw [lineLength]
    split <;> exact Nat.succ_pos _

/-- A line ends in the text, and behind each of its characters. -/
theorem exists_lineEnd (h0 : 0 ≤ q) (hq : q ≤ t.length) :
    ∃ e, lineEnd t q = .ok e ∧ q ≤ e ∧ e ≤ t.length ∧ (q < t.length → q < e) := by
  unfold lineEnd
  split
  · exact ⟨q,rfl,Int.le_refl q,hq,fun h => absurd h (by omega)⟩
  · rw [if_neg (by omega), Text.readOn, if_pos h0]
    have hlen : (t.drop q.toNat).length = t.length - q.toNat := List.length_drop ..
    have hle := lineLength_le (t.drop q.toNat)
    refine ⟨_,rfl,by omega,by omega,fun hlt => ?_⟩
    have hpos := lineLength_pos (t := t.drop q.toNat) (List.ne_nil_of_length_pos (by omega))
    omega

/-- A line starts in front of its offsets. -/
theorem exists_lineStart (h0 : 0 ≤ q) (hq : q ≤ t.length) :
    ∃ s, lineStart t q = .ok s ∧ 0 ≤ s ∧ s ≤ q := by
  unfold lineStart
  split
  · exact ⟨q,rfl,h0,Int.le_refl q⟩
  · rw [if_neg (by omega), Text.readBack, if_pos h0, if_neg (by omega)]
    refine ⟨_,rfl,Int.natCast_nonneg _,?_⟩
    have hle := (List.dropWhile_suffix (l := (t.take q.toNat).reverse) (· != '\n')).length_le
    rw [List.length_reverse, List.length_take] at hle
    omega

/-- Counting back from an offset goes no further than the start of the text. -/
theorem back_cases (n : Nat) {before : Text} (hq : q = before.length) :
    back n before q = .error .outOfRange ∨ ∃ p, back n before q = .ok p ∧ 0 ≤ p ∧ p ≤ q := by
  induction before generalizing n q with
  | nil =>
    cases n with
    | zero => exact .inr ⟨q,rfl,by omega,Int.le_refl q⟩
    | succ n =>
      have hzero : q = 0 := hq
      rw [back, if_neg (by simp [hzero])]
      split
      · exact .inr ⟨0,rfl,Int.le_refl 0,by omega⟩
      · exact .inl rfl
  | cons c before ih =>
    cases n with
    | zero => exact .inr ⟨q,rfl,by omega,Int.le_refl q⟩
    | succ n =>
      have hprevious : q - 1 = before.length := by
        rw [List.length_cons] at hq
        omega
      have hmore (m : Nat) : back m before (q - 1) = .error .outOfRange ∨
          ∃ p, back m before (q - 1) = .ok p ∧ 0 ≤ p ∧ p ≤ q :=
        (ih m hprevious).imp_right fun ⟨p,hp,hp0,hpq⟩ => ⟨p,hp,hp0,by omega⟩
      rw [back]
      split
      · split
        · exact .inr ⟨q,rfl,by omega,Int.le_refl q⟩
        · exact hmore n
      · exact hmore (n + 1)

/-! ## Line addresses -/

/-- An address leads out of range, or to a span in the text. -/
def Leads (t : Text) (x : Except CountFault Span) : Prop :=
  x = .error .outOfRange ∨ ∃ r, x = .ok r ∧ r.Within t

theorem leads_lineAfter (h0 : 0 ≤ q) (hq : q ≤ t.length) (count : Nat) :
    Leads t (lineAfter t q count) := by
  unfold lineAfter
  split
  · exact .inl rfl
  · rename_i k hk
    have hle := skip_le hk
    rw [Text.readOn, if_pos h0, List.length_drop] at hle
    obtain ⟨e,he,hqe,hend,-⟩ := exists_lineEnd (t := t) (q := q + k) (by omega) (by omega)
    simp only [he, reading, bind, Except.bind]
    exact .inr ⟨_,rfl,by simp only; omega,hqe,hend⟩

theorem leads_absolute (t : Text) (n : Int) : Leads t (absolute t n) := by
  unfold absolute
  split
  · exact .inr ⟨_,rfl,.point (Int.le_refl 0) (Int.natCast_nonneg _)⟩
  · exact leads_lineAfter (Int.le_refl 0) (Int.natCast_nonneg _) _

theorem leads_onward (h0 : 0 ≤ q) (hq : q ≤ t.length) (n : Int) : Leads t (onward t q n) := by
  unfold onward
  split
  · exact leads_absolute t n
  split
  · obtain ⟨e,he,-,hend,hlt⟩ := exists_lineEnd (t := t) (q := q - 1) (by omega) (by omega)
    have := hlt (by omega)
    simp only [he, reading, bind, Except.bind]
    exact .inr ⟨_,rfl,h0,by simp only; omega,hend⟩
  · have hlt : (q - 1).toNat < t.length := by omega
    have hc : t.charAt (q - 1) = .ok t[(q - 1).toNat] := by
      simp only [Text.charAt, Text.charAt?, if_neg (show ¬ q - 1 < 0 by omega),
        List.getElem?_eq_getElem hlt]
    simp only [hc, reading, bind, Except.bind]
    exact leads_lineAfter h0 hq _

theorem leads_backward (h0 : 0 ≤ q) (hq : q ≤ t.length) (n : Int) : Leads t (backward t q n) := by
  have hbefore : q = (t.readBack q).length := by
    rw [Text.readBack, if_pos h0, if_neg (by omega), List.length_reverse, List.length_take]
    omega
  unfold backward
  rcases back_cases n.toNat hbefore with hback | ⟨p,hback,hp0,hpq⟩
  · rw [hback]
    exact .inl rfl
  · have hfrom : 0 ≤ (if n ≠ 0 ∧ 0 < p then p - 1 else p) ∧
        (if n ≠ 0 ∧ 0 < p then p - 1 else p) ≤ p := by
      split <;> omega
    obtain ⟨s,hs,hs0,hsp⟩ := exists_lineStart (t := t) hfrom.1 (by omega)
    simp only [hback, hs, reading, bind, Except.bind]
    exact .inr ⟨_,rfl,hs0,by simp only; omega,by simp only; omega⟩

theorem leads_address (hr : r.Within t) (n sign : Int) : Leads t (address t n r sign) := by
  have hordered := hr.ordered
  unfold address
  split
  · exact leads_absolute t n
  split
  · exact leads_onward (Int.le_trans hr.start hordered) hr.stop n
  · exact leads_backward hr.start (Int.le_trans hordered hr.stop) n

theorem address_within (hr : r.Within t) (h : address t n r sign = .ok r') : r'.Within t := by
  rcases leads_address hr n sign with hout | ⟨s,hs,hwithin⟩
  · rw [h] at hout
    cases hout
  · rw [h] at hs
    cases hs
    exact hwithin

/-- The rest of a line begins where the span ends. -/
theorem address_rest (h : address t 0 r 1 = .ok r') : r'.q0 = r.q1 := by
  rw [address, if_neg (by decide), if_pos (by decide), onward] at h
  split at h
  · rename_i hzero
    cases h
    exact hzero.symm
  · rw [if_pos rfl] at h
    cases he : reading (lineEnd t (r.q1 - 1)) with
    | error f =>
      rw [he] at h
      cases h
    | ok e =>
      rw [he] at h
      cases h
      rfl

/-- The part of a line in front ends where the span begins. -/
theorem address_front (h : address t 0 r (-1) = .ok r') : r'.q1 = r.q0 := by
  rw [address, if_neg (by decide), if_neg (by decide), backward] at h
  simp only [Int.toNat_zero, back, bind, Except.bind] at h
  split at h
  · cases h
  · cases h
    rfl

theorem charAddress_within (h : charAddress t n r sign = some r') : r'.Within t := by
  unfold charAddress at h
  extract_lets q at h
  split at h
  · cases h
  · cases h
    exact .point (by omega) (by omega)

end Lines

end StructuralEdit
