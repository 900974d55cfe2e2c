import StructuralEdit.Proofs.Outcome
import StructuralEdit.Proofs.Search.Scan
import StructuralEdit.Search.Backward
import StructuralEdit.Session.Resolve

/-! # Searches lead into the text

A pattern that matches forward is found in the text only: by a scan from an offset on, by
the windows that grow back from one, and behind either end when a search wraps.
-/
namespace StructuralEdit
open Pattern

namespace Pattern.Regex
variable {re : Regex} {m : Match} {ms : List Match}

/-! ## Forward -/

theorem forward_within {text : Text} {start : Int} {stop : Option Int} {budget : Option Nat}
    (hf : re.Forward) (h0 : 0 ≤ start) (h : re.forward text start stop budget = .ok ms) :
    ∀ m ∈ ms, m.span.Within text := by
  have hsize : text.toArray.size = text.length := List.size_toArray ..
  have hend : endOf text.toArray.size stop ≤ text.toArray.size := by
    unfold endOf
    split
    · exact Nat.le_refl _
    · split <;> omega
  have hms := scan_sequenced (hf.lands hend) h h0 h0 (Int.natCast_nonneg _)
  intro m hm
  exact hms.within (Int.le_refl 0) (by omega) _ (List.mem_map_of_mem hm)

/-- The matches in a range of a text lie one behind the other in the range. -/
theorem forward_sequenced {text : Text} {r : Span} {budget : Option Nat} (hf : re.Forward)
    (hr : r.Within text) (h : re.forward text r.q0 (some r.q1) budget = .ok ms) :
    Sequenced r.q0 r.q1 (ms.map Match.span) := by
  have hstop := hr.stop
  exact (hf.lands (by rw [List.size_toArray]; omega)).sequenced hr h

/-! ## Backward -/

section
variable {text : Array Char} {limit lower : Int} {skip : Option Nat} (hf : re.Forward)
include hf

/-- One match is in order and ends in the text. -/
theorem candidate_found {q : Int} (h : re.candidate text limit skip q = .ok (some m)) :
    m.start ≤ m.stop ∧ m.stop ≤ text.size := by
  unfold candidate at h
  split at h
  · cases h
  obtain ⟨found,hfound,h⟩ := result_of_bind h
  cases found with
  | none => cases h
  | some m' =>
    obtain ⟨boundary,-,h⟩ := result_of_bind h
    have hm : m' = m := by
      split at h
      · cases h
      · simp only [pure, Except.pure, Except.ok.injEq] at h
        split at h
        · cases h
        · exact Option.some.inj h
    subst hm
    unfold matchAt at hfound
    split at hfound
    · cases hfound
    · have hstart := start_of_attempt hfound
      obtain ⟨hlen,hend⟩ := hf (by omega) hfound
      exact ⟨by omega,Nat.le_trans hend (placeOf_le text limit)⟩

theorem bestOf_found {count : Nat} {q : Int} {best : Option Match}
    (hbest : ∀ m ∈ best, m.start ≤ m.stop ∧ m.stop ≤ text.size)
    (h : re.bestOf text limit skip count q best = .ok (some m)) :
    m.start ≤ m.stop ∧ m.stop ≤ text.size := by
  induction count generalizing q best with
  | zero =>
    cases h
    exact hbest m rfl
  | succ count ih =>
    obtain ⟨found,hfound,h⟩ := result_of_bind h
    refine ih (fun m hm => ?_) h
    have hm : m ∈ best ∨ m ∈ found := by
      unfold later at hm
      split at hm
      · exact .inl hm
      · split at hm
        · exact .inr hm
        · split at hm
          · exact .inr hm
          · exact .inl hm
    rcases hm with hm | hm
    · exact hbest m hm
    · cases hm
      exact candidate_found hf hfound

theorem nearest_found {rounds : Nat} {top width : Int}
    (h : re.nearest text limit lower skip rounds top width = .ok (some m)) :
    m.start ≤ m.stop ∧ m.stop ≤ text.size := by
  induction rounds generalizing top width with
  | zero => cases h
  | succ rounds ih =>
    obtain ⟨lo,-,h⟩ := result_of_bind h
    obtain ⟨found,hfound,h⟩ := result_of_bind h
    cases found with
    | some m' =>
      cases h
      exact bestOf_found hf (by simp) hfound
    | none =>
      simp only at h
      split at h
      · cases h
      · exact ih h

theorem walkBack_found {window : Int} {fuel : Nat} {budget : Option Nat}
    (h : re.walkBack text window lower fuel budget limit skip = .ok ms) :
    ∀ m ∈ ms, m.start ≤ m.stop ∧ m.stop ≤ text.size := by
  induction fuel generalizing budget limit skip ms with
  | zero =>
    cases h
    nofun
  | succ fuel ih =>
    unfold walkBack at h
    split at h
    · cases h
      nofun
    obtain ⟨found,hfound,h⟩ := result_of_bind h
    cases found with
    | none =>
      cases h
      nofun
    | some m =>
      obtain ⟨rest,hrest,h⟩ := result_of_bind h
      cases h
      intro m' hm'
      rcases List.mem_cons.mp hm' with rfl | hm'
      · exact nearest_found hf hfound
      · exact ih hrest m' hm'

end

theorem backward_within {text : Text} {window start lower : Int} {budget : Option Nat}
    (hf : re.Forward) (h : re.backward window text start lower budget = .ok ms) :
    ∀ m ∈ ms, m.span.Within text := by
  intro m hm
  obtain ⟨hlen,hend⟩ := walkBack_found hf h m hm
  rw [List.size_toArray] at hend
  exact ⟨Int.natCast_nonneg _,Int.ofNat_le.mpr hlen,Int.ofNat_le.mpr hend⟩

end Pattern.Regex

/-! ## Searches of an address -/

namespace Run
variable {re : Regex} {text : Text} {m : Match} {ms : List Match}

theorem mem_of_further (h : further ms = .ok m) : m ∈ ms := by
  cases ms with
  | nil => cases h
  | cons m' rest =>
    cases h
    exact List.mem_cons_self

/-- A search forward wraps at the end of the text, and stays in it. -/
theorem matchForward_within {p : Int} (hf : re.Forward) (h0 : 0 ≤ p)
    (h : matchForward re text p = .ok (.ok m)) : m.span.Within text := by
  obtain ⟨found,hwrap,h⟩ := result_of_bind h
  have hfound : ∀ m ∈ found, m.span.Within text := by
    obtain ⟨ahead,hahead,hwrap⟩ := result_of_bind hwrap
    cases ahead with
    | nil => exact re.forward_within hf (Int.le_refl 0) hwrap
    | cons m' rest =>
      cases hwrap
      exact re.forward_within hf h0 hahead
  cases found with
  | nil => cases h
  | cons m' more =>
    simp only at h
    split at h
    · split at h
      · refine hfound m (List.mem_cons_of_mem _ (mem_of_further ?_))
        simpa only [pure, Except.pure, Except.ok.injEq] using h
      · obtain ⟨behind,hbehind,h⟩ := result_of_bind h
        refine re.forward_within hf ?_ hbehind m (mem_of_further ?_)
        · split <;> omega
        · simpa only [pure, Except.pure, Except.ok.injEq] using h
    · cases h
      exact hfound m List.mem_cons_self

theorem matchBackward_within {window p : Int} (hf : re.Forward)
    (h : matchBackward re window text p = .ok (.ok m)) : m.span.Within text := by
  obtain ⟨found,hwrap,h⟩ := result_of_bind h
  have hfound : ∀ m ∈ found, m.span.Within text := by
    obtain ⟨ahead,hahead,hwrap⟩ := result_of_bind hwrap
    cases ahead with
    | nil => exact re.backward_within hf hwrap
    | cons m' rest =>
      cases hwrap
      exact re.backward_within hf hahead
  cases found with
  | nil => cases h
  | cons m' more =>
    simp only at h
    split at h
    · obtain ⟨before,hbefore,h⟩ := result_of_bind h
      refine re.backward_within hf hbefore m (mem_of_further ?_)
      simpa only [pure, Except.pure, Except.ok.injEq] using h
    · cases h
      exact hfound m List.mem_cons_self

end Run

end StructuralEdit
