import StructuralEdit.Proofs.Search.Scan
import StructuralEdit.Search.Replacement

/-! # What a substitution selects

A substitution looks for its matches one at a time, each search knowing nothing of the
scan it goes on with. It finds the matches that one scan of the range finds: an empty match
where the last one ended is the only one it meets besides, and passes over.
-/
namespace StructuralEdit
open Pattern Regex

namespace Replacement
variable {re : Regex} {text : Array Char} {stop : Nat} {all : Bool} {count : Int} {m : Match}
  {ms : List Match}

/-- Of some matches those from the `count`th on, or the `count`th alone. -/
def pick (all : Bool) (count : Int) (ms : List Match) : List Match :=
  let rest := ms.drop (count - 1).toNat
  if all then rest else rest.take 1

@[simp] theorem pick_nil : pick all count [] = [] := by simp [pick]

theorem pick_cons_of_lt (h : 1 < count) : pick all count (m :: ms) = pick all (count - 1) ms := by
  have hcount : (count - 1).toNat = (count - 1 - 1).toNat + 1 := by omega
  simp only [pick, hcount, List.drop_succ_cons]

theorem pick_cons_of_le (h : count ≤ 1) :
    pick all count (m :: ms) = m :: if all then pick all (count - 1) ms else [] := by
  have hcount : (count - 1).toNat = 0 ∧ (count - 1 - 1).toNat = 0 := by omega
  cases all <;> simp [pick, hcount]

/-- Between its searches, too, a substitution keeps to the matches of the scan. -/
theorem select_eq (hs : re.Serves text) (hstop : stop ≤ text.size) {fuel : Nat} {p : Int}
    {previous : Option Nat} (h : Scanned re text stop p previous ms) (h0 : 0 ≤ p)
    (hprevious : ∀ q ∈ previous, (q : Int) ≤ p) (hfuel : stop + 1 - p < fuel) :
    select re text stop all fuel count p previous = .ok (pick all count ms) := by
  induction fuel generalizing count p previous ms with
  | zero =>
    rw [h.unique (.beyond (by omega)), pick_nil]
    rfl
  | succ fuel ih =>
    rw [select]
    by_cases hlt : stop < p
    · rw [if_pos hlt, h.unique (.beyond hlt), pick_nil]
      rfl
    rw [if_neg hlt]
    obtain ⟨ms₀,h₀,hmatches⟩ := exists_matches hs h0 (Int.natCast_nonneg stop) (Int.ofNat_le.mpr hstop)
    rw [Int.toNat_natCast] at h₀
    simp only [hmatches, upTo, bind, Except.bind]
    rcases h.restart hs hstop h0 hprevious h₀ with ⟨rfl,hhead⟩ | ⟨m,rfl,hempty,hp,hrest⟩
    · cases ms₀ with
      | nil => rw [pick_nil]; rfl
      | cons m rest =>
        obtain ⟨⟨hfirst,hlen,hlast⟩,hrest⟩ := h.head hs hstop h0
        obtain ⟨hlt',hle',-⟩ := resume_bounds hlen
        have hgo (count : Int) : select re text stop all fuel count (resume m) (some m.stop) =
            .ok (pick all count rest) :=
          ih hrest (by omega) (fun q hq => by cases hq; omega) (by omega)
        unfold resume at hgo
        simp only [List.take_succ_cons, if_neg (hhead m rfl), hgo]
        split
        · rw [pick_cons_of_lt ‹_›]
        · rw [pick_cons_of_le (by omega)]
          cases all <;> rfl
    · simp only [List.take_succ_cons, if_pos (And.intro hempty hp)]
      exact ih hrest (by omega) (fun q hq => Int.le_trans (hprevious q hq) (by omega)) (by omega)

/-- A substitution selects from the matches that one scan of its range finds. -/
theorem exists_selected {text : Text} {r : Span} (hs : re.Serves text.toArray)
    (hr : r.Within text) :
    ∃ ms, re.forward text r.q0 (some r.q1) none = .ok ms ∧
      Sequenced r.q0 r.q1 (ms.map Match.span) ∧
      ∀ all count, selected re text r all count = .ok (pick all count ms) := by
  obtain ⟨ms,hscan,hsequenced,hforward⟩ := exists_forward hs hr
  obtain ⟨h0,h1,h2⟩ := hr
  refine ⟨ms,hforward none,hsequenced,fun all count => ?_⟩
  have hstop : r.q1.toNat ≤ text.toArray.size := by
    rw [List.size_toArray]
    omega
  have hfuel := lt_steps text.length (some count.toNat)
  have hselect : select re text.toArray r.q1.toNat all (steps text.length (some count.toNat)) count
      r.q0 none = .ok (pick all count ms) := select_eq hs hstop hscan h0 nofun (by omega)
  rwa [Int.toNat_of_nonneg (by omega)] at hselect

end Replacement

end StructuralEdit
