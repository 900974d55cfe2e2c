/-! # Outcomes of composed runs

A run that is composed of two gives a result exactly if the first one gives a result
and the second one gives its result from there.
-/
namespace StructuralEdit
variable {ε σ α β : Type} {x : EStateM ε σ α} {f : α → EStateM ε σ β} {s t : σ}

theorem get_eq (s : σ) : (get : EStateM ε σ σ) s = .ok s s := rfl

/-- Carry on from a state that something has led to. -/
theorem bind_of_ok {a : α} (h : x s = .ok a t) : (x >>= f) s = f a t := by
  simp only [bind, EStateM.bind, h]

theorem bind_of_error {e : ε} (h : x s = .error e t) : (x >>= f) s = .error e t := by
  simp only [bind, EStateM.bind, h]

/-- Two ways of carrying on that come to the same where the first part leads. -/
theorem bind_congr_of_ok {g : α → EStateM ε σ β} (h : ∀ a t, x s = .ok a t → f a t = g a t) :
    (x >>= f) s = (x >>= g) s := by
  cases hx : x s with
  | ok a t => rw [bind_of_ok hx, bind_of_ok hx, h a t hx]
  | error e t => rw [bind_of_error hx, bind_of_error hx]

theorem bind_congr_of_eq {y : EStateM ε σ α} (h : x s = y s) : (x >>= f) s = (y >>= f) s := by
  simp only [bind, EStateM.bind, h]

theorem ite_congr_of_eq {p : Prop} [Decidable p] {y x' y' : EStateM ε σ α} (hx : p → x s = x' s)
    (hy : ¬ p → y s = y' s) : (if p then x else y) s = (if p then x' else y') s := by
  split
  · exact hx ‹_›
  · exact hy ‹_›

theorem ok_of_bind {b : β} (h : (x >>= f) s = .ok b t) :
    ∃ a u, x s = .ok a u ∧ f a u = .ok b t := by
  cases hx : x s with
  | ok a u =>
    rw [bind_of_ok hx] at h
    exact ⟨a,u,rfl,h⟩
  | error e u =>
    rw [bind_of_error hx] at h
    cases h

/-- The same without a state. -/
theorem result_of_bind {y : Except ε α} {g : α → Except ε β} {b : β} (h : (y >>= g) = .ok b) :
    ∃ a, y = .ok a ∧ g a = .ok b := by
  cases y with
  | ok a => exact ⟨a,rfl,h⟩
  | error e => cases h

end StructuralEdit
