import StructuralEdit.Pattern.Regex

/-! # Matches end in the text searched, at or behind their start

Every part of a program hands on only positions at or behind the one it was given, and
none behind the end of the text. So whatever a run is accepted with, its continuation
accepted at such a position. A possessive repetition that is not made an atomic one is
left out: it ends where its last round left the cursor, even if that round failed.
-/
namespace StructuralEdit.Pattern

/-- There is a possessive repetition of more than a single test. -/
def Program.possessive : Program → Bool
  | rep greed _ _ p => greed == .possessive || p.possessive
  | cat p q | alt _ p q | ifGroup _ p q => p.possessive || q.possessive
  | capture _ p | atomic p | look _ _ p => p.possessive
  | _ => false

namespace Outcome
variable {o : Outcome} {v : Track}

theorem orElse_accepted {next : Track → Outcome} (h : o.orElse next = accepted v) :
    o = accepted v ∨ ∃ t, next t = accepted v := by
  cases o with
  | accepted t => exact .inl h
  | refused t => exact .inr ⟨t,h⟩

theorem returningTo_accepted {i : Nat} (h : o.returningTo i = accepted v) : o = accepted v := by
  rcases orElse_accepted h with h | ⟨t,h⟩
  · exact h
  · cases h

end Outcome

/-- All that a continuation accepts at positions from `i` to `stop` satisfies `R`. -/
def Continuation.Grants (k : Continuation) (i stop : Nat) (R : Track → Prop) : Prop :=
  ∀ j t v, i ≤ j → j ≤ stop → k j t = .accepted v → R v

theorem Continuation.Grants.mono {k : Continuation} {i j stop : Nat} {R : Track → Prop}
    (h : k.Grants i stop R) (hij : i ≤ j) : k.Grants j stop R :=
  fun m t v hm => h m t v (Nat.le_trans hij hm)

/-- An attempt goes on at or behind the position it is made at, and not behind `stop`. -/
def Attempt.Forward (stop : Nat) (body : Attempt) : Prop :=
  ∀ {R : Track → Prop} {i t k v}, i ≤ stop → Continuation.Grants k i stop R →
    body i t k = .accepted v → R v

/-- Accepting at once gives the position that was reached. -/
theorem grants_accept (i stop : Nat) :
    Continuation.Grants accept i stop fun v => i ≤ v.cursor ∧ v.cursor ≤ stop := by
  intro j t v hij hj h
  cases h
  exact ⟨hij,hj⟩

variable {text : Array Char} {stop : Nat} {R : Track → Prop} {v : Track}

/-! ## Repeated tests -/

theorem CharTest.le_runEnd (t : CharTest) (room i : Nat) :
    i ≤ t.runEnd text room i ∧ t.runEnd text room i ≤ i + room := by
  induction room generalizing i with
  | zero => exact ⟨Nat.le_refl _,Nat.le_refl _⟩
  | succ room ih =>
    unfold CharTest.runEnd
    split
    · split
      · have := ih (i + 1)
        omega
      · omega
    · omega

theorem CharTest.longest_le (t : CharTest) (max : Option Nat) {i : Nat} (hi : i ≤ stop) :
    t.longest text stop max i ≤ stop := by
  unfold CharTest.longest
  have h (room : Nat) : i ≤ t.runEnd text room i ∧ t.runEnd text room i ≤ i + room := t.le_runEnd room i
  cases max with
  | none =>
    have := (h (stop - i)).2
    simp only
    omega
  | some m =>
    have := (h (Nat.min m (stop - i))).2
    have hm : Nat.min m (stop - i) ≤ stop - i := Nat.min_le_right ..
    simp only
    exact Nat.le_trans this (by omega)

theorem giveBack_grants {ahead : Option Nat} {inside : Bool} {saved : Track} {k : Continuation}
    {spare j i : Nat} {t : Track} (hij : i + spare ≤ j) (hj : j ≤ stop) (hk : k.Grants i stop R)
    (h : giveBack text stop ahead inside saved k spare j t = .accepted v) : R v := by
  induction spare generalizing j t with
  | zero =>
    unfold giveBack at h
    extract_lets follows at h
    simp only at h
    split at h
    · rcases Outcome.orElse_accepted h with h | ⟨u,h⟩
      · exact hk j _ v (by omega) hj h
      · cases h
    · cases h
  | succ spare ih =>
    unfold giveBack at h
    extract_lets follows at h
    simp only at h
    split at h
    · rcases Outcome.orElse_accepted h with h | ⟨u,h⟩
      · exact hk j _ v (by omega) hj h
      · exact ih (by omega) (by omega) h
    · exact ih (by omega) (by omega) h

theorem CharTest.lt_of_holdsAt {t : CharTest} {i : Nat} (h : t.holdsAt text stop i = true) :
    i < stop := by
  unfold CharTest.holdsAt at h
  split at h
  · assumption
  · cases h

theorem takeMore_grants {test : CharTest} {inside : Bool} {saved : Track} {k : Continuation}
    {room i j : Nat} {t : Track} (hij : i ≤ j) (hj : j ≤ stop) (hk : k.Grants i stop R)
    (h : takeMore text stop test inside saved k room j t = .accepted v) : R v := by
  induction room generalizing j t with
  | zero =>
    unfold takeMore at h
    rcases Outcome.orElse_accepted h with h | ⟨u,h⟩
    · exact hk j _ v hij hj h
    · simp only at h
      split at h <;> cases h
  | succ room ih =>
    unfold takeMore at h
    rcases Outcome.orElse_accepted h with h | ⟨u,h⟩
    · exact hk j _ v hij hj h
    · simp only at h
      split at h
      · rename_i htest
        have hlt := CharTest.lt_of_holdsAt htest
        exact ih (by omega) (by omega) h
      · cases h

theorem forward_repeatTest (greed : Greed) (min : Nat) (max : Option Nat) (test : CharTest)
    (ahead : Option Nat) (inside : Bool) :
    Attempt.Forward stop (repeatTest text stop greed min max test ahead inside) := by
  intro R i t k v hi hk h
  unfold repeatTest at h
  split at h
  · cases h
  extract_lets t' j u at h
  have hj : j ≤ stop := test.longest_le _ hi
  split at h
  · cases h
  rename_i hmin
  cases greed with
  | greedy => exact giveBack_grants (i := i) (by omega) hj hk h
  | lazy => exact takeMore_grants (by omega) hj hk h
  | possessive => exact hk j _ v (by omega) hj h

/-! ## Repeated parts -/

namespace Attempt
variable {body : Attempt} {min : Nat} {max : Option Nat} {k : Continuation} {i : Nat} {t : Track}

theorem greedy_grants (hbody : body.Forward stop) {fuel count : Nat} {last : Option Nat}
    (hi : i ≤ stop) (hk : k.Grants i stop R)
    (h : greedy body min max k fuel count last i t = .accepted v) : R v := by
  induction fuel generalizing count last i t v with
  | zero => cases h
  | succ fuel ih =>
    have hround {count : Nat} {last : Option Nat} :
        Continuation.Grants (greedy body min max k fuel count last) i stop R :=
      fun j t v hij hj h => ih hj (hk.mono hij) h
    unfold greedy at h
    split at h
    · exact hbody hi hround (Outcome.returningTo_accepted h)
    split at h
    · rcases Outcome.orElse_accepted h with h | ⟨u,h⟩
      · exact hbody hi hround h
      · exact hk i _ v (Nat.le_refl i) hi (Outcome.returningTo_accepted h)
    · exact hk i _ v (Nat.le_refl i) hi (Outcome.returningTo_accepted h)

theorem lazy_grants (hbody : body.Forward stop) {inside : Bool} {fuel count : Nat}
    {last : Option Nat} (hi : i ≤ stop) (hk : k.Grants i stop R)
    (h : lazy body min max inside k fuel count last i t = .accepted v) : R v := by
  induction fuel generalizing count last i t v with
  | zero => cases h
  | succ fuel ih =>
    have hround {count : Nat} {last : Option Nat} :
        Continuation.Grants (lazy body min max inside k fuel count last) i stop R :=
      fun j t v hij hj h => ih hj (hk.mono hij) h
    unfold lazy at h
    split at h
    · exact hbody hi hround (Outcome.returningTo_accepted h)
    rcases Outcome.orElse_accepted h with h | ⟨u,h⟩
    · exact hk i _ v (Nat.le_refl i) hi h
    simp only at h
    split at h
    · exact hbody hi hround (Outcome.returningTo_accepted h)
    · cases h

end Attempt

/-! ## Programs -/

/-- A program without possessive parts only moves forward. -/
theorem Program.forward_run {p : Program} (hp : p.possessive = false) (inside : Bool) :
    Attempt.Forward stop (p.run text stop inside) := by
  induction p generalizing inside with
  | empty =>
    intro R i t k v hi hk h
    exact hk i t v (Nat.le_refl i) hi h
  | never =>
    intro R i t k v hi hk h
    cases h
  | test c =>
    intro R i t k v hi hk h
    simp only [run] at h
    split at h
    · rename_i hc
      exact hk (i + 1) t v (Nat.le_succ i) (CharTest.lt_of_holdsAt hc) h
    · cases h
  | assertion a =>
    intro R i t k v hi hk h
    simp only [run] at h
    split at h
    · exact hk i t v (Nat.le_refl i) hi h
    · cases h
  | cat p q ihp ihq =>
    intro R i t k v hi hk h
    simp only [possessive, Bool.or_eq_false_iff] at hp
    refine ihp hp.1 inside hi ?_ h
    intro j u w hij hj hw
    exact ihq hp.2 inside hj (hk.mono hij) hw
  | alt guard p q ihp ihq =>
    intro R i t k v hi hk h
    simp only [possessive, Bool.or_eq_false_iff] at hp
    unfold run at h
    extract_lets entered at h
    split at h
    · rcases Outcome.orElse_accepted h with h | ⟨u,h⟩
      · exact ihp hp.1 inside hi hk h
      · exact ihq hp.2 inside hi hk h
    · exact ihq hp.2 inside hi hk h
  | capture g p ih =>
    intro R i t k v hi hk h
    refine ih hp inside hi ?_ h
    intro j u w hij hj hw
    exact hk j _ w hij hj hw
  | atomic p ih =>
    intro R i t k v hi hk h
    simp only [run] at h
    split at h
    · rename_i u hu
      obtain ⟨hiu,hu⟩ := ih hp inside hi (grants_accept i stop) hu
      exact hk u.cursor u v hiu hu h
    · cases h
  | rep greed min max p ih =>
    intro R i t k v hi hk h
    simp only [possessive, Bool.or_eq_false_iff] at hp
    have hbody : Attempt.Forward stop (p.run text stop true) := ih hp.2 true
    cases greed with
    | greedy => exact Attempt.greedy_grants hbody hi hk h
    | lazy => exact Attempt.lazy_grants hbody hi hk h
    | possessive => exact absurd hp.1 (by decide)
  | repeatTest greed min max c ahead => exact forward_repeatTest greed min max c ahead inside
  | look back negated p ih =>
    intro R i t k v hi hk h
    have hstay {u : Track} (hu : k i u = .accepted v) : R v := hk i u v (Nat.le_refl i) hi hu
    simp only [run] at h
    split at h
    · split at h
      · exact hstay h
      · cases h
    · split at h
      · split at h
        · cases h
        · exact hstay h
      · split at h
        · exact hstay h
        · cases h
  | backref g fold =>
    intro R i t k v hi hk h
    simp only [run] at h
    split at h
    · split at h
      · rename_i a b _ hsame
        simp only [Bool.and_eq_true, decide_eq_true_eq] at hsame
        exact hk _ t v (Nat.le_add_right _ _) hsame.1 h
      · cases h
    · cases h
  | ifGroup g yes no ihyes ihno =>
    intro R i t k v hi hk h
    simp only [possessive, Bool.or_eq_false_iff] at hp
    simp only [run] at h
    split at h
    · exact ihyes hp.1 inside hi hk h
    · exact ihno hp.2 inside hi hk h

/-! ## Patterns -/

theorem Engine.possessive_repetition {engine : Engine} (hengine : engine.keepsFailedRounds = false)
    (greed : Greed) (min : Nat) (max : Option Nat) {p : Program} (hp : p.possessive = false) :
    (engine.repetition greed min max p).possessive = false := by
  cases greed <;> simp [repetition, hengine, Program.possessive, hp]

/-- As documented, possessive repetitions are atomic ones. -/
theorem Expr.possessive_program {engine : Engine} (hengine : engine.keepsFailedRounds = false)
    (groups : Nat → Width) (e : Expr) (m : Modes) (following : Option CharTest) :
    (e.program engine groups m following).possessive = false := by
  induction e generalizing m following with
  | empty | never | literal | any | set | anchor | backref => rfl
  | cat a b iha ihb | alt a b iha ihb | ifGroup _ a b iha ihb =>
    simp [program, Program.possessive, iha, ihb]
  | capture _ e ih | atomic e ih | look _ _ e ih => exact ih m none
  | withModes added removed e ih => exact ih _ following
  | rep greed min max e ih =>
    simp only [program]
    split
    · rfl
    · exact Engine.possessive_repetition hengine greed min max (ih m none)

namespace Regex
variable {re : Regex} {pos : Nat} {m : Match}

/-- What the pattern matches at a position of a piece of text ends in the piece, at or behind the
position. -/
def Forward (re : Regex) : Prop :=
  ∀ {text : Array Char} {pos stop : Nat} {m : Match}, pos ≤ stop →
    re.attempt text pos stop = .ok (some m) → pos ≤ m.stop ∧ m.stop ≤ stop

/-- A pattern compiles to something of which a property is checked. -/
theorem exists_compile {engine : Engine} {pattern : Text} {P : Regex → Prop} [DecidablePred P]
    (h : (compile engine pattern).toOption.any fun re => decide (P re)) :
    ∃ re, compile engine pattern = .ok re ∧ P re := by
  cases hre : compile engine pattern with
  | error e =>
    rw [hre] at h
    cases h
  | ok re =>
    rw [hre] at h
    exact ⟨re,rfl,of_decide_eq_true h⟩

theorem start_of_attempt (h : re.attempt text pos stop = .ok (some m)) : m.start = pos := by
  unfold attempt at h
  split at h
  · rename_i t _
    unfold Track.toMatch at h
    simp only at h
    split at h
    · cases h
    · cases h
      rfl
  · cases h

theorem possessive_of_compile {engine : Engine} {pattern : Text}
    (hengine : engine.keepsFailedRounds = false) (hre : compile engine pattern = .ok re) :
    re.program.possessive = false := by
  unfold compile at hre
  split at hre
  · cases hre
  · split at hre
    · cases hre
    · cases hre
      exact Expr.possessive_program hengine ..

/-- Every pattern matches forward if possessive repetitions are atomic. -/
theorem forward_of_compile {engine : Engine} {pattern : Text}
    (hengine : engine.keepsFailedRounds = false) (hre : compile engine pattern = .ok re) :
    re.Forward := by
  intro text pos stop m hpos h
  have hp := possessive_of_compile hengine hre
  unfold attempt at h
  split at h
  · rename_i t ht
    have hcursor := Program.forward_run hp false hpos (grants_accept pos stop) ht
    unfold Track.toMatch at h
    simp only at h
    split at h
    · cases h
    · cases h
      exact hcursor
  · cases h

end Regex

end StructuralEdit.Pattern
