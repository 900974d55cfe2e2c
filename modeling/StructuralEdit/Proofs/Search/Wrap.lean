import StructuralEdit.Proofs.Search.Nearest
import StructuralEdit.Proofs.Session.Moves
import StructuralEdit.Session.Resolve

/-! # What a search that wraps finds

An address search looks on its own side of an offset first, then on the other side up to
the offset, and steps past an empty match at the offset itself. Each of these searches is
decided by whether the pattern matches at some place of its piece, so the whole is: what it
misses are the matches across the offset, and those in front of an empty one met first.
-/
namespace StructuralEdit
open Pattern

namespace Pattern.Regex
variable {re : Regex} {text : Array Char} {stop pos : Nat} {m : Match}

/-- The pattern matches at a place, when the text ends at `stop`. -/
def Hits (re : Regex) (text : Array Char) (stop q : Nat) : Prop :=
  ∃ m, re.matchAt text q stop = .ok (some m) ∧ re.onBoundary text q

theorem Hits.le {q : Nat} (h : Hits re text stop q) : q ≤ stop := by
  obtain ⟨m,hm,-⟩ := h
  have := (matchAt_start hm).2.1
  omega

/-- A match is as long as it is known that it has to be. -/
def Measured (re : Regex) (text : Array Char) : Prop :=
  ∀ {pos stop : Nat} {m : Match}, pos ≤ stop → stop ≤ text.size →
    re.attempt text pos stop = .ok (some m) → pos + re.least ≤ m.stop

/-- Patterns that may match nothing need no length. -/
theorem measured_of_nullable (ha : re.Answers text) (hleast : re.least = 0) : re.Measured text := by
  intro pos stop m hpos hstop h
  rw [hleast]
  exact (ha.lies hpos hstop h).1

/-- A match off the boundary that a lone anchor asks for is empty. -/
def Anchored (re : Regex) (text : Array Char) : Prop :=
  ∀ {pos stop : Nat} {m : Match}, re.attempt text pos stop = .ok (some m) →
    ¬ re.onBoundary text pos → m.stop = pos

theorem attempt_assertion {a : Assertion} (hprogram : re.program = .assertion a)
    (h : re.attempt text pos stop = .ok (some m)) : m.stop = pos := by
  unfold attempt at h
  rw [hprogram] at h
  simp only [Program.run] at h
  split at h
  · rename_i t ht
    split at ht
    · cases ht
      unfold Track.toMatch at h
      simp only at h
      split at h
      · cases h
      · cases h
        rfl
    · cases ht
  · cases h

theorem source_of_compile {engine : Engine} {p : Text} (h : compile engine p = .ok re) : re.source = p := by
  unfold compile at h
  split at h
  · cases h
  · split at h
    · cases h
    · cases h
      rfl

theorem anchored_of_compile {engine : Engine} {p : Text} (h : compile engine p = .ok re) : re.Anchored text := by
  intro pos stop m hm hoff
  have hsource := source_of_compile h
  unfold onBoundary at hoff
  split at hoff
  · rename_i hcaret
    rw [hsource, beq_iff_eq] at hcaret
    subst hcaret
    cases h
    exact attempt_assertion rfl hm
  · split at hoff
    · rename_i hdollar
      rw [hsource, beq_iff_eq] at hdollar
      subst hdollar
      cases h
      exact attempt_assertion rfl hm
    · exact absurd rfl hoff

/-! ## The first match from a place on -/

theorem firstOf_none {count pos : Nat} (h : re.firstOf text stop count pos = .ok none) {q : Nat}
    (hq : pos ≤ q) (hlast : q ≤ pos + count) : re.attempt text q stop = .ok none := by
  induction count generalizing pos with
  | zero =>
    obtain rfl : q = pos := by omega
    exact h
  | succ count ih =>
    unfold firstOf at h
    split at h
    · rename_i hnone
      by_cases hat : q = pos
      · exact hat ▸ hnone
      · exact ih h (by omega) (by omega)
    · rename_i hsome
      exact absurd h hsome

theorem firstOf_first {count pos : Nat} (h : re.firstOf text stop count pos = .ok (some m)) {q : Nat}
    (hq : pos ≤ q) (hlt : q < m.start) : re.attempt text q stop = .ok none := by
  induction count generalizing pos with
  | zero =>
    have hstart := start_of_attempt h
    omega
  | succ count ih =>
    unfold firstOf at h
    split at h
    · rename_i hnone
      by_cases hat : q = pos
      · exact hat ▸ hnone
      · exact ih h (by omega)
    · have hstart := start_of_attempt h
      omega

theorem not_hits_of_none {q : Nat} (h : re.attempt text q stop = .ok none) : ¬ Hits re text stop q := by
  rintro ⟨m,hm,-⟩
  obtain ⟨-,-,hattempt⟩ := matchAt_start hm
  rw [h] at hattempt
  cases hattempt

theorem find_none {pos : Nat} (h : re.find text pos stop = .ok none) {q : Nat} (hq : pos ≤ q) :
    ¬ Hits re text stop q := by
  rintro ⟨m,hm,hboundary⟩
  obtain ⟨-,hleast,-⟩ := matchAt_start hm
  unfold find at h
  rw [if_neg (by omega)] at h
  exact not_hits_of_none (firstOf_none h hq (by omega)) ⟨m,hm,hboundary⟩

theorem find_first {pos : Nat} (h : re.find text pos stop = .ok (some m)) {q : Nat} (hq : pos ≤ q)
    (hlt : q < m.start) : ¬ Hits re text stop q := by
  unfold find at h
  split at h
  · cases h
  · exact not_hits_of_none (firstOf_first h hq hlt)

/-! ## Searches that find nothing -/

section
variable (ha : re.Answers text) (hsize : text.size < 0x8000000000000000) (hmeasured : re.Measured text)
  (hanchored : re.Anchored text) (hstop : stop ≤ text.size)
include ha hsize hstop

/-- A scan that finds nothing passes over places without a match only. Where it passes, the last
match it met lies there and is off the boundary. -/
theorem Scanned.not_hits (hanchored : re.Anchored text) {pos : Int} {previous : Option Nat}
    (h : Scanned re text stop pos previous []) (h0 : 0 ≤ pos)
    (hprevious : ∀ r ∈ previous, ¬ Hits re text stop r) {q : Nat} (hq : pos ≤ q) (hlast : q ≤ stop) :
    ¬ Hits re text stop q := by
  generalize hnil : ([] : List Match) = ms at h
  induction h with
  | beyond hlt => omega
  | unfound hle hnone =>
    rw [search_eq_find (ha.serves hsize) hstop h0 hle] at hnone
    exact find_none hnone (by omega)
  | take => cases hnil
  | @pass pos previous m ms hle hm ht rest ih =>
    obtain ⟨hfirst,hlen,-⟩ := ((ha.serves hsize).lands hstop).found h0 hle hm
    obtain ⟨hlt,-,-⟩ := nextPos_bounds ((ha.serves hsize).lands hstop) h0 hle hm
    rw [search_eq_find (ha.serves hsize) hstop h0 hle] at hm
    -- On the boundary, only an empty match where the last one lies is passed over.
    have hpassed : m.stop = m.start ∧ ¬ Hits re text stop m.start := by
      by_cases hboundary : re.onBoundary text m.start
      · have hagain : m.stop = pos ∧ previous = some m.start :=
          Decidable.not_not.mp fun hne => ht (takes_iff.mpr ⟨⟨.inr nofun,hboundary⟩,hne⟩)
        exact ⟨by omega,hprevious _ hagain.2⟩
      · refine ⟨hanchored (find_found hm).2.2 hboundary,?_⟩
        rintro ⟨-,-,hat⟩
        exact hboundary hat
    by_cases hbefore : q < m.start
    · exact find_first hm (by omega) hbefore
    by_cases hat : q = m.start
    · exact hat ▸ hpassed.2
    · refine ih (by omega) (fun r hr => ?_) ?_ hnil
      · cases hr
        exact hpassed.1 ▸ hpassed.2
      · unfold nextPos
        split <;> omega

include hmeasured

/-- What a scan finds first is a match at its place. -/
theorem Scanned.hits {pos : Int} {previous : Option Nat} {ms : List Match}
    (h : Scanned re text stop pos previous (m :: ms)) (h0 : 0 ≤ pos) :
    pos ≤ m.start ∧ m.start ≤ stop ∧ Hits re text stop m.start := by
  obtain ⟨⟨hfirst,hlen,hlast⟩,-⟩ := h.head (ha.serves hsize) hstop h0
  refine ⟨hfirst,by omega,?_⟩
  generalize hfound : m :: ms = found at h
  induction h with
  | beyond | unfound => cases hfound
  | take hle hm ht rest =>
    cases hfound
    rw [search_eq_find (ha.serves hsize) hstop h0 hle] at hm
    have hattempt := (find_found hm).2.2
    refine ⟨m,?_,ht.2⟩
    rw [matchAt, if_neg (by have := hmeasured (by omega) hstop hattempt; omega)]
    exact hattempt
  | @pass pos previous m' ms hle hm ht rest ih =>
    subst hfound
    obtain ⟨hlt,-,-⟩ := nextPos_bounds ((ha.serves hsize).lands hstop) h0 hle hm
    exact ih (by omega) (rest.head (ha.serves hsize) hstop (by omega)).1.1 rfl

include hanchored

/-- A scan finds a match exactly if the pattern matches at some place of its piece. -/
theorem Scanned.ne_nil_iff {pos : Nat} {ms : List Match} (h : Scanned re text stop pos none ms) :
    ms ≠ [] ↔ ∃ q, pos ≤ q ∧ Hits re text stop q := by
  constructor
  · intro hne
    obtain ⟨m,rest,rfl⟩ := List.exists_cons_of_ne_nil hne
    obtain ⟨hfirst,-,hhits⟩ := h.hits ha hsize hmeasured hstop (by omega)
    exact ⟨m.start,by omega,hhits⟩
  · rintro ⟨q,hq,hhits⟩ rfl
    exact h.not_hits ha hsize hstop hanchored (by omega) nofun (by omega) hhits.le hhits

end

/-! ## Searches of a text -/

section
variable {text : Text} (ha : re.Answers text.toArray) (hsize : text.length < 0x8000000000000000)
include ha hsize

theorem forward_matches (hmeasured : re.Measured text.toArray) (hanchored : re.Anchored text.toArray)
    (p : Nat) {q : Nat} (hq : q ≤ text.length) :
    ∃ ms, Scanned re text.toArray q p none ms ∧
      (∀ budget, re.forward text p (some q) budget = .ok (upTo budget ms)) ∧
      (ms ≠ [] ↔ ∃ r, p ≤ r ∧ Hits re text.toArray q r) := by
  have hlength : text.toArray.size = text.length := List.size_toArray ..
  obtain ⟨ms,hscan,hmatches⟩ := exists_matches (ha.serves (by omega)) (Int.natCast_nonneg p)
    (Int.natCast_nonneg q) (by omega)
  rw [Int.toNat_natCast] at hscan
  exact ⟨ms,hscan,hmatches,hscan.ne_nil_iff ha (by omega) hmeasured hanchored (by omega)⟩

omit ha hsize in
theorem forward_to_end (p : Int) (budget : Option Nat) :
    re.forward text p none budget = re.forward text p (some text.length) budget := by
  have hlength : text.toArray.size = text.length := List.size_toArray ..
  simp only [forward, matchesIn]
  rw [endOf_some (Int.natCast_nonneg _) (by omega), Int.toNat_natCast, endOf, hlength]

/-- One match is looked for backward: it is among those offered, and there is none only if none is
offered. -/
theorem backward_first {window : Int} (hwindow : 1 ≤ window) {lower limit : Nat}
    (hlower : lower ≤ limit) (hlimit : limit ≤ text.length) :
    ∃ o, re.backward window text limit lower (some 1) = .ok (Option.toList o) ∧
      (∀ m, o = some m → Offered re text.toArray limit none m) ∧
      (o ≠ none ↔ ∃ q, lower ≤ q ∧ Hits re text.toArray limit q) := by
  have hlength : text.toArray.size = text.length := List.size_toArray ..
  have hcast : max (lower : Int) (min (limit : Int) text.length) = limit := by omega
  obtain ⟨o,lo,ho,hstart,hnearest,hnone⟩ := search_back ha (by omega) hwindow hlower
    (by omega : limit ≤ text.toArray.size) none
  have hfuel : text.length + 2 + (some 1).getD 0 = text.length + 1 + 1 + 1 := rfl
  have hback : re.backward window text limit lower (some 1) = .ok (Option.toList o) := by
    rw [backward, hcast, hfuel, walkBack, if_neg (by decide), ho]
    cases o with
    | none => rfl
    | some m =>
      simp only [bind, Except.bind]
      rw [walkBack]
      rfl
  have hle : lower ≤ lo := by rcases hstart with rfl | ⟨hlt,-⟩ <;> omega
  refine ⟨o,hback,fun m hm => ?_,fun hne => ?_,?_⟩
  · subst hm
    exact hnearest.offered
  · obtain ⟨m,rfl⟩ := Option.ne_none_iff_exists'.mp hne
    exact ⟨m.start,Nat.le_trans hle hnearest.start,m,hnearest.offered.found,hnearest.offered.boundary⟩
  · rintro ⟨q,hq,m,hm,hboundary⟩ rfl
    obtain ⟨rfl,-,-⟩ := matchAt_start hm
    have hmissed := hnearest ⟨hm,hboundary,by simp⟩
    have hreached := hnone rfl
    omega

end

end Pattern.Regex

namespace Run
open Regex

/-- A pattern matches at or behind an offset, or in front of it in the text that ends there. -/
def Beside (re : Regex) (text : Array Char) (p : Nat) : Prop :=
  (∃ q, p ≤ q ∧ Hits re text text.size q) ∨ ∃ q, Hits re text p q

/-- The match found first is the empty one at the offset the search began from. -/
def EmptyFirst (p : Nat) (found : Except SearchFault (List Match)) : Prop :=
  ∃ m more, found = .ok (m :: more) ∧ m.start = p ∧ m.stop = p

/-- There is a match where a search goes on behind an empty match at `p`: from the next character
on, and from the start of the text only if there is no next character. -/
def MoreAhead (re : Regex) (text : Array Char) (p : Nat) : Prop :=
  ∃ q, (if p < text.size then p + 1 else 0) ≤ q ∧ Hits re text text.size q

/-- Likewise in front of it: up to the last character, and up to the end of the text only if there
is no last character. -/
def MoreBehind (re : Regex) (text : Array Char) (p : Nat) : Prop :=
  ∃ q, Hits re text (if 0 < p then p - 1 else text.size) q

/-- How a search ends that looks beside an offset, and further if it finds an empty match first. -/
inductive Ends (beside emptyFirst more : Prop) : Sought → Prop
  | found (m : Match) (hb : beside) (hm : emptyFirst → more) :
    Ends beside emptyFirst more (.ok (.ok m))
  | missed (hb : ¬ beside) : Ends beside emptyFirst more (.ok (.error .noMatch))
  | stuck (hb : beside) (he : emptyFirst) (hm : ¬ more) :
    Ends beside emptyFirst more (.ok (.error .noFurtherMatch))

/-- A match that is there is the one sought, unless it is empty and `here`; then it is the next one. -/
theorem Ends.of_found {beside emptyFirst more here : Prop} [Decidable here] {m : Match} {next : List Match}
    (hb : beside) (hhere : emptyFirst ↔ here) (hmore : here → (more ↔ next ≠ [])) :
    Ends beside emptyFirst more (if here then .ok (further next) else .ok (.ok m)) := by
  split
  · rename_i h
    cases next with
    | nil => exact .stuck hb (hhere.mpr h) fun hm => (hmore h).mp hm rfl
    | cons m' rest => exact .found m' hb fun _ => (hmore h).mpr (List.cons_ne_nil m' rest)
  · rename_i h
    exact .found m hb fun he => absurd (hhere.mp he) h

theorem emptyFirst_iff {p : Nat} {m : Match} {more : List Match} :
    EmptyFirst p (.ok (m :: more)) ↔ m.start = p ∧ m.stop = p := by
  constructor
  · rintro ⟨m',more',heq,hempty⟩
    cases heq
    exact hempty
  · exact fun hempty => ⟨m,more,rfl,hempty⟩

section
variable {re : Regex} {text : Text} {p : Nat} (ha : re.Answers text.toArray)
  (hsize : text.length < 0x8000000000000000) (hp : p ≤ text.length)
include ha hsize hp

/-- What a search forward leads to is decided by where the pattern matches. -/
theorem matchForward_ends (hmeasured : re.Measured text.toArray)
    (hanchored : re.Anchored text.toArray) :
    Ends (Beside re text.toArray p) (EmptyFirst p (wrapForward re text p))
      (MoreAhead re text.toArray p) (matchForward re text p) := by
  have hlength : text.toArray.size = text.length := List.size_toArray ..
  obtain ⟨ahead,hscan,hahead,hsomeAhead⟩ :=
    forward_matches ha hsize hmeasured hanchored p (Nat.le_refl text.length)
  obtain ⟨before,hscanBefore,hbefore,hsomeBefore⟩ := forward_matches ha hsize hmeasured hanchored 0 hp
  obtain ⟨again,-,hagain,hsomeAgain⟩ := forward_matches ha hsize hmeasured hanchored
    (if p < text.length then p + 1 else 0) (Nat.le_refl text.length)
  have hmore : MoreAhead re text.toArray p ↔ again ≠ [] := by rw [hsomeAgain, MoreAhead, hlength]
  have hretry : re.forward text (if (p : Int) + 1 ≤ text.length then (p : Int) + 1 else 0) none (some 1) =
      .ok (again.take 1) := by
    have hstart : (if (p : Int) + 1 ≤ text.length then (p : Int) + 1 else 0) =
        ((if p < text.length then p + 1 else 0 : Nat) : Int) := by
      split <;> split <;> omega
    rw [hstart, forward_to_end, hagain]
    rfl
  have hbeside : Beside re text.toArray p ↔ ahead ≠ [] ∨ before ≠ [] := by
    rw [hsomeAhead, hsomeBefore, Beside, hlength]
    simp only [Nat.zero_le, true_and]
  have hends {m : Match} {more : List Match} (hwrap : wrapForward re text p = .ok (m :: more))
      -- a second match of the first search is taken in place of the empty one, without a retry
      (hb : Beside re text.toArray p) (hbehind : m.start = p → m.stop = p → more ≠ [] → again ≠ []) :
      Ends (Beside re text.toArray p) (EmptyFirst p (wrapForward re text p))
        (MoreAhead re text.toArray p) (matchForward re text p) := by
    have hrun : matchForward re text p = if m.start = m.stop ∧ (m.start : Int) = p
        then .ok (further (if more.isEmpty then again.take 1 else more)) else .ok (.ok m) := by
      rw [matchForward, hwrap]
      simp only [bind, Except.bind, hretry]
      cases more <;> rfl
    rw [hrun, hwrap]
    refine .of_found hb (emptyFirst_iff.trans (by omega)) fun hhere => hmore.trans ?_
    cases more with
    | nil => simp
    | cons m' rest => simpa using hbehind (by omega) (by omega) (List.cons_ne_nil m' rest)
  cases ahead with
  | cons m rest =>
    have hwrap : wrapForward re text p = .ok (m :: rest.take 1) := by
      rw [wrapForward, forward_to_end, hahead]
      rfl
    refine hends hwrap (hbeside.mpr (.inl (by simp))) fun hstart hstop hne => ?_
    cases rest with
    | nil => exact absurd rfl hne
    | cons m' rest =>
      have hrest := (hscan.head (ha.serves (by omega)) (by omega) (Int.natCast_nonneg p)).2
      obtain ⟨hfirst,-,hhits⟩ := hrest.hits ha (by omega) hmeasured (by omega) (Int.natCast_nonneg _)
      rw [resume, if_pos (by omega), hstop] at hfirst
      have hlast := hhits.le
      exact hsomeAgain.mpr ⟨m'.start,by split <;> omega,hhits⟩
  | nil =>
    have hwrap : wrapForward re text p = .ok (before.take 1) := by
      rw [wrapForward, forward_to_end, hahead]
      exact hbefore (some 1)
    cases before with
    | cons m rest => exact hends hwrap (hbeside.mpr (.inr (by simp))) fun _ _ hne => absurd rfl hne
    | nil =>
      rw [matchForward, hwrap]
      exact .missed fun hb => by simpa using hbeside.mp hb

/-- What a search backward leads to is decided likewise. -/
theorem matchBackward_ends {window : Int} (hwindow : 1 ≤ window) :
    Ends (Beside re text.toArray p) (EmptyFirst p (wrapBackward re window text p))
      (MoreBehind re text.toArray p) (matchBackward re window text p) := by
  have hlength : text.toArray.size = text.length := List.size_toArray ..
  obtain ⟨before,hbefore,-,hsomeBefore⟩ := backward_first ha hsize hwindow (Nat.zero_le p) hp
  obtain ⟨behind,hbehind,-,hsomeBehind⟩ := backward_first ha hsize hwindow hp (Nat.le_refl text.length)
  have hlimit : (if 0 < p then p - 1 else text.length) ≤ text.length := by split <;> omega
  obtain ⟨again,hagain,-,hsomeAgain⟩ := backward_first ha hsize hwindow (Nat.zero_le _) hlimit
  have hmore : MoreBehind re text.toArray p ↔ again ≠ none := by
    rw [hsomeAgain, MoreBehind, hlength]
    simp only [Nat.zero_le, true_and]
  have hretry : re.backward window text (if 0 < (p : Int) then (p : Int) - 1 else text.length) 0 (some 1) =
      .ok again.toList := by
    have hstart : (if 0 < (p : Int) then (p : Int) - 1 else text.length) =
        ((if 0 < p then p - 1 else text.length : Nat) : Int) := by
      split <;> split <;> omega
    rw [hstart]
    exact hagain
  have hbeside : Beside re text.toArray p ↔ behind ≠ none ∨ before ≠ none := by
    rw [hsomeBehind, hsomeBefore, Beside, hlength]
    simp only [Nat.zero_le, true_and]
  have hends {m : Match} (hwrap : wrapBackward re window text p = .ok [m])
      (hb : Beside re text.toArray p) :
      Ends (Beside re text.toArray p) (EmptyFirst p (wrapBackward re window text p))
        (MoreBehind re text.toArray p) (matchBackward re window text p) := by
    have hrun : matchBackward re window text p = if m.start = m.stop ∧ (m.stop : Int) = p
        then .ok (further again.toList) else .ok (.ok m) := by
      rw [matchBackward, hwrap]
      simp only [bind, Except.bind, hretry]
      rfl
    rw [hrun, hwrap]
    refine .of_found hb (emptyFirst_iff.trans (by omega)) fun _ => hmore.trans ?_
    cases again <;> simp
  have hbefore : re.backward window text p 0 (some 1) = .ok before.toList := hbefore
  cases before with
  | some m =>
    have hwrap : wrapBackward re window text p = .ok [m] := by
      rw [wrapBackward, hbefore]
      rfl
    exact hends hwrap (hbeside.mpr (.inr (by simp)))
  | none =>
    have hwrap : wrapBackward re window text p = .ok behind.toList := by
      rw [wrapBackward, hbefore]
      exact hbehind
    cases behind with
    | some m => exact hends hwrap (hbeside.mpr (.inl (by simp)))
    | none =>
      rw [matchBackward, hwrap]
      exact .missed fun hb => by simpa using hbeside.mp hb

end

/-! ## Address searches -/

/-- The matches that a search from an offset meets first. -/
def met (re : Regex) (window : Int) (text : Text) (p sign : Int) : Except SearchFault (List Match) :=
  if 0 ≤ sign then wrapForward re text p else wrapBackward re window text p

/-- There is a match where the search goes on behind an empty one at `p`. -/
def Further (re : Regex) (text : Array Char) (p : Nat) (sign : Int) : Prop :=
  if 0 ≤ sign then MoreAhead re text p else MoreBehind re text p

theorem nextMatch_eq {h : Handle} {pattern : Text} {re : Regex} {s : Session}
    (hre : Regex.compile s.patterns.engine pattern = .ok re) (p sign : Int) :
    nextMatch h pattern p sign s = (match if 0 ≤ sign then matchForward re (s.buffer h).text p
        else matchBackward re s.patterns.window (s.buffer h).text p with
      | .ok (.ok m) => return m
      | .ok (.error e) => fail e
      | .error f => throw (.search f) : Run Match)
        { s with patterns := (s.patterns.compile pattern).2 } := by
  have hcompile := compile_eq pattern "command address".toList s
  rw [hre] at hcompile
  rw [nextMatch, bind_of_ok hcompile, ← (s.patterns.alike_compile pattern).window]
  change (searching (if 0 ≤ sign then matchForward re (s.buffer h).text p
    else matchBackward re (s.patterns.compile pattern).2.window (s.buffer h).text p) >>= _) _ = _
  generalize (if 0 ≤ sign then matchForward re (s.buffer h).text p
    else matchBackward re (s.patterns.compile pattern).2.window (s.buffer h).text p) = sought
  rcases sought with f | e | m <;> rfl

section
variable {h : Handle} {pattern : Text} {re : Regex} {s : Session} {p : Nat}
  (hre : Regex.compile s.patterns.engine pattern = .ok re) (ha : re.Answers (s.buffer h).text.toArray)
  (hmeasured : re.Measured (s.buffer h).text.toArray)
  (hsize : (s.buffer h).text.length < 0x8000000000000000) (hwindow : 1 ≤ s.patterns.window)
  (hp : p ≤ (s.buffer h).text.length)
include hre ha hmeasured hsize hwindow hp

/-- An address search leads to a match exactly if the pattern matches on either side of the offset,
and matches further on if the match met first is the empty one at the offset. It fails otherwise. -/
theorem nextMatch_ok_iff (sign : Int) :
    let text := (s.buffer h).text
    ((∃ m t, nextMatch h pattern p sign s = .ok m t) ↔ Beside re text.toArray p ∧
      (EmptyFirst p (met re s.patterns.window text p sign) → Further re text.toArray p sign)) ∧
    ((∃ m t, nextMatch h pattern p sign s = .ok m t) ∨
      ∃ e t, nextMatch h pattern p sign s = .error (.edit e) t ∧ e ∈ [.noMatch, .noFurtherMatch]) := by
  intro text
  have hends : Ends (Beside re text.toArray p)
      (EmptyFirst p (met re s.patterns.window text p sign)) (Further re text.toArray p sign)
      (if 0 ≤ sign then matchForward re text p else matchBackward re s.patterns.window text p) := by
    unfold met Further
    split
    · exact matchForward_ends ha hsize hp hmeasured (anchored_of_compile hre)
    · exact matchBackward_ends ha hsize hp hwindow
  rw [nextMatch_eq hre]
  generalize (if 0 ≤ sign then matchForward re (s.buffer h).text p
    else matchBackward re s.patterns.window (s.buffer h).text p) = sought at hends ⊢
  cases hends with
  | found m hb hm => exact ⟨⟨fun _ => ⟨hb,hm⟩,fun _ => ⟨m,_,rfl⟩⟩,.inl ⟨m,_,rfl⟩⟩
  | missed hb =>
    refine ⟨⟨?_,fun hbeside => absurd hbeside.1 hb⟩,.inr ⟨_,_,rfl,by simp⟩⟩
    rintro ⟨m,t,hok⟩
    cases hok
  | stuck hb he hm =>
    refine ⟨⟨?_,fun hbeside => absurd (hbeside.2 he) hm⟩,.inr ⟨_,_,rfl,by simp⟩⟩
    rintro ⟨m,t,hok⟩
    cases hok

end

/-- A search from inside a text that is one match only finds the empty match there. -/
theorem nextMatch_ok_iff_inside :
    let s : Session := { workspace := { known := [{ text := "ab".toList }], listed := [0] } }
    let text := (s.buffer 0).text
    ∃ re, Regex.compile s.patterns.engine "(?:ab)?".toList = .ok re ∧ re.Answers text.toArray ∧
      re.Measured text.toArray ∧ text.length < 0x8000000000000000 ∧ 1 ≤ s.patterns.window ∧
      1 ≤ text.length ∧
      ((∃ m t, nextMatch 0 "(?:ab)?".toList (1 : Nat) (-1) s = .ok m t) ↔ Beside re text.toArray 1 ∧
        (EmptyFirst 1 (met re s.patterns.window text (1 : Nat) (-1)) → Further re text.toArray 1 (-1))) ∧
      ((∃ m t, nextMatch 0 "(?:ab)?".toList (1 : Nat) (-1) s = .ok m t) ∨
        ∃ e t, nextMatch 0 "(?:ab)?".toList (1 : Nat) (-1) s = .error (.edit e) t ∧
          e ∈ [.noMatch, .noFurtherMatch]) := by
  intro s text
  obtain ⟨re,hre,hg,hleast⟩ : ∃ re, Regex.compile s.patterns.engine "(?:ab)?".toList = .ok re ∧ re.groups = 0 ∧
      re.least = 0 := exists_compile (by decide +kernel)
  have ha : re.Answers text.toArray := answers_of_compile rfl hre hg
  exact ⟨re,hre,ha,measured_of_nullable ha hleast,by decide,by decide,by decide,
    nextMatch_ok_iff hre ha (measured_of_nullable ha hleast) (by decide) (by decide)
      (by decide : 1 ≤ (s.buffer 0).text.length) (-1)⟩

/-- The only match lies across the offset, and is missed in both directions. Behind an empty match
at the offset the search forward does not wrap. -/
theorem nextMatch_misses :
    let session (text : Text) : Session := { workspace := { known := [{ text }], listed := [0] } }
    (∃ re, Regex.compile {} "abc".toList = .ok re ∧
      (re.forward "abc".toList 0 none none).toOption.map (·.map Match.span) = some [⟨0, 3⟩] ∧
      (∃ t, nextMatch 0 "abc".toList 1 1 (session "abc".toList) = .error (.edit .noMatch) t) ∧
      ∃ t, nextMatch 0 "abc".toList 1 (-1) (session "abc".toList) = .error (.edit .noMatch) t) ∧
    ∃ re, Regex.compile {} "a|(?=b)".toList = .ok re ∧
      (re.forward "ab".toList 0 none none).toOption.map (·.map Match.span) = some [⟨0, 1⟩] ∧
      ∃ t, nextMatch 0 "a|(?=b)".toList 1 1 (session "ab".toList) = .error (.edit .noFurtherMatch) t := by
  intro session
  obtain ⟨re,hre,hmatches⟩ : ∃ re, Regex.compile {} "abc".toList = .ok re ∧
      (re.forward "abc".toList 0 none none).toOption.map (·.map Match.span) = some [⟨0, 3⟩] :=
    exists_compile (by decide +kernel)
  obtain ⟨re',hre',hmatches'⟩ : ∃ re, Regex.compile {} "a|(?=b)".toList = .ok re ∧
      (re.forward "ab".toList 0 none none).toOption.map (·.map Match.span) = some [⟨0, 1⟩] :=
    exists_compile (by decide +kernel)
  exact ⟨⟨re,hre,hmatches,⟨_,error_of_fault (by decide +kernel)⟩,_,error_of_fault (by decide +kernel)⟩,
    re',hre',hmatches',_,error_of_fault (by decide +kernel)⟩

end Run

end StructuralEdit
