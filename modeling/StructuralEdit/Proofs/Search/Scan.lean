import StructuralEdit.Proofs.Pattern.Forward
import StructuralEdit.Proofs.Search.Sequenced
import StructuralEdit.Search.Forward

/-! # What a scan finds

A scan asks for the first match from a place on, again and again. Where each search is
answered, with a match in the piece searched, so is the scan; its matches lie one behind
the other, and asking for the first one only gives the first one.
-/
namespace StructuralEdit

namespace Pattern.Regex
variable {re : Regex} {text : Array Char} {stop : Nat} {pos : Int} {m : Match}

/-! ## The first match from a place on -/

theorem firstOf_found {count pos : Nat} (h : re.firstOf text stop count pos = .ok (some m)) :
    pos ≤ m.start ∧ m.start ≤ pos + count ∧ re.attempt text m.start stop = .ok (some m) := by
  induction count generalizing pos with
  | zero =>
    have hstart := start_of_attempt h
    exact ⟨Nat.le_of_eq hstart.symm,Nat.le_of_eq hstart,hstart ▸ h⟩
  | succ count ih =>
    unfold firstOf at h
    split at h
    · obtain ⟨hle,hlast,hm⟩ := ih h
      exact ⟨by omega,by omega,hm⟩
    · have hstart := start_of_attempt h
      exact ⟨Nat.le_of_eq hstart.symm,by omega,hstart ▸ h⟩

theorem find_found {pos : Nat} (h : re.find text pos stop = .ok (some m)) :
    pos ≤ m.start ∧ m.start ≤ stop ∧ re.attempt text m.start stop = .ok (some m) := by
  unfold find at h
  split at h
  · cases h
  · obtain ⟨hle,hlast,hm⟩ := firstOf_found h
    exact ⟨hle,by omega,hm⟩

/-- The first match from a place on is the first one from where it starts, unless too little of
the text is left there to try. -/
theorem find_again {pos : Nat} (h : re.find text pos stop = .ok (some m)) :
    re.find text m.start stop = .ok (some m) ∨ stop < m.start + re.least := by
  obtain ⟨-,-,hm⟩ := find_found h
  unfold find
  split
  · rename_i hleast
    exact .inr hleast
  · left
    cases stop - m.start - (re.least - 1) with
    | zero => exact hm
    | succ count => simp only [firstOf, hm]

theorem placeOf_eq (h0 : 0 ≤ pos) (hpos : pos ≤ text.size) : placeOf text pos = pos.toNat := by
  rw [placeOf, Nat.min_eq_left (by omega)]

/-- The answer to a search lies in the piece that is searched, or there is no match. -/
inductive Lies (pos stop : Nat) : Except SearchFault (Option Match) → Prop
  | none : Lies pos stop (.ok none)
  | some {m : Match} (start : pos ≤ m.start) (length : m.start ≤ m.stop) (last : m.stop ≤ stop) :
    Lies pos stop (.ok (some m))

instance (pos stop : Nat) : (r : Except SearchFault (Option Match)) → Decidable (Lies pos stop r)
  | .ok none => .isTrue .none
  | .ok (some m) =>
    decidable_of_iff (pos ≤ m.start ∧ m.start ≤ m.stop ∧ m.stop ≤ stop)
      ⟨fun h => .some h.1 h.2.1 h.2.2,fun h => by cases h; exact ⟨‹_›,‹_›,‹_›⟩⟩
  | .error _ => .isFalse nofun

/-- What is asked of a pattern on a text: every search in a piece of the text is answered, and a
match that is found lies in the piece. -/
structure Serves (re : Regex) (text : Array Char) : Prop where
  lies : ∀ stop ≤ text.size, ∀ pos ≤ stop, Lies pos stop (re.search text pos stop)

instance (re : Regex) (text : Array Char) : Decidable (re.Serves text) :=
  decidable_of_iff (∀ stop ≤ text.size, ∀ pos ≤ stop, Lies pos stop (re.search text pos stop))
    ⟨Serves.mk,Serves.lies⟩

/-- What is asked of a pattern on a text, said of a single attempt: it is answered, and a match
found lies in the piece of the text that was to be matched. -/
structure Answers (re : Regex) (text : Array Char) : Prop where
  answered : ∀ {pos stop : Nat}, pos ≤ stop → stop ≤ text.size →
    ∃ found, re.attempt text pos stop = .ok found
  lies : ∀ {pos stop : Nat} {m : Match}, pos ≤ stop → stop ≤ text.size →
    re.attempt text pos stop = .ok (some m) → pos ≤ m.stop ∧ m.stop ≤ stop

/-- Patterns without groups answer on every text if possessive repetitions are atomic. -/
theorem answers_of_compile {engine : Engine} {pattern : Text}
    (hengine : engine.keepsFailedRounds = false) (hre : compile engine pattern = .ok re)
    (hg : re.groups = 0) : re.Answers text := by
  refine ⟨fun {pos stop} _ _ => ?_,fun hpos _ h => forward_of_compile hengine hre hpos h⟩
  unfold attempt
  split
  · rename_i t _
    exact ⟨_,by simp [Track.toMatch, hg]; rfl⟩
  · exact ⟨none,rfl⟩

theorem Answers.firstOf_answered (ha : re.Answers text) (hstop : stop ≤ text.size)
    {count pos : Nat} (hpos : pos + count ≤ stop) :
    ∃ found, re.firstOf text stop count pos = .ok found := by
  induction count generalizing pos with
  | zero => exact ha.answered hpos hstop
  | succ count ih =>
    unfold firstOf
    split
    · exact ih (by omega)
    · exact ha.answered (by omega) hstop

/-- A pattern that answers serves every text whose offsets are addressable. -/
theorem Answers.serves (ha : re.Answers text) (hsize : text.size < 0x8000000000000000) :
    re.Serves text := by
  constructor
  intro stop hstop pos hpos
  have haddressable : OffsetFault.isAddressable (pos : Int) = true := by
    simp only [OffsetFault.isAddressable, Bool.and_eq_true, decide_eq_true_eq]
    omega
  have hsearch : re.search text pos stop = re.find text pos stop := by
    rw [search, if_pos haddressable, placeOf_eq (by omega) (by omega), Int.toNat_natCast]
  rw [hsearch]
  have hfound : ∃ found, re.find text pos stop = .ok found := by
    unfold find
    split
    · exact ⟨none,rfl⟩
    · exact ha.firstOf_answered hstop (by omega)
  obtain ⟨found,hfound⟩ := hfound
  rw [hfound]
  cases found with
  | none => exact .none
  | some m =>
    obtain ⟨hle,hlast,hm⟩ := find_found hfound
    obtain ⟨hlen,hend⟩ := ha.lies hlast hstop hm
    exact .some hle hlen hend

/-! ## Scans -/

/-- Where a scan goes on after a match found from `pos`. -/
def nextPos (pos : Int) (m : Match) : Int := if m.stop = pos then pos + 1 else m.stop

/-- A match is taken unless it is empty where the last one ended, or off the boundary it asks
for. -/
def Takes (re : Regex) (text : Array Char) (pos : Int) (previous : Option Nat) (m : Match) : Prop :=
  (m.stop ≠ pos ∨ previous ≠ some m.start) ∧ re.onBoundary text m.start

instance (re : Regex) (text : Array Char) (pos : Int) (previous : Option Nat) (m : Match) :
    Decidable (Takes re text pos previous m) :=
  inferInstanceAs (Decidable (_ ∧ _))

theorem takes_iff {previous : Option Nat} : Takes re text pos previous m ↔
    Takes re text pos none m ∧ ¬ (m.stop = pos ∧ previous = some m.start) := by
  simp only [Takes, ne_eq, reduceCtorEq, not_false_eq_true, or_true, true_and,
    Decidable.not_and_iff_or_not]
  exact And.comm

/-- The matches of `[pos, stop]` when the last match ended at `previous`. -/
inductive Scanned (re : Regex) (text : Array Char) (stop : Nat) :
    (pos : Int) → (previous : Option Nat) → List Match → Prop
  | beyond {pos : Int} {previous} (h : stop < pos) : Scanned re text stop pos previous []
  | unfound {pos : Int} {previous} (hle : pos ≤ stop) (h : re.search text pos stop = .ok none) :
    Scanned re text stop pos previous []
  | take {pos : Int} {previous m ms} (hle : pos ≤ stop)
    (h : re.search text pos stop = .ok (some m)) (ht : Takes re text pos previous m)
    (rest : Scanned re text stop (nextPos pos m) (some m.stop) ms) :
    Scanned re text stop pos previous (m :: ms)
  | pass {pos : Int} {previous m ms} (hle : pos ≤ stop)
    (h : re.search text pos stop = .ok (some m)) (ht : ¬ Takes re text pos previous m)
    (rest : Scanned re text stop (nextPos pos m) (some m.stop) ms) :
    Scanned re text stop pos previous ms

namespace Scanned
variable {previous : Option Nat} {ms : List Match}

theorem found_cases (h : Scanned re text stop pos previous ms) (hle : pos ≤ stop)
    (hm : re.search text pos stop = .ok (some m)) :
    (Takes re text pos previous m ∧ ∃ rest, ms = m :: rest ∧
      Scanned re text stop (nextPos pos m) (some m.stop) rest) ∨
    (¬ Takes re text pos previous m ∧ Scanned re text stop (nextPos pos m) (some m.stop) ms) := by
  cases h with
  | beyond hlt => omega
  | unfound _ hnone =>
    rw [hm] at hnone
    cases hnone
  | take _ hm' ht rest =>
    rw [hm] at hm'
    cases hm'
    exact .inl ⟨ht,_,rfl,rest⟩
  | pass _ hm' ht rest =>
    rw [hm] at hm'
    cases hm'
    exact .inr ⟨ht,rest⟩

theorem eq_nil (h : Scanned re text stop pos previous ms)
    (hnone : re.search text pos stop = .ok none) : ms = [] := by
  cases h with
  | beyond | unfound => rfl
  | take _ hm | pass _ hm =>
    rw [hnone] at hm
    cases hm

/-- A scan has one outcome. -/
theorem unique {ms' : List Match} (h : Scanned re text stop pos previous ms)
    (h' : Scanned re text stop pos previous ms') : ms = ms' := by
  induction h generalizing ms' with
  | beyond hlt =>
    cases h' with
    | beyond | unfound => rfl
    | take hle | pass hle => omega
  | unfound hle hnone => exact (h'.eq_nil hnone).symm
  | take hle hm ht rest ih =>
    rcases h'.found_cases hle hm with ⟨-,rest',rfl,hrest⟩ | ⟨hpass,-⟩
    · rw [ih hrest]
    · exact absurd ht hpass
  | pass hle hm ht rest ih =>
    rcases h'.found_cases hle hm with ⟨htake,-⟩ | ⟨-,hrest⟩
    · exact absurd htake ht
    · exact ih hrest

end Scanned

/-- As many of the matches as are asked for. -/
def upTo (budget : Option Nat) (ms : List Match) : List Match :=
  match budget with
  | none => ms
  | some n => ms.take n

@[simp] theorem upTo_nil (budget : Option Nat) : upTo budget [] = [] := by
  cases budget with
  | none => rfl
  | some n => exact List.take_nil

/-- One step of a scan that is to find more. -/
theorem scan_found {fuel : Nat} {budget previous : Option Nat} (hle : pos ≤ stop)
    (hb : budget ≠ some 0) (h : re.search text pos stop = .ok (some m)) :
    re.scan text stop (fuel + 1) budget pos previous =
      if Takes re text pos previous m then do
        return m :: (← re.scan text stop fuel (budget.map (· - 1)) (nextPos pos m) (some m.stop))
      else re.scan text stop fuel budget (nextPos pos m) (some m.stop) := by
  rw [scan, if_neg (not_or.mpr ⟨Int.not_lt.mpr hle,hb⟩), h]
  rfl

/-- A match found from inside a piece of the text lies in the piece, behind where the search began. -/
structure Lands (re : Regex) (text : Array Char) (stop : Nat) : Prop where
  found : ∀ {pos : Int} {m : Match}, 0 ≤ pos → pos ≤ stop →
    re.search text pos stop = .ok (some m) → pos ≤ m.start ∧ m.start ≤ m.stop ∧ m.stop ≤ stop

theorem Forward.lands (hf : re.Forward) (hstop : stop ≤ text.size) : re.Lands text stop := by
  constructor
  intro pos m h0 hle h
  unfold search at h
  split at h
  · rw [placeOf_eq h0 (by omega)] at h
    obtain ⟨hfirst,hlast,hm⟩ := find_found h
    obtain ⟨hlen,hend⟩ := hf hlast hm
    exact ⟨by omega,hlen,hend⟩
  · cases h

section
variable (hl : re.Lands text stop)
include hl

/-- Each search goes on at least one character further, and at most one behind the piece. -/
theorem nextPos_bounds (h0 : 0 ≤ pos) (hle : pos ≤ stop)
    (h : re.search text pos stop = .ok (some m)) :
    pos < nextPos pos m ∧ m.stop ≤ nextPos pos m ∧ nextPos pos m ≤ stop + 1 := by
  obtain ⟨hstart,hlen,hlast⟩ := hl.found h0 hle h
  unfold nextPos
  split <;> omega

/-- The matches of a scan lie one behind the other. -/
theorem scan_sequenced {fuel : Nat} {budget previous : Option Nat} {ms : List Match}
    (h : re.scan text stop fuel budget pos previous = .ok ms) (h0 : 0 ≤ pos) {start : Int}
    (hpos : start ≤ pos) (hstart : start ≤ stop) : Sequenced start stop (ms.map Match.span) := by
  induction fuel generalizing budget pos previous ms start with
  | zero =>
    cases h
    exact hstart
  | succ fuel ih =>
    by_cases hdone : stop < pos ∨ budget = some 0
    · rw [scan, if_pos hdone] at h
      cases h
      exact hstart
    have hle : pos ≤ stop := Int.not_lt.mp fun hlt => hdone (.inl hlt)
    cases hm : re.search text pos stop with
    | error f =>
      rw [scan, if_neg hdone, hm] at h
      cases h
    | ok found =>
      cases found with
      | none =>
        rw [scan, if_neg hdone, hm] at h
        cases h
        exact hstart
      | some m =>
        obtain ⟨hfirst,hlen,hlast⟩ := hl.found h0 hle hm
        obtain ⟨hlt,hnext,-⟩ := nextPos_bounds hl h0 hle hm
        rw [scan_found hle (fun hb => hdone (.inr hb)) hm] at h
        split at h
        · cases hrest : re.scan text stop fuel (budget.map (· - 1)) (nextPos pos m) (some m.stop) with
          | error f =>
            rw [hrest] at h
            cases h
          | ok rest =>
            rw [hrest] at h
            cases h
            exact ⟨Int.le_trans hpos hfirst,Int.ofNat_le.mpr hlen,
              ih hrest (by omega) hnext (Int.ofNat_le.mpr hlast)⟩
        · exact ih h (by omega) (by omega) hstart

end

section
variable {previous : Option Nat} {ms : List Match} (hs : re.Serves text) (hstop : stop ≤ text.size)
include hs hstop

/-- Every search from inside the piece is answered. -/
theorem search_cases (h0 : 0 ≤ pos) (hle : pos ≤ stop) :
    re.search text pos stop = .ok none ∨ ∃ m, re.search text pos stop = .ok (some m) ∧
      pos ≤ m.start ∧ m.start ≤ m.stop ∧ m.stop ≤ stop := by
  have hlies := hs.lies stop hstop pos.toNat (by omega)
  rw [Int.toNat_of_nonneg h0] at hlies
  generalize re.search text pos stop = found at hlies
  cases hlies with
  | none => exact .inl rfl
  | some hstart hlen hlast => exact .inr ⟨_,rfl,by omega,hlen,hlast⟩

theorem Serves.lands : re.Lands text stop := by
  constructor
  intro pos m h0 hle h
  rcases search_cases hs hstop h0 hle with hnone | ⟨m',hm,hlies⟩
  · rw [h] at hnone
    cases hnone
  · rw [h] at hm
    cases hm
    exact hlies

/-- Where searches are answered, so is every scan. -/
theorem exists_scanned (h0 : 0 ≤ pos) (previous : Option Nat) : ∃ ms, Scanned re text stop pos previous ms := by
  induction hn : (stop + 1 - pos).toNat using Nat.strongRecOn generalizing pos previous with
  | ind n ih =>
    by_cases hle : pos ≤ stop
    · rcases search_cases hs hstop h0 hle with hnone | ⟨m,hm,-⟩
      · exact ⟨[],.unfound hle hnone⟩
      · obtain ⟨hlt,-,-⟩ := nextPos_bounds (hs.lands hstop) h0 hle hm
        obtain ⟨ms,hms⟩ := ih (stop + 1 - nextPos pos m).toNat (by omega)
          (Int.le_trans h0 (Int.le_of_lt hlt)) (some m.stop) rfl
        by_cases ht : Takes re text pos previous m
        · exact ⟨m :: ms,.take hle hm ht hms⟩
        · exact ⟨ms,.pass hle hm ht hms⟩
    · exact ⟨[],.beyond (by omega)⟩

/-- A scan gives as many of the matches as it is asked for. -/
theorem Scanned.scan_eq (h : Scanned re text stop pos previous ms) (h0 : 0 ≤ pos) {fuel : Nat}
    (hf : stop + 1 - pos < fuel) (budget : Option Nat) :
    re.scan text stop fuel budget pos previous = .ok (upTo budget ms) := by
  induction h generalizing fuel budget with
  | beyond hlt =>
    cases fuel with
    | zero => rw [scan, upTo_nil]; rfl
    | succ fuel =>
      rw [scan, if_pos (.inl hlt), upTo_nil]
      rfl
  | unfound hle hnone =>
    obtain ⟨fuel,rfl⟩ : ∃ n, fuel = n + 1 := Nat.exists_eq_add_one.mpr (by omega)
    rw [scan, hnone, upTo_nil]
    split <;> rfl
  | @take pos previous m ms hle hm ht rest ih =>
    obtain ⟨fuel,rfl⟩ : ∃ n, fuel = n + 1 := Nat.exists_eq_add_one.mpr (by omega)
    obtain ⟨hlt,-,-⟩ := nextPos_bounds (hs.lands hstop) h0 hle hm
    have hrest := ih (by omega) (by omega : stop + 1 - nextPos pos m < fuel)
    match budget with
    | some 0 => rw [scan, if_pos (.inr rfl)]; rfl
    | some (n + 1) =>
      rw [scan_found hle (by simp) hm, if_pos ht, Option.map_some, Nat.add_sub_cancel, hrest]
      rfl
    | none =>
      rw [scan_found hle (by simp) hm, if_pos ht, Option.map_none, hrest]
      rfl
  | @pass pos previous m ms hle hm ht rest ih =>
    obtain ⟨fuel,rfl⟩ : ∃ n, fuel = n + 1 := Nat.exists_eq_add_one.mpr (by omega)
    obtain ⟨hlt,-,-⟩ := nextPos_bounds (hs.lands hstop) h0 hle hm
    by_cases hb : budget = some 0
    · rw [hb, scan, if_pos (.inr rfl)]; rfl
    · rw [scan_found hle hb hm, if_neg ht]
      exact ih (by omega) (by omega) budget

/-! ## Scans that begin again -/

/-- Where to go on behind a match, whether or not it is empty. -/
def resume (m : Match) : Nat := if m.start = m.stop then m.stop + 1 else m.stop

omit hs hstop in
theorem resume_bounds (h : m.start ≤ m.stop) :
    m.start < resume m ∧ m.stop ≤ resume m ∧ resume m ≤ m.stop + 1 := by
  unfold resume
  split <;> omega

theorem search_eq_find (h0 : 0 ≤ pos) (hle : pos ≤ stop) :
    re.search text pos stop = re.find text pos.toNat stop := by
  have hanswered := search_cases hs hstop h0 hle
  unfold search at hanswered ⊢
  split
  · rw [placeOf_eq h0 (by omega)]
  · rename_i hfar
    rw [if_neg hfar] at hanswered
    rcases hanswered with h | ⟨m,h,-⟩ <;> cases h

/-- A search from where a match starts leads to the match again, or too little is left there for
any match. -/
theorem search_again (h0 : 0 ≤ pos) (hle : pos ≤ stop)
    (h : re.search text pos stop = .ok (some m)) :
    re.search text m.start stop = .ok (some m) ∨
      ∀ q : Int, m.start ≤ q → q ≤ stop → re.search text q stop = .ok none := by
  obtain ⟨hstart,hlen,hlast⟩ := (hs.lands hstop).found h0 hle h
  rw [search_eq_find hs hstop h0 hle] at h
  rcases find_again h with hfind | hleast
  · left
    rw [search_eq_find hs hstop (by omega) (by omega), Int.toNat_natCast]
    exact hfind
  · right
    intro q hq hqstop
    rw [search_eq_find hs hstop (by omega) hqstop, find, if_pos (by omega)]

/-- Behind an empty match a scan may go on at the next character at once. -/
theorem Scanned.behind (h0 : 0 ≤ pos) (hle : pos ≤ stop)
    (hm : re.search text pos stop = .ok (some m))
    (h : Scanned re text stop (nextPos pos m) (some m.stop) ms) :
    Scanned re text stop (resume m) (some m.stop) ms := by
  obtain ⟨hstart,hlen,hlast⟩ := (hs.lands hstop).found h0 hle hm
  by_cases hempty : m.start = m.stop
  · rw [resume, if_pos hempty]
    by_cases hat : m.stop = pos
    · rwa [nextPos, if_pos hat, ← hat] at h
    rw [nextPos, if_neg hat] at h
    rcases search_again hs hstop h0 hle hm with hsame | hnone
    · rw [hempty] at hsame
      rcases h.found_cases (Int.ofNat_le.mpr hlast) hsame with ⟨⟨ht,-⟩,-⟩ | ⟨-,hrest⟩
      · rcases ht with hne | hne
        · exact absurd rfl hne
        · exact absurd (congrArg some hempty.symm) hne
      · rwa [nextPos, if_pos rfl] at hrest
    · rw [hempty] at hnone
      rw [h.eq_nil (hnone m.stop (Int.le_refl _) (Int.ofNat_le.mpr hlast))]
      by_cases hlt : stop < m.stop + 1
      · exact .beyond (by omega)
      · exact .unfound (by omega) (hnone _ (by omega) (by omega))
  · rw [resume, if_neg hempty]
    rwa [nextPos, if_neg (by omega)] at h

/-- Where the first match lies, and how the scan goes on behind it. -/
theorem Scanned.head (h0 : 0 ≤ pos) (h : Scanned re text stop pos previous (m :: ms)) :
    (pos ≤ m.start ∧ m.start ≤ m.stop ∧ m.stop ≤ stop) ∧
      Scanned re text stop (resume m) (some m.stop) ms := by
  generalize hfound : m :: ms = found at h
  induction h with
  | beyond | unfound => cases hfound
  | take hle hm ht rest =>
    cases hfound
    exact ⟨(hs.lands hstop).found h0 hle hm,rest.behind hs hstop h0 hle hm⟩
  | pass hle hm ht rest ih =>
    obtain ⟨hlt,-,-⟩ := nextPos_bounds (hs.lands hstop) h0 hle hm
    obtain ⟨⟨hfirst,hlies⟩,hrest⟩ := ih (by omega) hfound
    exact ⟨⟨by omega,hlies⟩,hrest⟩

/-- A scan that knows where the last match ended finds what one that does not know finds, but for
an empty match in that place. -/
theorem Scanned.restart {ms₀ : List Match} (h0 : 0 ≤ pos) (hprevious : ∀ q ∈ previous, (q : Int) ≤ pos)
    (h : Scanned re text stop pos previous ms) (h₀ : Scanned re text stop pos none ms₀) :
    (ms₀ = ms ∧ ∀ m ∈ ms.head?, ¬ (m.start = m.stop ∧ previous = some m.start)) ∨
    ∃ m, ms₀ = m :: ms ∧ m.start = m.stop ∧ previous = some m.start ∧
      Scanned re text stop (pos + 1) previous ms := by
  by_cases hle : pos ≤ stop
  · rcases search_cases hs hstop h0 hle with hnone | ⟨m,hm,hfirst,hlen,hlast⟩
    · rw [h.eq_nil hnone, h₀.eq_nil hnone]
      exact .inl ⟨rfl,nofun⟩
    obtain ⟨hlt,-,-⟩ := nextPos_bounds (hs.lands hstop) h0 hle hm
    rcases h.found_cases hle hm with ⟨ht,rest,rfl,hrest⟩ | ⟨ht,hrest⟩
    · rcases h₀.found_cases hle hm with ⟨-,rest₀,rfl,hrest₀⟩ | ⟨ht₀,-⟩
      · refine .inl ⟨by rw [hrest₀.unique hrest],fun m' hm' => ?_⟩
        cases hm'
        rintro ⟨hempty,hp⟩
        have hat := hprevious m.start hp
        exact (takes_iff.mp ht).2 ⟨by omega,hp⟩
      · exact absurd (takes_iff.mp ht).1 ht₀
    · rcases h₀.found_cases hle hm with ⟨ht₀,rest₀,rfl,hrest₀⟩ | ⟨-,hrest₀⟩
      · obtain ⟨hat,hp⟩ : m.stop = pos ∧ previous = some m.start :=
          Decidable.not_not.mp fun hne => ht (takes_iff.mpr ⟨ht₀,hne⟩)
        have hempty : m.start = m.stop := by omega
        refine .inr ⟨m,by rw [hrest₀.unique hrest],hempty,hp,?_⟩
        rwa [nextPos, if_pos hat, ← hempty, ← hp] at hrest
      · refine .inl ⟨hrest₀.unique hrest,fun m' hm' => ?_⟩
        rintro ⟨-,hp⟩
        have hat := hprevious m'.start hp
        cases ms with
        | nil => cases hm'
        | cons m' rest =>
          cases hm'
          obtain ⟨⟨hfirst',-⟩,-⟩ := hrest.head hs hstop (by omega)
          omega
  · have hnil {previous : Option Nat} {ms : List Match} (h : Scanned re text stop pos previous ms) :
        ms = [] := h.unique (.beyond (by omega))
    rw [hnil h, hnil h₀]
    exact .inl ⟨rfl,nofun⟩

end

/-! ## Searches of a piece of text -/

theorem endOf_some {size : Nat} {q : Int} (h0 : 0 ≤ q) (hq : q ≤ size) : endOf size (some q) = q.toNat := by
  rw [endOf, if_neg (by omega)]

theorem lt_steps (size : Nat) (budget : Option Nat) : size + 4 < steps size budget := by
  have hle : 2 * (size + 4) ≤ steps size budget := Nat.le_mul_of_pos_right _ (Nat.succ_pos _)
  omega

/-- The matches of a piece are found, and as many of them returned as are asked for. -/
theorem exists_matches {p q : Int} (hs : re.Serves text) (hp : 0 ≤ p) (h0 : 0 ≤ q)
    (hq : q ≤ text.size) : ∃ ms, Scanned re text q.toNat p none ms ∧
      ∀ budget, re.matchesIn text p (some q) budget = .ok (upTo budget ms) := by
  have hstop : q.toNat ≤ text.size := by omega
  obtain ⟨ms,hms⟩ := exists_scanned hs hstop hp none
  refine ⟨ms,hms,fun budget => ?_⟩
  have hfuel := lt_steps text.size budget
  rw [matchesIn, endOf_some h0 hq]
  exact hms.scan_eq hs hstop hp (by omega) budget

/-- Where matches land in the piece searched, those in a range lie one behind the other in it. -/
theorem Lands.sequenced {text : Text} {r : Span} {ms : List Match} {budget : Option Nat}
    (hl : re.Lands text.toArray r.q1.toNat) (hr : r.Within text)
    (h : re.forward text r.q0 (some r.q1) budget = .ok ms) :
    Sequenced r.q0 r.q1 (ms.map Match.span) := by
  obtain ⟨h0,h1,h2⟩ := hr
  have hsize : text.toArray.size = text.length := List.size_toArray ..
  rw [forward, matchesIn, endOf_some (by omega) (by omega)] at h
  have hms := scan_sequenced hl h h0 (Int.le_refl _) (by omega)
  rwa [Int.toNat_of_nonneg (by omega)] at hms

/-- The matches in a range of a text are found, and as many of them returned as are asked for. -/
theorem exists_forward {text : Text} {r : Span} (hs : re.Serves text.toArray) (hr : r.Within text) :
    ∃ ms, Scanned re text.toArray r.q1.toNat r.q0 none ms ∧
      Sequenced r.q0 r.q1 (ms.map Match.span) ∧
      ∀ budget, re.forward text r.q0 (some r.q1) budget = .ok (upTo budget ms) := by
  have hsize : text.toArray.size = text.length := List.size_toArray ..
  have h0 := hr.start
  have h1 := hr.ordered
  have h2 := hr.stop
  obtain ⟨ms,hscan,hmatches⟩ := exists_matches hs h0 (by omega : 0 ≤ r.q1) (by omega)
  exact ⟨ms,hscan,(hs.lands (by omega)).sequenced hr (hmatches none),hmatches⟩

end Pattern.Regex

end StructuralEdit
