import Mathlib.Data.List.Chain
import StructuralEdit.Proofs.Search.Wrap

/-! # Searches end and miss nothing

A scan from left to right gives the matches of its piece one behind the other, and wherever the
pattern matches there is one of them, but for nothing matched right behind one. A search back from a
limit gives matches each in front of the one before, and finds none only where there is none. Both
come to an end by themselves.
-/
namespace StructuralEdit.Pattern.Regex

/-! ## Searches come to their end -/

section
variable {re : Regex} {text : Text}

/-- The searches of a text end by themselves: each is answered, and steps beyond those it is given
change nothing. -/
structure ComesToEnd (re : Regex) (window : Int) (text : Text) : Prop where
  scan : ∀ {start : Int} (stop : Option Int) (budget : Option Nat), 0 ≤ start →
    ∃ ms, ∀ fuel, steps text.length budget ≤ fuel →
      re.scan text.toArray (endOf text.length stop) fuel budget start none = .ok ms
  nearest : ∀ {limit lower : Nat} (skip : Option Nat), lower ≤ limit → limit ≤ text.length →
    ∃ o, ∀ fuel, rounds text.toArray limit lower ≤ fuel →
      re.nearest text.toArray limit lower skip fuel limit window = .ok o
  walkBack : ∀ {limit lower : Nat} (budget : Option Nat), lower ≤ limit → limit ≤ text.length →
    ∃ ms, ∀ fuel, text.length + 2 + budget.getD 0 ≤ fuel →
      re.walkBack text.toArray window lower fuel budget limit none = .ok ms

theorem endOf_le (size : Nat) (stop : Option Int) : endOf size stop ≤ size := by
  unfold endOf
  split
  · exact Nat.le_refl _
  · split <;> omega

theorem comesToEnd {window : Int} (ha : re.Answers text.toArray)
    (hsize : text.length < 0x8000000000000000) (hwindow : 1 ≤ window) : re.ComesToEnd window text := by
  have hlength : text.toArray.size = text.length := List.size_toArray ..
  refine ⟨fun stop budget h0 => ?_,fun skip hlower hlimit => ?_,fun budget hlower hlimit => ?_⟩
  · have hend := endOf_le text.length stop
    have hs := ha.serves (by omega)
    obtain ⟨ms,hms⟩ := exists_scanned hs (by omega : endOf text.length stop ≤ text.toArray.size) h0 none
    have hfuel := lt_steps text.length budget
    exact ⟨upTo budget ms,fun fuel hle => hms.scan_eq hs (by omega) h0 (by omega) budget⟩
  · obtain ⟨o,-,ho,-⟩ := search_back_ends ha (by omega) hwindow hlower (by omega) skip
    refine ⟨o,fun fuel hle => ?_⟩
    rw [← Nat.add_sub_cancel' hle]
    exact ho _
  · obtain ⟨ms,hms⟩ := walkBack_ends ha (by omega) hwindow hlower (by omega) budget none
    refine ⟨ms,fun fuel hle => hms fuel ?_⟩
    rw [remaining, if_neg (by simp)]
    omega

end

variable {re : Regex} {text : Array Char} {stop : Nat} {m : Match} {ms : List Match}

/-! ## From left to right -/

/-- The pattern matches nothing at a place, and that is where the last match ended. -/
def Passed (re : Regex) (text : Array Char) (stop : Nat) (previous : Option Nat) (q : Nat) : Prop :=
  previous = some q ∧ ∃ m, re.matchAt text q stop = .ok (some m) ∧ m.stop = q

/-- The first match at or behind `pos`, when the last one ended at `previous`. -/
structure First (re : Regex) (text : Array Char) (stop pos : Nat) (previous : Option Nat) (m : Match) :
    Prop where
  found : re.attempt text m.start stop = .ok (some m)
  boundary : re.onBoundary text m.start
  behind : pos ≤ m.start
  ordered : m.start ≤ m.stop
  inside : m.stop ≤ stop
  fresh : ¬ (m.start = m.stop ∧ previous = some m.start)
  least : ∀ q, pos ≤ q → q < m.start → Hits re text stop q → Passed re text stop previous q

/-- Each match is the first one behind the one before it, and behind the last one there is none. -/
def Exhausts (re : Regex) (text : Array Char) (stop : Nat) : (pos : Nat) → (previous : Option Nat) → List Match → Prop
  | pos, previous, [] => ∀ q, pos ≤ q → Hits re text stop q → Passed re text stop previous q
  | pos, previous, m :: ms => First re text stop pos previous m ∧ Exhausts re text stop m.stop (some m.stop) ms

/-- Where a scan stands that has taken a match up to `previous`, or none, and goes on from `p` to find
the first one behind `pos`: it has missed nothing so far. The match it met last ended at `last`. -/
structure Stands (re : Regex) (text : Array Char) (stop pos : Nat) (previous : Option Nat) (p : Int)
    (last : Option Nat) : Prop where
  start : pos ≤ p
  passed : ∀ q : Nat, pos ≤ q → q < p → Hits re text stop q → Passed re text stop previous q
  met : ∀ r ∈ last, Hits re text stop r → previous = some r
  taken : ∀ r ∈ previous, r ≤ p ∧ (p = r → last = some r)

section
variable {pos : Nat} {previous last : Option Nat} {p : Int}

theorem passed_of_found (hm : re.attempt text m.start stop = .ok (some m)) (hempty : m.stop = m.start)
    (h : Hits re text stop m.start) (hprevious : previous = some m.start) : Passed re text stop previous m.start := by
  obtain ⟨m',hm',-⟩ := h
  obtain ⟨-,-,hattempt⟩ := matchAt_start hm'
  rw [hm] at hattempt
  cases hattempt
  exact ⟨hprevious,m,hm',hempty⟩

/-- What a search from `p` leads to: the first match there is, behind which the scan goes on. -/
structure Met (re : Regex) (text : Array Char) (stop : Nat) (p : Int) (m : Match) : Prop where
  found : re.attempt text m.start stop = .ok (some m)
  behind : p ≤ m.start
  ordered : m.start ≤ m.stop
  inside : m.stop ≤ stop
  least : ∀ q : Nat, p ≤ q → q < m.start → ¬ Hits re text stop q

theorem met_of_search (hserves : re.Serves text) (hstop : stop ≤ text.size) (h0 : 0 ≤ p) (hle : p ≤ stop)
    (h : re.search text p stop = .ok (some m)) : Met re text stop p m := by
  obtain ⟨hfirst,hlen,hlast⟩ := (hserves.lands hstop).found h0 hle h
  rw [search_eq_find hserves hstop h0 hle] at h
  exact ⟨(find_found h).2.2,hfirst,hlen,hlast,fun q hq hlt => find_first h (by omega) hlt⟩

/-- Only behind an empty match at `p` the scan goes on further than its end. -/
theorem Met.next_cases (hm : Met re text stop p m) :
    nextPos p m = m.stop ∧ p < m.stop ∨ nextPos p m = m.stop + 1 ∧ m.start = m.stop ∧ m.stop = p := by
  have hfirst := hm.behind
  have hlen := hm.ordered
  unfold nextPos
  split <;> omega

section
variable (hs : Stands re text stop pos previous p last) (hm : Met re text stop p m)
include hm

/-- Behind a match that was taken nothing has been missed yet. -/
theorem Met.take : Stands re text stop m.stop (some m.stop) (nextPos p m) (some m.stop) := by
  have hnext := hm.next_cases
  refine ⟨by omega,fun q hq hlt h => ?_,fun r hr _ => hr,fun r hr => ?_⟩
  -- Only behind an empty match is a place left out, and that is its own.
  · obtain ⟨hempty,rfl⟩ : m.start = m.stop ∧ q = m.start := by omega
    exact passed_of_found hm.found hempty.symm h (congrArg some hempty.symm)
  · cases hr
    exact ⟨by omega,fun _ => rfl⟩

include hs

/-- What is met is the first match, if it is taken. -/
theorem Stands.first (ht : Takes re text p last m) : First re text stop pos previous m := by
  have hfirst := hm.behind
  have hpos := hs.start
  refine ⟨hm.found,ht.2,by omega,hm.ordered,hm.inside,?_,fun q hq hlt h => ?_⟩
  · rintro ⟨hempty,hprevious⟩
    obtain ⟨hreached,hsame⟩ := hs.taken m.start hprevious
    exact (takes_iff.mp ht).2 ⟨by omega,hsame (by omega)⟩
  · by_cases hbefore : q < p
    · exact hs.passed q hq hbefore h
    · exact absurd h (hm.least q (by omega) hlt)

/-- What is met and not taken is no match at its place, or matches nothing right behind the last one. -/
theorem Stands.pass (hanchored : re.Anchored text) (ht : ¬ Takes re text p last m) :
    Stands re text stop pos previous (nextPos p m) (some m.stop) := by
  obtain ⟨hempty,hat⟩ : m.stop = m.start ∧ (Hits re text stop m.start → previous = some m.start) := by
    by_cases hboundary : re.onBoundary text m.start
    · have hagain : m.stop = p ∧ last = some m.start :=
        Decidable.not_not.mp fun hne => ht (takes_iff.mpr ⟨⟨.inr nofun,hboundary⟩,hne⟩)
      have hfirst := hm.behind
      have hlen := hm.ordered
      exact ⟨by omega,hs.met m.start hagain.2⟩
    · exact ⟨hanchored hm.found hboundary,fun ⟨_,_,hon⟩ => absurd hon hboundary⟩
  have hfirst := hm.behind
  have hnext := hm.next_cases
  have hpos := hs.start
  refine ⟨by omega,fun q hq hlt h => ?_,fun r hr h => ?_,fun r hr => ?_⟩
  · by_cases hbefore : q < p
    · exact hs.passed q hq hbefore h
    by_cases hbetween : q < m.start
    · exact absurd h (hm.least q (by omega) hbetween)
    obtain rfl : q = m.start := by omega
    exact passed_of_found hm.found hempty h (hat h)
  · cases hr
    rw [hempty] at h ⊢
    exact hat h
  · have hreached := (hs.taken r hr).1
    exact ⟨by omega,fun heq => by omega⟩

end

end

/-- A scan finds the first match, and the first one behind it, and so on until there is none. -/
theorem Scanned.exhausts (hanchored : re.Anchored text) (hserves : re.Serves text) (hstop : stop ≤ text.size)
    {p : Int} {last : Option Nat} (h : Scanned re text stop p last ms) (h0 : 0 ≤ p) {pos : Nat}
    {previous : Option Nat} (hs : Stands re text stop pos previous p last) :
    Exhausts re text stop pos previous ms := by
  -- By the steps of the scan: what is not taken leaves `pos` and `previous` as they are.
  induction h generalizing pos previous with
  | beyond hlt =>
    intro q hq h
    have := h.le
    exact hs.passed q hq (by omega) h
  | @unfound p last hle hnone =>
    rw [search_eq_find hserves hstop h0 hle] at hnone
    intro q hq h
    by_cases hbefore : q < p
    · exact hs.passed q hq hbefore h
    · exact absurd h (find_none hnone (by omega))
  | take hle hsearch ht rest ih =>
    have hm := met_of_search hserves hstop h0 hle hsearch
    have hnext := hm.next_cases
    exact ⟨hs.first hm ht,ih (by omega) hm.take⟩
  | pass hle hsearch ht rest ih =>
    have hm := met_of_search hserves hstop h0 hle hsearch
    have hnext := hm.next_cases
    exact ih (by omega) (hs.pass hm hanchored ht)

namespace Exhausts
variable {pos : Nat} {previous : Option Nat}

theorem within (h : Exhausts re text stop pos previous ms) :
    ∀ m ∈ ms, pos ≤ m.start ∧ m.start ≤ m.stop ∧ m.stop ≤ stop := by
  induction ms generalizing pos previous with
  | nil => nofun
  | cons m ms ih =>
    obtain ⟨hm,hms⟩ := h
    refine List.forall_mem_cons.mpr ⟨⟨hm.behind,hm.ordered,hm.inside⟩,fun m' hm' => ?_⟩
    obtain ⟨hbehind,hbounds⟩ := ih hms m' hm'
    exact ⟨Nat.le_trans hm.behind (Nat.le_trans hm.ordered hbehind),hbounds⟩

theorem found (h : Exhausts re text stop pos previous ms) :
    ∀ m ∈ ms, re.attempt text m.start stop = .ok (some m) ∧ re.onBoundary text m.start := by
  induction ms generalizing pos previous with
  | nil => nofun
  | cons m ms ih => exact List.forall_mem_cons.mpr ⟨⟨h.1.found,h.1.boundary⟩,ih h.2⟩

theorem sequence (h : Exhausts re text stop pos previous ms) :
    ms.IsChain fun m m' => m.stop ≤ m'.start ∧ ¬ (m'.start = m.stop ∧ m'.stop = m.stop) := by
  induction ms generalizing pos previous with
  | nil => exact .nil
  | cons m ms ih =>
    cases ms with
    | nil => exact .singleton m
    | cons m' ms =>
      have hm' := h.2.1
      refine List.isChain_cons_cons.mpr ⟨⟨hm'.behind,?_⟩,ih h.2⟩
      rintro ⟨hstart,hstop⟩
      exact hm'.fresh ⟨hstart.trans hstop.symm,congrArg some hstart.symm⟩

/-- Wherever the pattern matches a match has been found, or nothing is matched right behind one. -/
theorem covered (h : Exhausts re text stop pos previous ms) {q : Nat} (hq : pos ≤ q) (hhits : Hits re text stop q) :
    Passed re text stop previous q ∨
      ∃ m ∈ ms, m.start ≤ q ∧ (q < m.stop ∨ q = m.start ∨ Passed re text stop (some m.stop) q) := by
  induction ms generalizing pos previous with
  | nil => exact .inl (h q hq hhits)
  | cons m ms ih =>
    obtain ⟨hm,hms⟩ := h
    by_cases hbefore : q < m.start
    · exact .inl (hm.least q hq hbefore hhits)
    by_cases hinside : q < m.stop
    · exact .inr ⟨m,List.mem_cons_self,by omega,.inl hinside⟩
    rcases ih hms (by omega) with hpassed | ⟨m',hm',hcovers⟩
    · exact .inr ⟨m,List.mem_cons_self,by omega,.inr (.inr hpassed)⟩
    · exact .inr ⟨m',List.mem_cons_of_mem m hm',hcovers⟩

/-- In the gaps in front of the matches, between them and behind them the pattern matches nowhere. -/
theorem gaps (h : Exhausts re text stop pos previous ms) (hprevious : ∀ r ∈ previous, r ≤ pos) :
    ∀ r ∈ Span.gaps ⟨pos, stop⟩ (ms.map Match.span), ∀ q : Nat, r.q0 < q → q < r.q1 → ¬ Hits re text stop q := by
  induction ms generalizing pos previous with
  | nil =>
    intro r hr q hq hlt hhits
    obtain rfl := List.mem_singleton.mp hr
    simp only at hq
    have hle := hprevious q (h q (by omega) hhits).1
    omega
  | cons m ms ih =>
    obtain ⟨hm,hms⟩ := h
    refine List.forall_mem_cons.mpr ⟨fun q hq hlt hhits => ?_,ih hms fun r hr => by cases hr; exact Nat.le_refl _⟩
    simp only [Match.span] at hq hlt
    have hle := hprevious q (hm.least q (by omega) (by omega) hhits).1
    omega

end Exhausts

/-- The matches of `[start, stop]`, in order, with none missed. -/
structure LeftToRight (re : Regex) (text : Array Char) (start stop : Nat) (ms : List Match) : Prop where
  /-- Each is what the pattern matches at its place. -/
  found : ∀ m ∈ ms, re.attempt text m.start stop = .ok (some m) ∧ re.onBoundary text m.start
  within : ∀ m ∈ ms, start ≤ m.start ∧ m.start ≤ m.stop ∧ m.stop ≤ stop
  /-- Each lies behind the one before it, and is not empty where that one ended. -/
  sequence : ms.IsChain fun m m' => m.stop ≤ m'.start ∧ ¬ (m'.start = m.stop ∧ m'.stop = m.stop)
  /-- Between them the pattern matches nowhere. -/
  gaps : ∀ r ∈ Span.gaps ⟨start, stop⟩ (ms.map Match.span), ∀ q : Nat, r.q0 < q → q < r.q1 → ¬ Hits re text stop q
  /-- Where it matches a match begins or lies, but that it may match nothing where one ends. -/
  covered : ∀ q, start ≤ q → Hits re text stop q →
    ∃ m ∈ ms, m.start ≤ q ∧ (q < m.stop ∨ q = m.start ∨ Passed re text stop (some m.stop) q)

theorem Exhausts.leftToRight {start : Nat} (h : Exhausts re text stop start none ms) :
    LeftToRight re text start stop ms where
  found := h.found
  within := h.within
  sequence := h.sequence
  gaps := h.gaps nofun
  covered _ hq hhits := (h.covered hq hhits).resolve_left fun hpassed => nomatch hpassed.1

/-- A search forward gives the matches from left to right and misses none, or as many of them as are
asked for, however many steps it is given beyond those that are enough. -/
theorem forward_exhausts {engine : Engine} {pattern text : Text} (hre : compile engine pattern = .ok re)
    (ha : re.Answers text.toArray) (hsize : text.length < 0x8000000000000000) (start : Nat) (stop : Option Int) :
    ∃ ms, LeftToRight re text.toArray start (endOf text.length stop) ms ∧
      re.forward text start stop none = .ok ms ∧
      (∀ k, re.forward text start stop (some k) = .ok (ms.take k)) ∧
      ∀ budget fuel, steps text.length budget ≤ fuel →
        re.scan text.toArray (endOf text.length stop) fuel budget start none = re.forward text start stop budget := by
  have hlength : text.toArray.size = text.length := List.size_toArray ..
  have hstop : endOf text.length stop ≤ text.toArray.size := hlength ▸ endOf_le text.length stop
  have hserves := ha.serves (by omega)
  obtain ⟨ms,hms⟩ := exists_scanned hserves hstop (Int.natCast_nonneg start) none
  have hscan (budget : Option Nat) (fuel : Nat) (hfuel : steps text.length budget ≤ fuel) :
      re.scan text.toArray (endOf text.length stop) fuel budget start none = .ok (upTo budget ms) := by
    have := lt_steps text.length budget
    exact hms.scan_eq hserves hstop (Int.natCast_nonneg start) (by omega) budget
  have hforward (budget : Option Nat) : re.forward text start stop budget = .ok (upTo budget ms) := by
    rw [forward, matchesIn, hlength]
    exact hscan budget _ (Nat.le_refl _)
  have hstands : Stands re text.toArray (endOf text.length stop) start none start none :=
    ⟨Int.le_refl _,fun q hq hlt => by omega,by simp,by simp⟩
  refine ⟨ms,?_,hforward none,fun k => hforward (some k),fun budget fuel hfuel => ?_⟩
  · exact (hms.exhausts (anchored_of_compile hre) hserves hstop (Int.natCast_nonneg start) hstands).leftToRight
  · rw [hscan budget fuel hfuel, hforward]

/-- A pattern that may match nothing does so in front of a letter it does not match, and not behind the
letters it matches. -/
theorem forward_exhausts_nullable :
    let text := "baab".toList
    ∃ re, compile {} "a*".toList = .ok re ∧ re.Answers text.toArray ∧ text.length < 0x8000000000000000 ∧
      ∃ ms, LeftToRight re text.toArray 0 4 ms ∧ re.forward text (0 : Nat) none none = .ok ms ∧
        ms.map Match.span = [⟨0, 0⟩, ⟨1, 3⟩, ⟨4, 4⟩] := by
  intro text
  obtain ⟨re,hre,hg,hspans⟩ : ∃ re, compile {} "a*".toList = .ok re ∧ re.groups = 0 ∧
      (re.forward text (0 : Nat) none none).toOption.map (·.map Match.span) = some [⟨0, 0⟩, ⟨1, 3⟩, ⟨4, 4⟩] :=
    exists_compile (by decide +kernel)
  have ha : re.Answers text.toArray := answers_of_compile rfl hre hg
  obtain ⟨ms,hms,hforward,-⟩ := forward_exhausts hre ha (by decide) 0 none
  rw [hforward] at hspans
  exact ⟨re,hre,ha,by decide,ms,hms,hforward,Option.some.inj hspans⟩

/-! ## Back from a limit -/

/-- Matches back from a limit, none of them in front of `lower`: each is offered at the start of the one
before it, which is not to be matched again as nothing. -/
def Recedes (re : Regex) (text : Array Char) (lower : Nat) : (limit : Nat) → (skip : Option Nat) → List Match → Prop
  | _, _, [] => True
  | limit, skip, m :: ms => Offered re text limit skip m ∧ lower ≤ m.start ∧ Recedes re text lower m.start (some m.start) ms

theorem WindowStart.le {limit lower lo : Nat} (h : WindowStart text limit lower lo) : lower ≤ lo := by
  rcases h with rfl | ⟨hlt,-⟩
  · exact Nat.le_refl _
  · exact Nat.le_of_lt hlt

section
variable {limit lower : Nat} {skip : Option Nat} (ha : re.Answers text)
include ha

theorem Recedes.within (h : Recedes re text lower limit skip ms) (hlimit : limit ≤ text.size) :
    ∀ m ∈ ms, lower ≤ m.start ∧ m.start ≤ m.stop ∧ m.stop ≤ limit := by
  induction ms generalizing limit skip with
  | nil => nofun
  | cons m ms ih =>
    obtain ⟨hoffered,hlower,hms⟩ := h
    obtain ⟨hlen,hlast⟩ := hoffered.bounds ha hlimit
    refine List.forall_mem_cons.mpr ⟨⟨hlower,hlen,hlast⟩,fun m' hm' => ?_⟩
    obtain ⟨hlower',hlen',hlast'⟩ := ih hms (by omega) m' hm'
    exact ⟨hlower',hlen',by omega⟩

theorem Recedes.sequence (h : Recedes re text lower limit skip ms) (hlimit : limit ≤ text.size) :
    ms.IsChain fun m m' => m'.stop ≤ m.start ∧ ¬ (m'.start = m.start ∧ m'.stop = m.start) := by
  induction ms generalizing limit skip with
  | nil => exact .nil
  | cons m ms ih =>
    obtain ⟨hoffered,-,hms⟩ := h
    obtain ⟨hlen,hlast⟩ := hoffered.bounds ha hlimit
    cases ms with
    | nil => exact .singleton m
    | cons m' ms =>
      obtain ⟨-,hbefore⟩ := hms.1.bounds ha (by omega : m.start ≤ text.size)
      refine List.isChain_cons_cons.mpr ⟨⟨hbefore,?_⟩,ih hms (by omega)⟩
      rintro ⟨hstart,hstop⟩
      exact hms.1.fresh ⟨hstart.trans hstop.symm,congrArg some hstop⟩

variable (hsize : text.size < 0x8000000000000000) {window : Int} (hwindow : 1 ≤ window)
  {fuel : Nat} {budget : Option Nat}
include hsize hwindow

/-- Each step back is offered, and leads to a new limit that is no further than the last one. -/
theorem walkBack_recedes (hlower : lower ≤ limit) (hlimit : limit ≤ text.size)
    (h : re.walkBack text window lower fuel budget limit skip = .ok ms) : Recedes re text lower limit skip ms := by
  induction fuel generalizing limit skip budget ms with
  | zero =>
    cases h
    trivial
  | succ fuel ih =>
    by_cases hb : budget = some 0
    · rw [walkBack, if_pos hb] at h
      cases h
      trivial
    rw [walkBack, if_neg hb] at h
    obtain ⟨o,ho,h⟩ := result_of_bind h
    obtain ⟨_,lo,ho',hstart,hnearest,-⟩ := search_back ha hsize hwindow hlower hlimit skip
    cases ho.symm.trans ho'
    cases o with
    | none =>
      cases h
      trivial
    | some m =>
      obtain ⟨rest,hrest,h⟩ := result_of_bind h
      cases h
      have hback := Nat.le_trans hstart.le hnearest.start
      exact ⟨hnearest.offered,hback,ih hback (Nat.le_trans hnearest.offered.start_le hlimit) hrest⟩

/-- A walk back finds nothing only where no match is offered. -/
theorem walkBack_eq_nil_iff (hlower : lower ≤ limit) (hlimit : limit ≤ text.size) (hb : budget ≠ some 0)
    (h : re.walkBack text window lower (fuel + 1) budget limit skip = .ok ms) :
    ms = [] ↔ ∀ m, Offered re text limit skip m → m.start < lower := by
  rw [walkBack, if_neg hb] at h
  obtain ⟨o,ho,h⟩ := result_of_bind h
  obtain ⟨_,lo,ho',hstart,hnearest,hnone⟩ := search_back ha hsize hwindow hlower hlimit skip
  cases ho.symm.trans ho'
  cases o with
  | none =>
    cases h
    rw [hnone rfl] at hnearest
    exact ⟨fun _ m hm => hnearest hm,fun _ => rfl⟩
  | some m =>
    obtain ⟨rest,-,h⟩ := result_of_bind h
    cases h
    refine ⟨fun hnil => absurd hnil (List.cons_ne_nil m rest),fun hall => ?_⟩
    have hbefore := hall m hnearest.offered
    have hback := Nat.le_trans hstart.le hnearest.start
    omega

end

/-- A search backward comes to its end; it gives matches between its bounds, each in front of the one
before, and none only if the pattern matches at no place between the bounds. -/
theorem backward_recedes {text : Text} (ha : re.Answers text.toArray) (hsize : text.length < 0x8000000000000000)
    {window : Int} (hwindow : 1 ≤ window) {lower : Nat} (hlower : lower ≤ text.length) (start : Int)
    (budget : Option Nat) :
    let limit := max lower (min start text.length).toNat
    re.ComesToEnd window text ∧ ∃ ms, re.backward window text start lower budget = .ok ms ∧
      Recedes re text.toArray lower limit none ms ∧
      (∀ m ∈ ms, lower ≤ m.start ∧ m.start ≤ m.stop ∧ m.stop ≤ limit) ∧
      (ms.IsChain fun m m' => m'.stop ≤ m.start ∧ ¬ (m'.start = m.start ∧ m'.stop = m.start)) ∧
      (budget ≠ some 0 → (ms = [] ↔ ¬ ∃ q, lower ≤ q ∧ Hits re text.toArray limit q)) := by
  intro limit
  have hlength : text.toArray.size = text.length := List.size_toArray ..
  have hcast : max (lower : Int) (min start text.length) = limit := by omega
  have hends := comesToEnd ha hsize hwindow
  obtain ⟨ms,hms⟩ := hends.walkBack budget (by omega : lower ≤ limit) (by omega)
  have hback : re.walkBack text.toArray window lower (text.length + 1 + budget.getD 0 + 1) budget limit none = .ok ms :=
    hms _ (by omega)
  have hrecedes := walkBack_recedes ha (by omega) hwindow (by omega) (by omega) hback
  refine ⟨hends,ms,?_,hrecedes,hrecedes.within ha (by omega),hrecedes.sequence ha (by omega),fun hb => ?_⟩
  · rw [backward, hcast]
    exact hms _ (Nat.le_refl _)
  · rw [walkBack_eq_nil_iff ha (by omega) hwindow (by omega) (by omega) hb hback]
    refine ⟨fun hall => ?_,fun hnone m hm => ?_⟩
    · rintro ⟨q,hq,m,hm,hboundary⟩
      obtain ⟨rfl,-,-⟩ := matchAt_start hm
      exact absurd (hall m ⟨hm,hboundary,by simp⟩) (by omega)
    · by_contra hge
      exact hnone ⟨m.start,by omega,m,hm.found,hm.boundary⟩

/-- Behind the letters nothing is matched again where they begin, but in front of the letter before them,
although the narrowest window holds only the end of the text at first. -/
theorem backward_recedes_nullable :
    let text := "baa".toList
    ∃ re, compile {} "a*".toList = .ok re ∧ re.Answers text.toArray ∧ text.length < 0x8000000000000000 ∧
      ∃ ms, re.backward 1 text 7 (0 : Nat) none = .ok ms ∧ ms.map Match.span = [⟨1, 3⟩, ⟨0, 0⟩] ∧
        ms.IsChain (fun m m' => m'.stop ≤ m.start ∧ ¬ (m'.start = m.start ∧ m'.stop = m.start)) ∧
        ∃ q, 0 ≤ q ∧ Hits re text.toArray 3 q := by
  intro text
  obtain ⟨re,hre,hg,hspans⟩ : ∃ re, compile {} "a*".toList = .ok re ∧ re.groups = 0 ∧
      (re.backward 1 text 7 (0 : Nat) none).toOption.map (·.map Match.span) = some [⟨1, 3⟩, ⟨0, 0⟩] :=
    exists_compile (by decide +kernel)
  have ha : re.Answers text.toArray := answers_of_compile rfl hre hg
  obtain ⟨-,ms,hback,-,-,hsequence,hempty⟩ := backward_recedes ha (by decide) (Int.le_refl 1) (Nat.zero_le _) 7 none
  rw [hback] at hspans
  have hms : ms.map Match.span = [⟨1, 3⟩, ⟨0, 0⟩] := Option.some.inj hspans
  have hne : ms ≠ [] := by
    rintro rfl
    cases hms
  exact ⟨re,hre,ha,by decide,ms,hback,hms,hsequence,not_not.mp (mt (hempty nofun).mpr hne)⟩

end StructuralEdit.Pattern.Regex
