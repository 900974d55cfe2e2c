import StructuralEdit.Proofs.Search.Scan
import StructuralEdit.Search.Backward

/-! # What a backward search finds

A window that grows back from the limit stops at a line start as soon as a match begins in
it. So the search finds the best of the matches that begin at or behind some line start,
and it is the best of all of them unless a line begins behind its first character and in
front of a match that the search would take as well.
-/
namespace StructuralEdit

namespace Pattern.Regex
variable {re : Regex} {text : Array Char} {limit lower lo : Nat} {skip : Option Nat} {m m' : Match}

/-! ## The matches to choose from -/

/-- A match that ends at or before the limit and stands on the boundary it asks for, other than an
empty one at `skip`. -/
structure Offered (re : Regex) (text : Array Char) (limit : Nat) (skip : Option Nat) (m : Match) :
    Prop where
  found : re.matchAt text m.start limit = .ok (some m)
  boundary : re.onBoundary text m.start
  fresh : ¬ (m.start = m.stop ∧ some m.stop = skip)

theorem matchAt_start {pos stop : Nat} (h : re.matchAt text pos stop = .ok (some m)) :
    m.start = pos ∧ pos + re.least ≤ stop ∧ re.attempt text pos stop = .ok (some m) := by
  unfold matchAt at h
  split at h
  · cases h
  · exact ⟨start_of_attempt h,by omega,h⟩

/-- One match is offered at each place at most. -/
theorem Offered.eq_of_start (h : Offered re text limit skip m) (h' : Offered re text limit skip m')
    (hstart : m.start = m'.start) : m = m' := by
  have hfound := h.found
  rw [hstart, h'.found] at hfound
  exact (Option.some.inj (Except.ok.inj hfound)).symm

theorem Offered.bounds (ha : re.Answers text) (hlimit : limit ≤ text.size)
    (h : Offered re text limit skip m) : m.start ≤ m.stop ∧ m.stop ≤ limit := by
  obtain ⟨-,hleast,hm⟩ := matchAt_start h.found
  exact ha.lies (by omega) hlimit hm

theorem Offered.start_le (h : Offered re text limit skip m) : m.start ≤ limit := by
  obtain ⟨-,hleast,-⟩ := matchAt_start h.found
  omega

/-- Of the matches offered at or behind `lo`, the one that ends last, and of those that end with
it the longest. -/
structure Best (re : Regex) (text : Array Char) (limit : Nat) (skip : Option Nat) (lo : Nat)
    (m : Match) : Prop where
  offered : Offered re text limit skip m
  start : lo ≤ m.start
  least : ∀ {m' : Match}, Offered re text limit skip m' → lo ≤ m'.start →
    m'.stop < m.stop ∨ m'.stop = m.stop ∧ m.start ≤ m'.start

theorem Best.unique (h : Best re text limit skip lo m) (h' : Best re text limit skip lo m') :
    m = m' := by
  refine h.offered.eq_of_start h'.offered ?_
  have hle := h.least h'.offered h'.start
  have hle' := h'.least h.offered h.start
  omega

/-- What is best from further back is best from in front of it on. -/
theorem Best.mono {lo' : Nat} (h : Best re text limit skip lo m) (hle : lo ≤ lo')
    (hstart : lo' ≤ m.start) : Best re text limit skip lo' m :=
  ⟨h.offered,hstart,fun hm' hlo' => h.least hm' (Nat.le_trans hle hlo')⟩

/-- The best match offered at or behind `lo`, if there is one at all. -/
def Nearest (re : Regex) (text : Array Char) (limit : Nat) (skip : Option Nat) (lo : Nat) :
    Option Match → Prop
  | none => ∀ {m}, Offered re text limit skip m → m.start < lo
  | some m => Best re text limit skip lo m

theorem nearest_beyond (h : limit < lo) : Nearest re text limit skip lo none :=
  fun hm => Nat.lt_of_le_of_lt hm.start_le h

/-! ## One window -/

theorem readAt_of_lt {q : Nat} (hq : q < text.size) : readAt text q = .ok text[q] := by
  simp [readAt, hq]

theorem readAt_newline {q : Nat} (hq : q < text.size) :
    (do return decide ((← readAt text q) = '\n')) = (.ok (newlineAt text q) : Except SearchFault Bool) := by
  rw [readAt_of_lt hq]
  simp only [newlineAt, Array.getElem?_eq_getElem hq, Option.some_beq_some]
  rfl

theorem boundaryAt_eq {q : Nat} (hq : q ≤ text.size) :
    re.boundaryAt text q = .ok (re.onBoundary text q) := by
  unfold boundaryAt onBoundary
  by_cases hstart : re.source = ['^']
  · simp only [hstart, beq_self_eq_true, if_true]
    by_cases h0 : q = 0
    · simp [h0, pure, Except.pure]
    · have hbefore : (q : Int) - 1 = ((q - 1 : Nat) : Int) := by omega
      rw [if_pos ⟨trivial,by omega⟩, hbefore, readAt_newline (by omega)]
      simp [h0]
  · by_cases hend : re.source = ['$']
    · simp only [hend]
      by_cases hsize : q = text.size
      · simp [hsize, pure, Except.pure]
      · rw [if_neg (by simp), if_pos ⟨trivial,by omega⟩, readAt_newline (by omega)]
        simp [hsize]
    · simp [hstart, hend, pure, Except.pure]

section
variable (ha : re.Answers text) (hsize : text.size < 0x8000000000000000) (hlimit : limit ≤ text.size)
include ha hsize hlimit

theorem candidate_eq (skip : Option Nat) {q : Nat} (hq : q ≤ text.size) :
    ∃ o, re.candidate text limit skip q = .ok o ∧
      ∀ m, o = some m ↔ m.start = q ∧ Offered re text limit skip m := by
  have haddressable {n : Nat} (hn : n ≤ text.size) : OffsetFault.isAddressable (n : Int) = true := by
    simp only [OffsetFault.isAddressable, Bool.and_eq_true, decide_eq_true_eq]
    omega
  have hmatch : ∃ found, re.matchAt text q limit = .ok found := by
    unfold matchAt
    split
    · exact ⟨none,rfl⟩
    · exact ha.answered (by omega) hlimit
  obtain ⟨found,hfound⟩ := hmatch
  have hplace {n : Nat} (hn : n ≤ text.size) : placeOf text n = n := by
    rw [placeOf_eq (by omega) (by omega), Int.toNat_natCast]
  simp only [candidate, haddressable hq, haddressable hlimit, hplace hq, hplace hlimit, hfound,
    boundaryAt_eq hq, Bool.not_true, Bool.or_self, Bool.false_eq_true, if_false, pure, bind,
    Except.bind, Except.pure]
  cases found with
  | none =>
    refine ⟨none,rfl,fun m => ⟨by rintro ⟨⟩,?_⟩⟩
    rintro ⟨rfl,hm⟩
    rw [hm.found] at hfound
    cases hfound
  | some m₀ =>
    have hstart := (matchAt_start hfound).1
    have honly {m : Match} (hm : Offered re text limit skip m) (hat : m.start = q) : m = m₀ := by
      have hm := hm.found
      rw [hat, hfound] at hm
      exact (Option.some.inj (Except.ok.inj hm)).symm
    by_cases hboundary : re.onBoundary text q
    · by_cases hfresh : m₀.start = m₀.stop ∧ some m₀.stop = skip
      · refine ⟨none,by simp [hboundary, hfresh],fun m => ⟨by rintro ⟨⟩,?_⟩⟩
        rintro ⟨hat,hm⟩
        exact absurd (honly hm hat ▸ hfresh) hm.fresh
      · refine ⟨some m₀,by simp only [hboundary, if_neg hfresh]; rfl,fun m => ⟨?_,?_⟩⟩
        · rintro ⟨⟩
          exact ⟨hstart,hstart ▸ hfound,hstart ▸ hboundary,hfresh⟩
        · rintro ⟨hat,hm⟩
          rw [honly hm hat]
    · refine ⟨none,by simp [hboundary],fun m => ⟨by rintro ⟨⟩,?_⟩⟩
      rintro ⟨rfl,hm⟩
      exact absurd hm.boundary hboundary

omit ha hsize hlimit in
/-- A match one place further back is better if it ends no earlier. -/
theorem Nearest.later {best o : Option Match} (h : Nearest re text limit skip (lo + 1) best)
    (ho : ∀ m, o = some m ↔ m.start = lo ∧ Offered re text limit skip m) :
    Nearest re text limit skip lo (later best o) := by
  have hcases {m : Match} (hm : Offered re text limit skip m) (hlo : lo ≤ m.start) :
      o = some m ∨ lo + 1 ≤ m.start := by
    rcases Nat.eq_or_lt_of_le hlo with heq | hlt
    · exact .inl ((ho m).mpr ⟨heq.symm,hm⟩)
    · exact .inr hlt
  cases o with
  | none =>
    cases best with
    | none =>
      intro m hm
      refine Nat.lt_of_not_le fun hlo => ?_
      rcases hcases hm hlo with hnone | hlt
      · cases hnone
      · exact absurd (h hm) (by omega)
    | some b =>
      refine ⟨h.offered,Nat.le_of_succ_le h.start,fun hm hlo => ?_⟩
      rcases hcases hm hlo with hnone | hlt
      · cases hnone
      · exact h.least hm hlt
  | some m₀ =>
    obtain ⟨hstart,hm₀⟩ := (ho m₀).mp rfl
    cases best with
    | none =>
      refine ⟨hm₀,Nat.le_of_eq hstart.symm,fun hm hlo => ?_⟩
      rcases hcases hm hlo with heq | hlt
      · cases heq
        exact .inr ⟨rfl,Nat.le_refl _⟩
      · exact absurd (h hm) (by omega)
    | some b =>
      unfold Regex.later
      simp only
      split
      · rename_i hle
        refine ⟨hm₀,Nat.le_of_eq hstart.symm,fun hm hlo => ?_⟩
        rcases hcases hm hlo with heq | hlt
        · cases heq
          exact .inr ⟨rfl,Nat.le_refl _⟩
        · have hb := h.least hm hlt
          omega
      · rename_i hlt
        refine ⟨h.offered,Nat.le_of_succ_le h.start,fun hm hlo => ?_⟩
        rcases hcases hm hlo with heq | hfurther
        · cases heq
          exact .inl (by omega)
        · exact h.least hm hfurther

/-- The places of a window are tried from the last one back, each match held against the best one
in front of it. -/
theorem bestOf_eq (lo count : Nat) {best : Option Match} (hq : lo + count ≤ text.size + 1)
    (h : Nearest re text limit skip (lo + count) best) :
    ∃ o, re.bestOf text limit skip count ((lo + count : Nat) - 1) best = .ok o ∧
      Nearest re text limit skip lo o := by
  induction count generalizing best with
  | zero => exact ⟨best,rfl,h⟩
  | succ count ih =>
    obtain ⟨o,ho,hoffered⟩ := candidate_eq ha hsize hlimit skip (q := lo + count) (by omega)
    obtain ⟨o',ho',hnearest⟩ := ih (by omega) (h.later hoffered)
    refine ⟨o',?_,hnearest⟩
    have hplace : ((lo + (count + 1) : Nat) : Int) - 1 = (lo + count : Nat) := by omega
    rw [bestOf, hplace, ho]
    exact ho'

/-- A window ends at the limit, or where the one in front of it begins. -/
theorem window_eq (skip : Option Nat) (lo : Nat) {next : Nat} (hnext : next ≤ text.size + 1)
    (h : Nearest re text limit skip next none) :
    ∃ o, re.bestOf text limit skip ((next : Int) - 1 + 1 - lo).toNat ((next : Int) - 1) none = .ok o ∧
      Nearest re text limit skip lo o := by
  by_cases hlo : lo ≤ next
  · rw [← Nat.add_sub_cancel' hlo] at h
    obtain ⟨o,ho,hnearest⟩ := bestOf_eq ha hsize hlimit lo (next - lo) (by omega) @h
    rw [Nat.add_sub_cancel' hlo] at ho
    have hcount : ((next : Int) - 1 + 1 - lo).toNat = next - lo := by omega
    exact ⟨o,by rw [hcount]; exact ho,hnearest⟩
  · have hcount : ((next : Int) - 1 + 1 - lo).toNat = 0 := by omega
    refine ⟨none,by rw [hcount]; rfl,fun hm => ?_⟩
    have := h hm
    omega

end

/-! ## Windows that grow -/

theorem windowStart_of_newline {q room : Nat} (hlt : lower < q) (hq : q ≤ text.size)
    (hline : newlineAt text (q - 1)) : windowStart text lower (room + 1) q = .ok q := by
  have hbefore : (q : Int) - 1 = (q - 1 : Nat) := by omega
  have hread : readAt text ((q : Int) - 1) = .ok '\n' := by
    rw [hbefore, readAt_of_lt (by omega)]
    simpa [newlineAt, Array.getElem?_eq_getElem (by omega : q - 1 < text.size)] using hline
  rw [windowStart, if_neg (by omega), hread]
  rfl

theorem windowStart_eq (room : Nat) {q : Nat} (hle : lower ≤ q) (hq : q ≤ text.size)
    (hroom : q < lower + room) : ∃ lo : Nat, windowStart text lower room q = .ok lo ∧
      lower ≤ lo ∧ lo ≤ q ∧ (lo = lower ∨ newlineAt text (lo - 1)) := by
  induction room generalizing q with
  | zero => omega
  | succ room ih =>
    rcases Nat.eq_or_lt_of_le hle with rfl | hlt
    · exact ⟨lower,by rw [windowStart, if_pos (Int.le_refl _)]; rfl,hle,hle,.inl rfl⟩
    by_cases hline : newlineAt text (q - 1)
    · exact ⟨q,windowStart_of_newline hlt hq hline,hle,Nat.le_refl q,.inr hline⟩
    · obtain ⟨lo,hlo,hfirst,hlast,hat⟩ := ih (q := q - 1) (by omega) (by omega) (by omega)
      refine ⟨lo,?_,hfirst,by omega,hat⟩
      have hbefore : (q : Int) - 1 = (q - 1 : Nat) := by omega
      have hbound : q - 1 < text.size := by omega
      have hchar : text[q - 1] ≠ '\n' := by
        simpa [newlineAt, Array.getElem?_eq_getElem hbound] using hline
      rw [windowStart, if_neg (by omega), hbefore, readAt_of_lt (by omega)]
      simp only [bind, Except.bind, if_neg hchar]
      exact hlo

/-- A window begins at `lower`, or at a line start behind it and in front of the limit. -/
def WindowStart (text : Array Char) (limit lower lo : Nat) : Prop :=
  lo = lower ∨ lower < lo ∧ lo < limit ∧ newlineAt text (lo - 1)

section
variable (ha : re.Answers text) (hsize : text.size < 0x8000000000000000) (hlimit : limit ≤ text.size)
include ha hsize hlimit

/-- The search comes to an end, however many rounds it is given beyond those that are enough, and
what it finds is the best match from some window start on. -/
theorem nearest_eq (skip : Option Nat) (rounds : Nat) {next : Nat} {width : Int} (hlower : lower ≤ limit) (hwidth : 1 ≤ width)
    (hrounds : 0 < rounds) (henough : (limit : Int) - lower < rounds + width)
    (hnext : next ≤ text.size + 1) (h : Nearest re text limit skip next none) :
    ∃ o lo, (∀ more, re.nearest text limit lower skip (rounds + more) ((next : Int) - 1) width = .ok o) ∧
      WindowStart text limit lower lo ∧ Nearest re text limit skip lo o ∧ (o = none → lo = lower) := by
  -- A round that finds nothing doubles the width, which is at least one, so rounds and width go on
  -- to cover together what lies between the limits.
  induction rounds generalizing next width with
  | zero => omega
  | succ rounds ih =>
    obtain ⟨reach,hreach,hfirst,hlast⟩ : ∃ reach : Nat, max (lower : Int) (limit - width) = reach ∧
        lower ≤ reach ∧ (reach = lower ∨ reach < limit ∧ width < limit - lower) :=
      ⟨(max (lower : Int) (limit - width)).toNat,by omega,by omega,by omega⟩
    have hbound : reach ≤ text.size := by omega
    obtain ⟨lo,hlo,hle,hlt,hat⟩ := windowStart_eq (((reach : Int) - lower).toNat + 1) hfirst hbound
      (by omega)
    have hstart : WindowStart text limit lower lo := by
      rcases hat with hat | hat
      · exact .inl hat
      · by_cases hsame : lo = lower
        · exact .inl hsame
        · exact .inr ⟨by omega,by omega,hat⟩
    obtain ⟨o,ho,hnearest⟩ := window_eq ha hsize hlimit skip lo hnext h
    have hround (more : Nat) :
        re.nearest text limit lower skip (rounds + 1 + more) ((next : Int) - 1) width =
          match o with
          | some m => .ok (some m)
          | none => if lo = lower then .ok none
            else re.nearest text limit lower skip (rounds + more) ((lo : Int) - 1) (2 * width) := by
      rw [Nat.add_right_comm, nearest]
      simp only [hreach, hlo, ho, bind, Except.bind]
      cases o with
      | some m => rfl
      | none => simp only [Int.natCast_inj, pure, Except.pure]
    cases o with
    | some m => exact ⟨some m,lo,hround,hstart,hnearest,nofun⟩
    | none =>
      by_cases hend : lo = lower
      · exact ⟨none,lo,fun more => by rw [hround, if_pos hend],hstart,hnearest,fun _ => hend⟩
      · simp only [hround, if_neg hend]
        exact ih (by omega) (by omega) (by omega) (by omega) hnearest

/-- A window of the right width begins at a line start, and what is offered behind it hides
everything in front of it. -/
theorem nearest_of_newline (rounds : Nat) {line : Nat} (hfirst : lower < line) (hlast : line < limit)
    (hline : newlineAt text (line - 1)) (hm : Offered re text limit skip m)
    (hstart : line ≤ m.start) :
    ∃ m', re.nearest text limit lower skip (rounds + 1) limit (limit - line) = .ok (some m') ∧
      line ≤ m'.start := by
  have hreach : max (lower : Int) (limit - (limit - line)) = line := by omega
  obtain ⟨o,ho,hnearest⟩ := window_eq ha hsize hlimit skip line (Nat.succ_le_succ hlimit)
    (nearest_beyond (Nat.lt_add_one limit))
  have htop : ((limit + 1 : Nat) : Int) - 1 = limit := by omega
  rw [htop] at ho
  rw [nearest]
  simp only [hreach, windowStart_of_newline hfirst (by omega) hline, ho, bind, Except.bind]
  cases o with
  | none => exact absurd (hnearest hm) (by omega)
  | some m' => exact ⟨m',rfl,hnearest.start⟩

end

/-! ## The plain scan -/

/-- The matches found by trying every start back to `lower` at each step. -/
inductive PlainScan (re : Regex) (text : Array Char) (lower : Nat) :
    (budget : Option Nat) → (limit : Nat) → (skip : Option Nat) → List Match → Prop
  | spent {limit : Nat} {skip} : PlainScan re text lower (some 0) limit skip []
  | done {budget} {limit : Nat} {skip} (hb : budget ≠ some 0)
    (h : Nearest re text limit skip lower none) : PlainScan re text lower budget limit skip []
  | step {budget} {limit : Nat} {skip m ms} (hb : budget ≠ some 0)
    (h : Best re text limit skip lower m)
    (rest : PlainScan re text lower (budget.map (· - 1)) m.start (some m.start) ms) :
    PlainScan re text lower budget limit skip (m :: ms)

/-- A line begins behind the start of a match, and a match is offered behind that. -/
def Hidden (re : Regex) (text : Array Char) (limit : Nat) (skip : Option Nat) (m : Match) : Prop :=
  ∃ line, m.start < line ∧ line < limit ∧ newlineAt text (line - 1) ∧
    ∃ m', Offered re text limit skip m' ∧ line ≤ m'.start

/-- No match of a scan is hidden from a search that stops at a line start. -/
def Unhidden (re : Regex) (text : Array Char) : (limit : Nat) → (skip : Option Nat) → List Match → Prop
  | _, _, [] => True
  | limit, skip, m :: ms =>
    ¬ Hidden re text limit skip m ∧ Unhidden re text m.start (some m.start) ms

/-- What is left to scan: an empty match at the limit is taken once. -/
def remaining (limit : Nat) (skip : Option Nat) : Nat :=
  if skip = some limit then limit else limit + 1

section
variable (ha : re.Answers text) (hsize : text.size < 0x8000000000000000)
include ha

theorem Best.remaining_lt (hlimit : limit ≤ text.size) (h : Best re text limit skip lo m) :
    remaining m.start (some m.start) < remaining limit skip := by
  obtain ⟨hlen,hend⟩ := h.offered.bounds ha hlimit
  have hfresh := h.offered.fresh
  unfold remaining
  rw [if_pos rfl]
  split
  · rename_i hskip
    have hne : m.start ≠ limit := fun hat => hfresh ⟨by omega,by rw [hskip, show m.stop = limit by omega]⟩
    omega
  · omega

include hsize

theorem exists_nearest (hlimit : limit ≤ text.size) (lo : Nat) (skip : Option Nat) :
    ∃ o, Nearest re text limit skip lo o := by
  obtain ⟨o,-,hnearest⟩ := window_eq ha hsize hlimit skip lo (Nat.succ_le_succ hlimit)
    (nearest_beyond (Nat.lt_add_one limit))
  exact ⟨o,hnearest⟩

theorem exists_plainScan (lower : Nat) (hlimit : limit ≤ text.size) (budget : Option Nat) (skip : Option Nat) :
    ∃ ms, PlainScan re text lower budget limit skip ms := by
  induction hn : remaining limit skip using Nat.strongRecOn generalizing limit budget skip with
  | ind n ih =>
    by_cases hb : budget = some 0
    · exact ⟨[],hb ▸ .spent⟩
    obtain ⟨o,ho⟩ := exists_nearest ha hsize hlimit lower skip
    cases o with
    | none => exact ⟨[],.done hb ho⟩
    | some m =>
      obtain ⟨ms,hms⟩ := ih _ (hn ▸ ho.remaining_lt ha hlimit)
        (Nat.le_trans ho.offered.start_le hlimit) (budget.map (· - 1)) (some m.start) rfl
      exact ⟨m :: ms,.step hb ho hms⟩

/-- The windowed search from a limit, whatever its windows. -/
theorem search_back_ends {window : Int} (hwindow : 1 ≤ window) (hlower : lower ≤ limit)
    (hlimit : limit ≤ text.size) (skip : Option Nat) :
    ∃ o lo, (∀ more, re.nearest text limit lower skip (rounds text limit lower + more) limit window = .ok o) ∧
      WindowStart text limit lower lo ∧ Nearest re text limit skip lo o ∧ (o = none → lo = lower) := by
  have hnearest := nearest_eq ha hsize hlimit skip (rounds text limit lower) hlower hwindow
    (by unfold rounds; omega) (by unfold rounds; omega) (Nat.succ_le_succ hlimit)
    (nearest_beyond (Nat.lt_add_one limit))
  have htop : ((limit + 1 : Nat) : Int) - 1 = limit := by omega
  rwa [htop] at hnearest

theorem search_back {window : Int} (hwindow : 1 ≤ window) (hlower : lower ≤ limit)
    (hlimit : limit ≤ text.size) (skip : Option Nat) :
    ∃ o lo, re.nearest text limit lower skip (rounds text limit lower) limit window = .ok o ∧
      WindowStart text limit lower lo ∧ Nearest re text limit skip lo o ∧ (o = none → lo = lower) := by
  obtain ⟨o,lo,ho,hnearest⟩ := search_back_ends ha hsize hwindow hlower hlimit skip
  exact ⟨o,lo,ho 0,hnearest⟩

/-- A windowed search finds nothing only where there is nothing to find. -/
theorem search_back_none {window : Int} (hwindow : 1 ≤ window) (hlower : lower ≤ limit)
    (hlimit : limit ≤ text.size) (h : Nearest re text limit skip lower none) :
    re.nearest text limit lower skip (rounds text limit lower) limit window = .ok none := by
  obtain ⟨o,lo,ho,hstart,hnearest,-⟩ := search_back ha hsize hwindow hlower hlimit skip
  cases o with
  | none => exact ho
  | some m =>
    have hm := h hnearest.offered
    have hlo := hnearest.start
    rcases hstart with rfl | ⟨hlt,-⟩ <;> omega

/-- A windowed search finds the best match of all, unless that is hidden. -/
theorem search_back_best {window : Int} (hwindow : 1 ≤ window) (hlower : lower ≤ limit)
    (hlimit : limit ≤ text.size) (h : Best re text limit skip lower m)
    (hhidden : ¬ Hidden re text limit skip m) :
    re.nearest text limit lower skip (rounds text limit lower) limit window = .ok (some m) := by
  obtain ⟨o,lo,ho,hstart,hnearest,hnone⟩ := search_back ha hsize hwindow hlower hlimit skip
  cases o with
  | none =>
    have hm := hnearest h.offered
    have hlo := h.start
    rw [hnone rfl] at hm
    omega
  | some m' =>
    rcases hstart with rfl | ⟨hlt,hlast,hline⟩
    · rw [ho, hnearest.unique h]
    · by_cases hm : m.start < lo
      · exact absurd ⟨lo,hm,hlast,hline,m',hnearest.offered,hnearest.start⟩ hhidden
      · rw [ho, hnearest.unique (h.mono (Nat.le_of_lt hlt) (by omega))]

variable {budget : Option Nat} {ms : List Match} {fuel : Nat}

/-- A scan comes to an end, however many steps it is given beyond those that are enough. -/
theorem walkBack_ends {window : Int} (hwindow : 1 ≤ window) (hlower : lower ≤ limit)
    (hlimit : limit ≤ text.size) (budget : Option Nat) (skip : Option Nat) :
    ∃ ms, ∀ fuel, remaining limit skip < fuel →
      re.walkBack text window lower fuel budget limit skip = .ok ms := by
  induction hn : remaining limit skip using Nat.strongRecOn generalizing limit budget skip with
  | ind n ih =>
    by_cases hb : budget = some 0
    · refine ⟨[],fun fuel hfuel => ?_⟩
      obtain ⟨fuel,rfl⟩ : ∃ n, fuel = n + 1 := Nat.exists_eq_add_one.mpr (by omega)
      rw [walkBack, if_pos hb]
      rfl
    obtain ⟨o,lo,ho,hstart,hnearest,-⟩ := search_back ha hsize hwindow hlower hlimit skip
    cases o with
    | none =>
      refine ⟨[],fun fuel hfuel => ?_⟩
      obtain ⟨fuel,rfl⟩ : ∃ n, fuel = n + 1 := Nat.exists_eq_add_one.mpr (by omega)
      rw [walkBack, if_neg hb, ho]
      rfl
    | some m =>
      have hless := hnearest.remaining_lt ha hlimit
      have hback : lower ≤ m.start := by
        have hlo := hnearest.start
        rcases hstart with rfl | ⟨hlt,-⟩ <;> omega
      obtain ⟨ms,hms⟩ := ih _ (hn ▸ hless) hback (Nat.le_trans hnearest.offered.start_le hlimit)
        (budget.map (· - 1)) (some m.start) rfl
      refine ⟨m :: ms,fun fuel hfuel => ?_⟩
      obtain ⟨fuel,rfl⟩ : ∃ n, fuel = n + 1 := Nat.exists_eq_add_one.mpr (by omega)
      rw [walkBack, if_neg hb, ho]
      simp only [bind, Except.bind, hms fuel (by omega)]
      rfl

/-- Whatever the windows, a scan finds what the plain scan finds, if none of that is hidden. -/
theorem PlainScan.walkBack_eq {window : Int} (hwindow : 1 ≤ window) (hlower : lower ≤ limit)
    (hlimit : limit ≤ text.size) (hfuel : remaining limit skip < fuel)
    (h : PlainScan re text lower budget limit skip ms) (hms : Unhidden re text limit skip ms) :
    re.walkBack text window lower fuel budget limit skip = .ok ms := by
  induction h generalizing fuel with
  | spent =>
    cases fuel with
    | zero => rfl
    | succ fuel => rw [walkBack, if_pos rfl]; rfl
  | done hb hnone =>
    obtain ⟨fuel,rfl⟩ : ∃ n, fuel = n + 1 := Nat.exists_eq_add_one.mpr (by omega)
    rw [walkBack, if_neg hb, search_back_none ha hsize hwindow hlower hlimit hnone]
    rfl
  | @step budget limit skip m ms hb hbest rest ih =>
    obtain ⟨fuel,rfl⟩ : ∃ n, fuel = n + 1 := Nat.exists_eq_add_one.mpr (by omega)
    have hless := hbest.remaining_lt ha hlimit
    have hrest : re.walkBack text window lower fuel (budget.map (· - 1)) m.start (some m.start) =
        .ok ms :=
      ih hbest.start (Nat.le_trans hbest.offered.start_le hlimit) (by omega) hms.2
    rw [walkBack, if_neg hb, search_back_best ha hsize hwindow hlower hlimit hbest hms.1]
    simp only [bind, Except.bind, hrest]
    rfl

/-- A match that is hidden is missed with some window. -/
theorem PlainScan.unhidden (hlower : lower ≤ limit) (hlimit : limit ≤ text.size)
    (hfuel : remaining limit skip < fuel) (h : PlainScan re text lower budget limit skip ms)
    (hfree : ∀ window : Int, 1 ≤ window →
      re.walkBack text window lower fuel budget limit skip = .ok ms) :
    Unhidden re text limit skip ms := by
  induction h generalizing fuel with
  | spent | done => trivial
  | @step budget limit skip m ms hb hbest rest ih =>
    obtain ⟨fuel,rfl⟩ : ∃ n, fuel = n + 1 := Nat.exists_eq_add_one.mpr (by omega)
    have hless := hbest.remaining_lt ha hlimit
    have hstep : ∀ window : Int, 1 ≤ window →
        re.nearest text limit lower skip (rounds text limit lower) limit window = .ok (some m) ∧
        re.walkBack text window lower fuel (budget.map (· - 1)) m.start (some m.start) = .ok ms := by
      intro window hwindow
      have hwalk := hfree window hwindow
      rw [walkBack, if_neg hb] at hwalk
      obtain ⟨o,-,ho,-⟩ := search_back ha hsize hwindow hlower hlimit skip
      rw [ho] at hwalk ⊢
      cases o with
      | none => cases hwalk
      | some m' =>
        cases hrest : re.walkBack text window lower fuel (budget.map (· - 1)) m'.start (some m'.start) with
        | error f =>
          simp only [bind, Except.bind, hrest] at hwalk
          cases hwalk
        | ok rest =>
          simp only [bind, Except.bind, hrest] at hwalk
          cases hwalk
          exact ⟨rfl,hrest⟩
    refine ⟨?_,ih hbest.start (Nat.le_trans hbest.offered.start_le hlimit) (by omega)
      fun window hwindow => (hstep window hwindow).2⟩
    -- Of all windows, the one that begins at the line tells the two matches apart.
    rintro ⟨line,hfirst,hlast,hline,m',hm',hstart⟩
    obtain ⟨m'',hm'',hle⟩ := nearest_of_newline ha hsize hlimit
      ((limit - lower : Int).toNat + text.size + 1)
      (Nat.lt_of_le_of_lt hbest.start hfirst) hlast hline hm' hstart
    have hm := (hstep (limit - line) (by omega)).1
    rw [rounds, hm''] at hm
    cases hm
    omega

omit hsize in
/-- Where matches keep to a line, the one that ends last begins on the last line that counts. -/
theorem PlainScan.unhidden_of_lines (hlimit : limit ≤ text.size)
    (hlines : ∀ {pos stop : Nat} {m : Match}, re.attempt text pos stop = .ok (some m) →
      ∀ q, m.start ≤ q → q < m.stop → ¬ newlineAt text q)
    (h : PlainScan re text lower budget limit skip ms) : Unhidden re text limit skip ms := by
  induction h with
  | spent | done => trivial
  | @step budget limit skip m ms hb hbest rest ih =>
    refine ⟨?_,ih (Nat.le_trans hbest.offered.start_le hlimit)⟩
    rintro ⟨line,hfirst,hlast,hline,m',hm',hstart⟩
    have hlater := hbest.least hm' (by have := hbest.start; omega)
    have hlen := (hm'.bounds ha hlimit).1
    obtain ⟨-,-,hm⟩ := matchAt_start hbest.offered.found
    exact hlines hm (line - 1) (by omega) (by omega) hline

end

/-! ## Searches of a text -/

section
variable {text : Text} (ha : re.Answers text.toArray) (hsize : text.length < 0x8000000000000000)
include ha hsize

/-- A backward search finds what the plain scan finds, with every window alike, exactly if no match
of that scan begins in front of a line start at or behind which a match is offered as well. -/
theorem backward_window_free {lower : Nat} (hlower : lower ≤ text.length) (start : Int)
    (budget : Option Nat) :
    ∃ ms, PlainScan re text.toArray lower budget (max lower (min start text.length).toNat) none ms ∧
      ((∀ window : Int, 1 ≤ window → re.backward window text start lower budget = .ok ms) ↔
        Unhidden re text.toArray (max lower (min start text.length).toNat) none ms) := by
  have hlength : text.toArray.size = text.length := List.size_toArray ..
  obtain ⟨limit,hcast,hfirst,hlast⟩ : ∃ limit : Nat,
      max (lower : Int) (min start text.length) = limit ∧ lower ≤ limit ∧ limit ≤ text.length :=
    ⟨(max (lower : Int) (min start text.length)).toNat,by omega,by omega,by omega⟩
  have hlimit : max lower (min start text.length).toNat = limit := by omega
  have hfuel : remaining limit none < text.length + 2 + budget.getD 0 := by
    rw [remaining, if_neg (by simp)]
    omega
  obtain ⟨ms,hms⟩ := exists_plainScan ha (by omega) lower (by omega : limit ≤ text.toArray.size)
    budget none
  rw [hlimit]
  refine ⟨ms,hms,fun hfree => ?_,fun hunhidden window hwindow => ?_⟩
  · refine hms.unhidden ha (by omega) hfirst (by omega) hfuel fun window hwindow => ?_
    have hback := hfree window hwindow
    rwa [backward, hcast] at hback
  · rw [backward, hcast]
    exact hms.walkBack_eq ha (by omega) hwindow hfirst (by omega) hfuel hunhidden

/-- Matches that keep to a line are never hidden. -/
theorem backward_of_lines {lower : Nat} (hlower : lower ≤ text.length) (start : Int)
    (budget : Option Nat)
    (hlines : ∀ {pos stop : Nat} {m : Match}, re.attempt text.toArray pos stop = .ok (some m) →
      ∀ q, m.start ≤ q → q < m.stop → ¬ newlineAt text.toArray q) :
    ∃ ms, PlainScan re text.toArray lower budget (max lower (min start text.length).toNat) none ms ∧
      ∀ window : Int, 1 ≤ window → re.backward window text start lower budget = .ok ms := by
  obtain ⟨ms,hms,hfree⟩ := backward_window_free ha hsize hlower start budget
  refine ⟨ms,hms,hfree.mpr ?_⟩
  have hlength : text.toArray.size = text.length := List.size_toArray ..
  exact hms.unhidden_of_lines ha (by omega) hlines

end

/-- A pattern of which the longer alternative runs on over a line, and the shorter one is on the
second line of that: the plain scan takes the longer one. -/
theorem backward_window_free_two_lines :
    let text := "x\ny z".toList
    ∃ re, Regex.compile {} "x\\ny z|y".toList = .ok re ∧ re.Answers text.toArray ∧
      text.length < 0x8000000000000000 ∧ 0 ≤ text.length ∧
      ∃ ms, PlainScan re text.toArray 0 (some 1) (max 0 (min 5 (text.length : Int)).toNat) none ms ∧
        ((∀ window : Int, 1 ≤ window → re.backward window text 5 (0 : Nat) (some 1) = .ok ms) ↔
          Unhidden re text.toArray (max 0 (min 5 (text.length : Int)).toNat) none ms) := by
  intro text
  obtain ⟨re,hre,hg⟩ : ∃ re, Regex.compile {} "x\\ny z|y".toList = .ok re ∧
      re.groups = 0 := exists_compile (by decide +kernel)
  have ha : re.Answers text.toArray := answers_of_compile rfl hre hg
  exact ⟨re,hre,ha,by decide,by decide,backward_window_free ha (by decide) (by decide) 5 (some 1)⟩

/-- The longer one is found with a window that reaches its start, and missed with the narrowest
window, which stops at the second line. -/
theorem backward_window_matters :
    let text := "x\ny z".toList
    ∃ re, Regex.compile {} "x\\ny z|y".toList = .ok re ∧
      (re.backward 500 text 5 0 (some 1)).toOption.map (·.map Match.span) = some [⟨0, 5⟩] ∧
      (re.backward 1 text 5 0 (some 1)).toOption.map (·.map Match.span) = some [⟨2, 3⟩] :=
  exists_compile (by decide +kernel)

end Pattern.Regex

end StructuralEdit
