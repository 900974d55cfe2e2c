import StructuralEdit.Search.Forward

/-! # Backward search

A match behind a limit is sought by trying every start, in windows that grow back
from the limit. The match that ends closest to the limit wins, of several with
the same end the longest. Each further match ends where the last one began, or
before.
-/
namespace StructuralEdit.Pattern.Regex

/-- The character at an offset, counted from the end when negative. -/
def readAt (text : Array Char) (q : Int) : Except SearchFault Char :=
  match if 0 ≤ q then text[q.toNat]? else
      if q + text.size < 0 then none else text[(q + text.size).toNat]? with
  | some c => .ok c
  | none => .error (.offset (.atOffset q))

/-- Step back from an offset to the start of its line, but not below `lower`, with `room` steps at
most. -/
def windowStart (text : Array Char) (lower : Int) :
    (room : Nat) → (q : Int) → Except SearchFault Int
  | 0, q => .ok q
  | room + 1, q => do
    if q ≤ lower then return q
    if (← readAt text (q - 1)) = '\n' then return q
    windowStart text lower room (q - 1)

/-- A lone `^` or `$` at an offset, of which the text in front or behind decides. -/
def boundaryAt (re : Regex) (text : Array Char) (q : Int) : Except SearchFault Bool :=
  if re.source = ['^'] ∧ q ≠ 0 then return (← readAt text (q - 1)) = '\n'
  else if re.source = ['$'] ∧ q ≠ text.size then return (← readAt text q) = '\n'
  else return true

/-- The match at `q` that ends at or before `limit`, an empty one at `skip` left out. -/
def candidate (re : Regex) (text : Array Char) (limit : Int) (skip : Option Nat) (q : Int) :
    Except SearchFault (Option Match) := do
  if !OffsetFault.isAddressable q || !OffsetFault.isAddressable limit then
    throw .unaddressableStart
  match ← re.matchAt text (placeOf text q) (placeOf text limit) with
  | none => return none
  | some m =>
    if !(← re.boundaryAt text q) then return none
    return if m.start = m.stop ∧ some m.stop = skip then none else some m

/-- Of two matches the one that ends later, or the second when they end together. -/
def later (best : Option Match) : Option Match → Option Match
  | none => best
  | some m =>
    match best with
    | none => some m
    | some b => if b.stop ≤ m.stop then some m else some b

/-- The best match that starts at one of `count` offsets, the last of them being `q`. -/
def bestOf (re : Regex) (text : Array Char) (limit : Int) (skip : Option Nat) :
    (count : Nat) → (q : Int) → Option Match → Except SearchFault (Option Match)
  | 0, _, best => return best
  | count + 1, q, best => do
    bestOf re text limit skip count (q - 1) (later best (← re.candidate text limit skip q))

/-- The best match that starts in `[lower, top]`, the window reaching back `width` characters
from the limit and on to a line start. -/
def nearest (re : Regex) (text : Array Char) (limit lower : Int) (skip : Option Nat) :
    (rounds : Nat) → (top width : Int) → Except SearchFault (Option Match)
  | 0, _, _ => return none
  | rounds + 1, top, width => do
    let reach := max lower (limit - width)
    let lo ← windowStart text lower ((reach - lower).toNat + 1) reach
    match ← re.bestOf text limit skip (top + 1 - lo).toNat top none with
    | some m => return some m
    | none =>
      if lo = lower then return none
      nearest re text limit lower skip rounds (lo - 1) (2 * width)

/-- Windows enough to reach from the limit to `lower`, or to leave the text. -/
def rounds (text : Array Char) (limit lower : Int) : Nat :=
  (limit - lower).toNat + text.size + 2

/-- Matches from the limit back, each one found making a new limit of its start. -/
def walkBack (re : Regex) (text : Array Char) (window : Int) (lower : Int) :
    (fuel : Nat) → (budget : Option Nat) → (limit : Int) → (skip : Option Nat) →
    Except SearchFault (List Match)
  | 0, _, _, _ => return []
  | fuel + 1, budget, limit, skip => do
    if budget = some 0 then return []
    match ← re.nearest text limit lower skip (rounds text limit lower) limit window with
    | none => return []
    | some m =>
      return m :: (← walkBack re text window lower fuel (budget.map (· - 1)) m.start (some m.start))

/-- The matches that end at or before `start` and begin at or behind `lower`, nearest first. -/
def backward (re : Regex) (window : Int) (text : Text) (start : Int) (lower : Int)
    (budget : Option Nat) : Except SearchFault (List Match) :=
  let limit := max lower (min start text.length)
  re.walkBack text.toArray window lower (text.length + 2 + budget.getD 0) budget limit none

end StructuralEdit.Pattern.Regex
