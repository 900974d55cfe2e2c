import StructuralEdit.Pattern.Regex

/-! # Forward search

The matches of a text from left to right, each search beginning where the last match
ended. An empty match where the last one ended is passed over.
-/
namespace StructuralEdit.Pattern.Regex

/-- An offset as a place in a text: what lies outside becomes the nearest end. -/
def placeOf (text : Array Char) (q : Int) : Nat := min q.toNat text.size

theorem placeOf_le (text : Array Char) (q : Int) : placeOf text q ≤ text.size := Nat.min_le_right ..

/-- The first match in `[pos, stop]`; a negative offset is the start of the text. -/
def search (re : Regex) (text : Array Char) (pos : Int) (stop : Nat) :
    Except SearchFault (Option Match) :=
  if OffsetFault.isAddressable pos then re.find text (placeOf text pos) stop
  else .error .unaddressableStart

/-- The matches in `[pos, stop]`, no more than `budget` of them when one is given. -/
def scan (re : Regex) (text : Array Char) (stop : Nat) :
    (fuel : Nat) → (budget : Option Nat) → (pos : Int) → (previous : Option Nat) →
    Except SearchFault (List Match)
  | 0, _, _, _ => return []
  | fuel + 1, budget, pos, previous => do
    if stop < pos ∨ budget = some 0 then return []
    match ← re.search text pos stop with
    | none => return []
    | some m =>
      let next := if m.stop = pos then pos + 1 else m.stop
      if (m.stop ≠ pos ∨ previous ≠ some m.start) ∧ re.onBoundary text m.start then
        return m :: (← scan re text stop fuel (budget.map (· - 1)) next (some m.stop))
      scan re text stop fuel budget next (some m.stop)

/-- An absent, negative or too great end is the end of the text. -/
def endOf (size : Nat) : Option Int → Nat
  | none => size
  | some e => if e < 0 ∨ size < e then size else e.toNat

/-- Steps enough to pass through a text twice for each of some matches. -/
def steps (size : Nat) (budget : Option Nat) : Nat :=
  2 * (size + 4) * (budget.getD 0 + 1)

/-- The matches of an indexed text from `start` to `stop`. -/
def matchesIn (re : Regex) (text : Array Char) (start : Int) (stop : Option Int)
    (budget : Option Nat) : Except SearchFault (List Match) :=
  re.scan text (endOf text.size stop) (steps text.size budget) budget start none

/-- The matches from `start` to `stop`. -/
def forward (re : Regex) (text : Text) (start : Int) (stop : Option Int)
    (budget : Option Nat) : Except SearchFault (List Match) :=
  re.matchesIn text.toArray start stop budget

/-- The first match. -/
def first? (re : Regex) (text : Text) (start : Int) (stop : Option Int) :
    Except SearchFault (Option Match) :=
  return (← re.forward text start stop (some 1)).head?

end StructuralEdit.Pattern.Regex
