import StructuralEdit.Pattern.Token
import StructuralEdit.Text.Numeral

/-! # Repetitions

The bounds of a repetition and its greed. A brace that begins no bounds is an
ordinary character.
-/
namespace StructuralEdit.Pattern.Reader

/-- The largest count a repetition may have, plus one. -/
def repetitionBound : Nat := 4294967295

def repetitionCount (digits : Text) : Reader Nat := do
  if Text.digitLimit < digits.length then throw (.tooManyDigits digits.length)
  let n := Text.natOfDigits digits
  if repetitionBound ≤ n then throw .repetitionTooLarge
  return n

/-- The bounds behind an opening brace, or `none` when the brace is an ordinary character. -/
def braceBounds : Reader (Option (Nat × Option Nat)) := do
  let here ← offset
  if (← next) == some (.plain '}') then return none
  let size := (← get).pattern.size
  let lo ← takeSome Text.isDigit size
  let hi ← if ← accept ',' then takeSome Text.isDigit size else pure lo
  if !(← accept '}') then
    seek here
    return none
  let min ← if lo.isEmpty then pure 0 else repetitionCount lo
  if hi.isEmpty then return some (min, none)
  let max ← repetitionCount hi
  if max < min then failAt .repeatBounds here
  return some (min, some max)

/-- The bounds a repetition character stands for. -/
def bounds : Char → Reader (Option (Nat × Option Nat))
  | '?' => return some (0, some 1)
  | '*' => return some (0, none)
  | '+' => return some (1, none)
  | _ => braceBounds

/-- Which number of repetitions is tried first. -/
def greed : Reader Greed := do
  if ← accept '?' then return .lazy
  if ← accept '+' then return .possessive
  return .greedy

/-- Repeat the last of the items read so far. -/
def repetition (start : Nat) (min : Nat) (max : Option Nat) : List Expr → Reader (List Expr)
  | [] => failAt .nothingToRepeat start
  | last :: before => do
    if last.isAnchor then failAt .nothingToRepeat start
    if last.isRep then failAt .multipleRepeat start
    return .rep (← greed) min max (last.plainGroup?.getD last) :: before

end StructuralEdit.Pattern.Reader
