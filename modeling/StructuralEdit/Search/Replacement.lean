import StructuralEdit.Pattern.Regex
import StructuralEdit.Search.Forward
import StructuralEdit.Text.Numeric

/-! # Substitution

The matches a substitution selects, and what it puts in their place.
-/
namespace StructuralEdit
open Pattern

namespace Replacement

/-- The text of a group, empty if it took no part. -/
def groupText (text : Text) (groups : List Span) (i : Nat) : Text :=
  match groups[i]? with
  | some r => if r = .unset then [] else text.slice r.q0 r.q1
  | none => []

/-- Put in the whole match for `&` and a group for an escaped digit but zero; any other escaped
character stands for itself. -/
def expand (text : Text) (groups : List Span) : (template : Text) → Text
  | [] => []
  | c :: rest =>
    if c == '\\' then
      match rest with
      | [] => ['\\']
      | e :: rest' =>
        (if Text.isDigit e && e != '0' then groupText text groups (Text.digitValue e) else [e])
          ++ expand text groups rest'
    else if c == '&' then
      (match groups.head? with
        | some r => text.slice r.q0 r.q1
        | none => []) ++ expand text groups rest
    else c :: expand text groups rest

/-- The matches from `p` to `stop`, an empty one where the last one ended left out: from the
`count`th on, or the `count`th alone. -/
def select (re : Regex) (text : Array Char) (stop : Int) (all : Bool) :
    (fuel : Nat) → (count p : Int) → (previous : Option Nat) → Except SearchFault (List Match)
  | 0, _, _, _ => return []
  | fuel + 1, count, p, previous => do
    if stop < p then return []
    match ← re.matchesIn text p (some stop) (some 1) with
    | [] => return []
    | m :: _ =>
      if m.start = m.stop ∧ previous = some m.start then
        select re text stop all fuel count (p + 1) previous
      else
        let next := if m.start = m.stop then m.stop + 1 else m.stop
        if 1 < count then select re text stop all fuel (count - 1) next (some m.stop)
        else if all then
          return m :: (← select re text stop all fuel (count - 1) next (some m.stop))
        else return [m]

/-- The matches in a range that a substitution replaces. -/
def selected (re : Regex) (text : Text) (r : Span) (all : Bool) (count : Int) :
    Except SearchFault (List Match) :=
  select re text.toArray r.q1 all (Regex.steps text.length (some count.toNat)) count r.q0 none

end Replacement

end StructuralEdit
