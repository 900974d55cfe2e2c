import StructuralEdit.Pattern.Problem
import StructuralEdit.Pattern.Matcher
import StructuralEdit.Pattern.Reader

/-! # Compiled patterns

A compiled pattern answers two questions about a text: whether and what it
matches at a position, and which position at or behind a given one is the first
where it matches. Anchors match at every line boundary.
-/
namespace StructuralEdit.Pattern

structure Regex where
  source : Text
  groups : Nat
  /-- No match is tried where fewer characters are left. -/
  least : Nat
  program : Program

/-- A match, and what its groups matched. -/
structure Match where
  start : Nat
  stop : Nat
  groups : List Span
deriving Inhabited

namespace Match

def span (m : Match) : Span := ⟨m.start, m.stop⟩

/-- The whole match followed by its groups. -/
def spans (m : Match) : List Span := m.span :: m.groups

end Match

/-- The most groups a match reports. -/
def reportedGroups : Nat := 9

/-- What a group holds at the end of a match. -/
def Track.groupSpan (t : Track) (group : Nat) : Span :=
  match t.ends? group with
  | some (a, b) => ⟨a, b⟩
  | none => .unset

/-- The match that a run from `pos` found. No group may end before it begins. -/
def Track.toMatch (t : Track) (groups pos : Nat) : Except SearchFault Match :=
  let spans := (List.range groups).map fun g => t.groupSpan (g + 1)
  if spans.any fun r => r.q1 < r.q0 then .error .reversedGroup
  else .ok ⟨pos, t.cursor, spans.take reportedGroups⟩

namespace Regex

/-- The greatest width a pattern is known to need. -/
def leastBound : Nat := 4294967295

def compile (engine : Engine) (source : Text) : Except Failure Regex :=
  match Reader.whole { pattern := source.toArray, engine, modes := { multiline := true } } with
  | .error e _ => .error e
  | .ok e r =>
    match e.problem? r.groupWidth r.modes with
    | some p => .error (.bad p none)
    | none => .ok {
        source, groups := r.groups.size, least := min (e.width r.groupWidth).min leastBound
        program := e.program engine r.groupWidth r.modes none }

/-- Try a match at a position, whatever is left of the text. -/
def attempt (re : Regex) (text : Array Char) (pos stop : Nat) :
    Except SearchFault (Option Match) :=
  match re.program.run text stop false pos (.start re.groups pos) accept with
  | .accepted t => (t.toMatch re.groups pos).map some
  | .refused _ => .ok none

/-- What the pattern matches at a position, when the text ends at `stop`. -/
def matchAt (re : Regex) (text : Array Char) (pos stop : Nat) :
    Except SearchFault (Option Match) :=
  if stop < pos + re.least then .ok none else re.attempt text pos stop

/-- The match at the first of `count + 1` positions from `pos` on where there is one. -/
def firstOf (re : Regex) (text : Array Char) (stop : Nat) :
    (count pos : Nat) → Except SearchFault (Option Match)
  | 0, pos => re.attempt text pos stop
  | count + 1, pos =>
    match re.attempt text pos stop with
    | .ok none => firstOf re text stop count (pos + 1)
    | found => found

/-- The match at the first position from `pos` to `stop` where there is one. -/
def find (re : Regex) (text : Array Char) (pos stop : Nat) : Except SearchFault (Option Match) :=
  if stop < pos + re.least then .ok none
  else re.firstOf text stop (stop - pos - (re.least - 1)) pos

/-- A lone `^` or `$` matches at true line boundaries only, not at the edges of a searched piece. -/
def onBoundary (re : Regex) (text : Array Char) (q : Nat) : Bool :=
  if re.source == ['^'] then q == 0 || newlineAt text (q - 1)
  else if re.source == ['$'] then q == text.size || newlineAt text q
  else true

end Regex

end StructuralEdit.Pattern
