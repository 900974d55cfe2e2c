import StructuralEdit.Pattern.Program

/-! # Matching

A program is run from a position of the text by backtracking: it hands every
position it can reach, best first, to a continuation, and the first one the
continuation accepts is the answer. The text ends for the program at `stop`,
while everything before the position stays visible.

A run leaves a track: the ends of groups passed and where it last was. What a
failed attempt left in the track is taken back by the part that tries again, each
kind of part taking back as much as it is said to below.
-/
namespace StructuralEdit.Pattern

/-- What a run has left behind. Group `g` puts its ends at the indices `2 * g - 2` and
`2 * g - 1`; ends at or behind `live` count as absent. -/
structure Track where
  ends : Array (Option Nat)
  live : Nat := 0
  cursor : Nat := 0
deriving Inhabited

namespace Track

def start (groups pos : Nat) : Track :=
  { ends := Array.replicate (2 * groups) none, cursor := pos }

def moveTo (t : Track) (i : Nat) : Track := { t with cursor := i }

/-- Set an end; those between it and the live ones become absent. -/
def setEnd (t : Track) (index pos : Nat) : Track :=
  let cleared := (List.range' t.live (index - t.live)).foldl
    (fun (ends : Array (Option Nat)) k => ends.setIfInBounds k none) t.ends
  { t with ends := cleared.setIfInBounds index (some pos), live := max t.live (index + 1) }

def enter (t : Track) (group pos : Nat) : Track := t.setEnd (2 * group - 2) pos

def leave (t : Track) (group pos : Nat) : Track := t.setEnd (2 * group - 1) pos

/-- Both ends of a group, if they are set and live. -/
def ends? (t : Track) (group : Nat) : Option (Nat × Nat) :=
  if t.live < 2 * group then none
  else match t.ends[2 * group - 2]?, t.ends[2 * group - 1]? with
    | some (some a), some (some b) => some (a, b)
    | _, _ => none

/-- The span of a group that can be referred to. -/
def span? (t : Track) (group : Nat) : Option (Nat × Nat) :=
  (t.ends? group).filter fun (a, b) => a ≤ b

/-- Take back how many ends are live, and inside a repetition also the ends themselves. -/
def takeBack (saved : Track) (inside : Bool) (now : Track) : Track :=
  { now with live := saved.live, ends := if inside then saved.ends else now.ends }

end Track

/-- How a run ended; accepted, the cursor is the end of what was matched. -/
inductive Outcome
  | accepted (t : Track)
  | refused (t : Track)
deriving Inhabited

abbrev Continuation := Nat → Track → Outcome

abbrev Attempt := Nat → Track → Continuation → Outcome

/-- Stop at the first position reached. -/
def accept : Continuation := fun i t => .accepted (t.moveTo i)

namespace Outcome

/-- Go on from what a failed run left. -/
@[inline] def orElse (o : Outcome) (next : Track → Outcome) : Outcome :=
  match o with
  | accepted t => accepted t
  | refused t => next t

/-- A failed run leaves the cursor where it began. -/
@[inline] def returningTo (i : Nat) (o : Outcome) : Outcome := o.orElse fun t => refused (t.moveTo i)

end Outcome

def wordAt (ascii : Bool) (text : Array Char) (i : Nat) : Bool :=
  match text[i]? with
  | some c => if ascii then isAsciiWord c else isWord c
  | none => false

def newlineAt (text : Array Char) (i : Nat) : Bool := text[i]? == some '\n'

def Assertion.holds (text : Array Char) (stop i : Nat) : Assertion → Bool
  | textStart => i == 0
  | textEnd => i == stop
  | lineStart => i == 0 || newlineAt text (i - 1)
  | lineEnd => i == stop || newlineAt text i
  | lastLineEnd => i == stop || (i + 1 == stop && newlineAt text i)
  | wordEdge ascii negated =>
    let before := 0 < i && wordAt ascii text (i - 1)
    let behind := i < stop && wordAt ascii text i
    stop != 0 && (before != behind) != negated

/-- The test holds of the character at a position. -/
def CharTest.holdsAt (text : Array Char) (stop i : Nat) (t : CharTest) : Bool :=
  if i < stop then
    match text[i]? with
    | some c => t.holds c
    | none => false
  else false

/-- The characters of `[i, i + n)` equal those of `[j, j + n)`, up to case if it is ignored. -/
def sameChars (fold : Option Fold) (text : Array Char) (i j n : Nat) : Bool :=
  (List.range n).all fun k =>
    match text[i + k]?, text[j + k]? with
    | some a, some b =>
      match fold with
      | none => a == b
      | some f => f.lower a.toNat == f.lower b.toNat
    | _, _ => false

@[inline] def below (max : Option Nat) (count : Nat) : Bool :=
  match max with
  | none => true
  | some m => count < m

/-! ## Repeated tests -/

namespace CharTest

/-- Where a run of at most `room` characters ends of which the test holds. -/
def runEnd (text : Array Char) (t : CharTest) : (room : Nat) → (i : Nat) → Nat
  | 0, i => i
  | room + 1, i =>
    match text[i]? with
    | some c => if t.holds c then runEnd text t room (i + 1) else i
    | none => i

/-- Where the longest run from `i` ends that a repetition allows. -/
def longest (text : Array Char) (stop : Nat) (max : Option Nat) (t : CharTest) (i : Nat) : Nat :=
  t.runEnd text (match max with
    | none => stop - i
    | some m => min m (stop - i)) i

/-- The test is run like a program of its own, which moves the cursor. -/
def movesCursor : CharTest → Bool
  | foldedSet .. => true
  | folded _ _ codes => 1 < codes.length
  | _ => false

end CharTest

/-- Give characters of a run back one by one, `spare` of them at most, the run ending at `j`.
Where the character that has to follow does not, nothing is tried. -/
def giveBack (text : Array Char) (stop : Nat) (ahead : Option Nat) (inside : Bool) (saved : Track)
    (k : Continuation) : (spare j : Nat) → Track → Outcome
  | spare, j, t =>
    let follows := match ahead with
      | none => true
      | some n => CharTest.holdsAt text stop j (.code false n)
    match spare with
    | 0 => if follows then (k j (t.moveTo j)).orElse fun t => .refused (saved.takeBack inside t)
      else .refused t
    | spare + 1 =>
      if follows then (k j (t.moveTo j)).orElse fun t =>
        giveBack text stop ahead inside saved k spare (j - 1) (saved.takeBack inside t)
      else giveBack text stop ahead inside saved k spare (j - 1) t

/-- Add characters to a run one by one, `room` of them at most, the run ending at `j`. -/
def takeMore (text : Array Char) (stop : Nat) (test : CharTest) (inside : Bool) (saved : Track)
    (k : Continuation) : (room j : Nat) → Track → Outcome
  | room, j, t => (k j (t.moveTo j)).orElse fun t =>
    let t := (saved.takeBack inside t).moveTo j
    if test.holdsAt text stop j then
      match room with
      | 0 => .refused (if test.movesCursor then t.moveTo (j + 1) else t)
      | room + 1 => takeMore text stop test inside saved k room (j + 1) t
    else .refused t

def repeatTest (text : Array Char) (stop : Nat) (greed : Greed) (min : Nat) (max : Option Nat)
    (test : CharTest) (ahead : Option Nat) (inside : Bool) : Attempt := fun i t k =>
  if stop < i + min then .refused t
  else
    let t := t.moveTo i
    let j := test.longest text stop (match greed with
      | .lazy => some min
      | _ => max) i
    let t := if test.movesCursor && !(greed matches .lazy && min = 0) then t.moveTo j else t
    if j < i + min then .refused t
    else match greed with
      | .greedy => giveBack text stop ahead inside t k (j - (i + min)) j t
      | .lazy => takeMore text stop test inside t k (match max with
          | none => stop - j
          | some m => m - min) j t
      | .possessive => k j (t.moveTo j)

/-! ## Repeated parts -/

namespace Attempt

/-- As many rounds as possible first. A round beyond the least number must start elsewhere than
the one before it. -/
def greedy (body : Attempt) (min : Nat) (max : Option Nat) (k : Continuation) :
    (fuel count : Nat) → (last : Option Nat) → Nat → Track → Outcome
  | 0, _, _, _, t => .refused t
  | fuel + 1, count, last, i, t =>
    if count < min then
      (body i (t.moveTo i) (greedy body min max k fuel (count + 1) last)).returningTo i
    else if below max count && last != some i then
      (body i (t.moveTo i) (greedy body min max k fuel (count + 1) (some i))).orElse fun now =>
        (k i ((t.takeBack true now).moveTo i)).returningTo i
    else (k i (t.moveTo i)).returningTo i

/-- As few rounds as possible first. -/
def lazy (body : Attempt) (min : Nat) (max : Option Nat) (inside : Bool) (k : Continuation) :
    (fuel count : Nat) → (last : Option Nat) → Nat → Track → Outcome
  | 0, _, _, _, t => .refused t
  | fuel + 1, count, last, i, t =>
    if count < min then
      (body i (t.moveTo i) (lazy body min max inside k fuel (count + 1) last)).returningTo i
    else
      (k i (t.moveTo i)).orElse fun now =>
        let now := (t.takeBack inside now).moveTo i
        if below max count && last != some i then
          (body i now (lazy body min max inside k fuel (count + 1) (some i))).returningTo i
        else .refused now

/-- Rounds from the cursor on, none of which is taken back. What a failed round beyond the least
number did to the cursor stays. -/
def possessive (body : Attempt) (min : Nat) (max : Option Nat) (start : Nat) :
    (fuel count : Nat) → (last : Option Nat) → Track → Outcome
  | 0, _, _, t => .accepted t
  | fuel + 1, count, last, t =>
    if count < min then
      match body t.cursor t accept with
      | .accepted now => possessive body min max start fuel (count + 1) last now
      | .refused now => .refused (now.moveTo start)
    else if below max count && last != some t.cursor then
      match body t.cursor t accept with
      | .accepted now => possessive body min max start fuel (count + 1) (some t.cursor) now
      | .refused now => .accepted (t.takeBack true now)
    else .accepted t

end Attempt

/-! ## Programs -/

/-- Run a program, `inside` telling whether it is part of the body of a repetition. The rounds of
a repetition are bounded by its least number and the length of the text. -/
def Program.run (text : Array Char) (stop : Nat) : (inside : Bool) → Program → Attempt
  | _, empty, i, t, k => k i t
  | _, never, _, t, _ => .refused t
  | _, test c, i, t, k => if c.holdsAt text stop i then k (i + 1) t else .refused t
  | _, assertion a, i, t, k => if a.holds text stop i then k i t else .refused t
  | inside, cat p q, i, t, k => p.run text stop inside i t fun j t => q.run text stop inside j t k
  | inside, alt guard p q, i, t, k =>
    let entered := match guard with
      | none => true
      | some c => c.holdsAt text stop i
    if entered then
      (p.run text stop inside i (t.moveTo i) k).orElse fun now =>
        q.run text stop inside i (t.takeBack inside now) k
    else q.run text stop inside i t k
  | inside, capture g p, i, t, k =>
    p.run text stop inside i (t.enter g i) fun j t => k j (t.leave g j)
  | inside, atomic p, i, t, k =>
    match p.run text stop inside i (t.moveTo i) accept with
    | .accepted t => k t.cursor t
    | .refused t => .refused (t.moveTo i)
  | inside, rep greed min max p, i, t, k =>
    let fuel := min + text.size + 2
    match greed with
    | .greedy => Attempt.greedy (p.run text stop true) min max k fuel 0 none i t
    | .lazy => Attempt.lazy (p.run text stop true) min max inside k fuel 0 none i t
    | .possessive =>
      match Attempt.possessive (p.run text stop inside) min max i fuel 0 none (t.moveTo i) with
      | .accepted t => k t.cursor t
      | .refused t => .refused t
  | inside, repeatTest greed min max c ahead, i, t, k =>
    Pattern.repeatTest text stop greed min max c ahead inside i t k
  | inside, look back negated p, i, t, k =>
    if i < back then if negated then k i t else .refused t
    else
      match p.run text stop inside (i - back) (t.moveTo (i - back)) accept with
      | .accepted now => if negated then .refused now else k i now
      | .refused now => if negated then k i (t.takeBack inside now) else .refused now
  | _, backref g fold, i, t, k =>
    match t.span? g with
    | some (a, b) =>
      if i + (b - a) ≤ stop && sameChars fold text a i (b - a) then k (i + (b - a)) t
      else .refused t
    | none => .refused t
  | inside, ifGroup g yes no, i, t, k =>
    match t.span? g with
    | some _ => yes.run text stop inside i t k
    | none => no.run text stop inside i t k

end StructuralEdit.Pattern
