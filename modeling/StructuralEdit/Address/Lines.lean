import StructuralEdit.Text.Basic

/-! # Counting lines and characters

Lines are counted by their newlines: forward over a number of them, or backward
over the characters before an offset, last one first. A count may begin at any
offset; what cannot be read there is a fault, and is one only when it is read.
-/
namespace StructuralEdit

/-- Why counting leads nowhere. -/
inductive CountFault
  /-- The text has not that many lines or characters. -/
  | outOfRange
  | offset (f : OffsetFault)
deriving DecidableEq

namespace Lines

/-- The characters up to and with the next newline. -/
def lineLength : Text → Nat
  | [] => 0
  | c :: rest => if c == '\n' then 1 else lineLength rest + 1

theorem lineLength_le (t : Text) : lineLength t ≤ t.length := by
  induction t with
  | nil => simp [lineLength]
  | cons c rest ih =>
    rw [lineLength, List.length_cons]
    split
    · omega
    · omega

/-- The characters up to and with the `n`th newline, if there are so many. -/
def skip : (n : Nat) → Text → Option Nat
  | 0, _ => some 0
  | _ + 1, [] => none
  | n + 1, c :: rest =>
    if c == '\n' then (skip n rest).map (· + 1) else (skip (n + 1) rest).map (· + 1)

/-- Nothing can be read in front of an offset. -/
def unreadBefore (q : Int) : OffsetFault := .atOffset (q - 1)

/-- The end of the line that an offset stands in, its newline included. -/
def lineEnd (t : Text) (q : Int) : Except OffsetFault Int :=
  if t.length ≤ q then .ok q
  else if q + t.length < 0 then .error (.atOffset q)
  else .ok (q + lineLength (t.readOn q))

/-- The start of the line that an offset stands in; an offset before the text is one. -/
def lineStart (t : Text) (q : Int) : Except OffsetFault Int :=
  if q ≤ 0 then .ok q
  else if t.length < q then .error (unreadBefore q)
  else .ok ((t.readBack q).dropWhile (· != '\n')).length

/-- Count newlines back from `q` through the characters in front of it, and give the offset behind
the last one counted. The start of the text counts as one more. -/
def back : (n : Nat) → (before : Text) → (q : Int) → Except CountFault Int
  | 0, _, q => .ok q
  | n + 1, [], q =>
    if q ≠ 0 then .error (.offset (unreadBefore q))
    else if n = 0 then .ok 0 else .error .outOfRange
  | n + 1, c :: before, q =>
    if c == '\n' then if n = 0 then .ok q else back n before (q - 1)
    else back (n + 1) before (q - 1)

def reading {α : Type} : Except OffsetFault α → Except CountFault α
  | .ok a => .ok a
  | .error f => .error (.offset f)

/-- The line that begins after `count` newlines from `q` on. -/
def lineAfter (t : Text) (q : Int) (count : Nat) : Except CountFault Span :=
  match skip count (t.readOn q) with
  | none => .error .outOfRange
  | some k => do
    let stop ← reading (lineEnd t (q + k))
    return ⟨q + k, stop⟩

/-- The line `n`, counted from the start of the text; line `0` is its start. -/
def absolute (t : Text) (n : Int) : Except CountFault Span :=
  if n = 0 then .ok (.point 0) else lineAfter t 0 (n - 1).toNat

/-- The line `n` lines on from the end of a span; `0` is the rest of the line the end is in. A
newline in front of the end counts, so that the next line is line `1`. -/
def onward (t : Text) (q1 n : Int) : Except CountFault Span :=
  if q1 = 0 then absolute t n
  else if n = 0 then do
    let stop ← reading (lineEnd t (q1 - 1))
    return ⟨q1, stop⟩
  else do
    let c ← reading (t.charAt (q1 - 1))
    lineAfter t q1 (if c = '\n' then n - 1 else n).toNat

/-- The line `n` lines back from the start of a span; `0` is the part of the line in front. -/
def backward (t : Text) (q0 n : Int) : Except CountFault Span := do
  let stop ← back n.toNat (t.readBack q0) q0
  let first ← reading (lineStart t (if n ≠ 0 ∧ 0 < stop then stop - 1 else stop))
  return ⟨first, stop⟩

/-- The line `n` counted absolutely, onward or backward as the sign says. -/
def address (t : Text) (n : Int) (r : Span) (sign : Int) : Except CountFault Span :=
  if sign = 0 then absolute t n
  else if 0 < sign then onward t r.q1 n
  else backward t r.q0 n

/-- The place `n` characters from the start of the text or from a span. -/
def charAddress (t : Text) (n : Int) (r : Span) (sign : Int) : Option Span :=
  let q := if sign = 0 then n else if sign < 0 then r.q0 - n else r.q1 + n
  if q < 0 ∨ (t.length : Int) < q then none else some (.point q)

/-- The number of newlines in a piece, and of the characters behind the last one. -/
def count (t : Text) : Nat × Nat :=
  (t.count '\n', (t.reverse.takeWhile (· != '\n')).length)

/-- The lines of a piece that begins at `q`, each without its newline. -/
def ranges (q : Int) (t : Text) : List Span :=
  match t with
  | [] => []
  | c :: rest =>
    if c == '\n' then .point q :: ranges (q + 1) rest
    else match ranges (q + 1) rest with
      | [] => [⟨q, q + 1⟩]
      | r :: more => ⟨q, r.q1⟩ :: more

end Lines

end StructuralEdit
