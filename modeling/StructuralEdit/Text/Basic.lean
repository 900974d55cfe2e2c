/-! # Texts, offsets and spans

A text is a list of characters and an offset counts characters. Offsets are
integers because a span may be unset (both ends `-1`) or have its ends in
reversed order; reading and cutting say what such offsets mean.
-/
namespace StructuralEdit

abbrev Text := List Char

/-- The piece `[q0, q1)` of a text. -/
structure Span where
  q0 : Int
  q1 : Int
deriving DecidableEq, Inhabited

namespace Span

/-- The span of a group that took no part in a match. -/
def unset : Span := ⟨-1, -1⟩

def point (q : Int) : Span := ⟨q, q⟩

def length (r : Span) : Nat := (r.q1 - r.q0).toNat

def isEmpty (r : Span) : Bool := r.q0 == r.q1

@[simp] theorem length_point (q : Int) : (Span.point q).length = 0 := by simp [Span.point, length]

@[simp] theorem isEmpty_point (q : Int) : (Span.point q).isEmpty = true := by simp [Span.point, isEmpty]

/-- The pieces of `whole` that lie between the given spans, in order. -/
def gaps (whole : Span) (spans : List Span) : List Span :=
  match spans with
  | [] => [whole]
  | r :: rest => ⟨whole.q0, r.q0⟩ :: gaps ⟨r.q1, whole.q1⟩ rest

theorem length_gaps (whole : Span) (spans : List Span) :
    (whole.gaps spans).length = spans.length + 1 := by
  induction spans generalizing whole with
  | nil => rfl
  | cons r rest ih => simp [gaps, ih]

end Span

/-- What is wrong with an offset at which a character is read. -/
inductive OffsetFault
  /-- There is no character there. -/
  | outside
  /-- The offset is too great, or too far below zero, to address any text. -/
  | unaddressable
deriving DecidableEq

namespace OffsetFault

/-- Offsets are words of 64 bits with a sign. -/
def isAddressable (q : Int) : Bool := -0x8000000000000000 ≤ q && q < 0x8000000000000000

/-- Why nothing can be read at an offset that no character has. -/
def atOffset (q : Int) : OffsetFault := if isAddressable q then .outside else .unaddressable

def message : OffsetFault → Text
  | outside => "string index out of range".toList
  | unaddressable => "cannot fit 'int' into an index-sized integer".toList

end OffsetFault

namespace Text

/-- A negative offset counts from the end; both kinds are clipped to the text. -/
def clip (t : Text) (q : Int) : Nat :=
  if q < 0 then (q + t.length).toNat else min q.toNat t.length

/-- The characters of `[q0, q1)`, empty when the ends are reversed. -/
def slice (t : Text) (q0 q1 : Int) : Text :=
  (t.take (t.clip q1)).drop (t.clip q0)

/-- The character at an offset, counted from the end when negative. -/
def charAt? (t : Text) (q : Int) : Option Char :=
  if q < 0 then
    if q + t.length < 0 then none else t[(q + t.length).toNat]?
  else t[q.toNat]?

/-- The characters read from an offset on, up to the end of the text. From a negative offset the
reading begins behind the end, counted back, and goes through the whole text after that. -/
def readOn (t : Text) (q : Int) : Text :=
  if 0 ≤ q then t.drop q.toNat
  else if q + t.length < 0 then []
  else t.drop (q + t.length).toNat ++ t

/-- The characters in front of an offset, last one first. From a negative offset they are those in
front of the place counted back from the end. -/
def readBack (t : Text) (q : Int) : Text :=
  if 0 ≤ q then if t.length < q then [] else (t.take q.toNat).reverse
  else (t.take (q + t.length).toNat).reverse

theorem readOn_of_nat (t : Text) (q : Nat) : t.readOn q = t.drop q := by simp [readOn]

theorem readBack_of_nat (t : Text) (q : Nat) (h : q ≤ t.length) :
    t.readBack q = (t.take q).reverse := by
  unfold readBack
  rw [if_pos (by omega), if_neg (by omega)]
  simp

/-- Read the character at an offset. -/
def charAt (t : Text) (q : Int) : Except OffsetFault Char :=
  match t.charAt? q with
  | some c => .ok c
  | none => .error (.atOffset q)

/-! ## Classes of characters -/

/-- Membership in an ascending list of ranges of code points; the search ends at the first range
above. -/
def inRanges (n : Nat) : List (Nat × Nat) → Bool
  | [] => false
  | (lo, hi) :: rest => if n < lo then false else if n ≤ hi then true else inRanges n rest

/-- The code points of white space, line ends and separators. -/
def blankRanges : List (Nat × Nat) :=
  [(0x9, 0xd), (0x1c, 0x20), (0x85, 0x85), (0xa0, 0xa0), (0x1680, 0x1680), (0x2000, 0x200a),
   (0x2028, 0x2029), (0x202f, 0x202f), (0x205f, 0x205f), (0x3000, 0x3000)]

/-- The characters that separate words. -/
def isBlank (c : Char) : Bool := inRanges c.toNat blankRanges

/-- A space or a tab; these separate the parts of a command. -/
def isPad (c : Char) : Bool := c == ' ' || c == '\t'

/-- A text without the characters of a class at its ends. -/
def trim (p : Char → Bool) (t : Text) : Text :=
  ((t.dropWhile p).reverse.dropWhile p).reverse

/-- The pieces of a text between characters of a class, empty pieces left out. -/
def words (p : Char → Bool) (t : Text) : List Text :=
  let (word, done) := t.foldr (fun c (word, done) =>
    if p c then ([], if word.isEmpty then done else word :: done) else (c :: word, done)) ([], [])
  if word.isEmpty then done else word :: done

end Text

end StructuralEdit
