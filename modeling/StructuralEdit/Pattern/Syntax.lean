import StructuralEdit.Text.Basic

/-! # Patterns as read

A pattern is read into an expression whose parts still carry the modes that were
switched on or off for them. A character is given by its code point, since an
escape may name a code point that is no character.
-/
namespace StructuralEdit.Pattern

/-- What patterns mean beyond their syntax. As documented, a possessive repetition is an atomic
one, which takes as many rounds as it can. -/
structure Engine where
  /-- The character of a name. -/
  character : Text → Option Char := fun _ => none
  /-- A possessive repetition goes on from where a failed round left the cursor, which is a defect
  of some engines. -/
  keepsFailedRounds : Bool := false

/-- The modes that letters in a pattern switch. -/
structure Modes where
  ignoreCase : Bool := false
  multiline : Bool := false
  dotAll : Bool := false
  verbose : Bool := false
  ascii : Bool := false
  unicode : Bool := false
  template : Bool := false
deriving DecidableEq, Inhabited

namespace Modes

def union (a b : Modes) : Modes where
  ignoreCase := a.ignoreCase || b.ignoreCase
  multiline := a.multiline || b.multiline
  dotAll := a.dotAll || b.dotAll
  verbose := a.verbose || b.verbose
  ascii := a.ascii || b.ascii
  unicode := a.unicode || b.unicode
  template := a.template || b.template

def minus (a b : Modes) : Modes where
  ignoreCase := a.ignoreCase && !b.ignoreCase
  multiline := a.multiline && !b.multiline
  dotAll := a.dotAll && !b.dotAll
  verbose := a.verbose && !b.verbose
  ascii := a.ascii && !b.ascii
  unicode := a.unicode && !b.unicode
  template := a.template && !b.template

def meets (a b : Modes) : Bool :=
  (a.ignoreCase && b.ignoreCase) || (a.multiline && b.multiline) || (a.dotAll && b.dotAll)
    || (a.verbose && b.verbose) || (a.ascii && b.ascii) || (a.unicode && b.unicode)
    || (a.template && b.template)

/-- The modes inside a part that adds some and removes others; a choice between the two
character repertoires replaces the one in force. -/
def within (a added removed : Modes) : Modes :=
  let base := if added.ascii || added.unicode then { a with ascii := false, unicode := false } else a
  (base.union added).minus removed

end Modes

inductive Category
  | digit
  | space
  | word
deriving DecidableEq

inductive SetItem
  | one (code : Nat)
  | range (lo hi : Nat)
  | category (kind : Category) (negated : Bool)
deriving DecidableEq

inductive Anchor
  | textStart
  | textEnd
  | lineStart
  | lineEnd
  | wordEdge
  | noWordEdge
deriving DecidableEq

/-- How a repetition chooses between more and fewer rounds. -/
inductive Greed
  | greedy
  | lazy
  | possessive
deriving DecidableEq

inductive Expr
  | empty
  /-- What no text matches; it ends a chain of alternatives. -/
  | never
  | literal (negated : Bool) (code : Nat)
  | any
  | set (negated : Bool) (items : List SetItem)
  | anchor (a : Anchor)
  | cat (first second : Expr)
  | alt (first second : Expr)
  | capture (group : Nat) (body : Expr)
  | withModes (added removed : Modes) (body : Expr)
  | atomic (body : Expr)
  | rep (greed : Greed) (min : Nat) (max : Option Nat) (body : Expr)
  | look (behind negated : Bool) (body : Expr)
  | backref (group : Nat)
  | ifGroup (group : Nat) (yes no : Expr)
deriving Inhabited

namespace Expr

def isAnchor : Expr → Bool
  | anchor _ => true
  | _ => false

def isRep : Expr → Bool
  | rep .. => true
  | _ => false

/-- A sequence of items. -/
def ofItems : List Expr → Expr
  | [] => empty
  | [e] => e
  | e :: rest => cat e (ofItems rest)

/-- The items a sequence is made of. -/
def items : Expr → List Expr
  | empty => []
  | cat a b => a.items ++ b.items
  | e => [e]

/-- The body of a group that only holds its items together. -/
def plainGroup? : Expr → Option Expr
  | withModes added removed e => if added = {} ∧ removed = {} then some e else none
  | _ => none

/-- What an item puts into the sequence it stands in: a group that only holds items together
gives them up. -/
def spliced (e : Expr) : List Expr :=
  match e.plainGroup? with
  | some body => body.items
  | none => [e]

/-- Two items that read the same and hold no other parts. -/
def sameAtom : Expr → Expr → Bool
  | literal n c, literal m d => n == m && c == d
  | any, any => true
  | set n xs, set m ys => n == m && xs == ys
  | anchor a, anchor b => a == b
  | backref g, backref h => g == h
  | _, _ => false

end Expr

/-- The least and the greatest number of characters a part can match, both bounded. -/
structure Width where
  min : Nat
  max : Nat
deriving DecidableEq, Inhabited

namespace Width

/-- A width is not told apart from a greater one from here on. -/
def bound : Nat := 0x10000000000000000

def cut (w : Width) : Width := ⟨Nat.min w.min bound, Nat.min w.max bound⟩

def add (a b : Width) : Width := cut ⟨a.min + b.min, a.max + b.max⟩

def either (a b : Width) : Width := ⟨Nat.min a.min b.min, Nat.max a.max b.max⟩

def times (min : Nat) (max : Option Nat) (w : Width) : Width :=
  cut ⟨w.min * min, match max with
    | none => if w.max == 0 then 0 else bound
    | some n => w.max * n⟩

end Width

/-- The width of a part, given the widths of the groups it may refer back to. -/
def Expr.width (groups : Nat → Width) : Expr → Width
  | empty => ⟨0, 0⟩
  | never => ⟨Width.bound, 0⟩
  | literal .. | any | set .. => ⟨1, 1⟩
  | anchor _ | look .. => ⟨0, 0⟩
  | cat a b => (a.width groups).add (b.width groups)
  | alt a b => (a.width groups).either (b.width groups)
  | capture _ e | withModes _ _ e | atomic e => e.width groups
  | rep _ min max e => (e.width groups).times min max
  | backref g => groups g
  | ifGroup _ yes no => (yes.width groups).either (no.width groups)

end StructuralEdit.Pattern
