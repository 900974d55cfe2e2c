import StructuralEdit.Pattern.Syntax
import StructuralEdit.Text.Basic
import StructuralEdit.Text.Casing
import StructuralEdit.Text.Numeric

/-! # Tests of one character

A test is what a literal, a dot or a set becomes once the modes around it are
known. Where case is ignored the lower case of the character is tested, against
items in lower case and their partners of the same upper case.
-/
namespace StructuralEdit.Pattern

/-- How case is ignored: within the first 128 code points, or everywhere. -/
inductive Fold
  | ascii
  | full
deriving DecidableEq

namespace Fold

def lower : Fold → Nat → Nat
  | ascii, n => if 65 ≤ n && n ≤ 90 then n + 32 else n
  | full, n => Text.lowerCode n

def others : Fold → Nat → List Nat
  | ascii, _ => []
  | full, n => Text.otherLower n

def hasCase : Fold → Nat → Bool
  | ascii, n => (65 ≤ n && n ≤ 90) || (97 ≤ n && n ≤ 122)
  | full, n => Text.hasCase n

def someHasCase : Fold → Nat → Nat → Bool
  | ascii, lo, hi => (lo ≤ 90 && 65 ≤ hi) || (lo ≤ 122 && 97 ≤ hi)
  | full, lo, hi => Text.someHasCase lo hi

/-- The code points with the given lower case. -/
def sources : Fold → Nat → List Nat
  | ascii, n =>
    if 97 ≤ n && n ≤ 122 then [n, n - 32] else if 65 ≤ n && n ≤ 90 then [] else [n]
  | full, n => Text.lowerPreimages n

end Fold

def isWord (c : Char) : Bool := Text.isAlphanumeric c || c == '_'

def isAsciiWord (c : Char) : Bool := c.toNat < 128 && isWord c

def Category.holds (ascii : Bool) : Category → Char → Bool
  | digit, c => if ascii then Text.isDigit c else Text.isDecimal c
  | space, c =>
    if ascii then c == ' ' || (9 ≤ c.toNat && c.toNat ≤ 13) else Text.isBlank c
  | word, c => if ascii then isAsciiWord c else isWord c

/-- The first code point beyond the basic plane. -/
def planeEnd : Nat := 65536

namespace SetItem

def holds (ascii : Bool) (c : Char) : SetItem → Bool
  | one n => c.toNat == n
  | range lo hi => lo ≤ c.toNat && c.toNat ≤ hi
  | category k negated => k.holds ascii c != negated

/-- The item has a member that case could make a difference for. -/
def hasCase (fold : Fold) : SetItem → Bool
  | one n => planeEnd ≤ fold.lower n || fold.hasCase n
  | range lo hi => planeEnd ≤ hi || fold.someHasCase lo hi
  | category .. => false

/-- The test of a lower case code point `l`. Beyond the basic plane an item is compared as it
stands, a range also with the upper case of `l`. -/
def holdsFolded (fold : Fold) (ascii : Bool) (l : Nat) : SetItem → Bool
  | one n =>
    if fold.lower n < planeEnd then l == fold.lower n || (fold.others (fold.lower n)).contains l
    else l == n
  | range lo hi =>
    ((l :: fold.others l).any fun e => (fold.sources e).any fun i =>
        lo ≤ i && i ≤ hi && i < planeEnd)
      || (planeEnd ≤ hi && ((lo ≤ l && l ≤ hi) || (lo ≤ Text.upperCode l && Text.upperCode l ≤ hi)))
  | category k negated => k.holds ascii (Char.ofNat l) != negated

end SetItem

inductive CharTest
  | any
  | notNewline
  | code (negated : Bool) (n : Nat)
  | folded (negated : Bool) (fold : Fold) (codes : List Nat)
  | set (negated ascii : Bool) (items : List SetItem)
  | foldedSet (negated ascii : Bool) (fold : Fold) (items : List SetItem)

namespace CharTest

def holds (c : Char) : CharTest → Bool
  | any => true
  | notNewline => c != '\n'
  | code negated n => (c.toNat == n) != negated
  | folded negated fold codes => codes.contains (fold.lower c.toNat) != negated
  | set negated ascii items => (items.any (·.holds ascii c)) != negated
  | foldedSet negated ascii fold items =>
    (items.any (·.holdsFolded fold ascii (fold.lower c.toNat))) != negated

/-- The test for one code point. -/
def ofCode (fold : Option Fold) (negated : Bool) (n : Nat) : CharTest :=
  match fold with
  | none => code negated n
  | some f =>
    if f.hasCase n then folded negated f (f.lower n :: f.others (f.lower n)) else code negated n

/-- The test for a set; case is ignored only if it could make a difference for some item. -/
def ofSet (fold : Option Fold) (ascii negated : Bool) (items : List SetItem) : CharTest :=
  match fold with
  | none => set negated ascii items
  | some f =>
    if items.any (·.hasCase f) then foldedSet negated ascii f items else set negated ascii items

end CharTest

end StructuralEdit.Pattern
