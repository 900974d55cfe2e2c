import StructuralEdit.Text.Basic

/-! # Addresses as written

A simple address is a chain of steps, each taken from where the one before it
led. Two addresses around a comma or semicolon make a compound one.
-/
namespace StructuralEdit

/-- The types that a node of an address can have: those of steps, that of a whole text, and the
separators. -/
def addressTypes : List Char := "l#.$'/?\"*+-,;".toList

inductive Step
  | line (n : Nat)
  | char (n : Nat)
  | dot
  | last
  | mark
  | forward (re : Text)
  | backward (re : Text)
  | file (re : Text)
  | plus
  | minus
  /-- A step of a type that there is not. -/
  | other (kind : Char) (unknown : kind ∉ addressTypes)
deriving DecidableEq

abbrev Chain := List Step

inductive Separator
  | comma
  | semicolon
deriving DecidableEq

/-- The left side of a separator is a chain or left out; the right side may be compound again,
or be left out for the end of the text. -/
inductive Addr
  | chain (steps : Chain)
  | compound (left : Option Chain) (sep : Separator) (right : Addr)
  | toEnd (left : Option Chain) (sep : Separator)
deriving DecidableEq

namespace Step

/-- The type of a step. -/
def kind : Step → Char
  | line _ => 'l'
  | char _ => '#'
  | dot => '.'
  | last => '$'
  | mark => '\''
  | forward _ => '/'
  | backward _ => '?'
  | file _ => '"'
  | plus => '+'
  | minus => '-'
  | other kind _ => kind

def isFile : Step → Bool
  | file _ => true
  | _ => false

def isSign : Step → Bool
  | plus | minus => true
  | _ => false

/-- A step that does not depend on where it starts. -/
def isFixed : Step → Bool
  | dot | last | mark => true
  | _ => false

def isCount : Step → Bool
  | line _ | char _ => true
  | _ => false

end Step

namespace Chain

/-- Put a step in front of a chain. A count or search that follows neither a sign nor (a count
only) a file goes forward, so a plus is put between; fixed steps follow only a file, and a file
step follows nothing. -/
def link? (s : Step) : Chain → Option Chain
  | [] => some [s]
  | t :: rest =>
    if t.isFixed then if s.isFile then some (s :: t :: rest) else none
    else if t.isFile then none
    else if t.isSign || s.isSign || (t.isCount && s.isFile) then some (s :: t :: rest)
    else some (s :: .plus :: t :: rest)

end Chain

namespace Addr

/-- The address starts by choosing a file. -/
def startsWithFile : Addr → Bool
  | chain (s :: _) => s.isFile
  | _ => false

/-- The address starts with a separator. -/
def startsWithSeparator : Addr → Bool
  | compound none .. | toEnd none _ => true
  | _ => false

end Addr

end StructuralEdit
