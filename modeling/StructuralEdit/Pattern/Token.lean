import StructuralEdit.Pattern.Problem
import StructuralEdit.Pattern.Syntax

/-! # Tokens of a pattern

The reader sees a pattern as tokens, a token being one character or a backslash
with the character behind it, and looks one token ahead. A backslash that ends
the pattern is refused as soon as the look-ahead meets it.
-/
namespace StructuralEdit.Pattern

inductive Token
  | plain (c : Char)
  | escaped (c : Char)
deriving DecidableEq

namespace Token

def text : Token → Text
  | plain c => [c]
  | escaped c => ['\\', c]

def length (t : Token) : Nat := t.text.length

end Token

/-- Where the reader stands and what it knows of the groups so far. -/
structure Reading where
  pattern : Array Char
  engine : Engine := {}
  offset : Nat := 0
  /-- The widths of the groups opened so far; a group still open has none. -/
  groups : Array (Option Width) := #[]
  names : List (Text × Nat) := []
  /-- Inside a look-behind, the first group that belongs to it. -/
  behindFrom : Option Nat := none
  /-- Groups that conditions name, each with the place of its first mention. -/
  awaited : List (Nat × Nat) := []
  modes : Modes := {}

abbrev Reader := EStateM Failure Reading

namespace Reading

def next (r : Reading) : Option Token :=
  match r.pattern[r.offset]? with
  | none => none
  | some '\\' => (r.pattern[r.offset + 1]?).map .escaped
  | some c => some (.plain c)

/-- The number the next group will get. -/
def nextGroup (r : Reading) : Nat := r.groups.size + 1

def isClosed (r : Reading) (group : Nat) : Bool :=
  match r.groups[group - 1]? with
    | some (some _) => true
    | _ => false

def groupWidth (r : Reading) (group : Nat) : Width :=
  match r.groups[group - 1]? with
  | some (some w) => w
  | _ => ⟨0, 0⟩

end Reading

namespace Reader

def fail {α : Type} (p : Problem) (back : Nat := 0) : Reader α := fun r =>
  .error (.bad p (some (r.offset - back))) r

def failAt {α : Type} (p : Problem) (offset : Nat) : Reader α :=
  throw (.bad p (some offset))

def next : Reader (Option Token) := return (← get).next

def offset : Reader Nat := return (← get).offset

/-- Stand at an offset, where no lone backslash may be next. -/
def seek (offset : Nat) : Reader Unit := do
  modify fun r => { r with offset }
  let r ← get
  if r.pattern[offset]? == some '\\' && r.pattern.size ≤ offset + 1 then
    failAt .escapeAtEnd (r.pattern.size - 1)

/-- Take the next token. -/
def take : Reader (Option Token) := do
  match ← next with
  | none => return none
  | some t =>
    seek ((← offset) + t.length)
    return some t

/-- Take the next token if it is the given character. -/
def accept (c : Char) : Reader Bool := do
  if (← next) == some (.plain c) then
    let _ ← take
    return true
  return false

/-- Take up to `n` characters of a class. -/
def takeSome (p : Char → Bool) : (n : Nat) → Reader Text
  | 0 => return []
  | n + 1 => do
    match ← next with
    | some (.plain c) =>
      if p c then
        let _ ← take
        return c :: (← takeSome p n)
      return []
    | _ => return []

/-- Take a name up to its terminator. -/
def takeName (terminator : Char) (what : Text) : Reader Text := do
  go ((← get).pattern.size + 1) []
where
  go : Nat → Text → Reader Text
    | 0, _ => return []
    | fuel + 1, name => do
      match ← take with
      | none =>
        if name.isEmpty then fail (.missingName what)
        else fail (.unterminatedName terminator) name.length
      | some t =>
        if t == .plain terminator then
          if name.isEmpty then fail (.missingName what) 1
          return name
        go fuel (name ++ t.text)

end Reader

end StructuralEdit.Pattern
