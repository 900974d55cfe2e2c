import StructuralEdit.Process.Shell.Integer

/-! # Sums in command lines

Sums are of words of 64 bits. A sum is worked out as it is read, so that the first fault
in reading order is the one that counts. What a condition passes over is read without
effect.
-/
namespace StructuralEdit.Shell.Arithmetic
open Text (Bytes)

inductive BinaryOperator
  | times
  | divide
  | remainder
  | plus
  | minus
  | shiftLeft
  | shiftRight
  | less
  | lessEqual
  | greater
  | greaterEqual
  | equal
  | different
  | bitAnd
  | bitXor
  | bitOr
deriving DecidableEq

namespace BinaryOperator

/-- Operators of a lower level bind more tightly. -/
def level : BinaryOperator → Nat
  | times | divide | remainder => 0
  | plus | minus => 1
  | shiftLeft | shiftRight => 2
  | less | lessEqual | greater | greaterEqual => 3
  | equal | different => 4
  | bitAnd => 5
  | bitXor => 6
  | bitOr => 7

def loosest : Nat := 8

def truth (b : Bool) : Int := if b then 1 else 0

/-- Work on the bits of two words. -/
def onBits (f : Nat → Nat → Nat) (a b : Int) : Int :=
  wrapSigned (f (wrapUnsigned a) (wrapUnsigned b))

/-- The result of an operation, unless it divides by zero. -/
def result? (o : BinaryOperator) (a b : Int) : Option Int :=
  let shift := wrapUnsigned b % 64
  match o with
  | times => some (wrapSigned (a * b))
  | divide => if b = 0 then none else some (wrapSigned (a.tdiv b))
  | remainder => if b = 0 then none else some (a.tmod b)
  | plus => some (wrapSigned (a + b))
  | minus => some (wrapSigned (a - b))
  | shiftLeft => some (wrapSigned (a * Nat.pow 2 shift))
  | shiftRight => some (a.fdiv (Nat.pow 2 shift))
  | less => some (truth (a < b))
  | lessEqual => some (truth (a ≤ b))
  | greater => some (truth (b < a))
  | greaterEqual => some (truth (b ≤ a))
  | equal => some (truth (a = b))
  | different => some (truth (a ≠ b))
  | bitAnd => some (onBits Nat.land a b)
  | bitXor => some (onBits Nat.xor a b)
  | bitOr => some (onBits Nat.lor a b)

end BinaryOperator

/-! ## Tokens -/

inductive Token
  | number (n : Int)
  | name (t : Bytes)
  | binary (o : BinaryOperator)
  /-- The value of a name is set, to what an operator makes of it if there is one. -/
  | assign (o : Option BinaryOperator)
  | logicalAnd
  | logicalOr
  | logicalNot
  | bitNot
  | question
  | colon
  | opening
  | closing
  | unknown
  | endOfSum
deriving DecidableEq

open BinaryOperator in
/-- Operators as they are written, longer ones in front of those they begin with. -/
def operators : List (Bytes × Token) :=
  [("<<=", Token.assign (some shiftLeft)), (">>=", .assign (some shiftRight)),
    ("<<", .binary shiftLeft), (">>", .binary shiftRight), ("<=", .binary lessEqual),
    (">=", .binary greaterEqual), ("<", .binary less), (">", .binary greater),
    ("==", .binary equal), ("=", .assign none), ("!=", .binary different), ("!", .logicalNot),
    ("||", .logicalOr), ("|=", .assign (some bitOr)), ("|", .binary bitOr),
    ("&&", .logicalAnd), ("&=", .assign (some bitAnd)), ("&", .binary bitAnd),
    ("*=", .assign (some times)), ("*", .binary times), ("/=", .assign (some divide)),
    ("/", .binary divide), ("%=", .assign (some remainder)), ("%", .binary remainder),
    ("+=", .assign (some plus)), ("+", .binary plus), ("-=", .assign (some minus)),
    ("-", .binary minus), ("^=", .assign (some bitXor)), ("^", .binary bitXor),
    ("~", .bitNot), ("?", .question), (":", .colon), ("(", .opening), (")", .closing)].map
      fun (s, t) => (bytes s, t)

def isSpace (b : UInt8) : Bool := b == 32 || b == 9 || b == 10

/-- The token a text begins with, and the bytes left. -/
def token (t : Bytes) : Token × Bytes :=
  let t := t.dropWhile isSpace
  match t with
  | [] => (.endOfSum, [])
  | b :: _ =>
    if isDigitByte b then
      let r := readInteger none t
      (.number r.signed, r.rest)
    else if beginsName b then (.name (t.takeWhile isNameByte), t.dropWhile isNameByte)
    else match operators.find? fun (s, _) => s.isPrefixOf t with
      | some (s, found) => (found, t.drop s.length)
      | none => (.unknown, t)

/-! ## Evaluation -/

inductive Fault
  | noPrimary
  | noParenthesis
  | noColon
  | noEnd
  | divisionByZero
  /-- The value of a name is no number. -/
  | noNumber (value : Bytes)

def Fault.message (sum : Bytes) : Fault → Bytes
  | noPrimary => about "expecting primary"
  | noParenthesis => about "expecting ')'"
  | noColon => about "expecting ':'"
  | noEnd => about "expecting EOF"
  | divisionByZero => about "division by zero"
  | noNumber value => bytes "Illegal number: " ++ value
where
  about (s : String) : Bytes :=
    bytes "arithmetic expression: " ++ bytes s ++ bytes ": \"" ++ sum ++ bytes "\""

structure State where
  rest : Bytes
  /-- The token that is looked at. -/
  token : Token
  value : Bytes → Bytes
  /-- The values that have been set, the last first. -/
  settings : List (Bytes × Int) := []

abbrev Evaluation := EStateM Fault State

namespace Evaluation

def advance : Evaluation Unit := modify fun s =>
  let (t, rest) := Arithmetic.token s.rest
  { s with token := t, rest }

def look : Evaluation Token := return (← get).token

def valueOf (name : Bytes) : Evaluation Int := do
  let s ← get
  match s.settings.lookup name with
  | some n => return n
  | none =>
    match integer? none (s.value name) with
    | some n => return n
    | none => throw (.noNumber (s.value name))

def operate (quiet : Bool) (o : BinaryOperator) (a b : Int) : Evaluation Int := do
  if quiet then return b
  match o.result? a b with
  | some n => return n
  | none => throw .divisionByZero

mutual

/-- A value that may be set; `quiet` where it is passed over. -/
def setting : (fuel : Nat) → (quiet : Bool) → Evaluation Int
  | 0, _ => throw .noPrimary
  | fuel + 1, quiet => do
    let s ← get
    match s.token, Arithmetic.token s.rest with
    | .name name, (.assign o, _) =>
      advance
      advance
      let n ← setting fuel quiet
      if quiet then return n
      let n ← match o with
        | some o => operate false o (← valueOf name) n
        | none => pure n
      modify fun s => { s with settings := (name, n) :: s.settings }
      return n
    | _, _ => conditional fuel quiet

def conditional : (fuel : Nat) → (quiet : Bool) → Evaluation Int
  | 0, _ => throw .noPrimary
  | fuel + 1, quiet => do
    let a ← disjunction fuel quiet
    if (← look) ≠ .question then return a
    advance
    let b ← setting fuel (quiet || a == 0)
    if (← look) ≠ .colon then throw .noColon
    advance
    let c ← conditional fuel (quiet || a != 0)
    return if a = 0 then c else b

def disjunction : (fuel : Nat) → (quiet : Bool) → Evaluation Int
  | 0, _ => throw .noPrimary
  | fuel + 1, quiet => do
    let a ← conjunction fuel quiet
    if (← look) ≠ .logicalOr then return a
    advance
    let b ← disjunction fuel (quiet || a != 0)
    return BinaryOperator.truth (a != 0 || b != 0)

def conjunction : (fuel : Nat) → (quiet : Bool) → Evaluation Int
  | 0, _ => throw .noPrimary
  | fuel + 1, quiet => do
    let a ← primary fuel quiet
    let a ← operations fuel quiet BinaryOperator.loosest a
    if (← look) ≠ .logicalAnd then return a
    advance
    let b ← conjunction fuel (quiet || a == 0)
    return BinaryOperator.truth (a != 0 && b != 0)

/-- Operations on a value, as long as their operators bind more tightly than a level. -/
def operations : (fuel : Nat) → (quiet : Bool) → (level : Nat) → (a : Int) → Evaluation Int
  | 0, _, _, _ => throw .noPrimary
  | fuel + 1, quiet, level, a => do
    match ← look with
    | .binary o =>
      if level ≤ o.level then return a
      advance
      let b ← primary fuel quiet
      let b ← operations fuel quiet o.level b
      operations fuel quiet level (← operate quiet o a b)
    | _ => return a

def primary : (fuel : Nat) → (quiet : Bool) → Evaluation Int
  | 0, _ => throw .noPrimary
  | fuel + 1, quiet => do
    match ← look with
    | .opening =>
      advance
      let n ← setting fuel quiet
      if (← look) ≠ .closing then throw .noParenthesis
      advance
      return n
    | .number n =>
      advance
      return n
    | .name name =>
      advance
      if quiet then return 0 else valueOf name
    | .binary .plus =>
      advance
      primary fuel quiet
    | .binary .minus =>
      advance
      return wrapSigned (-(← primary fuel quiet))
    | .logicalNot =>
      advance
      return BinaryOperator.truth ((← primary fuel quiet) == 0)
    | .bitNot =>
      advance
      return -(← primary fuel quiet) - 1
    | _ => throw .noPrimary

end

end Evaluation

/-- Work out a sum, given what names stand for: its value and the values it sets, in order. -/
def evaluate (value : Bytes → Bytes) (sum : Bytes) : Except Fault (Int × List (Bytes × Int)) :=
  let body : Evaluation Int := do
    Evaluation.advance
    let n ← Evaluation.setting (8 * (sum.length + 2)) false
    if (← Evaluation.look) ≠ .endOfSum then throw .noEnd
    return n
  match body { rest := sum, token := .endOfSum, value } with
  | .ok n s => .ok (n, s.settings.reverse)
  | .error e _ => .error e

end StructuralEdit.Shell.Arithmetic
