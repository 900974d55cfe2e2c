import StructuralEdit.Process.Shell.Integer

/-! # Conditions on texts, numbers and files

A condition is made of primaries, which may be negated, grouped, and joined. An operator
that stands where a text is due is a text.
-/
namespace StructuralEdit.Shell.Condition
open Text (Bytes)

inductive UnaryTest
  | exists
  | isFile
  | isDirectory
  | isNotEmptyFile
  | isReadable
  | isExecutable
  | isEmptyText
  | isText
  /-- Something that nothing here is. -/
  | isOther
deriving DecidableEq

inductive BinaryTest
  | text (p : Ordering → Bool)
  | number (p : Ordering → Bool)
  | files

inductive Operator
  | unary (t : UnaryTest)
  | binary (t : BinaryTest)
  | negation
  | conjunction
  | disjunction
  | opening
  | closing

def operators : List (Bytes × Operator) :=
  [("-e", .unary .exists), ("-f", .unary .isFile), ("-d", .unary .isDirectory),
    ("-s", .unary .isNotEmptyFile), ("-r", .unary .isReadable), ("-w", .unary .isReadable),
    ("-x", .unary .isExecutable), ("-O", .unary .exists), ("-G", .unary .exists),
    ("-c", .unary .isOther), ("-b", .unary .isOther), ("-p", .unary .isOther),
    ("-u", .unary .isOther), ("-g", .unary .isOther), ("-k", .unary .isOther),
    ("-t", .unary .isOther), ("-L", .unary .isOther), ("-h", .unary .isOther),
    ("-S", .unary .isOther), ("-z", .unary .isEmptyText), ("-n", .unary .isText),
    ("=", .binary (.text (· == .eq))), ("!=", .binary (.text (· != .eq))),
    ("<", .binary (.text (· == .lt))), (">", .binary (.text (· == .gt))),
    ("-eq", .binary (.number (· == .eq))), ("-ne", .binary (.number (· != .eq))),
    ("-ge", .binary (.number (· != .lt))), ("-gt", .binary (.number (· == .gt))),
    ("-le", .binary (.number (· != .gt))), ("-lt", .binary (.number (· == .lt))),
    ("-nt", .binary .files), ("-ot", .binary .files), ("-ef", .binary .files),
    ("!", .negation), ("-a", .conjunction), ("-o", .disjunction), ("(", .opening),
    (")", .closing)].map fun (s, o) => (bytes s, o)

def operator? (t : Bytes) : Option Operator := operators.lookup t

def isBinary : Option Operator → Bool
  | some (.binary _) => true
  | _ => false

inductive Fault
  | missingBracket
  | unexpected (t : Bytes)
  | argument (operator : Bytes)
  | parenthesis
  | number (t : Bytes)

def Fault.message : Fault → Bytes
  | missingBracket => bytes "missing ]"
  | unexpected t => (if t.isEmpty then [] else t ++ bytes ": ") ++ bytes "unexpected operator"
  | argument o => o ++ bytes ": argument expected"
  | parenthesis => bytes "closing paren expected"
  | number t => bytes "Illegal number: " ++ t

/-- What is asked of files: `none` for one that is not there, else whether it is a directory and
how long it is. -/
abbrev FileView := Bytes → Option (Bool × Nat)

def UnaryTest.holds (files : FileView) (t : Bytes) : UnaryTest → Bool
  | .exists | .isReadable => (files t).isSome
  | .isFile => (files t).any fun f => !f.1
  | .isDirectory | .isExecutable => (files t).any fun f => f.1
  | .isNotEmptyFile => (files t).any fun f => f.1 || f.2 != 0
  | .isEmptyText => t.isEmpty
  | .isText => !t.isEmpty
  | .isOther => false

def numberOf (t : Bytes) : Except Fault Int :=
  match integer? (some 10) t with
  | some n => .ok n
  | none => .error (.number t)

def BinaryTest.holds (s t : Bytes) : BinaryTest → Except Fault Bool
  | .text p => .ok (p (compareBytes s t))
  | .number p => do return p (compare (← numberOf s) (← numberOf t))
  | .files => .ok false

/-- The operator that arguments begin with, unless it is a text because of what follows. -/
def leading? : List Bytes → Option Operator
  | [] => none
  | t :: rest =>
    match operator? t, rest with
    | some (.unary _), [] => none
    | some (.unary u), next :: _ :: _ => if isBinary (operator? next) then none else some (.unary u)
    | some .opening, [] => none
    | o, _ => o

/-- A condition and the arguments from the last one that belongs to it on. -/
abbrev Answer := Except Fault (Bool × List Bytes)

/-- A text alone, or two with an operator between. -/
def binaryAt (t : Bytes) (rest : List Bytes) : Answer :=
  match leading? rest, rest with
  | some (.binary b), o :: more =>
    match more with
    | [] => .error (.argument o)
    | s :: _ => (b.holds t s).map fun a => (a, more)
  | _, _ => .ok (!t.isEmpty, t :: rest)

mutual

def anyOf (files : FileView) : (fuel : Nat) → List Bytes → Answer
  | 0, ts => .ok (false, ts)
  | fuel + 1, ts => do
    let (a, ts) ← allOf files fuel ts
    match leading? ts.tail with
    | some .disjunction =>
      let (b, ts) ← anyOf files fuel (ts.drop 2)
      return (a || b, ts)
    | _ => return (a, ts)

def allOf (files : FileView) : (fuel : Nat) → List Bytes → Answer
  | 0, ts => .ok (false, ts)
  | fuel + 1, ts => do
    let (a, ts) ← one files fuel ts
    match leading? ts.tail with
    | some .conjunction =>
      let (b, ts) ← allOf files fuel (ts.drop 2)
      return (a && b, ts)
    | _ => return (a, ts)

def one (files : FileView) : (fuel : Nat) → List Bytes → Answer
  | 0, ts => .ok (false, ts)
  | fuel + 1, ts =>
    match leading? ts with
    | some .negation => do
      let (a, ts) ← one files fuel (if ts.tail.isEmpty then ts else ts.tail)
      return (!a, ts)
    | _ => primary files fuel ts

def primary (files : FileView) : (fuel : Nat) → List Bytes → Answer
  | 0, ts => .ok (false, ts)
  | fuel + 1, ts =>
    match ts, leading? ts with
    | [], _ => .ok (false, [])
    | _ :: rest, some .opening => do
      match leading? rest with
      | some .closing => return (false, rest)
      | _ =>
        let (a, ts) ← anyOf files fuel rest
        match leading? ts.tail with
        | some .closing => return (a, ts.tail)
        | _ => throw .parenthesis
    | o :: rest, some (.unary u) =>
      match rest with
      | [] => .error (.argument o)
      | t :: _ => .ok (u.holds files t, rest)
    | t :: rest, _ => binaryAt t rest

end

/-- Nothing may be left behind a condition. -/
def whole (a : Answer) : Except Fault Bool := do
  match ← a with
  | (_, t :: _ :: _) => throw (.unexpected t)
  | (a, _) => return a

/-- Whether a condition holds. Few arguments are read by their number. -/
def holds (files : FileView) : (fuel : Nat) → List Bytes → Except Fault Bool
  | 0, _ => .ok false
  | fuel + 1, ts =>
    let bound := 4 * ts.length + 4
    let full := whole (anyOf files bound ts)
    let inner := ts.tail.dropLast
    let isGroup := ts.head? == some (bytes "(") && ts.getLast? == some (bytes ")")
    match ts with
    | [] => .ok false
    | [s, o, t] =>
      if isBinary (operator? o) then whole (binaryAt s [o, t])
      else if isGroup then whole (anyOf files bound inner)
      else if s == bytes "!" then (holds files fuel [o, t]).map (!·)
      else full
    | [s, t, u, v] =>
      if isGroup then whole (anyOf files bound inner)
      else if s == bytes "!" then (holds files fuel [t, u, v]).map (!·)
      else full
    | _ => full

/-- The answer to a condition, behind an opening bracket if it is called so. -/
def answer (files : FileView) (name : Bytes) (arguments : List Bytes) : Except Fault Bool :=
  if name == bytes "[" then
    if arguments.getLast? == some (bytes "]") then holds files 3 arguments.dropLast
    else .error .missingBracket
  else holds files 3 arguments

end StructuralEdit.Shell.Condition
