import StructuralEdit.Address.Lines
import StructuralEdit.Fault
import StructuralEdit.Search.Backward
import StructuralEdit.Search.Forward
import StructuralEdit.Search.Memory

/-! # Addresses evaluated as they are read

Address text behind a file name is evaluated in one pass, one character of
look-ahead being all it needs. Evaluation reports failure by a flag and a warning;
where the address ends does not depend on it.
-/
namespace StructuralEdit.RawAddress
open Pattern

/-- The direction a sign gives to the count or search behind it. -/
inductive Direction
  | none
  | fore
  | back
deriving DecidableEq

/-- What a number counts. -/
inductive Measure
  | line
  | char
deriving DecidableEq

inductive Warning
  | outOfRange
  | noMatch
  | noPattern
deriving DecidableEq

def Warning.message : Warning → Text
  | outOfRange => "address out of range\n".toList
  | noMatch => "no match for regexp\n".toList
  | noPattern => "no previous regular expression\n".toList

/-- Why an evaluation stays where it is. -/
inductive Refusal
  | quiet
  | warned (w : Warning)
  | offset (f : OffsetFault)
deriving DecidableEq

/-- Where an evaluation leads, or why it stays where it is. -/
abbrev Outcome := Except Refusal Span

/-! ## Counting -/

/-- Count lines back through the characters before an offset: what is left of the count, and the
ends of the range passed. -/
def countBack : (count : Nat) → (before : Text) → (q1 : Nat) → Nat × Nat × Nat
  | 0, before, q1 => (0, before.length, q1)
  | count, [], q1 => (count, 0, q1)
  | count + 1, c :: before, q1 =>
    if c == '\n' then countBack count before (before.length + 1)
    else countBack (count + 1) before q1

/-- Count lines on through the characters from `q1`: what is left of the count, and the ends of
the range passed. -/
def countFore : (count : Nat) → (rest : Text) → (q0 q1 : Int) → Nat × Int × Int
  | 0, _, q0, q1 => (0, q0, q1)
  | count, [], q0, q1 => (count, q0, q1)
  | count + 1, c :: rest, q0, q1 =>
    if c == '\n' then countFore count rest (if count = 0 then q0 else q1 + 1) (q1 + 1)
    else countFore (count + 1) rest q0 (q1 + 1)

/-- The first offset from `q` on that stands behind a newline, or is the end of the text. An offset
outside the text is left as it is. -/
def nextLineStart (t : Text) (q : Int) : Int :=
  if q ≤ 0 ∨ t.length ≤ q ∨ t.charAt? (q - 1) = some '\n' then q
  else q + Lines.lineLength (t.readOn q)

def charNumber (t : Text) (r : Span) (count : Int) (d : Direction) : Outcome :=
  let q := match d with
    | .fore => r.q1 + count
    | .back => (if r.q0 = 0 ∧ 0 < count then (t.length : Int) else r.q0) - count
    | .none => count
  if q < 0 ∨ (t.length : Int) < q then .error (.warned .outOfRange) else .ok (.point q)

def reading {α : Type} : Except OffsetFault α → Except Refusal α
  | .ok a => .ok a
  | .error f => .error (.offset f)

/-- Lines back from a span. An offset that is not inside the text begins no line. -/
def linesBack (t : Text) (r : Span) (count : Int) : Outcome := do
  if r.q0 ≤ 0 then
    return ← if 1 < count then .error (.warned .outOfRange) else .ok (.point r.q0)
  let start ← reading (if r.q0 < t.length then Lines.lineStart t r.q0 else .ok r.q0)
  if t.length < start then .error (.offset (Lines.unreadBefore start))
  let (left, q0, q1) := countBack count.toNat (t.readBack start) start.toNat
  if 1 < left then .error (.warned .outOfRange)
  return ⟨← reading (Lines.lineStart t q0), q1⟩

/-- Lines on from an offset; one line past the last one is the end of the text. -/
def linesFrom (t : Text) (start count : Int) : Outcome := do
  if 0 < count ∧ start + t.length < 0 then .error (.offset (.atOffset start))
  let (left, q0, q1) := countFore count.toNat (t.readOn start) start start
  if 0 < left ∧ ¬(left = 1 ∧ q1 = t.length) then .error (.warned .outOfRange)
  return ⟨q0, q1⟩

def lineNumber (t : Text) (r : Span) (count : Int) (d : Direction) : Outcome :=
  match d with
  | .back => linesBack t r count
  | .fore => linesFrom t (nextLineStart t r.q1) count
  | .none => linesFrom t 0 count

/-- Move by lines or characters from a span. -/
def number (t : Text) (r : Span) (count : Int) (d : Direction) : Measure → Outcome
  | .char => charNumber t r count d
  | .line => lineNumber t r count d

/-! ## Searching -/

/-- What an evaluation works on; without a source it only finds where the address ends. -/
structure Context where
  source : Option Text
  limits : Span := .unset
  showWarnings : Bool := true

structure State where
  patterns : PatternMemory
  warnings : List Text := []

abbrev Evaluation := EStateM Fault State

/-- The text an evaluation works on, which must be there. -/
def Context.text (ctx : Context) (use : TextUse) : Evaluation Text :=
  match ctx.source with
  | some t => return t
  | none => throw (.noText use)

/-- A value after an outcome: the new span, or the old one and a warning. -/
def settle (ctx : Context) (r : Span) : Outcome → Evaluation (Span × Bool)
  | .ok r' => return (r', true)
  | .error .quiet => return (r, false)
  | .error (.offset f) => throw (.offset f)
  | .error (.warned w) => do
    if ctx.showWarnings then
      modify fun s => { s with warnings := s.warnings ++ [w.message] }
    return (r, false)

/-- Move by lines or characters from a span of the text at hand. -/
def move (ctx : Context) (r : Span) (count : Int) (d : Direction) (m : Measure) :
    Evaluation (Span × Bool) := do
  settle ctx r (number (← ctx.text .measuring) r count d m)

/-- The nearest match behind a span, or in front of it. A pattern that does not compile is
passed over in silence. -/
def search (ctx : Context) (r : Span) (pattern : Text) (d : Direction) :
    Evaluation (Span × Bool) := do
  let memory := (← get).patterns
  let effective := if pattern.isEmpty then memory.last else pattern
  if effective.isEmpty then return ← settle ctx r (.error (.warned .noPattern))
  let (result, patterns) := memory.compile effective
  modify fun s => { s with patterns }
  match result with
  | .error (.bad ..) => settle ctx r (.error .quiet)
  | .error f => throw (.pattern f)
  | .ok re =>
    modify fun s => { s with patterns := s.patterns.remember pattern }
    let text ← ctx.text .searching
    let found := match d with
      | .back => re.backward patterns.window text r.q0 0 (some 1)
      | _ => re.forward text r.q1 (if ctx.limits.q0 < 0 then none else some ctx.limits.q1)
          (some 1)
    match found with
    | .error f => throw (.search f)
    | .ok (m :: _) => return (m.span, true)
    | .ok [] => settle ctx r (.error (.warned .noMatch))

/-! ## Reading -/

/-- What has been evaluated when a character is about to be read. -/
structure Progress where
  r : Span
  /-- What a dot stands for. -/
  ambient : Span
  direction : Direction := .none
  /-- The character read before, or looked at. -/
  previous : Option Char := none
  evaluating : Bool

structure Result where
  r : Span
  evaluated : Bool
  stop : Int
deriving DecidableEq

def Progress.result (p : Progress) (stop : Int) : Result := ⟨p.r, p.evaluating, stop⟩

/-- Evaluate a part if evaluation is still on. -/
def Progress.evaluate (p : Progress) (f : Evaluation (Span × Bool)) : Evaluation Progress := do
  if !p.evaluating then return p
  let (r, evaluating) ← f
  return { p with r, evaluating }

/-- The characters to come, those that end at an offset, and where they begin. -/
structure Reading where
  rest : Text
  q : Int
  stop : Int

namespace Reading

/-- The part of the characters to come that belongs to the address. -/
def piece (x : Reading) : Text := x.rest.take (x.stop - x.q).toNat

def skip (x : Reading) (n : Nat) : Reading := { x with rest := x.rest.drop n, q := x.q + n }

/-- The characters read end where the address does, or there was something behind them. -/
def require (x : Reading) (ended : Bool) (n : Nat) : Evaluation Unit := do
  if !ended && n = x.piece.length && x.q + n < x.stop then throw (.offset (.atOffset (x.q + n)))

end Reading

/-- The pattern from the characters behind its delimiter: its text, how many characters it took,
and whether something ended it. Escapes are kept as they are written. -/
def patternAt (delim : Char) : Text → Text × Nat × Bool
  | [] => ([], 0, false)
  | c :: rest =>
    if c == '\n' then ([], 0, true)
    else if c == '\\' then
      match rest with
      | [] => (['\\'], 1, false)
      | e :: rest' =>
        let (t, n, ended) := patternAt delim rest'
        ('\\' :: e :: t, n + 2, ended)
    else if c == delim then ([], 1, true)
    else
      let (t, n, ended) := patternAt delim rest
      (c :: t, n + 1, ended)

def isSign (c : Option Char) : Bool := c == some '+' || c == some '-'

def signDirection (c : Option Char) : Direction :=
  if c == some '+' then .fore else if c == some '-' then .back else .none

def opensOperand (c : Option Char) : Bool := c == some '#' || c == some '/' || c == some '?'

/-- What the characters read next make of an evaluation. -/
inductive Turn
  | ends (result : Result)
  | goesOn (x : Reading) (p : Progress)
  /-- Another address follows, and the range that begins at `start` ends where that one does. -/
  | separates (start : Int) (x : Reading) (p : Progress)

/-- At the end of the text a sign that nothing followed moves by a line. -/
def finish (ctx : Context) (x : Reading) (p : Progress) : Evaluation Turn := do
  if p.direction = .none then return .ends (p.result x.q)
  return .ends ((← p.evaluate (move ctx p.r 1 p.direction .line)).result x.q)

/-- Behind a comma or a semicolon, whose right side may be left out if there is a text. -/
def separatorAt (ctx : Context) (c : Char) (x : Reading) (p : Progress) : Evaluation Turn := do
  let ambient := if c == ';' then p.r else p.ambient
  let start := if p.previous.isNone then 0 else p.r.q0
  if x.stop ≤ x.q ∧ ctx.source.isSome then
    return .ends ⟨⟨start, (← ctx.text .measuring).length⟩, p.evaluating, x.q⟩
  return .separates start x { r := ambient, ambient, evaluating := p.evaluating }

/-- A sign behind a sign: the first one owes its line unless an operand follows. -/
def signAfter (ctx : Context) (x : Reading) (p : Progress) : Evaluation Progress := do
  if !p.evaluating || !isSign p.previous then return p
  x.require false 0
  if opensOperand x.piece.head? then return p
  p.evaluate (move ctx p.r 1 (signDirection p.previous) .line)

/-- Behind a sign. -/
def signAt (ctx : Context) (c : Char) (x : Reading) (p : Progress) : Evaluation Turn := do
  let p ← signAfter ctx x p
  return .goesOn x { p with direction := signDirection (some c), previous := some c }

/-- A dot or a dollar, which may only begin an address. -/
def fixedAt (ctx : Context) (q0 : Int) (c : Char) (x : Reading) (p : Progress) : Evaluation Turn := do
  if x.q ≠ q0 then return .ends (p.result x.q)
  let next := x.skip 1
  let r ← if !p.evaluating then pure p.r
    else if c == '.' then pure p.ambient
    else pure (.point (← ctx.text .measuring).length)
  return .goesOn next
    { p with r, direction := if next.stop ≤ next.q then .none else .fore, previous := some c }

/-- A number: its digits are read, whatever follows them is looked at. -/
def numberAt (ctx : Context) (m : Measure) (x : Reading) (p : Progress) : Evaluation Turn := do
  let digits := x.piece.takeWhile Text.isDigit
  x.require false digits.length
  let ahead := (x.piece[digits.length]?).or digits.getLast?
  let p ← p.evaluate (move ctx p.r (Text.natOfDigits digits) p.direction m)
  return .goesOn (x.skip digits.length) { p with direction := .none, previous := ahead }

/-- A sharp, behind which a number of characters must follow. -/
def sharpAt (ctx : Context) (x : Reading) (p : Progress) : Evaluation Turn := do
  let next := x.skip 1
  if next.stop ≤ next.q then return .ends (p.result x.q)
  match next.rest with
  | [] => throw (.offset (.atOffset next.q))
  | first :: _ =>
    if !Text.isDigit first then return .ends (p.result next.q)
    numberAt ctx .char next p

/-- Behind the delimiter that begins a pattern. -/
def searchAt (ctx : Context) (c : Char) (x : Reading) (p : Progress) : Evaluation Turn := do
  let direction := if c == '?' then Direction.back else p.direction
  let (pattern, used, ended) := patternAt c x.piece
  x.require ended used
  let p ← p.evaluate (search ctx p.r pattern direction)
  return .goesOn (x.skip used) { p with direction := .none, previous := some c }

/-- Read on by one part of an address that began at `q0`. -/
def turn (ctx : Context) (q0 : Int) (x : Reading) (p : Progress) : Evaluation Turn :=
  if x.stop ≤ x.q then finish ctx x p
  else match x.rest with
    | [] => throw (.offset (.atOffset x.q))
    | c :: _ =>
      if c == ';' || c == ',' then separatorAt ctx c (x.skip 1) p
      else if c == '+' || c == '-' then signAt ctx c (x.skip 1) p
      else if c == '.' || c == '$' then fixedAt ctx q0 c x p
      else if c == '#' then sharpAt ctx x p
      else if Text.isDigit c then numberAt ctx .line x p
      else if c == '/' || c == '?' then searchAt ctx c (x.skip 1) p
      else return .ends (p.result x.q)

/-- Evaluate an address; `q0` is where it began. -/
def addressFrom (ctx : Context) : (fuel : Nat) → (q0 : Int) → Reading → Progress → Evaluation Result
  | 0, _, x, p => return p.result x.q
  | fuel + 1, q0, x, p => do
    match ← turn ctx q0 x p with
    | .ends result => return result
    | .goesOn x p => addressFrom ctx fuel q0 x p
    | .separates start x p =>
      let right ← addressFrom ctx fuel x.q x p
      return { right with r := ⟨start, right.r.q1⟩ }

/-- Evaluate `[q0, q1)` of address text relative to dot. -/
def address (ctx : Context) (dot : Span) (text : Text) (q0 q1 : Int) (evaluate : Bool) :
    Evaluation Result :=
  let rest := text.readOn q0
  addressFrom ctx (rest.length + 1) q0 ⟨rest, q0, q1⟩ { r := dot, ambient := dot, evaluating := evaluate }

end StructuralEdit.RawAddress
