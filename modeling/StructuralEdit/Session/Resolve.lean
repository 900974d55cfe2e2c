import StructuralEdit.Address.Lines
import StructuralEdit.Address.Syntax
import StructuralEdit.Search.Backward
import StructuralEdit.Search.Forward
import StructuralEdit.Session.Basic

/-! # Resolving addresses

An address is resolved from a start, step by step. A search that finds nothing
before the end of its buffer goes on from the other end.
-/
namespace StructuralEdit

/-- A range of a buffer. -/
structure Target where
  r : Span
  buffer : Handle
deriving DecidableEq

namespace Run
open Pattern

def dotOf (h : Handle) : Run Target := return ⟨(← buffer h).dot, h⟩

def wholeOf (h : Handle) : Run Target := return ⟨⟨0, (← buffer h).size⟩, h⟩

def lineAddress (n : Int) (a : Target) (sign : Int) : Run Target := do
  match Lines.address (← buffer a.buffer).text n a.r sign with
  | .ok r => return ⟨r, a.buffer⟩
  | .error .outOfRange => fail .addressOutOfRange
  | .error (.offset f) => throw (.offset f)

def charAddress (n : Int) (a : Target) (sign : Int) : Run Target := do
  match Lines.charAddress (← buffer a.buffer).text n a.r sign with
  | some r => return ⟨r, a.buffer⟩
  | none => fail .addressOutOfRange

/-- The first match at or behind an offset, or else the first of the text. -/
def wrapForward (re : Regex) (text : Text) (p : Int) : Except SearchFault (List Match) := do
  match ← re.forward text p none (some 2) with
  | [] => re.forward text 0 (some p) (some 1)
  | found => return found

/-- The last match in front of an offset, or else the last of the text. -/
def wrapBackward (re : Regex) (window : Int) (text : Text) (p : Int) :
    Except SearchFault (List Match) := do
  match ← re.backward window text p 0 (some 1) with
  | [] => re.backward window text text.length p (some 1)
  | found => return found

/-- Where a search leads, or why it leads nowhere. -/
abbrev Sought := Except SearchFault (Except EditError Match)

/-- The first of the matches sought in the second place. -/
def further (found : List Match) : Except EditError Match :=
  match found with
  | m :: _ => .ok m
  | [] => .error .noFurtherMatch

/-- The match a search forward from `p` leads to. An empty match at `p` itself gives way to the
one behind it. -/
def matchForward (re : Regex) (text : Text) (p : Int) : Sought := do
  match ← wrapForward re text p with
  | [] => return .error .noMatch
  | m :: more =>
    if m.start = m.stop ∧ (m.start : Int) = p then
      if !more.isEmpty then return further more
      return further (← re.forward text (if p + 1 ≤ text.length then p + 1 else 0) none (some 1))
    return .ok m

/-- The match a search backward from `p` leads to, likewise. -/
def matchBackward (re : Regex) (window : Int) (text : Text) (p : Int) : Sought := do
  match ← wrapBackward re window text p with
  | [] => return .error .noMatch
  | m :: _ =>
    if m.start = m.stop ∧ (m.stop : Int) = p then
      return further (← re.backward window text (if 0 < p then p - 1 else text.length) 0 (some 1))
    return .ok m

def nextMatch (h : Handle) (pattern : Text) (p : Int) (sign : Int) : Run Match := do
  let re ← compile pattern "command address".toList
  let window := (← get).patterns.window
  let text := (← buffer h).text
  match ← searching (if 0 ≤ sign then matchForward re text p else matchBackward re window text p) with
  | .ok m => return m
  | .error e => fail e

/-- A pattern matches the line that shows a buffer. -/
def fileMatches (h : Handle) (pattern : Text) : Run Bool := do
  let re ← compile pattern "file match".toList
  return (← searching (re.first? ((← get).menuLine h) 0 none)).isSome

/-- Those of some buffers that a pattern matches. -/
def matchingFiles (pattern : Text) : List Handle → Run (List Handle)
  | [] => return []
  | h :: rest => do
    if ← fileMatches h pattern then return h :: (← matchingFiles pattern rest)
    matchingFiles pattern rest

/-- The one listed buffer that a pattern matches, `found` being one of those seen. -/
def matchFileFrom (pattern : Text) (found : Option Handle) : List Handle → Run Handle
  | [] =>
    match found with
    | some h => return h
    | none => fail (.noFileMatches pattern)
  | h :: rest => do
    if ← fileMatches h pattern then
      if found.isSome then fail (.tooManyFilesMatch pattern)
      matchFileFrom pattern (some h) rest
    else matchFileFrom pattern found rest

def matchFile (pattern : Text) : Run Handle := do
  matchFileFrom pattern none (← get).workspace.listed

/-- A sign that no count or search follows moves by one line. -/
def standsAlone (rest : Chain) : Bool :=
  match rest with
  | [] => true
  | s :: _ => s.isSign

/-- One step from `a` with the sign in force; the sign for the next step is returned too. -/
def step (s : Step) (rest : Chain) (a : Target) (sign : Int) : Run (Target × Int) := do
  match s with
  | .file re => return (← dotOf (← matchFile re), sign)
  | .line n => return (← lineAddress n a sign, sign)
  | .char n => return (← charAddress n a sign, sign)
  | .dot => return (← dotOf a.buffer, sign)
  | .last => return (⟨.point (← buffer a.buffer).size, a.buffer⟩, sign)
  | .mark => fail .markAddress
  | .forward re => do
    let m ← nextMatch a.buffer re (if 0 ≤ sign then a.r.q1 else a.r.q0) sign
    return (⟨m.span, a.buffer⟩, sign)
  | .backward re => do
    let sign := if sign = 0 then -1 else -sign
    let m ← nextMatch a.buffer re (if 0 ≤ sign then a.r.q1 else a.r.q0) sign
    return (⟨m.span, a.buffer⟩, sign)
  | .plus => return (← if standsAlone rest then lineAddress 1 a 1 else pure a, 1)
  | .minus => return (← if standsAlone rest then lineAddress 1 a (-1) else pure a, -1)
  | .other kind _ => fail (.badAddressType kind)

def resolveChain : Chain → Target → Int → Run Target
  | [], a, _ => return a
  | s :: rest, a, sign => do
    let (a, sign) ← step s rest a sign
    resolveChain rest a sign

/-- The range from the start of one target to the end of another. -/
def join (a b : Target) : Run Target := do
  if a.buffer ≠ b.buffer then fail .differentFiles
  if b.r.q1 < a.r.q0 then fail .outOfOrder
  return ⟨⟨a.r.q0, b.r.q1⟩, a.buffer⟩

/-- The left side of a separator, the start of the buffer if it is left out. -/
def resolveLeft (left : Option Chain) (a : Target) : Run Target :=
  match left with
  | some chain => resolveChain chain a 0
  | none => return ⟨.point 0, a.buffer⟩

/-- Where the right side of a separator starts from: for a semicolon the left side, which
becomes dot. -/
def startRight (sep : Separator) (a left : Target) : Run Target := do
  match sep with
  | .comma => return a
  | .semicolon =>
    setDot left.buffer left.r
    return left

def resolve : Addr → Target → Int → Run Target
  | .chain steps, a, sign => resolveChain steps a sign
  | .toEnd left sep, a, _ => do
    let l ← resolveLeft left a
    let start ← startRight sep a l
    join l (← wholeOf start.buffer)
  | .compound left sep right, a, _ => do
    let l ← resolveLeft left a
    let start ← startRight sep a l
    join l (← resolve right start 0)

/-- Resolve an address from the dot of a buffer. An address that begins with a file needs none. -/
def resolveFrom : Option Handle → Addr → Run Target
  | some h, addr => do resolve addr (← dotOf h) 0
  | none, .chain (.file re :: rest) => do resolveChain rest (← dotOf (← matchFile re)) 0
  | none, _ => throw .noBuffer

end Run

end StructuralEdit
