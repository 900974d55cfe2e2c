import StructuralEdit.Process.Shell.Tool.ByteSet
import StructuralEdit.Process.Shell.Tool.Options

/-! # Translating bytes

The bytes of one set are replaced by those at the same places of another, deleted, or
squeezed to one where they repeat.
-/
namespace StructuralEdit.Shell.Tool.Translate
open Text (Bytes)

/-- Why two sets do not go together. -/
inductive Mismatch
  | indefiniteSource
  | indefiniteTwice
  | indefiniteSqueezed
  | equivalence
  | otherClass
  | caseAlone
  | emptyTarget
  | classAtEnd
  | manyForClass

def Mismatch.message : Mismatch → String
  | indefiniteSource => "the [c*] repeat construct may not appear in string1"
  | indefiniteTwice => "only one [c*] repeat construct may appear in string2"
  | indefiniteSqueezed => "the [c*] construct may appear in string2 only when translating"
  | equivalence => "[=c=] expressions may not appear in string2 when translating"
  | otherClass => "when translating, the only character classes that may appear in\n"
      ++ "string2 are 'upper' and 'lower'"
  | caseAlone => "misaligned [:upper:] and/or [:lower:] construct"
  | emptyTarget => "when not truncating set1, string2 must be non-empty"
  | classAtEnd => "when translating with string1 longer than string2,\n"
      ++ "the latter string must not end with a character class"
  | manyForClass => "when translating with complemented character classes,\n"
      ++ "string2 must map all characters in the domain to one"

/-- A byte of a set, where it begins an element, and the case class it comes from. -/
structure Cell where
  byte : UInt8
  isFirst : Bool
  caseClass : Option CaseClass

def cellsOf (e : SetElement) : List Cell :=
  match e.bytesOf with
  | [] => []
  | b :: rest => ⟨b, true, e.caseClass?⟩ :: rest.map fun b => ⟨b, false, e.caseClass?⟩

def cells (es : List SetElement) : List Cell := es.flatMap cellsOf

/-- The cells behind the element that is at work. -/
def nextElement : List Cell → List Cell
  | [] => []
  | _ :: rest => rest.dropWhile (!·.isFirst)

/-- What stands at the same places of two sets: pairs of bytes, and pairs of case classes as a
whole. -/
def aligned : (fuel : Nat) → List Cell → List Cell → List (Option Cell × Option Cell)
  | 0, _, _ => []
  | fuel + 1, s, t =>
    let both := (s.head?, t.head?)
    match both with
    | (none, _) | (_, none) => [both]
    | (some _, some c) =>
      if c.caseClass.isSome then both :: aligned fuel (nextElement s) (nextElement t)
      else both :: aligned fuel s.tail t.tail

def alignedCells (s t : List Cell) : List (Option Cell × Option Cell) :=
  aligned (s.length + 1) s t

/-- A case class of the second set begins where none of the first does. -/
def isMisaligned (pair : Option Cell × Option Cell) : Bool :=
  let begins := fun (c : Option Cell) => (c.map fun c => c.isFirst && c.caseClass.isSome).getD false
  begins pair.2 && !begins pair.1

def sizeOfAll (es : List SetElement) : Nat := es.foldl (fun n e => n + e.size) 0

/-- Repeat the byte that is to be repeated as needed. -/
def fillTo (length : Nat) (es : List SetElement) : List SetElement :=
  let missing := length - sizeOfAll es
  es.map fun e => match e with
    | .repeated b 0 => .repeated b missing
    | _ => e

structure Modes where
  complement : Bool
  delete : Bool
  squeeze : Bool
  truncate : Bool

/-- How many places of sets whose case classes correspond are not counted: each such class is one
place. -/
def passedOver (pairs : List (Option Cell × Option Cell)) : Nat :=
  25 * (pairs.filter fun p => (p.2.bind (·.caseClass)).isSome).length

/-- Bring the second set to the length of the first by repeating its last byte. -/
def extend (count : Nat) (es : List SetElement) : Except Mismatch (List SetElement) :=
  match es.getLast? with
  | none => .error .emptyTarget
  | some (.ofClass ..) => .error .classAtEnd
  | some (.one b) | some (.span _ b) | some (.repeated b _) | some (.equivalent b) =>
    .ok (es ++ [.repeated b count])

def allEqual (t : Bytes) : Bool := t.all fun b => some b == t.head?

/-- The second set as it is used, if it goes with the first. -/
def target (m : Modes) (s t : List SetElement) : Except Mismatch (List SetElement) := do
  let sourceSize := if m.complement then (complementOf s).length else sizeOfAll s
  let t := fillTo sourceSize t
  if t.any (·.isEquivalence) then throw .equivalence
  if t.any fun e => e.isClass && e.caseClass?.isNone then throw .otherClass
  let pairs := if m.complement || !t.any (·.isClass) then [] else alignedCells (cells s) (cells t)
  if pairs.any isMisaligned then throw .caseAlone
  let sourceSize := sourceSize - passedOver pairs
  let targetSize := sizeOfAll t - passedOver pairs
  let t ← if targetSize < sourceSize && !m.truncate then extend (sourceSize - targetSize) t
    else pure t
  let fits := targetSize = sourceSize || (targetSize < sourceSize && !m.truncate)
  if m.complement && s.any (·.isClass) && !(fits && allEqual (t.flatMap (·.bytesOf))) then
    throw .manyForClass
  return t

/-- Each byte of the first set with the byte that takes its place; later pairs count. -/
def replacements (m : Modes) (s t : List SetElement) : List (UInt8 × UInt8) :=
  if m.complement then (complementOf s).zip (t.flatMap (·.bytesOf))
  else (alignedCells (cells s) (cells t)).flatMap fun
    | (some a, some b) =>
      match a.caseClass, b.caseClass with
      | some .lower, some .upper => (allBytes.filter isLowerByte).map fun b => (b, upperByte b)
      | some .upper, some .lower => (allBytes.filter isUpperByte).map fun b => (b, lowerByte b)
      | _, _ => [(a.byte, b.byte)]
    | _ => []

/-- Replace each byte by the one its last pair gives. -/
def replaceBytes (pairs : List (UInt8 × UInt8)) (t : Bytes) : Bytes :=
  let image := (pairs.foldl (fun (a : Array UInt8) (b, c) => a.setIfInBounds b.toNat c)
    allBytes.toArray)
  t.map fun b => image.getD b.toNat b

/-- One byte for each run of a byte of a class. -/
def squeeze (p : UInt8 → Bool) : (last : Option UInt8) → Bytes → Bytes
  | _, [] => []
  | last, b :: rest =>
    if p b && last == some b then squeeze p last rest else b :: squeeze p (some b) rest

/-- What becomes of a text, given one set or two. -/
def change (m : Modes) (s : List SetElement) (t : Option (List SetElement)) (input : Bytes) :
    Except Mismatch Bytes := do
  if s.any (·.isIndefinite) then throw .indefiniteSource
  let first := membersOf m.complement s
  match t with
  | none =>
    return if m.delete then input.filter (!first ·) else squeeze first none input
  | some t =>
    if 1 < (t.filter (·.isIndefinite)).length then throw .indefiniteTwice
    if m.delete then
      if t.any (·.isIndefinite) then throw .indefiniteSqueezed
      return squeeze (membersOf false t) none (input.filter (!first ·))
    let t ← target m s t
    let out := replaceBytes (replacements m s t) input
    return if m.squeeze then squeeze (membersOf false t) none out else out

def table : OptionTable where
  letters := "AcCdst"
  long := [⟨"complement", 'c', .nothing⟩, ⟨"delete", 'd', .nothing⟩,
    ⟨"squeeze-repeats", 's', .nothing⟩, ⟨"truncate-set1", 't', .nothing⟩]
  optionsFirst := true

/-- Complain of the number of operands. -/
def operandFault (d : Desk) (m : Modes) (operands : List Bytes) : Option Outcome :=
  let least := if m.delete == m.squeeze then 2 else 1
  let most := if m.delete && !m.squeeze then 1 else 2
  let misused := fun (t : Bytes) (more : Option String) =>
    some { prints := [d.complaint t] ++ (more.map fun s => Print.errors (line (bytes s))).toList
        ++ [d.helpHint], status := 1 }
  if operands.length < least then
    match operands.getLast? with
    | none => misused (bytes "missing operand") none
    | some t => misused (bytes "missing operand after " ++ quote t) (some (if m.squeeze
        then "Two strings must be given when both deleting and squeezing repeats."
        else "Two strings must be given when translating."))
  else match operands[most]? with
    | none => none
    | some t => misused (bytes "extra operand " ++ quote t) (if operands.length = 2
        then some "Only one string may be given when deleting without squeezing repeats." else none)

/-- Read sets up to the first fault. -/
def readSets : List Bytes → List SetWarning × Except SetFault (List (List SetElement))
  | [] => ([], .ok [])
  | t :: rest =>
    match readSet t with
    | (warnings, .error f) => (warnings, .error f)
    | (warnings, .ok es) =>
      let (more, sets) := readSets rest
      (warnings ++ more, sets.map (es :: ·))

def run : Desk → Outcome := fun d =>
  let a := table.read d.arguments
  let has := fun (c : Char) => a.options.any (·.1 = c)
  let m : Modes := ⟨has 'c' || has 'C', has 'd', has 's', has 't'⟩
  match a.fault with
  | some f => d.misused f.message
  | none =>
    match operandFault d m a.operands with
    | some outcome => outcome
    | none =>
      let (warnings, sets) := readSets a.operands
      let prints := warnings.map fun w => d.complaint w.message
      let refuse := fun (t : Bytes) => { prints := prints ++ [d.complaint t], status := 1 }
      match sets with
      | .error f => refuse f.message
      | .ok sets =>
        let changed := change m (sets.headD []) sets[1]?
        match changed [], d.input with
        | .error f, _ => refuse (bytes f.message)
        | .ok _, none => refuse (bytes "read error: " ++ closedMessage)
        | .ok _, some (_, .directory) => refuse (bytes "read error: " ++ directoryMessage)
        | .ok _, some (input, _) =>
          match changed input with
          | .ok t => { prints := prints ++ [.output t], hasRead := true }
          | .error f => refuse (bytes f.message)

end StructuralEdit.Shell.Tool.Translate
