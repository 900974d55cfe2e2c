import StructuralEdit.Process.Shell.Byte

/-! # Patterns

A pattern matches a whole text: a question mark matches any byte, a star any bytes, and
brackets a byte of a set. Bytes that were quoted match themselves.
-/
namespace StructuralEdit.Shell.Glob
open Text (Bytes)

/-- A byte of a pattern, and whether it only matches itself. -/
abbrev PatternByte := UInt8 × Bool

inductive Member
  | span (lo hi : UInt8)
  | ofClass (p : UInt8 → Bool)

def Member.has (b : UInt8) : Member → Bool
  | span lo hi => lo ≤ b && b ≤ hi
  | ofClass p => p b

inductive Atom
  | one (b : UInt8)
  | any
  | many
  | set (inverted : Bool) (members : List Member)

/-- What follows a special byte. -/
def after? (special : Char) : List PatternByte → Option (List PatternByte)
  | (b, false) :: rest => if b == byte special then some rest else none
  | _ => none

/-- The class that a set goes on with, if one has that name, and what follows it. -/
def classAt? (t : List PatternByte) : Option (Option (UInt8 → Bool) × List PatternByte) :=
  (after? '[' t).bind fun t =>
    match t with
    | (colon, _) :: rest =>
      if colon != byte ':' then none
      else
        let name := rest.takeWhile fun (b, _) => isLowerByte b
        match rest.drop name.length with
        | (c, _) :: (d, _) :: more =>
          if c == byte ':' && d == byte ']' then some (classMember? (name.map (·.1)), more) else none
        | _ => none
    | [] => none

/-- A byte of a set, which a backslash may have made a plain one. -/
def memberByte : List PatternByte → Option (UInt8 × List PatternByte)
  | [] => none
  | (b, isPlain) :: rest =>
    if b == backslash && !isPlain then
      match rest with
      | (c, _) :: more => some (c, more)
      | [] => none
    else some (b, rest)

/-- The members of a set up to its closing bracket, which cannot come `first`; `none` if the set
is not closed, and no members for a set with a class that does not exist. -/
def members : (fuel : Nat) → (first : Bool) → List PatternByte →
    Option (Option (List Member) × List PatternByte)
  | 0, _, _ => none
  | fuel + 1, first, t =>
    match if first then none else after? ']' t with
    | some rest => some (some [], rest)
    | none =>
      match classAt? t with
      | some (p, rest) =>
        (members fuel false rest).map fun (ms, more) =>
          (match p, ms with
            | some p, some ms => some (.ofClass p :: ms)
            | _, _ => none, more)
      | none =>
        match memberByte t with
        | none => none
        | some (lo, rest) =>
          let span := (after? '-' rest).bind fun more =>
            if (after? ']' more).isSome then none else memberByte more
          let (hi, rest) := span.getD (lo, rest)
          (members fuel false rest).map fun (ms, more) => (ms.map (.span lo hi :: ·), more)

/-- The set behind an opening bracket. -/
def setAt? (t : List PatternByte) : Option (Atom × List PatternByte) :=
  let inverted := after? '!' t
  (members (t.length + 1) true (inverted.getD t)).map fun (ms, rest) =>
    (match ms with
      | some ms => .set inverted.isSome ms
      | none => .set false [], rest)

/-- The atoms of a pattern. A bracket that is not closed matches itself. -/
def atoms : (fuel : Nat) → List PatternByte → List Atom
  | 0, _ => []
  | _ + 1, [] => []
  | fuel + 1, (b, isPlain) :: rest =>
    if isPlain then .one b :: atoms fuel rest
    else match Char.ofNat b.toNat with
      | '?' => .any :: atoms fuel rest
      | '*' => .many :: atoms fuel rest
      | '[' =>
        match setAt? rest with
        | some (a, rest) => a :: atoms fuel rest
        | none => .one b :: atoms fuel rest
      | '\\' =>
        match rest with
        | (c, _) :: rest => .one c :: atoms fuel rest
        | [] => [.set false []]
      | _ => .one b :: atoms fuel rest

def compile (t : List PatternByte) : List Atom := atoms (t.length + 1) t

/-- All ends of a list, the whole list first. -/
def ends {α : Type} : List α → List (List α)
  | [] => [[]]
  | a :: rest => (a :: rest) :: ends rest

def fits : List Atom → Bytes → Bool
  | [], t => t.isEmpty
  | .many :: rest, t => (ends t).any (fits rest)
  | _ :: _, [] => false
  | .one b :: rest, c :: t => b == c && fits rest t
  | .any :: rest, _ :: t => fits rest t
  | .set inverted ms :: rest, c :: t => (ms.any (·.has c)) != inverted && fits rest t

/-! ## Trimming -/

/-- Take away the start that a pattern matches, the shortest or the longest. -/
def trimStart (longest : Bool) (pattern : List Atom) (t : Bytes) : Bytes :=
  let counts := List.range (t.length + 1)
  match (if longest then counts.reverse else counts).find? fun n => fits pattern (t.take n) with
  | some n => t.drop n
  | none => t

def trimEnd (longest : Bool) (pattern : List Atom) (t : Bytes) : Bytes :=
  let counts := List.range (t.length + 1)
  match (if longest then counts else counts.reverse).find? fun n => fits pattern (t.drop n) with
  | some n => t.take n
  | none => t

/-! ## File names -/

def isSpecial : PatternByte → Bool
  | (b, isPlain) => !isPlain && (bytes "*?[").contains b

/-- The parts of a pattern between slashes. -/
def partsOf : List PatternByte → List (List PatternByte)
  | [] => [[]]
  | p :: rest =>
    if p.1 == byte '/' then [] :: partsOf rest
    else match partsOf rest with
      | [] => [[p]]
      | part :: more => (p :: part) :: more

/-- What the matching of names has to know of the files. -/
structure Directory where
  /-- The names in a directory. -/
  entries : Bytes → List Bytes
  present : Bytes → Bool
  isDirectory : Bytes → Bool

/-- A name that begins with a dot is only matched by a pattern that does. -/
def fitsName (part : List PatternByte) (name : Bytes) : Bool :=
  (name.head? != some (byte '.') || (part.head?.map (·.1)) == some (byte '.'))
    && fits (compile part) name

/-- The names that match parts of a pattern, behind a path that has been matched. -/
def expandParts (d : Directory) (path : Bytes) : List (List PatternByte) → List Bytes
  | [] => []
  | [part] =>
    if part.any isSpecial then ((d.entries path).filter (fitsName part)).map (path ++ ·)
    else
      let name := path ++ part.map (·.1)
      if d.present name then [name] else []
  | part :: rest =>
    if part.any isSpecial then
      ((d.entries path).filter fun e => fitsName part e && d.isDirectory (path ++ e)).flatMap
        fun e => expandParts d (path ++ e ++ [byte '/']) rest
    else expandParts d (path ++ part.map (·.1) ++ [byte '/']) rest

/-- The names that a pattern matches, in order. What has no special byte, or matches nothing,
stands for itself. -/
def expand (d : Directory) (pattern : List PatternByte) : List Bytes :=
  let itself := pattern.map (·.1)
  if !pattern.any isSpecial then [itself]
  else match expandParts d [] (partsOf pattern) with
    | [] => [itself]
    | names => names.mergeSort fun a b => compareBytes a b != .gt

end StructuralEdit.Shell.Glob
