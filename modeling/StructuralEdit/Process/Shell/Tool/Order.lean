import StructuralEdit.Process.Shell.Floating
import StructuralEdit.Process.Shell.Tool.Basic

/-! # The order of lines

Lines are compared by keys, each a part of the line that is taken as text, as a number, as
a month or as a version. Lines whose keys agree are put in the order of their bytes.
-/
namespace StructuralEdit.Shell.Tool
open Text (Bytes)

/-- Which bytes of a key do not count. -/
inductive Ignored
  | nothing
  | outsideWords
  | unprinted
deriving DecidableEq

/-- How a key is taken. -/
structure KeyOrder where
  skipsStart : Bool := false
  skipsEnd : Bool := false
  ignored : Ignored := .nothing
  folds : Bool := false
  general : Bool := false
  human : Bool := false
  month : Bool := false
  numeric : Bool := false
  shuffled : Bool := false
  reverse : Bool := false
  version : Bool := false
deriving DecidableEq

/-- A place in a line: fields to pass over, and bytes of the next one. -/
structure Place where
  field : Nat
  offset : Nat

structure Key where
  /-- The beginning of the line if there is no place. -/
  start : Option Place := none
  /-- The end of the line if there is no place. A place without bytes is the end of its field. -/
  stop : Option Place := none
  order : KeyOrder := {}

/-! ## Parts of a line -/

def isFieldBlank (b : UInt8) : Bool := isBlankByte b || b == newlineByte

/-- What is left of a line behind some fields. Without a separator a field begins with the blanks
in front of it. -/
def skipFields (separator : Option UInt8) : (n : Nat) → Bytes → Bytes
  | 0, t => t
  | n + 1, t =>
    if t.isEmpty then []
    else match separator with
      | some s => skipFields separator n (t.dropWhile (· != s)).tail
      | none => skipFields separator n ((t.dropWhile isFieldBlank).dropWhile (!isFieldBlank ·))

/-- What is left of a line behind the field that comes next. -/
def skipField (separator : Option UInt8) (t : Bytes) : Bytes :=
  match separator with
  | some s => t.dropWhile (· != s)
  | none => (t.dropWhile isFieldBlank).dropWhile (!isFieldBlank ·)

def skipBlanks (skips : Bool) (t : Bytes) : Bytes := if skips then t.dropWhile isFieldBlank else t

/-- The part of a line that a key is about. -/
def Key.part (k : Key) (separator : Option UInt8) (t : Bytes) : Bytes :=
  let fromStart := match k.start with
    | none => skipBlanks k.order.skipsStart t
    | some p => (skipBlanks k.order.skipsStart (skipFields separator p.field t)).drop p.offset
  let behind := match k.stop with
    | none => []
    | some p =>
      let t := skipFields separator p.field t
      if p.offset = 0 then skipField separator t
      else (skipBlanks k.order.skipsEnd t).drop p.offset
  fromStart.take (fromStart.length - behind.length)

/-- A part without the bytes that do not count, in one case if case does not. -/
def KeyOrder.counted (o : KeyOrder) (t : Bytes) : Bytes :=
  let t := match o.ignored with
    | .nothing => t
    | .outsideWords => t.filter fun b => isFieldBlank b || isAlnumByte b
    | .unprinted => t.filter isPrintByte
  if o.folds then t.map upperByte else t

/-! ## Numbers -/

/-- The digits a number is written with, in front of its point and behind it. -/
structure PlainNumber where
  negative : Bool
  whole : Bytes
  places : Bytes
  rest : Bytes

def plainNumber (t : Bytes) : PlainNumber :=
  let t := t.dropWhile isFieldBlank
  let negative := t.head? == some (byte '-')
  let t := if negative then t.tail else t
  let whole := t.takeWhile isDigitByte
  let rest := t.drop whole.length
  match rest with
  | p :: more =>
    if p == byte '.' then
      let places := more.takeWhile isDigitByte
      ⟨negative, whole, places, more.drop places.length⟩
    else ⟨negative, whole, [], rest⟩
  | [] => ⟨negative, whole, [], []⟩

namespace PlainNumber

/-- The value times a power of ten that leaves so many places. -/
def scaled (x : PlainNumber) (places : Nat) : Int :=
  let n : Int := valueIn 10 (x.whole ++ x.places ++ padding places x.places.length (byte '0'))
  if x.negative then -n else n

def compare (x y : PlainNumber) : Ordering :=
  let places := max x.places.length y.places.length
  Ord.compare (x.scaled places) (y.scaled places)

/-- The power of a thousand that a letter behind a number stands for. -/
def unit (x : PlainNumber) : Int :=
  if (x.whole ++ x.places).all (· == byte '0') then 0
  else
    let n : Int := match x.rest with
      | b :: _ =>
        if b == byte 'k' then 1
        else match (bytes "KMGTPEZYRQ").idxOf? b with
          | some n => n + 1
          | none => 0
      | [] => 0
    if x.negative then -n else n

def compareWithUnits (x y : PlainNumber) : Ordering :=
  (Ord.compare x.unit y.unit).then (x.compare y)

end PlainNumber

/-- A floating number as it is ordered: what is no number comes first. -/
def compareFloating (s t : Bytes) : Ordering :=
  let rank := fun (w : Option Floating.Written) => match w.map fun w => (w.negative, w.magnitude.exact) with
    | none => (0, 0, 1)
    | some (_, .undefined) => (1, 0, 1)
    | some (true, .infinite _) => (2, 0, 1)
    | some (false, .infinite _) => (4, 0, 1)
    | some (_, .nearZero) => (3, 0, 1)
    | some (negative, .fraction n d) => (3, if negative then -(n : Int) else n, d)
  let (rs, ns, ds) := rank (Floating.written? s)
  let (rt, nt, dt) := rank (Floating.written? t)
  (compare (rs : Nat) rt).then (compare (ns * Int.ofNat dt) (nt * Int.ofNat ds))

/-! ## Months -/

def months : List String :=
  ["JAN", "FEB", "MAR", "APR", "MAY", "JUN", "JUL", "AUG", "SEP", "OCT", "NOV", "DEC"]

/-- The number of the month a text begins with, zero if it begins with none. -/
def monthOf (t : Bytes) : Nat :=
  let name := ((t.dropWhile isFieldBlank).take 3).map upperByte
  match (months.map bytes).idxOf? name with
  | some n => n + 1
  | none => 0

/-! ## Versions -/

/-- The place of a byte among the bytes between numbers: a tilde comes before the end, the end
before digits, and letters before all else. -/
def versionRank (t : Bytes) : Int :=
  match t with
  | [] => -1
  | b :: _ =>
    if isDigitByte b then 0
    else if isAlphaByte b then b.toNat
    else if b == byte '~' then -2
    else b.toNat + 256

def beginsText (t : Bytes) : Bool := (t.head?.map (!isDigitByte ·)).getD false

/-- Compare what stands between numbers, up to where both go on with digits or end. -/
def compareBetween : (fuel : Nat) → Bytes → Bytes → Ordering × Bytes × Bytes
  | 0, s, t => (.eq, s, t)
  | fuel + 1, s, t =>
    if beginsText s || beginsText t then
      match compare (versionRank s) (versionRank t) with
      | .eq => compareBetween fuel s.tail t.tail
      | c => (c, s, t)
    else (.eq, s, t)

/-- Compare texts in which digits are numbers. -/
def compareNumbered : (fuel : Nat) → Bytes → Bytes → Ordering
  | 0, _, _ => .eq
  | fuel + 1, s, t =>
    if s.isEmpty && t.isEmpty then .eq
    else match compareBetween (s.length + t.length + 1) s t with
      | (.eq, s, t) =>
        match compare (valueIn 10 (s.takeWhile isDigitByte)) (valueIn 10 (t.takeWhile isDigitByte)) with
        | .eq => compareNumbered fuel (s.dropWhile isDigitByte) (t.dropWhile isDigitByte)
        | c => c
      | (c, _, _) => c

/-- A name that follows a point: a letter or tilde, then letters, digits and tildes. -/
def isExtension (t : Bytes) : Bool :=
  match t with
  | b :: rest => (isAlphaByte b || b == byte '~') && rest.all fun b => isAlnumByte b || b == byte '~'
  | [] => false

/-- A version without the extensions at its end. -/
def withoutExtensions (t : Bytes) : Bytes :=
  let parts := piecesOf (byte '.') (t ++ [byte '.'])
  match parts with
  | [] => []
  | first :: rest =>
    let kept := (rest.reverse.dropWhile isExtension).reverse
    if first.isEmpty && kept.isEmpty then
      joinBytes [byte '.'] (first :: rest.take 1)
    else joinBytes [byte '.'] (first :: kept)

def compareVersions (s t : Bytes) : Ordering :=
  let rank := fun (t : Bytes) => if t.isEmpty then 0 else if t == bytes "." then 1
    else if t == bytes ".." then 2 else if t.head? == some (byte '.') then 3 else 4
  match compare (rank s : Nat) (rank t) with
  | .eq =>
    let numbered := fun s t => compareNumbered (s.length + t.length + 1) s t
    (numbered (withoutExtensions s) (withoutExtensions t)).then (numbered s t)
  | c => c

/-! ## Lines -/

namespace KeyOrder

/-- Compare two keys. -/
def compare (o : KeyOrder) (s t : Bytes) : Ordering :=
  let s := o.counted s
  let t := o.counted t
  let c := if o.numeric then (plainNumber s).compare (plainNumber t)
    else if o.general then compareFloating s t
    else if o.human then (plainNumber s).compareWithUnits (plainNumber t)
    else if o.month then Ord.compare (monthOf s) (monthOf t)
    else if o.version then compareVersions s t
    else compareBytes s t
  if o.reverse then c.swap else c

/-- A key that is compared as plain text. -/
def isPlain (o : KeyOrder) : Bool := { o with reverse := false } == {}

end KeyOrder

/-- How lines are compared. -/
structure LineOrder where
  keys : List Key := []
  separator : Option UInt8 := none
  /-- Lines whose keys agree stay as they are. -/
  stable : Bool := false
  /-- Of lines whose keys agree only the first is kept. -/
  unique : Bool := false
  /-- The order of the bytes is turned around. -/
  reverse : Bool := false

namespace LineOrder

def compareKeys (o : LineOrder) (s t : Bytes) : Ordering :=
  o.keys.foldl (fun c k => c.then (k.order.compare (k.part o.separator s) (k.part o.separator t))) .eq

def compare (o : LineOrder) (s t : Bytes) : Ordering :=
  match o.compareKeys s t with
  | .eq =>
    if !o.keys.isEmpty && (o.stable || o.unique) then .eq
    else
      let c := compareBytes s t
      if o.reverse then c.swap else c
  | c => c

/-- The first of each run of lines that count as the same. -/
def distinct (o : LineOrder) : (last : Option Bytes) → List Bytes → List Bytes
  | _, [] => []
  | last, t :: rest =>
    if (last.map fun s => o.compare s t == .eq).getD false then distinct o last rest
    else t :: distinct o (some t) rest

def keepDistinct (o : LineOrder) (lines : List Bytes) : List Bytes :=
  if o.unique then o.distinct none lines else lines

def sort (o : LineOrder) (lines : List Bytes) : List Bytes :=
  o.keepDistinct (lines.mergeSort fun s t => o.compare s t != .gt)

/-- Put lines in front of each other as long as those that come first are not greater. -/
def mergeTwo (o : LineOrder) : (fuel : Nat) → List Bytes → List Bytes → List Bytes
  | 0, ss, ts => ss ++ ts
  | _ + 1, [], ts => ts
  | _ + 1, ss, [] => ss
  | fuel + 1, s :: ss, t :: ts =>
    if o.compare s t != .gt then s :: mergeTwo o fuel ss (t :: ts)
    else t :: mergeTwo o fuel (s :: ss) ts

/-- Merge rows of lines, taking the least of the first lines each time. -/
def merge (o : LineOrder) (rows : List (List Bytes)) : List Bytes :=
  o.keepDistinct (rows.foldr (fun r merged => o.mergeTwo (r.length + merged.length) r merged) [])

/-- The first line, with its number, that does not follow on the one before. -/
def disorder? (o : LineOrder) : (number : Nat) → List Bytes → Option (Nat × Bytes)
  | number, s :: t :: rest =>
    let c := o.compare s t
    if c == .gt || (o.unique && c == .eq) then some (number + 1, t) else disorder? o (number + 1) (t :: rest)
  | _, _ => none

end LineOrder

end StructuralEdit.Shell.Tool
