import StructuralEdit.Process.Shell.Tool.Options

/-! # Counting

Lines, words and bytes are counted, and how long the longest line is. The columns are as
wide as the sizes of the files may need.
-/
namespace StructuralEdit.Shell.Tool.Count
open Text (Bytes)

structure Counts where
  lines : Nat := 0
  words : Nat := 0
  bytes : Nat := 0
  longest : Nat := 0

/-- The counts of two texts together. -/
def Counts.add (a b : Counts) : Counts :=
  ⟨a.lines + b.lines, a.words + b.words, a.bytes + b.bytes, max a.longest b.longest⟩

/-- How far the counting has come in a text. -/
structure Progress where
  counts : Counts := {}
  inWord : Bool := false
  column : Nat := 0

namespace Progress

def endWord (p : Progress) : Progress :=
  { p with inWord := false, counts.words := p.counts.words + if p.inWord then 1 else 0 }

def endLine (p : Progress) : Progress :=
  { p with column := 0, counts.longest := max p.counts.longest p.column }

/-- Count a byte. One that is not printed belongs to no word and takes no place. -/
def byte (p : Progress) (b : UInt8) : Progress :=
  let p := { p with counts.bytes := p.counts.bytes + 1 }
  match b.toNat with
  | 10 => { p.endLine.endWord with counts.lines := p.counts.lines + 1 }
  | 13 | 12 => p.endLine.endWord
  | 9 => { p with column := p.column + (8 - p.column % 8) }.endWord
  | 32 => { p with column := p.column + 1 }.endWord
  | 11 => p.endWord
  | _ => if isPrintByte b then { p with column := p.column + 1, inWord := true } else p

end Progress

def countsOf (t : Bytes) : Counts := (t.foldl Progress.byte {}).endLine.endWord.counts

def table : OptionTable where
  letters := "clLmw"
  long := [⟨"bytes", 'c', .nothing⟩, ⟨"chars", 'm', .nothing⟩, ⟨"lines", 'l', .nothing⟩,
    ⟨"words", 'w', .nothing⟩, ⟨"max-line-length", 'L', .nothing⟩, ⟨"total", 'T', .required⟩,
    ⟨"files0-from", 'F', .required⟩]

/-- When the counts of all files together are shown. -/
inductive Total
  | auto
  | always
  | only
  | never
deriving DecidableEq

def totalNames : List (String × Total) :=
  [("auto", .auto), ("always", .always), ("only", .only), ("never", .never)]

/-- The options given: which counts are shown, when those of all files, and where the files are
listed. -/
structure Choice where
  letters : List Char := []
  total : Total := .auto
  list : Option Bytes := none

/-- What an option adds; an unknown word is given back. -/
def Choice.add (c : Choice) : Given → Except Bytes Choice
  | ('T', some t) =>
    match choose? totalNames t with
    | some total => .ok { c with total }
    | none => .error t
  | ('F', some t) => .ok { c with list := some t }
  | (letter, _) => .ok { c with letters := letter :: c.letters }

namespace Choice

/-- The counts that are shown, in their fixed order. -/
def chosen (c : Choice) (n : Counts) : List Nat :=
  if c.letters.isEmpty then [n.lines, n.words, n.bytes]
  else [('l', n.lines), ('w', n.words), ('m', n.bytes), ('c', n.bytes), ('L', n.longest)].filterMap
    fun (letter, n) => if c.letters.contains letter then some n else none

end Choice

/-- The width that the sizes of files need, and seven where a size is not known beforehand. -/
def columnWidth (c : Choice) (files : List Supply) : Nat :=
  if c.total = .only || (files.length = 1 && (c.chosen {}).length = 1) then 1
  else
    let size := files.foldl (fun n f => match f.content with
      | .ok (_, .file _ size) => n + size
      | _ => n) 0
    let isOpen := files.any fun f => match f.content with
      | .ok (_, .file ..) | .error _ => false
      | _ => true
    max (decimal size).length (if isOpen then 7 else 1)

def countLine (width : Nat) (numbers : List Nat) (name : Option Bytes) : Print :=
  let columns := joinBytes [byte ' '] (numbers.map fun n => alignRight width (decimal n))
  .output (line (columns ++ match name with
    | some t => byte ' ' :: if t.contains newlineByte then shownName t else t
    | none => []))

/-- What is counted, or a complaint in its place. -/
structure Item where
  file : Supply
  refusal : Option Bytes := none

/-- The input without a name. -/
def inputName : Bytes := bytes "standard input"

/-- What is shown for a file, and its counts. A file that was opened has counts even if it cannot be
read. -/
def itemLine (d : Desk) (c : Choice) (width : Nat) (named : Bool) (i : Item) : List Print × Counts :=
  let name := if named then some i.file.name else none
  let complaint := fun (t : Bytes) =>
    d.complaint (shownName (name.getD inputName) ++ bytes ": " ++ t)
  match i.refusal, i.file.content with
  | some t, _ => ([d.complaint t], {})
  | none, .error t =>
    (complaint t :: if i.file.name == single then [countLine width (c.chosen {}) name] else [], {})
  | none, .ok (_, .directory) => ([complaint directoryMessage, countLine width (c.chosen {}) name], {})
  | none, .ok (t, _) =>
    let n := countsOf t
    ([countLine width (c.chosen n) name], n)

/-- Count items and show the counts. -/
def countItems (d : Desk) (c : Choice) (width : Nat) (named readsInput : Bool) (items : List Item) :
    Outcome :=
  let shown := items.map (itemLine d c width named)
  let total := shown.foldl (fun (n : Counts) r => n.add r.2) {}
  let withTotal := match c.total with
    | .auto => decide (1 < items.length)
    | .always | .only => true
    | .never => false
  let lines := shown.flatMap (·.1)
  let isLine := fun
    | Print.output _ => true
    | .errors _ => false
  let totalLine := if !withTotal then []
    else [countLine width (c.chosen total) (if c.total = .only then none else some (bytes "total"))]
  let closing := if readsInput && d.input.isNone then [d.complaint (bytes "-: " ++ closedMessage)] else []
  { prints := (if c.total = .only then lines.filter (!isLine ·) else lines) ++ totalLine ++ closing
    status := if (lines ++ closing).all isLine then 0 else 1
    hasRead := readsInput }

/-- Count the named files, or the input. -/
def countOperands (d : Desk) (c : Choice) (operands : List Bytes) : Outcome :=
  let files := suppliesOf d operands
  let items := files.map fun f =>
    { file := f, refusal := if f.name.isEmpty then some emptyInList.emptyName else none }
  countItems d c (columnWidth c files) (!operands.isEmpty) (readsInput operands) items

/-- Count the files of a list. Sizes are looked at beforehand only if the list is a file. -/
def countListed (d : Desk) (c : Choice) (list : Bytes) : Outcome :=
  let isInput := list == single
  match listSource d list with
  | .error t =>
    d.refuse (if isInput then bytes "-: read error: " ++ t
      else bytes "cannot open " ++ quotedName list ++ bytes " for reading: " ++ t)
  | .ok (_, .directory) => d.refuse (shownName list ++ bytes ": read error: " ++ directoryMessage)
  | .ok (t, origin) =>
    let names := namesIn t
    let files := supplies d isInput names
    let items := files.zipIdx.map fun (file, n) =>
      { file, refusal :=
          if isInput && file.name == single then some dashInList
          else if file.name.isEmpty then some (emptyInList list (n + 1)) else none }
    let width := match origin with
      | .file .. => if files.isEmpty then 1 else columnWidth c files
      | _ => 1
    let o := countItems d c width true (!isInput && names.contains single) items
    { o with hasRead := o.hasRead || isInput }

def run : Desk → Outcome := fun d =>
  let a := table.read d.arguments
  match a.options.foldlM Choice.add {}, a.fault with
  | .error t, _ => d.badWord "total" t (totalNames.map fun (s, _) => "'" ++ s ++ "'")
  | .ok _, some f => d.misused f.message
  | .ok c, none =>
    match c.list, a.operands with
    | some _, t :: _ => d.misused (operandBesideList t)
    | some list, [] => countListed d c list
    | none, operands => countOperands d c operands

end StructuralEdit.Shell.Tool.Count
