import StructuralEdit.Process.Shell.Tool.Options

/-! # Showing files

Files are shown one after another, with line numbers and marks for what is not seen if
asked. Lines are counted through all files.
-/
namespace StructuralEdit.Shell.Tool.Cat
open Text (Bytes)

structure Style where
  number : Bool := false
  numberNonblank : Bool := false
  squeeze : Bool := false
  showEnds : Bool := false
  showTabs : Bool := false
  showUnseen : Bool := false

def table : OptionTable where
  letters := "benstuvAET"
  long := [⟨"number-nonblank", 'b', .nothing⟩, ⟨"number", 'n', .nothing⟩,
    ⟨"squeeze-blank", 's', .nothing⟩, ⟨"show-nonprinting", 'v', .nothing⟩,
    ⟨"show-ends", 'E', .nothing⟩, ⟨"show-tabs", 'T', .nothing⟩, ⟨"show-all", 'A', .nothing⟩]

def Style.add (s : Style) (letter : Char) : Style :=
  match letter with
  | 'b' => { s with number := true, numberNonblank := true }
  | 'e' => { s with showEnds := true, showUnseen := true }
  | 'n' => { s with number := true }
  | 's' => { s with squeeze := true }
  | 't' => { s with showTabs := true, showUnseen := true }
  | 'v' => { s with showUnseen := true }
  | 'A' => { s with showUnseen := true, showEnds := true, showTabs := true }
  | 'E' => { s with showEnds := true }
  | 'T' => { s with showTabs := true }
  | _ => s

/-- How far the showing has come. -/
structure Progress where
  /-- Newlines in a row, as far as they matter, if a line is about to begin. -/
  newlines : Option Nat := some 0
  lineNumber : Nat := 0
  /-- A carriage return that may stand in front of a newline. -/
  hasReturn : Bool := false
  /-- What is shown, last byte first. -/
  shown : Bytes := []

namespace Progress

def put (p : Progress) (t : Bytes) : Progress := { p with shown := t.reverse ++ p.shown }

def numberLine (p : Progress) : Progress :=
  { p with lineNumber := p.lineNumber + 1 }.put
    (alignRight 6 (decimal (p.lineNumber + 1)) ++ [byte '\t'])

/-- Show a carriage return that was held back. -/
def release (p : Progress) : Progress :=
  if p.hasReturn then { p with hasReturn := false }.put [13] else p

end Progress

/-- A control character behind a circumflex. -/
def control (b : UInt8) : Bytes := [byte '^', b ^^^ 64]

/-- A byte with a mark for what is not seen of it. -/
def visible (b : UInt8) : Bytes :=
  let low := b &&& 127
  (if b < 128 then [] else bytes "M-") ++ if low < 32 || low = 127 then control low else [low]

def Style.newline (s : Style) (p : Progress) : Progress :=
  let newlines := match p.newlines with
    | some n => min 2 (n + 1)
    | none => 0
  let p := { p with newlines := some newlines }
  if s.squeeze && newlines = 2 then p
  else
    let p := if s.number && !s.numberNonblank && 0 < newlines then p.numberLine else p
    let p := if !s.showEnds then p
      else { p with hasReturn := false }.put ((if p.hasReturn then bytes "^M" else []) ++ bytes "$")
    p.put [newlineByte]

def Style.byte (s : Style) (p : Progress) (b : UInt8) : Progress :=
  if b == newlineByte then s.newline p
  else
    let p := p.release
    let p := if s.number && p.newlines.isSome then p.numberLine else p
    let p := { p with newlines := none }
    if b == 9 then p.put (if s.showTabs then control b else [b])
    else if s.showUnseen then p.put (visible b)
    else if b == 13 && s.showEnds then { p with hasReturn := true }
    else p.put [b]

/-- Show files one after another; `written` is where the target is written next. A file is not shown
in itself behind the place it is read from. -/
def files (d : Desk) (s : Style) : (written : Nat) → Progress → List Supply → List Print × Progress
  | _, p, [] => ([], p)
  | written, p, f :: rest =>
    let goOn := fun (print : Print) (p : Progress) =>
      let (prints, p) := files d s (match print with
        | .output t => written + t.length
        | _ => written) { p with shown := [] } rest
      (print :: prints, p)
    match f.content with
    | .error t => goOn (d.complaint (shownName f.name ++ bytes ": " ++ t)) p
    | .ok (_, .directory) => goOn (d.complaint (shownName f.name ++ bytes ": " ++ directoryMessage)) p
    | .ok (t, o) =>
      let isTarget := match o, d.target with
        | .file l size, some l' => l == l' && size - t.length < written
        | _, _ => false
      if isTarget then
        goOn (d.complaint (shownName f.name ++ bytes ": input file is output file")) p
      else
        let p := t.foldl s.byte p
        goOn (.output p.shown.reverse) p

/-- Some file could not be shown. -/
def hasComplaint (prints : List Print) : Bool := prints.any fun
  | .errors _ => true
  | .output _ => false

def run : Desk → Outcome := fun d =>
  let a := table.read d.arguments
  match a.fault with
  | some f => d.misused f.message
  | none =>
    if d.isOutputClosed then d.refuse (bytes "standard output: " ++ closedMessage)
    else
      let s := a.options.foldl (fun (s : Style) o => s.add o.1) {}
      let (prints, p) := files d s d.targetOffset {} (suppliesOf d a.operands)
      let hasRead := readsInput a.operands
      let prints := prints ++ .output p.release.shown.reverse ::
        if hasRead && d.input.isNone then
          [d.complaint (bytes "closing standard input: " ++ closedMessage)]
        else []
      { prints, status := if hasComplaint prints then 1 else 0, hasRead }

end StructuralEdit.Shell.Tool.Cat
