import StructuralEdit.Address.Lines
import StructuralEdit.Text.Numeral

/-! # Positions as addresses

A span is shown as an address that leads to it: by characters, by a line and the
characters behind its start, or by the lines it covers.
-/
namespace StructuralEdit.Position
open Text (ofNat ofInt)

def byChars (r : Span) : Text :=
  '#' :: ofInt r.q0 ++ if r.q1 = r.q0 then [] else ",#".toList ++ ofInt r.q1

def byLineAndChars (t : Text) (r : Span) : Text :=
  let (newlines, column) := Lines.count (t.slice 0 r.q0)
  let (more, tail) := Lines.count (t.slice r.q0 r.q1)
  let first := newlines + 1
  let last := first + more
  ofNat first ++ "+#".toList ++ ofNat column
    ++ if more = 0 then [] else ',' :: ofNat last ++ "+#".toList ++ ofNat tail

/-- A range that ends in a newline does not reach the line behind it. -/
def byLines (t : Text) (r : Span) : Except OffsetFault Text := do
  let first : Int := (Lines.count (t.slice 0 r.q0)).1 + 1
  let reached := first + (Lines.count (t.slice r.q0 r.q1)).1
  let complete ← if r.q0 < r.q1 then pure ((← t.charAt (r.q1 - 1)) == '\n') else pure false
  let last := if complete then reached - 1 else reached
  return ofInt first ++ if last = first then [] else ',' :: ofInt last

/-- The position in the form a mode asks for. -/
def render (t : Text) (r : Span) (mode : Text) : Except OffsetFault Text :=
  if mode = ['#'] then .ok (byChars r)
  else if mode = ['+'] then .ok (byLineAndChars t r)
  else byLines t r

end StructuralEdit.Position
