import StructuralEdit.Proofs.Address.Rows
import StructuralEdit.Proofs.Session.Recording

/-! # Loops that take a range apart

The loop over the matches in a range and the loop over the pieces between them make the same
search. What is found lies in the range, one match behind the other, so the two together visit
each character of the range once. The loop over the lines of a range makes no search, and visits
each of them once.
-/
namespace StructuralEdit
open Pattern

namespace Run
variable {s : Session} {a : Target} {pattern : Text} {re : Regex}

/-- What the one loop visits are the matches found in the range, what the other visits lies between
them. -/
theorem loopRanges_found {ms : List Match} (hre : Regex.compile s.patterns.engine pattern = .ok re)
    (hms : re.forward (s.buffer a.buffer).text a.r.q0 (some a.r.q1) none = .ok ms) : ∃ t,
    loopRanges (.matching pattern) a s = .ok (ms.map Match.span) t ∧
      loopRanges (.between pattern) a s = .ok (a.r.gaps (ms.map Match.span)) t := by
  let t : Session := { s with patterns := (s.patterns.compile pattern).2 }
  have hcompile (place : Text) : compile pattern place s = .ok re t := by
    rw [compile_eq, hre]
    rfl
  have hread : buffer a.buffer s = .ok (s.buffer a.buffer) s := rfl
  refine ⟨t,?_⟩
  unfold loopRanges
  simp only [bind_of_ok hread, compileFor, bind_assoc]
  rw [bind_of_ok (hcompile _), bind_of_ok (hcompile _), hms]
  exact ⟨rfl,rfl⟩

/-- The loop over the matches of a pattern and the loop over what lies between them take a range
apart: there is one piece more than there are matches, all of them lie in the range, and in turn they
are contiguous and make up its text. -/
theorem loops_split (hr : a.r.Within (s.buffer a.buffer).text)
    (hre : Regex.compile s.patterns.engine pattern = .ok re)
    (hs : re.Serves (s.buffer a.buffer).text.toArray) : ∃ rs gs t,
    loopRanges (.matching pattern) a s = .ok rs t ∧ loopRanges (.between pattern) a s = .ok gs t ∧
      Splits (s.buffer a.buffer).text a.r rs gs := by
  obtain ⟨ms,-,hsequenced,hforward⟩ := Regex.exists_forward hs hr
  obtain ⟨t,hmatching,hbetween⟩ := loopRanges_found hre (hforward none)
  exact ⟨_,_,t,hmatching,hbetween,hsequenced.splits hr⟩

/-- A pattern with a group that matches the empty text too, in a range that begins inside a text. -/
theorem loops_split_nullable :
    let s : Session := { workspace := { known := [{ text := "baac".toList }], listed := [0] } }
    let a : Target := ⟨⟨1, 4⟩, 0⟩
    a.r.Within (s.buffer a.buffer).text ∧
      ∃ re, Regex.compile s.patterns.engine "(a)*".toList = .ok re ∧
        re.Serves (s.buffer a.buffer).text.toArray ∧ ∃ rs gs t,
          loopRanges (.matching "(a)*".toList) a s = .ok rs t ∧
          loopRanges (.between "(a)*".toList) a s = .ok gs t ∧
          Splits (s.buffer a.buffer).text a.r rs gs := by
  intro s a
  have hr : a.r.Within (s.buffer a.buffer).text := by constructor <;> decide
  obtain ⟨re,hre,hs⟩ : ∃ re, Regex.compile s.patterns.engine "(a)*".toList = .ok re ∧
      re.Serves (s.buffer a.buffer).text.toArray := Regex.exists_compile (by decide +kernel)
  exact ⟨hr,re,hre,hs,loops_split hr hre hs⟩

/-- The loop over the lines of a range visits each line once, as far as it lies in the range: in order, apart from
each other and without newlines, and joined by newlines they make up the text of the range, but for one
newline that may end it. There is nothing to visit only in an empty range. -/
theorem loop_lines (hr : a.r.Within (s.buffer a.buffer).text) : ∃ rs,
    loopRanges .lines a s = .ok rs s ∧ Lines.Rows (s.buffer a.buffer).text a.r rs :=
  ⟨_,rfl,Lines.rows_ranges hr.start hr.ordered hr.stop⟩

/-- A range that begins inside a line, holds an empty one and ends with a newline. -/
theorem loop_lines_empty :
    let s : Session := { workspace := { known := [{ text := "one\n\ntwo\n".toList }], listed := [0] } }
    let a : Target := ⟨⟨1, 9⟩, 0⟩
    a.r.Within (s.buffer a.buffer).text ∧ loopRanges .lines a s = .ok [⟨1, 3⟩, ⟨4, 4⟩, ⟨5, 8⟩] s ∧
      Lines.Rows (s.buffer a.buffer).text a.r [⟨1, 3⟩, ⟨4, 4⟩, ⟨5, 8⟩] := by
  intro s a
  have hr : a.r.Within (s.buffer a.buffer).text := by constructor <;> decide
  obtain ⟨rs,hvisited,hrows⟩ := loop_lines hr
  have hlines : rs = [⟨1, 3⟩, ⟨4, 4⟩, ⟨5, 8⟩] := by
    cases hvisited
    decide
  rw [hlines] at hvisited hrows
  exact ⟨hr,hvisited,hrows⟩

end Run

end StructuralEdit
