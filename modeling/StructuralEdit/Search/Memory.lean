import StructuralEdit.Pattern.Regex

/-! # Remembered patterns

The last pattern that was not empty stands in for an empty one. The most recently
used patterns are kept compiled.
-/
namespace StructuralEdit
open Pattern

/-- A pattern that is kept with what it compiles to. -/
structure CompiledPattern (engine : Engine) where
  pattern : Text
  regex : Regex
  compiled : Regex.compile engine pattern = .ok regex

structure PatternMemory where
  last : Text := []
  /-- How far a backward search first reaches. -/
  window : Int := 500
  capacity : Int := 64
  engine : Engine := {}
  /-- The patterns kept compiled, most recently used first. -/
  recent : List (CompiledPattern engine) := []

namespace PatternMemory

/-- The pattern in effect after a pattern was given: that one, or the last one if it is empty. -/
def remember (m : PatternMemory) (p : Text) : PatternMemory :=
  if p.isEmpty then m else { m with last := p }

theorem last_remember (m : PatternMemory) (p : Text) :
    (m.remember p).last = if p = [] then m.last else p := by
  cases p <;> simp [remember]

/-- Put a pattern in front and drop what is beyond the capacity. -/
def keep (m : PatternMemory) (e : CompiledPattern m.engine) : PatternMemory :=
  { m with recent := (e :: m.recent.filter (·.pattern != e.pattern)).take (max 1 m.capacity).toNat }

/-- Compile a pattern, or find it compiled. -/
def compile (m : PatternMemory) (p : Text) : Except Failure Regex × PatternMemory :=
  match m.recent.find? (·.pattern == p) with
  | some e => (.ok e.regex, m.keep e)
  | none =>
    match h : Regex.compile m.engine p with
    | .ok re => (.ok re, m.keep ⟨p, re, h⟩)
    | .error e => (.error e, m)

/-- What is remembered has no influence on what a pattern compiles to. -/
theorem compile_result (m : PatternMemory) (p : Text) : (m.compile p).1 = Regex.compile m.engine p := by
  unfold compile
  split
  · rename_i e he
    have hp : e.pattern = p := by simpa using List.find?_some he
    rw [← hp, e.compiled]
  · split
    · rename_i re h
      exact h.symm
    · rename_i e h
      exact h.symm

/-- Two memories search alike: backward from the same window, and for the same engine. -/
structure Alike (m n : PatternMemory) : Prop where
  window : m.window = n.window
  engine : m.engine = n.engine

theorem Alike.refl (m : PatternMemory) : m.Alike m := ⟨rfl,rfl⟩

theorem Alike.symm {m n : PatternMemory} (h : m.Alike n) : n.Alike m :=
  ⟨h.window.symm,h.engine.symm⟩

theorem Alike.trans {m n k : PatternMemory} (h : m.Alike n) (h' : n.Alike k) : m.Alike k :=
  ⟨h.window.trans h'.window,h.engine.trans h'.engine⟩

theorem alike_compile (m : PatternMemory) (p : Text) : (m.compile p).2.Alike m := by
  unfold compile
  split
  · exact ⟨rfl,rfl⟩
  · split
    · exact ⟨rfl,rfl⟩
    · exact ⟨rfl,rfl⟩

theorem last_compile (m : PatternMemory) (p : Text) : (m.compile p).2.last = m.last := by
  unfold compile
  split
  · rfl
  · split <;> rfl

/-- The patterns kept, least recently used first. -/
def kept (m : PatternMemory) : List Text := (m.recent.map (·.pattern)).reverse

end PatternMemory

end StructuralEdit
