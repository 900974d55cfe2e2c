import Mathlib.Data.List.Induction
import StructuralEdit.Search.Memory

/-! # The patterns a memory keeps

A memory of patterns is asked to remember one or to compile one, any number of times. What it
keeps compiled then is told by the patterns that were compiled alone: without repetitions, the
last ones of them. Neither what it keeps nor what it has dropped shows in what it compiles.
-/
namespace StructuralEdit
open Pattern

section
variable {α : Type} [BEq α] [LawfulBEq α]

theorem nodup_eraseDups : (l : List α) → l.eraseDups.Nodup
  | [] => List.nodup_nil
  | a :: rest => by
    have hrest := nodup_eraseDups (rest.filter fun b => !b == a)
    rw [List.eraseDups_cons]
    refine List.nodup_cons.mpr ⟨?_,hrest⟩
    rw [List.mem_eraseDups, List.mem_filter]
    simp
termination_by l => l.length
decreasing_by exact Nat.lt_succ_of_le (List.length_filter_le _ _)

theorem eraseDups_filter (p : α → Bool) : (l : List α) → (l.filter p).eraseDups = l.eraseDups.filter p
  | [] => rfl
  | a :: rest => by
    have hrest := eraseDups_filter p (rest.filter fun b => !b == a)
    rw [List.eraseDups_cons, List.filter_cons, List.filter_cons]
    split
    · rw [List.eraseDups_cons, ← hrest, List.filter_filter, List.filter_filter]
      simp only [Bool.and_comm]
    · -- the filter takes out this member, so its repetitions too
      rename_i ha
      rw [← hrest, List.filter_filter]
      congr 1
      refine List.filter_congr fun b _ => ?_
      by_cases hb : b = a
      · simp [hb, ha]
      · simp [hb]
termination_by l => l.length
decreasing_by exact Nat.lt_succ_of_le (List.length_filter_le _ _)

/-- The first members of a list that another one is put in front of, wherever it stood. -/
theorem take_cons_filter_take (n : Nat) (a : α) {l : List α} (hl : l.Nodup) :
    (a :: (l.take n).filter (· != a)).take n = (a :: l.filter (· != a)).take n := by
  induction l generalizing n with
  | nil => rw [List.take_nil]
  | cons b rest ih =>
    obtain ⟨hb,hrest⟩ := List.nodup_cons.mp hl
    cases n with
    | zero => rfl
    | succ n =>
      by_cases hba : b = a
      · have hkeep {m : List α} (hm : m.Sublist rest) : m.filter (· != a) = m :=
          List.filter_eq_self.mpr fun c hc => by
            simpa using fun hca : c = a => hb (hba.trans hca.symm ▸ hm.subset hc)
        simp [hba, hkeep (List.take_sublist n rest), hkeep (List.Sublist.refl rest), List.take_take]
      · cases n with
        | zero => rfl
        | succ n =>
          have hmore := ih (n + 1) hrest
          simpa [hba] using hmore

end

namespace PatternMemory
variable {m : PatternMemory} {engine : Engine} {uses : List Text}

/-- What a memory is asked for. -/
inductive Use
  | remember (p : Text)
  | compile (p : Text)

/-- The pattern that is compiled, if an engine can do that. -/
def Use.compiled? (engine : Engine) : Use → Option Text
  | remember _ => none
  | compile p =>
    match Regex.compile engine p with
    | .ok _ => some p
    | .error _ => none

/-- The pattern that is to be remembered; an empty one is none. -/
def Use.given? : Use → Option Text
  | remember p => if p = [] then none else some p
  | compile _ => none

def used (m : PatternMemory) : Use → PatternMemory
  | .remember p => m.remember p
  | .compile p => (m.compile p).2

/-- The number of patterns that are kept, at least one. -/
def limit (m : PatternMemory) : Nat := (max 1 m.capacity).toNat

theorem patterns_keep (m : PatternMemory) (e : CompiledPattern m.engine) : (m.keep e).recent.map (·.pattern) =
    (e.pattern :: (m.recent.map (·.pattern)).filter (· != e.pattern)).take m.limit := by
  rw [keep, List.map_take, List.map_cons, List.filter_map]
  rfl

/-- A pattern that cannot be compiled leaves the memory alone; any other one comes to the front. -/
theorem compile_cases (m : PatternMemory) (p : Text) :
    (∃ e, Regex.compile m.engine p = .error e ∧ (m.compile p).2 = m) ∨
    ∃ e : CompiledPattern m.engine, e.pattern = p ∧ (m.compile p).2 = m.keep e := by
  unfold compile
  split
  · rename_i e he
    exact .inr ⟨e,by simpa using List.find?_some he,rfl⟩
  · split
    · rename_i re h
      exact .inr ⟨⟨p, re, h⟩,rfl,rfl⟩
    · rename_i e h
      exact .inl ⟨e,h,rfl⟩

/-- How much is kept, how far a search reaches and what compiles the patterns never changes. -/
theorem settings_used (m : PatternMemory) (u : Use) :
    (m.used u).window = m.window ∧ (m.used u).capacity = m.capacity ∧ (m.used u).engine = m.engine := by
  cases u with
  | remember p =>
    simp only [used, remember]
    split <;> exact ⟨rfl,rfl,rfl⟩
  | compile p =>
    rcases m.compile_cases p with ⟨_,-,h⟩ | ⟨_,-,h⟩ <;> rw [used, h] <;> exact ⟨rfl,rfl,rfl⟩

theorem last_used (m : PatternMemory) (u : Use) : (m.used u).last = u.given?.getD m.last := by
  cases u with
  | compile p => exact m.last_compile p
  | remember p =>
    simp only [used, last_remember, Use.given?]
    split <;> rfl

/-- The patterns that are kept where some were compiled before, the last one first. -/
def KeepsLast (m : PatternMemory) (uses : List Text) : Prop :=
  m.recent.map (·.pattern) = uses.eraseDups.take m.limit

theorem KeepsLast.keep (h : m.KeepsLast uses) (e : CompiledPattern m.engine) :
    (m.keep e).KeepsLast (e.pattern :: uses) := by
  change (m.keep e).recent.map (·.pattern) = (e.pattern :: uses).eraseDups.take m.limit
  -- a pattern that stands there once at most may be taken out before the cut or after it
  rw [patterns_keep, h, take_cons_filter_take _ _ (nodup_eraseDups uses), List.eraseDups_cons, eraseDups_filter]
  rfl

theorem KeepsLast.used (h : m.KeepsLast uses) (u : Use) :
    (m.used u).KeepsLast ((u.compiled? m.engine).toList ++ uses) := by
  cases u with
  | remember p =>
    simp only [PatternMemory.used, remember]
    split <;> exact h
  | compile p =>
    rcases m.compile_cases p with ⟨e,he,hm⟩ | ⟨e,rfl,hm⟩
    · simp only [PatternMemory.used, Use.compiled?, he, hm]
      exact h
    · simp only [PatternMemory.used, Use.compiled?, e.compiled, hm]
      exact h.keep e

/-- The patterns compiled in some uses, the last one first. -/
def compiled (engine : Engine) (us : List Use) : List Text :=
  us.reverse.filterMap (Use.compiled? engine)

/-- The last pattern, other than the empty one, that was to be remembered in some uses. -/
def lastGiven? (us : List Use) : Option Text := us.reverse.findSome? Use.given?

theorem foldl_used (last : Text) (window capacity : Int) (engine : Engine) (us : List Use) :
    let m : PatternMemory := us.foldl used { last, window, capacity, engine }
    m.window = window ∧ m.capacity = capacity ∧ m.engine = engine ∧
      m.last = (lastGiven? us).getD last ∧ m.KeepsLast (compiled engine us) := by
  -- on the last use, since the memory it finds is that of the uses before it
  induction us using List.reverseRecOn with
  | nil => exact ⟨rfl,rfl,rfl,rfl,(List.take_nil ..).symm⟩
  | append_singleton us u ih =>
    obtain ⟨hwindow,hcapacity,hengine,hlast,hkeeps⟩ := ih
    rw [List.foldl_append, List.foldl_cons, List.foldl_nil]
    obtain ⟨hsame,hlimit,hkept⟩ := settings_used (us.foldl used { last, window, capacity, engine }) u
    refine ⟨hsame.trans hwindow,hlimit.trans hcapacity,hkept.trans hengine,?_,?_⟩
    · rw [last_used, hlast, lastGiven?, lastGiven?, List.reverse_concat, List.findSome?_cons]
      cases u.given? <;> rfl
    · have hcompiled : compiled engine (us ++ [u]) =
          (u.compiled? engine).toList ++ compiled engine us := by
        rw [compiled, compiled, List.reverse_concat, List.filterMap_cons]
        cases u.compiled? engine <;> rfl
      have hused := hkeeps.used u
      rw [hengine] at hused
      rw [hcompiled]
      exact hused

/-- Whatever a memory has been asked for, its window and its capacity are the same, it remembers the last
pattern it was given that is not empty, and it keeps the patterns compiled last, as many as it may. It
compiles a pattern as if it kept none, and one that cannot be compiled changes nothing. -/
theorem keeps_most_recent (last : Text) (window capacity : Int) (engine : Engine) (us : List Use) :
    let m : PatternMemory := us.foldl used { last, window, capacity, engine }
    m.window = window ∧ m.last = (lastGiven? us).getD last ∧
      m.kept = ((compiled engine us).eraseDups.take (max 1 capacity).toNat).reverse ∧
      ∀ p, (m.compile p).1 = Regex.compile engine p ∧
        ∀ e, Regex.compile engine p = .error e → (m.compile p).2 = m := by
  intro m
  obtain ⟨hwindow,hcapacity,hengine,hlast,hkeeps⟩ := foldl_used last window capacity engine us
  have hcompile (p : Text) : (m.compile p).1 = Regex.compile engine p := by
    rw [m.compile_result, hengine]
  refine ⟨hwindow,hlast,?_,fun p => ⟨hcompile p,fun e he => ?_⟩⟩
  · rw [kept, hkeeps, limit, hcapacity]
  · rcases m.compile_cases p with ⟨-,-,hm⟩ | ⟨⟨_,re,hre⟩,rfl,-⟩
    · exact hm
    · rw [← hengine, hre] at he
      cases he

/-- Of three patterns the one that was not used again is dropped, and one that cannot be compiled is none
of them. -/
theorem keeps_most_recent_three :
    let us : List Use := [.compile "a".toList, .remember "x".toList, .compile "b".toList, .remember [],
      .compile "a".toList, .compile "(".toList, .compile "c".toList]
    let m : PatternMemory := us.foldl used { capacity := 2 }
    m.window = 500 ∧ m.last = "x".toList ∧ m.kept = ["a".toList, "c".toList] ∧
      ∃ e, Regex.compile {} "(".toList = .error e ∧ (m.compile "(".toList).2 = m := by
  intro us m
  obtain ⟨hwindow,hlast,hkept,hcompile⟩ := keeps_most_recent [] 500 2 {} us
  obtain ⟨e,he⟩ : ∃ e, Regex.compile {} "(".toList = .error e := ⟨_,rfl⟩
  exact ⟨hwindow,hlast,hkept.trans (by decide +kernel),e,he,(hcompile _).2 e he⟩

end PatternMemory

end StructuralEdit
