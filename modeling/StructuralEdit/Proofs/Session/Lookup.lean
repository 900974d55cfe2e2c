import StructuralEdit.Proofs.Session.Steps

/-! # Looking into a buffer

Counting lines and characters, searching and collecting the ranges of a loop go by the text
of one buffer. Where that text is the same, they come to the same, whatever else differs.
-/
namespace StructuralEdit

/-- A buffer has one text in two sessions, and both search alike. -/
structure Session.Agree (k : Handle) (s t : Session) : Prop where
  text : (t.buffer k).text = (s.buffer k).text
  patterns : t.patterns.Alike s.patterns

namespace Run
open Session
variable {k : Handle} {s t : Session} {α β : Type} {x : Run α}

/-- A run goes by the text of one buffer, and leaves it alone. -/
def LooksAt (k : Handle) (x : Run α) : Prop :=
  ∀ s t : Session, s.Agree k t → x.outcome t = x.outcome s ∧ (x.final s).Agree k (x.final t)

theorem looksAt_pure (a : α) : (pure a : Run α).LooksAt k := fun _ _ h => ⟨rfl,h⟩

theorem looksAt_throw (f : Fault) : (throw f : Run α).LooksAt k := fun _ _ h => ⟨rfl,h⟩

theorem looksAt_bind {f : α → Run β} (hx : x.LooksAt k) (hf : ∀ a, (f a).LooksAt k) :
    (x >>= f).LooksAt k := by
  intro s t h
  obtain ⟨ho,hagree⟩ := hx s t h
  cases hs : x s with
  | ok a u =>
    cases ht : x t with
    | ok b v =>
      rw [outcome_of_ok hs, outcome_of_ok ht] at ho
      rw [final_of_ok hs, final_of_ok ht] at hagree
      cases ho
      rw [outcome, outcome, bind_of_ok hs, bind_of_ok ht, final_bind_of_ok hs, final_bind_of_ok ht]
      exact hf a u v hagree
    | error e v =>
      rw [outcome_of_ok hs, outcome_of_error ht] at ho
      cases ho
  | error e u =>
    cases ht : x t with
    | ok b v =>
      rw [outcome_of_error hs, outcome_of_ok ht] at ho
      cases ho
    | error e' v =>
      rw [outcome_of_error hs, outcome_of_error ht] at ho
      rw [final_of_error hs, final_of_error ht] at hagree
      rw [outcome_of_error (bind_of_error hs), outcome_of_error (bind_of_error ht),
        final_bind_of_error hs, final_bind_of_error ht]
      cases ho
      exact ⟨rfl,hagree⟩

/-- Nothing but the text of the buffer is used. -/
theorem looksAt_buffer {f : Buffer → Run α} (hf : ∀ b, (f b).LooksAt k)
    (htext : ∀ b c : Buffer, c.text = b.text → f c = f b) : (buffer k >>= f).LooksAt k := by
  intro s t h
  change (f (t.buffer k)).outcome t = (f (s.buffer k)).outcome s ∧
    ((f (s.buffer k)).final s).Agree k ((f (t.buffer k)).final t)
  rw [htext _ _ h.text]
  exact hf _ s t h

theorem looksAt_get {f : Session → Run α} (hf : ∀ s, (f s).LooksAt k)
    (halike : ∀ s t : Session, t.patterns.Alike s.patterns → f t = f s) :
    ((get : Run Session) >>= f).LooksAt k := by
  intro s t h
  change (f t).outcome t = (f s).outcome s ∧ ((f s).final s).Agree k ((f t).final t)
  rw [halike _ _ h.patterns]
  exact hf _ s t h

theorem looksAt_searching (r : Except SearchFault α) : (searching r).LooksAt k := by
  cases r with
  | ok a => exact looksAt_pure a
  | error f => exact looksAt_throw _

/-- The patterns remembered have no part in what a pattern compiles to. -/
theorem looksAt_compile (pattern place : Text) : (compile pattern place).LooksAt k := by
  intro s t h
  have hagree : ({ s with patterns := (s.patterns.compile pattern).2 } : Session).Agree k
      { t with patterns := (t.patterns.compile pattern).2 } :=
    ⟨h.text,(t.patterns.alike_compile pattern).trans
      (h.patterns.trans (s.patterns.alike_compile pattern).symm)⟩
  rw [outcome, outcome, final, final, compile_eq, compile_eq, h.patterns.engine]
  rcases Pattern.Regex.compile s.patterns.engine pattern with (_ | _ | _) | _ <;> exact ⟨rfl,hagree⟩

/-! ## What is looked up -/

theorem looksAt_lineAddress (n : Int) (r : Span) (sign : Int) :
    (lineAddress n ⟨r, k⟩ sign).LooksAt k := by
  refine looksAt_buffer (fun b => ?_) fun b c h => by simp only [h]
  split
  · exact looksAt_pure _
  · exact looksAt_throw _
  · exact looksAt_throw _

theorem looksAt_charAddress (n : Int) (r : Span) (sign : Int) :
    (charAddress n ⟨r, k⟩ sign).LooksAt k := by
  refine looksAt_buffer (fun b => ?_) fun b c h => by simp only [h]
  split
  · exact looksAt_pure _
  · exact looksAt_throw _

theorem looksAt_nextMatch (pattern : Text) (p sign : Int) : (nextMatch k pattern p sign).LooksAt k := by
  refine looksAt_bind (looksAt_compile _ _) fun re => ?_
  refine looksAt_get (fun s => ?_) fun s t h => by simp only [h.window]
  refine looksAt_buffer (fun b => ?_) fun b c h => by simp only [h]
  refine looksAt_bind (looksAt_searching _) fun found => ?_
  split
  · exact looksAt_pure _
  · exact looksAt_throw _

theorem looksAt_loopRanges (loop : RangeLoop) (r : Span) : (loopRanges loop ⟨r, k⟩).LooksAt k := by
  refine looksAt_buffer (fun b => ?_) fun b c h => by simp only [h]
  extract_lets text found
  have hfound (re : Text) : (found re).LooksAt k :=
    looksAt_bind (looksAt_compile _ _) fun _ => looksAt_bind (looksAt_searching _) fun _ =>
      looksAt_pure _
  cases loop with
  | lines => exact looksAt_pure _
  | matching re => exact hfound re
  | between re => exact looksAt_bind (hfound re) fun _ => looksAt_pure _

/-- Everything that is looked up in a buffer comes to the same in two sessions. -/
structure SameLookups (k : Handle) (s t : Session) : Prop where
  line (n : Int) (r : Span) (sign : Int) :
    (lineAddress n ⟨r, k⟩ sign).outcome t = (lineAddress n ⟨r, k⟩ sign).outcome s
  char (n : Int) (r : Span) (sign : Int) :
    (charAddress n ⟨r, k⟩ sign).outcome t = (charAddress n ⟨r, k⟩ sign).outcome s
  search (pattern : Text) (p sign : Int) :
    (nextMatch k pattern p sign).outcome t = (nextMatch k pattern p sign).outcome s
  ranges (loop : RangeLoop) (r : Span) :
    (loopRanges loop ⟨r, k⟩).outcome t = (loopRanges loop ⟨r, k⟩).outcome s

theorem sameLookups_of_agree (h : s.Agree k t) : SameLookups k s t where
  line n r sign := (looksAt_lineAddress n r sign s t h).1
  char n r sign := (looksAt_charAddress n r sign s t h).1
  search pattern p sign := (looksAt_nextMatch pattern p sign s t h).1
  ranges loop r := (looksAt_loopRanges loop r s t h).1

end Run

end StructuralEdit
