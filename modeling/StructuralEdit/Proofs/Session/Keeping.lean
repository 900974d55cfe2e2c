import StructuralEdit.Proofs.Buffer.Dots
import StructuralEdit.Proofs.Session.Moves

/-! # Runs that keep dots in their texts

A run is judged by one buffer: whatever it leads to, the dots of that buffer stay in
their texts, patterns go on to be compiled for the same engine, and the result of a run
that succeeds fits the text. What is known of the text while nothing is undone goes on to
hold, as far as a longer text leaves it true; a buffer that becomes known has no text before.
-/
namespace StructuralEdit

/-- A target in one buffer lies in the text there is. -/
def Target.Fits (k : Handle) (a : Target) (t : Text) : Prop := a.buffer = k → a.r.Within t

/-- What holds of a text holds of every longer one. -/
def Text.Grows (A : Text → Prop) : Prop := ∀ ⦃t t' : Text⦄, t.length ≤ t'.length → A t → A t'

theorem Text.grows_true : Text.Grows fun _ => True := fun _ _ _ _ => trivial

theorem Target.grows_fits (k : Handle) (a : Target) : Text.Grows (a.Fits k) :=
  fun _ _ hle h hk => (h hk).grow hle

namespace Touch
variable {t : Touch}

theorem text_apply (ht : t.Deferred) (b : Buffer) : (t.apply b).text = b.text := by
  cases t with
  | travel steps => cases ht
  | rename name =>
    simp only [apply, Buffer.rename]
    split <;> rfl
  | dot | record | markClean | markDirty | read | know | pin | close => rfl

end Touch

namespace Session
variable {s t : Session} {k : Handle} {engine : Pattern.Engine}

/-- The dots of a buffer lie in their texts, and patterns are compiled for a given engine. -/
structure Fit (k : Handle) (engine : Pattern.Engine) (s : Session) : Prop where
  dots : (s.buffer k).DotsWithin
  engine : s.patterns.engine = engine

/-- Still moves keep every dot in its text. -/
theorem Reaches.fit (h : s.Reaches Touch.Still t) (hs : s.Fit k engine) : t.Fit k engine where
  dots := h.moves.preserves (I := Buffer.DotsWithin)
    (fun t ht _ hb => hb.touch fun r hr => by rw [hr] at ht; cases ht)
    (fun store path _ => Buffer.dotsWithin_load store path) hs.dots
  engine := h.patterns.engine.trans hs.engine

/-- No text is cut before something is undone. -/
theorem Reaches.length_le (h : s.Reaches Touch.Deferred t) (k : Handle) :
    (s.buffer k).text.length ≤ (t.buffer k).text.length := by
  refine h.moves.preserves (I := fun b => (s.buffer k).text.length ≤ b.text.length) ?_ ?_ (Nat.le_refl _)
  · intro t ht b hb
    rwa [Touch.text_apply ht]
  · intro store path hdefault
    exact Nat.le_trans hdefault (Nat.zero_le _)

end Session

namespace Run
variable {α β : Type} {k : Handle} {engine : Pattern.Engine} {x : Run α} {A P P' : Text → Prop}
  {Q Q' : α → Text → Prop} {R : β → Text → Prop}

/-- From dots in their texts, and a text as `P` says, a run leads to dots in their texts; its result
and the text there is then are as `Q` says. -/
def Keeps (k : Handle) (engine : Pattern.Engine) (x : Run α) (P : Text → Prop)
    (Q : α → Text → Prop) : Prop :=
  ∀ s : Session, s.Fit k engine → P (s.buffer k).text →
    (x.final s).Fit k engine ∧ ∀ a, x.value s = some a → Q a ((x.final s).buffer k).text

/-! ## Composition -/

theorem Keeps.weaken (hx : x.Keeps k engine P Q) (hP : ∀ t, P' t → P t) (hQ : ∀ a t, Q a t → Q' a t) :
    x.Keeps k engine P' Q' := by
  intro s hs hp
  obtain ⟨hdots,hvalue⟩ := hx s hs (hP _ hp)
  exact ⟨hdots,fun a ha => hQ a _ (hvalue a ha)⟩

theorem Keeps.pre (hx : x.Keeps k engine P Q) (hP : ∀ t, P' t → P t) : x.Keeps k engine P' Q :=
  hx.weaken hP fun _ _ h => h

theorem Keeps.post (hx : x.Keeps k engine P Q) (hQ : ∀ a t, Q a t → Q' a t) : x.Keeps k engine P Q' :=
  hx.weaken (fun _ h => h) hQ

theorem keeps_pure {a : α} (h : ∀ t, P t → Q a t) : (pure a : Run α).Keeps k engine P Q := by
  intro s hs hp
  refine ⟨hs,fun b hb => ?_⟩
  cases hb
  exact h _ hp

theorem keeps_throw (f : Fault) : (throw f : Run α).Keeps k engine P Q := fun _ hs _ => ⟨hs,nofun⟩

theorem keeps_fail (e : EditError) : (fail e : Run α).Keeps k engine P Q := keeps_throw _

theorem keeps_bind {f : α → Run β} (hx : x.Keeps k engine P Q) (hf : ∀ a, (f a).Keeps k engine (Q a) R) :
    (x >>= f).Keeps k engine P R := by
  intro s hs hp
  obtain ⟨hdots,hvalue⟩ := hx s hs hp
  cases h : x s with
  | error e t =>
    rw [final_of_error h] at hdots
    rw [final_bind_of_error h, value, bind_of_error h]
    exact ⟨hdots,nofun⟩
  | ok a t =>
    rw [final_of_ok h] at hdots hvalue
    rw [final_bind_of_ok h, value, bind_of_ok h]
    exact hf a t hdots (hvalue a (by rw [value, h]))

theorem keeps_ite {c : Prop} [Decidable c] {y : Run α} (hx : c → x.Keeps k engine P Q)
    (hy : ¬ c → y.Keeps k engine P Q) : (if c then x else y).Keeps k engine P Q := by
  split
  · exact hx ‹_›
  · exact hy ‹_›

/-- Something is done only on a condition, and what follows is done anyway. -/
theorem keeps_when {c : Prop} [Decidable c] {y : Run Unit} {f : Unit → Run α}
    (hy : c → y.Keeps k engine P fun _ t => P t) (hf : ∀ u, (f u).Keeps k engine P Q) :
    (if c then y >>= f else f ()).Keeps k engine P Q :=
  keeps_ite (fun hc => keeps_bind (hy hc) hf) fun _ => hf ()

/-- A refusal rules its condition out from there on. -/
theorem keeps_unless {c : Prop} [Decidable c] {e : EditError} {f : Unit → Run α}
    (hf : ¬ c → (f ()).Keeps k engine P Q) : (if c then fail e >>= f else f ()).Keeps k engine P Q :=
  keeps_ite (fun _ => keeps_bind (Q := fun _ _ => False) (keeps_fail e) fun _ _ _ h => h.elim) hf

theorem keeps_ensuring {f : Session → Session} (hx : x.Keeps k engine P fun _ _ => True)
    (hf : ∀ s : Session, s.Reaches Touch.Still (f s)) :
    (ensuring x f).Keeps k engine P fun _ _ => True := by
  intro s hs hp
  have hxs := (hx s hs hp).1
  refine ⟨?_,fun _ _ => trivial⟩
  cases h : x s with
  | error e t =>
    simp only [final, h] at hxs
    simp only [final, ensuring, h]
    exact (hf t).fit hxs
  | ok a t =>
    simp only [final, h] at hxs
    simp only [final, ensuring, h]
    exact (hf t).fit hxs

/-! ## Frames -/

/-- What holds of longer texts too is not lost while nothing is undone. -/
theorem Keeps.frame (hx : x.Keeps k engine P Q) (hd : x.Defers) (hA : Text.Grows A) :
    x.Keeps k engine (fun t => P t ∧ A t) fun a t => Q a t ∧ A t := by
  intro s hs hp
  obtain ⟨hdots,hvalue⟩ := hx s hs hp.1
  exact ⟨hdots,fun a ha => ⟨hvalue a ha,hA ((hd s).length_le k) hp.2⟩⟩

/-- A run that neither moves a dot nor undoes anything. -/
theorem keeps_still (hx : x.Within Touch.Still) (hA : Text.Grows A) : x.Keeps k engine A fun _ t => A t := by
  intro s hs hp
  exact ⟨(hx s).fit hs,fun a _ => hA (((hx s).mono fun _ => Touch.Still.deferred).length_le k) hp⟩

/-- Such a run where nothing need be known. -/
theorem keeps_quietly (hx : x.Within Touch.Still) : x.Keeps k engine P fun _ _ => True :=
  (keeps_still hx Text.grows_true).pre fun _ _ => trivial

/-- A run that leaves the workspace alone, and the engine. -/
theorem keeps_reading (hx : ∀ s, (x.final s).workspace = s.workspace)
    (he : ∀ s, (x.final s).patterns.engine = s.patterns.engine)
    (hQ : ∀ s a, s.Fit k engine → P (s.buffer k).text → x.value s = some a →
      Q a (s.buffer k).text) : x.Keeps k engine P Q := by
  intro s hs hp
  have hb : (x.final s).buffer k = s.buffer k := by rw [Session.buffer, hx s, Session.buffer]
  rw [hb]
  exact ⟨⟨hb ▸ hs.dots,(he s).trans hs.engine⟩,fun a ha => hQ s a hs hp ha⟩

theorem keeps_get : (get : Run Session).Keeps k engine P fun _ t => P t :=
  keeps_reading (fun _ => rfl) (fun _ => rfl) fun _ _ _ hp _ => hp

theorem keeps_buffer (h : Handle) : (buffer h).Keeps k engine P fun b t =>
    P t ∧ (h = k → b.text = t ∧ b.DotsWithin) := by
  refine keeps_reading (fun _ => rfl) (fun _ => rfl) fun s b hs hp hb => ?_
  cases hb
  refine ⟨hp,?_⟩
  rintro rfl
  exact ⟨rfl,hs.dots⟩

theorem keeps_searching (r : Except SearchFault α) :
    (searching r).Keeps k engine P fun a t => P t ∧ r = .ok a := by
  cases r with
  | ok a => exact keeps_pure fun t hp => ⟨hp,rfl⟩
  | error f => exact keeps_throw _

theorem keeps_compile (pattern place : Text) :
    (compile pattern place).Keeps k engine P fun re t => P t ∧ Pattern.Regex.compile engine pattern = .ok re := by
  have hnoted := follows_compile (R := Session.Noted) pattern place
  refine keeps_reading (fun s => ?_) (fun s => ?_) fun s re hs hp hre => ⟨hp,?_⟩
  · obtain ⟨_,_,_,_,-,h⟩ := hnoted s
    rw [h]
  · obtain ⟨_,_,_,_,halike,h⟩ := hnoted s
    rw [h]
    exact halike.engine
  · rw [value, compile_eq, hs.engine] at hre
    rcases hrun : Pattern.Regex.compile engine pattern with f | re₁
    · rw [hrun] at hre
      cases f <;> cases hre
    · rw [hrun] at hre
      cases hre
      rfl

theorem keeps_setDot {h : Handle} {r : Span} (hr : ∀ t, P t → h = k → r.Within t) (hA : Text.Grows P) :
    (setDot h r).Keeps k engine P fun _ t => P t := by
  intro s hs hp
  have hlength := (follows_setDot (R := Session.Reaches Touch.Deferred) h r s).length_le k
  refine ⟨⟨?_,hs.engine⟩,fun _ _ => hA hlength hp⟩
  have hmoved := Workspace.buffer_update_cases s.workspace h k fun b => { b with dot := r }
  by_cases hk : h = k
  · rcases hmoved with hb | hb
    · exact (congrArg Buffer.DotsWithin hb).mpr hs.dots
    · exact (congrArg Buffer.DotsWithin hb).mpr (hs.dots.setDot (hr _ hp hk))
  · have hb : ((setDot h r).final s).buffer k = s.buffer k :=
      s.workspace.buffer_update_of_ne _ (Ne.symm hk)
    rw [hb]
    exact hs.dots

end Run

end StructuralEdit
