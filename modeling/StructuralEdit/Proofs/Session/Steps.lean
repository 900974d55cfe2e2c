import StructuralEdit.Proofs.Outcome
import StructuralEdit.Proofs.Workspace.Moves
import StructuralEdit.Session.Execute

/-! # The steps commands are made of

A relation between sessions that goes on from step to step, and holds of each step that
commands are made of, holds between the sessions a command begins and ends in. What is
said of a command need only be said of its steps, then. They are listed here, a class of
relations for each kind; a run that makes no other step follows every relation of the class.
-/
namespace StructuralEdit

/-- The session a run ends in, whether or not it fails. -/
def Run.final {α : Type} (x : Run α) (s : Session) : Session :=
  match x s with
  | .ok _ s => s
  | .error _ s => s

/-- The result a run gives, if it gives one. -/
def Run.value {α : Type} (x : Run α) (s : Session) : Option α :=
  match x s with
  | .ok a _ => some a
  | .error _ _ => none

theorem Run.ok_of_value {α : Type} {x : Run α} {s : Session} {a : α} (h : x.value s = some a) :
    x s = .ok a (x.final s) := by
  unfold value at h
  unfold final
  cases hx : x s with
  | ok b t =>
    simp only [hx, Option.some.injEq] at h
    simp only [h]
  | error f t =>
    simp only [hx] at h
    cases h

/-- The fault a run ends in, if it fails. -/
def Run.fault {α : Type} (x : Run α) (s : Session) : Option Fault :=
  match x s with
  | .ok _ _ => none
  | .error e _ => some e

theorem Run.error_of_fault {α : Type} {x : Run α} {s : Session} {e : Fault} (h : x.fault s = some e) :
    x s = .error e (x.final s) := by
  unfold fault at h
  unfold final
  cases hx : x s with
  | ok a t =>
    simp only [hx] at h
    cases h
  | error f t =>
    simp only [hx, Option.some.injEq] at h
    simp only [h]

/-- What a run comes to, apart from the session it ends in. -/
def Run.outcome {α : Type} (x : Run α) (s : Session) : Except Fault α :=
  match x s with
  | .ok a _ => .ok a
  | .error e _ => .error e

section
variable {α β : Type} {x : Run α} {f : α → Run β} {s t : Session} {a : α} {e : Fault}

theorem Run.outcome_of_ok (h : x s = .ok a t) : x.outcome s = .ok a := by rw [outcome, h]

theorem Run.outcome_of_error (h : x s = .error e t) : x.outcome s = .error e := by rw [outcome, h]

theorem Run.final_of_ok (h : x s = .ok a t) : x.final s = t := by rw [final, h]

theorem Run.final_of_error (h : x s = .error e t) : x.final s = t := by rw [final, h]

theorem Run.final_bind_of_ok (h : x s = .ok a t) : (x >>= f).final s = (f a).final t := by
  rw [final, bind_of_ok h, final]

theorem Run.final_bind_of_error (h : x s = .error e t) : (x >>= f).final s = t :=
  final_of_error (bind_of_error h)

/-- Giving another result leads nowhere else. -/
theorem Run.final_bind_pure (x : Run α) (g : α → β) (s : Session) :
    (x >>= fun a => pure (g a)).final s = x.final s := by
  cases h : x s with
  | ok a t =>
    rw [final_bind_of_ok h, final_of_ok h]
    rfl
  | error e t => rw [final_bind_of_error h, final_of_error h]

end

theorem Run.buffer_eq (h : Handle) (s : Session) : buffer h s = .ok (s.buffer h) s := rfl

/-- A run leads from every session to one that stands in a relation to it, whether or not it
fails. -/
def Run.Follows {α : Type} (R : Session → Session → Prop) (x : Run α) : Prop :=
  ∀ s : Session, R s (x.final s)

/-- Files as a command leaves them that is given to a runner. -/
def Runner.Leaves (runner : Runner) (before after : FileStore) : Prop :=
  ∃ count request, after = (runner.run count request before).store

/-- What is done to the name of a buffer, and to whether it differs from its file. -/
def Touch.Filing : Touch → Prop
  | rename _ | markClean | markDirty => True
  | _ => False

namespace Session

/-- Do to a buffer what a command at work can do to it. -/
def touch (s : Session) (h : Handle) (t : Touch) : Session :=
  { s with workspace := s.workspace.update h t.apply }

/-- Close a buffer, which is not the current one any more. -/
def closing (s : Session) (h : Handle) : Session :=
  { s with
    workspace := s.workspace.close h
    current := if s.current = some h then none else s.current }

/-- Begin a loop. -/
def inLoop (s : Session) : Session := { s with nest := s.nest + 1 }

/-- Begin a loop over buffers. -/
def inBufferLoop (s : Session) : Session :=
  { s with bufferLoops := s.bufferLoops + 1, nest := s.nest + 1 }

/-- Pin some buffers. -/
def holding (s : Session) (hs : List Handle) : Session :=
  { s with workspace := s.workspace.hold hs }

/-- Unpin some buffers, and all that were opened since they were pinned. -/
def releasing (s : Session) (hs : List Handle) : Session :=
  { s with workspace := s.workspace.release hs }

variable (R : Session → Session → Prop)

/-- What is reported and remembered may change; how far a backward search reaches and the engine
may not. -/
class Quiet : Prop where
  refl (s : Session) : R s s
  trans {s t u : Session} : R s t → R t u → R s u
  note (s : Session) (messages : List Text) (notices : List Notice) (invocations : List Invocation)
    (patterns : PatternMemory) (halike : patterns.Alike s.patterns) :
    R s { s with messages, notices, invocations, patterns }

/-- Dots may be set. -/
class Dots : Prop extends Quiet R where
  dot (s : Session) (h : Handle) (r : Span) : R s (s.touch h (.dot r))

/-- Changes may be recorded. -/
class Records : Prop extends Quiet R where
  record (s : Session) (h : Handle) (c : ChangeRequest) : R s (s.touch h (.record c))

/-- Commands may be undone and redone. -/
class Undoes : Prop extends Quiet R where
  travel (s : Session) (h : Handle) (steps : Int) : R s (s.touch h (.travel steps))

/-- Programs may be run. -/
class Programs : Prop extends Quiet R where
  program (s : Session) (store : FileStore) (h : s.runner.Leaves s.workspace.store store) :
    R s { s with workspace := { s.workspace with store } }

/-- Buffers may be named, and taken to be clean or not. -/
class Files : Prop extends Quiet R where
  filing (s : Session) (h : Handle) (t : Touch) (ht : t.Filing) : R s (s.touch h t)

/-- Buffers may be switched to and closed. -/
class Closes : Prop extends Quiet R where
  close (s : Session) (h : Handle) : R s (s.closing h)
  switch (s : Session) (name : Text) (h : Handle) (hh : s.workspace.lookup name = some h) :
    R s { s with current := some h }

/-- Buffers may be opened. -/
class Opens : Prop extends Quiet R where
  openFile (s : Session) (path : Text) : R s { s with workspace := (s.workspace.openFile path).2 }

/-- Files may be written, and a version of a file taken notice of. -/
class Writes : Prop extends Quiet R where
  write (s : Session) (name : Text) (content : Text.Bytes) (store : FileStore)
    (h : s.workspace.store.write name content = .ok store) :
    R s { s with workspace := { s.workspace with store } }
  know (s : Session) (h : Handle) (time : Option Int) : R s (s.touch h (.know time))

/-- Buffers may be replaced as a whole by their files. -/
class Reads : Prop extends Quiet R where
  read (s : Session) (h : Handle) (time : Option Int) : R s (s.touch h (.read time))

/-- What commands do that neither undo anything nor run a program, nor read, write or open a file. -/
class Plain : Prop extends Dots R, Records R, Files R, Closes R

/-- All that a command does but for undoing and loops. -/
class Deeds : Prop extends Plain R, Programs R, Opens R, Reads R, Writes R

/-- What is done in a loop is done, the loop apart. A loop over buffers is entered from outside of
all others, and holds listed buffers only. -/
class Loops : Prop extends Quiet R where
  range {s t : Session} (h : R s.inLoop t) : R s (Run.leaveLoop t)
  buffers {s t : Session} {hs : List Handle} (hloops : s.bufferLoops = 0)
    (hlisted : ∀ h ∈ hs, h ∈ s.workspace.listed) (h : R (s.inBufferLoop.holding hs) t) :
    R s (Run.leaveBufferLoop (t.releasing hs))

/-- Only what is reported and remembered differs. -/
def Noted (s t : Session) : Prop :=
  ∃ messages notices invocations patterns, patterns.Alike s.patterns ∧
    t = { s with messages, notices, invocations, patterns }

instance : Quiet Noted where
  refl s := ⟨s.messages,s.notices,s.invocations,s.patterns,.refl _,rfl⟩
  trans := by
    rintro s _ _ ⟨_,_,_,_,hfirst,rfl⟩ ⟨messages,notices,invocations,patterns,hsecond,rfl⟩
    exact ⟨messages,notices,invocations,patterns,hsecond.trans hfirst,rfl⟩
  note s messages notices invocations patterns halike :=
    ⟨messages,notices,invocations,patterns,halike,rfl⟩

end Session

namespace Run
open Session
variable {R : Session → Session → Prop} {α β : Type} {x : Run α}

/-! ## Composition -/

section
variable [Quiet R]

theorem follows_pure (a : α) : (pure a : Run α).Follows R := fun s => Quiet.refl s

theorem follows_throw (f : Fault) : (throw f : Run α).Follows R := fun s => Quiet.refl s

theorem follows_fail (e : EditError) : (fail e : Run α).Follows R := follows_throw _

theorem follows_get : (get : Run Session).Follows R := fun s => Quiet.refl s

omit [Quiet R] in
theorem follows_modify {f : Session → Session} (hf : ∀ s : Session, R s (f s)) :
    (modify f : Run Unit).Follows R := hf

omit [Quiet R] in
/-- What is done in a run is done first, and then what is done behind it. -/
theorem final_bind_split {Q : Session → Session → Prop} [Quiet Q] {f : α → Run β} (hx : x.Follows R)
    (hf : ∀ a, (f a).Follows Q) (s : Session) : ∃ t, R s t ∧ Q t ((x >>= f).final s) := by
  have hxs := hx s
  cases h : x s with
  | error e t =>
    rw [final_of_error h] at hxs
    rw [final_bind_of_error h]
    exact ⟨t,hxs,Quiet.refl t⟩
  | ok a t =>
    rw [final_of_ok h] at hxs
    rw [final_bind_of_ok h]
    exact ⟨t,hxs,hf a t⟩

theorem follows_bind {f : α → Run β} (hx : x.Follows R) (hf : ∀ a, (f a).Follows R) :
    (x >>= f).Follows R := by
  intro s
  obtain ⟨t,hfirst,hrest⟩ := final_bind_split hx hf s
  exact Quiet.trans hfirst hrest

omit [Quiet R] in
/-- What looks at the session it begins in. -/
theorem follows_get_bind {f : Session → Run β} (hf : ∀ s, R s ((f s).final s)) :
    ((get : Run Session) >>= f).Follows R := hf

omit [Quiet R] in
theorem follows_ite {c : Prop} [Decidable c] {y : Run α} (hx : x.Follows R) (hy : y.Follows R) :
    (if c then x else y).Follows R := by
  split
  · exact hx
  · exact hy

/-- Something is done only on a condition, and what follows is done anyway. -/
theorem follows_when {c : Prop} [Decidable c] {y : Run Unit} {f : Unit → Run α} (hy : y.Follows R)
    (hf : ∀ u, (f u).Follows R) : (if c then y >>= f else f ()).Follows R :=
  follows_ite (follows_bind hy hf) (hf ())

theorem follows_forIn {γ : Type} (l : List β) {f : β → γ → Run (ForInStep γ)}
    (hf : ∀ b c, (f b c).Follows R) (init : γ) : (forIn l init f).Follows R := by
  induction l generalizing init with
  | nil => exact follows_pure init
  | cons b rest ih =>
    rw [List.forIn_cons]
    refine follows_bind (hf b init) fun r => ?_
    cases r with
    | done c => exact follows_pure c
    | yield c => exact ih c

omit [Quiet R] in
/-- What is done in the end is done to the session the rest ends in. -/
theorem final_ensuring (x : Run α) (f : Session → Session) (s : Session) :
    (ensuring x f).final s = f (x.final s) := by
  unfold final ensuring
  cases x s <;> rfl

/-! ## Steps -/

theorem follows_reading (r : Except OffsetFault α) : (reading r).Follows R := by
  cases r with
  | ok a => exact follows_pure a
  | error f => exact follows_throw _

theorem follows_searching (r : Except SearchFault α) : (searching r).Follows R := by
  cases r with
  | ok a => exact follows_pure a
  | error f => exact follows_throw _

theorem follows_warn (t : Text) : (warn t).Follows R :=
  follows_modify fun s => Quiet.note s _ _ _ _ (.refl _)

theorem follows_notify (n : Notice) : (notify n).Follows R :=
  follows_modify fun s => Quiet.note s s.messages _ s.invocations s.patterns (.refl _)

theorem follows_buffer (h : Handle) : (buffer h).Follows R :=
  follows_bind follows_get fun _ => follows_pure _

/-- What a pattern compiles to does not depend on the session, which remembers it. -/
theorem compile_eq (pattern place : Text) (s : Session) :
    compile pattern place s = (match Pattern.Regex.compile s.patterns.engine pattern with
      | .ok re => return re
      | .error (.bad ..) => fail (.badPattern place)
      | .error f => throw (.pattern f) : Run Pattern.Regex)
        { s with patterns := (s.patterns.compile pattern).2 } := by
  rw [← s.patterns.compile_result]
  rfl

theorem follows_compile (pattern place : Text) : (compile pattern place).Follows R := by
  intro s
  have hnote : R s { s with patterns := (s.patterns.compile pattern).2 } :=
    Quiet.note s s.messages s.notices s.invocations _ (s.patterns.alike_compile pattern)
  rw [final, compile_eq]
  rcases Pattern.Regex.compile s.patterns.engine pattern with (_ | _ | _) | _ <;> exact hnote

theorem follows_compileFor (letter : Char) (pattern : Text) :
    (compileFor letter pattern).Follows R := follows_compile _ _

end

theorem follows_setDot [Dots R] (h : Handle) (r : Span) : (setDot h r).Follows R :=
  fun s => Dots.dot s h r

/-- Report the order warning that recording a change gives, if there is one. -/
def reportOrder : Option OrderWarning → Run Unit
  | some w => warn (w.message ++ ['\n'])
  | none => return

theorem follows_reportOrder [Quiet R] (w : Option OrderWarning) : (reportOrder w).Follows R := by
  cases w with
  | none => exact follows_pure _
  | some w => exact follows_warn _

/-- Recording a request, and then the report of it. -/
theorem record_eq (h : Handle) (c : ChangeRequest) (s : Session) :
    record h c.record s = reportOrder (c.record (s.buffer h).log).2 (s.touch h (.record c)) := by
  let log := (c.record (s.buffer h).log).1
  have hu : s.workspace.update h (Touch.record c).apply =
      s.workspace.update h fun b => { b with log } := s.workspace.update_congr rfl
  rw [touch, hu]
  rfl

theorem follows_record [Records R] (h : Handle) (c : ChangeRequest) : (record h c.record).Follows R := by
  intro s
  rw [final, record_eq]
  exact Quiet.trans (Records.record s h c) (follows_reportOrder _ _)

theorem follows_filing [Files R] {t : Touch} (ht : t.Filing) (h : Handle) :
    (updateBuffer h t.apply).Follows R := fun s => Files.filing s h t ht

theorem follows_know [Writes R] (h : Handle) (time : Option Int) :
    (updateBuffer h fun b => { b with diskTime := time }).Follows R := fun s => Writes.know s h time

end Run

end StructuralEdit
