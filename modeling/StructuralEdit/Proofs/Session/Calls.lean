import StructuralEdit.Proofs.Session.Execution
import StructuralEdit.Proofs.Session.Moves

/-! # The commands a command text executes

A command may be made of others, which are executed from the buffers and ranges it goes
through. All that are executed, at whatever depth, are listed here in order, each with the
session it begins in. Between two of them less is done than by a command: dots are set,
loops begin and end, and buffers are pinned and released for them.
-/
namespace StructuralEdit

/-- A command that is executed, from a buffer or from none, in a session. -/
structure Call where
  home : Option Handle
  cmd : Cmd
  before : Session

/-- The session a command leads to by itself. What a command does that is made of others, they do. -/
def Call.after (c : Call) : Session :=
  match c.cmd with
  | .act addr action => (Run.execute c.home (.act addr action)).final c.before
  | _ => c.before

/-- What a command does by itself beside what every other one may do. -/
def Call.kind (c : Call) : Action.Kind :=
  match c.cmd with
  | .act _ action => action.kind
  | _ => .plain

/-- What is done between two commands. -/
class Session.Between (R : Session → Session → Prop) : Prop extends Session.Dots R where
  loops (s : Session) (nest bufferLoops : Nat) : R s { s with nest, bufferLoops }
  hold (s : Session) (hs : List Handle) : R s (s.holding hs)
  release (s : Session) (hs : List Handle) : R s (s.releasing hs)

instance {P : Touch → Prop} [Touch.Gentle P] [Session.Dots (Session.Reaches P)] :
    Session.Between (Session.Reaches P) where
  loops _ _ _ := ⟨.refl,rfl,.refl _⟩
  hold s hs := ⟨s.workspace.moves_hold hs,rfl,.refl _⟩
  release s hs := ⟨s.workspace.moves_release hs,rfl,.refl _⟩

/-- Some commands are executed, and lead from a session to another; the sessions between two of
them stand in a relation. -/
inductive Course (R : Session → Session → Prop) : Session → List Call → Session → Prop
  | done {s t : Session} (h : R s t) : Course R s [] t
  | call {s t : Session} {c : Call} {cs : List Call} (h : R s c.before) (hrest : Course R c.after cs t) :
    Course R s (c :: cs) t

namespace Course
open Session
variable {R : Session → Session → Prop} {s t u : Session} {c : Call} {cs ds : List Call}

theorem behind [Quiet R] (h : R s t) (hcourse : Course R t cs u) : Course R s cs u := by
  cases hcourse with
  | done h' => exact .done (Quiet.trans h h')
  | call h' hrest => exact .call (Quiet.trans h h') hrest

theorem append [Quiet R] (h : Course R s cs t) (h' : Course R t ds u) : Course R s (cs ++ ds) u := by
  induction h with
  | done h => exact h'.behind h
  | call h hrest ih => exact .call h (ih h')

theorem ahead [Quiet R] (h : Course R s cs t) (h' : R t u) : Course R s cs u := by
  have hmore := h.append (.done h')
  rwa [List.append_nil] at hmore

/-- A command in a list is executed in between those before it and those behind. -/
theorem split (h : Course R s (cs ++ c :: ds) t) : Course R s cs c.before ∧ Course R c.after ds t := by
  induction cs generalizing s with
  | nil =>
    cases h with
    | call h hrest => exact ⟨.done h,hrest⟩
  | cons d cs ih =>
    cases h with
    | call h hrest => exact ⟨.call h (ih hrest).1,(ih hrest).2⟩

theorem follows [Quiet R] (hc : ∀ c ∈ cs, R c.before c.after) (h : Course R s cs t) : R s t := by
  induction h with
  | done h => exact h
  | call h hrest ih =>
    obtain ⟨hfirst,hmore⟩ := List.forall_mem_cons.mp hc
    exact Quiet.trans h (Quiet.trans hfirst (ih hmore))

end Course

/-- A command makes plain steps by itself, and those of its kind. -/
theorem Call.follows {R : Session → Session → Prop} [Session.Plain R] {c : Call} (hk : c.kind.Serves R) :
    R c.before c.after := by
  obtain ⟨h,cmd,s⟩ := c
  cases cmd with
  | act addr action =>
    have haction := Run.follows_runAction (R := R) h addr hk
    exact Run.follows_bind (Run.follows_requireWindow h _) (fun _ => haction) s
  | guard | extract | buffers | group => exact Session.Quiet.refl s

namespace Run
open Session
variable {R : Session → Session → Prop} {α β : Type} {x : Run α}

/-! ## The commands of a run -/

/-- The commands that are executed behind a run, if it does not fail. -/
def thenCalls (x : Run α) (f : α → Session → List Call) (s : Session) : List Call :=
  match x s with
  | .ok a s => f a s
  | .error _ _ => []

theorem thenCalls_of_ok {f : α → Session → List Call} {s t : Session} {a : α} (h : x s = .ok a t) :
    x.thenCalls f s = f a t := by rw [thenCalls, h]

theorem thenCalls_of_error {f : α → Session → List Call} {s t : Session} {e : Fault}
    (h : x s = .error e t) : x.thenCalls f s = [] := by rw [thenCalls, h]

/-- The commands executed for each member of a list. -/
def eachCalls (run : α → Run Unit) (inner : α → Session → List Call) : List α → Session → List Call
  | [], _ => []
  | a :: rest, s => inner a s ++ (run a).thenCalls (fun _ => eachCalls run inner rest) s

mutual

/-- The commands that executing one executes, itself and what it is made of. -/
def calls (h : Option Handle) (c : Cmd) (s : Session) : List Call :=
  ⟨h, c, s⟩ :: match c with
  | .act .. => []
  | .guard addr re negated body =>
    (requireWindow h (.guard addr re negated body)).thenCalls (fun _ =>
      (withDefault false h addr).thenCalls fun a =>
      (compileFor (if negated then 'v' else 'g') re).thenCalls fun pattern =>
      (buffer a.buffer).thenCalls fun b =>
      (searching (pattern.first? b.text a.r.q0 (some a.r.q1))).thenCalls fun found =>
      if found.isSome != negated then
        (setDot a.buffer a.r).thenCalls fun _ => calls (some a.buffer) body
      else fun _ => []) s
  | .extract addr loop body =>
    (requireWindow h (.extract addr loop body)).thenCalls (fun _ =>
      (withDefault false h addr).thenCalls fun a =>
      enterLoop.thenCalls fun _ =>
      (loopRanges loop a).thenCalls <| eachCalls
        (fun r => do setDot a.buffer r; execute (some a.buffer) body)
        (fun r => (setDot a.buffer r).thenCalls fun _ => calls (some a.buffer) body)) s
  | .buffers loop body =>
    (enterBufferLoop loop.letter).thenCalls (fun _ s =>
      (loopBuffers loop s.workspace.listed).thenCalls (fun hs =>
      (modifyWorkspace (·.hold hs)).thenCalls fun _ =>
      eachCalls (fun h => execute (some h) body) (fun h => calls (some h) body) hs) s) s
  | .group addr body =>
    (requireWindow h (.group addr body)).thenCalls (fun _ =>
      match addr with
      | none => (homeOf h).thenCalls fun h => (dotOf h).thenCalls fun a => groupCalls a body
      | some addr => (resolveFrom h addr).thenCalls fun a => groupCalls a body) s

/-- The commands that executing a group executes. -/
def groupCalls (a : Target) (cs : List Cmd) (s : Session) : List Call :=
  match cs with
  | [] => []
  | c :: rest =>
    (buffer a.buffer).thenCalls (fun b =>
      if b.size < a.r.q1 then fun _ => []
      else (setDot a.buffer a.r).thenCalls fun _ s =>
        calls (some a.buffer) c s ++
          (execute (some a.buffer) c).thenCalls (fun _ => groupCalls a rest) s) s

end

/-- The commands that a run executes are these; whatever else it does is done between them. -/
def Traces (R : Session → Session → Prop) (x : Run α) (f : Session → List Call) : Prop :=
  ∀ s : Session, Course R s (f s) (x.final s)

theorem traces_of_follows (hx : x.Follows R) : x.Traces R fun _ => [] := fun s => .done (hx s)

section
variable [Quiet R] {f : α → Run β} {g : Session → List Call} {k : α → Session → List Call}

theorem traces_bind (hx : x.Traces R g) (hf : ∀ a, (f a).Traces R (k a)) :
    (x >>= f).Traces R fun s => g s ++ x.thenCalls k s := by
  intro s
  change Course R s (g s ++ x.thenCalls k s) _
  have hxs := hx s
  cases h : x s with
  | ok a t =>
    rw [final_of_ok h] at hxs
    rw [final_bind_of_ok h, thenCalls_of_ok h]
    exact hxs.append (hf a t)
  | error e t =>
    rw [final_of_error h] at hxs
    rw [final_bind_of_error h, thenCalls_of_error h, List.append_nil]
    exact hxs

theorem traces_then (hx : x.Follows R) (hf : ∀ a, (f a).Traces R (k a)) :
    (x >>= f).Traces R (x.thenCalls k) := traces_bind (traces_of_follows hx) hf

theorem traces_ahead (hx : x.Traces R g) (hf : ∀ a, (f a).Follows R) : (x >>= f).Traces R g := by
  intro s
  obtain ⟨t,hfirst,hrest⟩ := final_bind_split (R := fun s t => t = x.final s) (fun _ => rfl) hf s
  exact (hfirst ▸ hx s).ahead hrest

theorem traces_ensuring {after : Session → Session} (hx : x.Traces R g)
    (hafter : ∀ s, R s (after s)) : (ensuring x after).Traces R g := by
  intro s
  rw [final_ensuring]
  exact (hx s).ahead (hafter _)

theorem traces_eachRange {h : Handle} {body : Run Unit} {inner : Span → Session → List Call}
    (hbody : ∀ r, (do setDot h r; body).Traces R (inner r)) (rs : List Span) :
    (eachRange h body rs).Traces R (eachCalls (fun r => do setDot h r; body) inner rs) := by
  induction rs with
  | nil => exact traces_of_follows (follows_pure _)
  | cons r rest ih =>
    have hbind : eachRange h body (r :: rest) =
        (do setDot h r; body) >>= fun _ => eachRange h body rest := by
      simp only [eachRange, bind_assoc]
    rw [hbind]
    exact traces_bind (hbody r) fun _ => ih

theorem traces_eachBuffer {body : Handle → Run Unit} {inner : Handle → Session → List Call}
    (hbody : ∀ h, (body h).Traces R (inner h)) (hs : List Handle) :
    (eachBuffer body hs).Traces R (eachCalls body inner hs) := by
  induction hs with
  | nil => exact traces_of_follows (follows_pure _)
  | cons h rest ih => exact traces_bind (hbody h) fun _ => ih

end

theorem follows_enterLoop [Between R] : enterLoop.Follows R :=
  follows_modify fun s => Between.loops s (s.nest + 1) s.bufferLoops

theorem follows_enterBufferLoop [Between R] (letter : Char) : (enterBufferLoop letter).Follows R := by
  refine follows_bind follows_get fun s => follows_when (follows_fail _) fun _ => ?_
  exact follows_modify fun s => Between.loops s (s.nest + 1) (s.bufferLoops + 1)

mutual

/-- Executing a command is executing the commands that are listed for it. -/
theorem traces_execute [Between R] (h : Option Handle) (c : Cmd) :
    (execute h c).Traces R (calls h c) := by
  have hwindow := follows_requireWindow (R := R) h c
  cases c with
  | act addr action =>
    intro s
    exact .call (Quiet.refl s) (.done (Quiet.refl _))
  | guard addr re negated body =>
    refine fun s => .call (Quiet.refl s) (traces_then hwindow (fun _ => ?_) s)
    refine traces_then (follows_withDefault _ _ _) fun a => ?_
    refine traces_then (follows_compileFor _ _) fun pattern => ?_
    refine traces_then (follows_buffer _) fun b => traces_then (follows_searching _) fun found => ?_
    split
    · exact traces_then (follows_setDot _ _) fun _ => traces_execute _ body
    · exact traces_of_follows (follows_pure _)
  | extract addr loop body =>
    refine fun s => .call (Quiet.refl s) (traces_then hwindow (fun _ => ?_) s)
    refine traces_then (follows_withDefault _ _ _) fun a => traces_then follows_enterLoop fun _ => ?_
    refine traces_ensuring (traces_then (follows_loopRanges _ _) (traces_eachRange fun r => ?_)) fun s => ?_
    · exact traces_then (follows_setDot _ _) fun _ => traces_execute _ body
    · exact Between.loops s (s.nest - 1) s.bufferLoops
  | buffers loop body =>
    refine fun s => .call (Quiet.refl s) (traces_then (follows_enterBufferLoop _) (fun _ => ?_) s)
    refine traces_ensuring (fun s => ?_) fun s => ?_
    · refine traces_then (follows_loopBuffers _ _) (fun hs => ?_) s
      refine traces_then (follows_modify fun s => Between.hold s hs) fun _ => ?_
      refine traces_ensuring (traces_eachBuffer (fun h => traces_execute (some h) body) hs) fun s => ?_
      exact Between.release s hs
    · exact Between.loops s (s.nest - 1) (s.bufferLoops - 1)
  | group addr body =>
    refine fun s => .call (Quiet.refl s) ?_
    unfold execute
    refine traces_then hwindow (fun _ => ?_) s
    extract_lets run
    have hrun (a : Target) : (run a).Traces R (groupCalls a body) := traces_executeGroup a body
    cases addr with
    | none => exact traces_then (follows_homeOf h) fun h => traces_then (follows_dotOf h) hrun
    | some addr => exact traces_then (follows_resolveFrom h addr) hrun

theorem traces_executeGroup [Between R] (a : Target) (cs : List Cmd) :
    (executeGroup a cs).Traces R (groupCalls a cs) := by
  cases cs with
  | nil => exact traces_of_follows (follows_pure _)
  | cons c rest =>
    refine traces_then (follows_buffer _) fun b => ?_
    split
    · exact fun s => .done (Quiet.refl s)
    · refine traces_then (follows_setDot _ _) fun _ => ?_
      exact traces_bind (traces_execute _ c) fun _ => traces_executeGroup a rest

end

/-! ## The commands of a text -/

/-- The commands executed from a cursor on. -/
def callsFrom : (fuel : Nat) → Cursor → Session → List Call
  | 0, _, _ => []
  | fuel + 1, c, s =>
    (nextCommand c).thenCalls (fun next s =>
      match next with
      | (none, _) => []
      | (some cmd, c) =>
        calls s.current cmd s ++ (execute s.current cmd).thenCalls (fun _ => callsFrom fuel c) s) s

/-- The commands executed in a session that a command text has begun in. -/
def textCalls (h : Option Handle) (text : Text) (s : Session) : List Call :=
  let c := Cursor.ofCommand text []
  if h.all s.workspace.listed.contains then callsFrom (c.rest.length + 1) c s else []

/-- The commands executed when a command text is edited with. -/
def editCalls (h : Option Handle) (text : Text) (s : Session) : List Call :=
  if text.isEmpty || s.settings.maxCommand < text.length then []
  else textCalls h text ((begin h).final s)

theorem traces_runCommands [Between R] (fuel : Nat) (c : Cursor) :
    (runCommands fuel c).Traces R (callsFrom fuel c) := by
  induction fuel generalizing c with
  | zero => exact traces_of_follows (follows_pure _)
  | succ fuel ih =>
    refine traces_then (follows_nextCommand c) fun next => ?_
    obtain ⟨cmd,c⟩ := next
    cases cmd with
    | none => exact traces_of_follows (follows_pure _)
    | some cmd => exact fun s => traces_bind (traces_execute s.current cmd) (fun _ => ih c) s

theorem traces_runText [Between R] (h : Option Handle) (text : Text) :
    (runText h text).Traces R (textCalls h text) := by
  intro s
  cases h with
  | none => exact traces_runCommands _ _ s
  | some h =>
    unfold runText textCalls
    rw [final_bind_of_ok (get_eq s), Option.all_some]
    cases hlisted : s.workspace.listed.contains h with
    | true => exact traces_runCommands _ _ s
    | false => exact .done (Quiet.refl s)

end Run

end StructuralEdit
