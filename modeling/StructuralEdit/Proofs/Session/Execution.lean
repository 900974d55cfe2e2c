import StructuralEdit.Proofs.Session.Deeds

/-! # Executing a command is making steps

Whatever a command is built of, executing it makes steps of the kinds there are and goes
through loops, which are left as they were entered. Only a command that is made to undo
does so. A command text is executed command after command.
-/
namespace StructuralEdit

def Action.undoes : Action → Bool
  | undo _ => true
  | _ => false

/-- What an action does beside what every other one may do. -/
inductive Action.Kind
  | plain
  | undoes
  | runs
  | opens
  | reads
  | writes
deriving DecidableEq

def Action.kind : Action → Kind
  | undo _ => .undoes
  | fromPipe _ | throughPipe _ | toPipe _ | closeFiles _ => .runs
  | openFiles _ => .opens
  | load _ | read _ => .reads
  | write _ => .writes
  | _ => .plain

/-- An action of the kind may run a program. Files can be opened and closed from a list that one prints. -/
def Action.Kind.starts : Kind → Bool
  | runs | opens => true
  | plain | undoes | reads | writes => false

/-- A relation holds of the steps that actions of a kind make beside those all of them make. -/
def Action.Kind.Serves (R : Session → Session → Prop) : Kind → Prop
  | plain => True
  | undoes => Session.Undoes R
  | runs => Session.Programs R
  | opens => Session.Programs R ∧ Session.Opens R
  | reads => Session.Reads R
  | writes => Session.Writes R

mutual

/-- A command that undoes or redoes something, or has one in it that does. -/
def Cmd.undoes : Cmd → Bool
  | .act _ action => action.undoes
  | .guard _ _ _ body | .extract _ _ body | .buffers _ body => body.undoes
  | .group _ body => undoesAny body

def Cmd.undoesAny : List Cmd → Bool
  | [] => false
  | c :: rest => c.undoes || undoesAny rest

end

namespace Run
open Session
variable {R : Session → Session → Prop}

/-- An action makes plain steps, and those of its kind. -/
theorem follows_runAction [Plain R] (h : Option Handle) (addr : Option Addr) {action : Action}
    (hk : action.kind.Serves R) : (runAction h addr action).Follows R := by
  cases action with
  | newline =>
    cases addr with
    | none => exact follows_onBuffer h follows_nextLine
    | some a => exact follows_bind (follows_resolveFrom h a) fun t => follows_setDot _ _
  | append text => exact follows_onRange _ _ _ fun a => follows_insertAt _ _ _
  | insert text => exact follows_onRange _ _ _ fun a => follows_insertAt _ _ _
  | change text => exact follows_onRange _ _ _ fun a => follows_change a text
  | delete => exact follows_onRange _ _ _ follows_delete
  | move target =>
    refine follows_onRange _ _ _ fun a => follows_bind (follows_dotOf _) fun t => ?_
    exact follows_bind (follows_resolveChain _ _ _) fun dest => follows_moveTo a dest
  | copy target =>
    refine follows_onRange _ _ _ fun a => follows_bind (follows_dotOf _) fun t => ?_
    exact follows_bind (follows_resolveChain _ _ _) fun dest => follows_copyTo a dest
  | print => exact follows_onRange _ _ _ follows_print
  | substitute re count template all =>
    exact follows_onRange _ _ _ fun a => follows_substitute a re count template all
  | undo steps =>
    have : Undoes R := hk
    exact follows_onBuffer h fun h => follows_undo h steps
  | position mode => exact follows_onRange _ _ _ fun a => follows_showPosition a mode
  | switch name => exact follows_switchTo name
  | openFiles names =>
    obtain ⟨_,_⟩ : Programs R ∧ Opens R := hk
    exact follows_openFiles h names
  | closeFiles names =>
    have : Programs R := hk
    exact follows_closeFiles h names
  | load name =>
    have : Reads R := hk
    exact follows_onBuffer h fun h => follows_loadFile h name
  | read name =>
    have : Reads R := hk
    exact follows_onRange _ _ _ fun a => follows_insertFile _ _ _ _
  | rename name => exact follows_onBuffer h fun h => follows_nameBuffer h name
  | write name =>
    have : Writes R := hk
    exact follows_onRange _ _ _ fun a => follows_writeFile _ _ _
  | fromPipe command | throughPipe command =>
    have : Programs R := hk
    exact follows_onRange _ _ _ fun a => follows_pipeIn _ _ _ _
  | toPipe command =>
    have : Programs R := hk
    exact follows_onRange _ _ _ fun a => follows_pipeOut _ _
  | other letter => exact follows_refuseLetter h addr letter

theorem serves_kind [Deeds R] {action : Action} (hu : action.undoes = true → Undoes R) :
    action.kind.Serves R := by
  cases action with
  | undo steps => exact hu rfl
  | fromPipe command | throughPipe command | toPipe command | closeFiles names =>
    exact inferInstanceAs (Programs R)
  | openFiles names => exact ⟨inferInstance,inferInstance⟩
  | load name | read name => exact inferInstanceAs (Reads R)
  | write name => exact inferInstanceAs (Writes R)
  | _ => trivial

/-! ## Loops -/

theorem follows_eachRange [Dots R] (h : Handle) {body : Run Unit} (hbody : body.Follows R)
    (rs : List Span) : (eachRange h body rs).Follows R := by
  induction rs with
  | nil => exact follows_pure _
  | cons r rest ih =>
    exact follows_bind (follows_setDot h r) fun _ => follows_bind hbody fun _ => ih

theorem follows_eachBuffer [Quiet R] {body : Handle → Run Unit} (hbody : ∀ h, (body h).Follows R)
    (hs : List Handle) : (eachBuffer body hs).Follows R := by
  induction hs with
  | nil => exact follows_pure _
  | cons h rest ih => exact follows_bind (hbody h) fun _ => ih

/-- What a loop over ranges is made of, the loop itself apart. -/
theorem follows_inLoop [Loops R] {body : Run Unit} (hbody : body.Follows R) :
    (do enterLoop; ensuring body leaveLoop : Run Unit).Follows R := by
  intro s
  have hbegin : enterLoop s = .ok () { s with nest := s.nest + 1 } := rfl
  rw [final_bind_of_ok hbegin, final_ensuring]
  exact Loops.range (hbody _)

/-- A loop goes through some of the buffers that are listed. -/
theorem loopBuffers_sublist {loop : BufferLoop} {hs visited : List Handle} {s t : Session}
    (h : loopBuffers loop hs s = .ok visited t) : visited.Sublist hs := by
  induction hs generalizing visited s t with
  | nil =>
    cases h
    exact .slnil
  | cons k rest ih =>
    have hmore {visits : Bool} {u v : Session} (h : (do
        let more ← loopBuffers loop rest
        return if visits then k :: more else more : Run (List Handle)) u = .ok visited v) :
        visited.Sublist (k :: rest) := by
      obtain ⟨more,w,hloop,hreturn⟩ := ok_of_bind h
      cases hreturn
      have hsub := ih hloop
      cases visits with
      | true => exact hsub.cons_cons k
      | false => exact hsub.cons k
    cases loop with
    | named =>
      obtain ⟨b,u,-,h⟩ := ok_of_bind h
      exact hmore h
    | matching re =>
      obtain ⟨visits,u,-,h⟩ := ok_of_bind h
      exact hmore h
    | others re =>
      obtain ⟨found,u,-,h⟩ := ok_of_bind h
      exact hmore h

theorem final_withPinned (hs : List Handle) (body : Run Unit) (s : Session) :
    (withPinned hs body).final s = (body.final (s.holding hs)).releasing hs :=
  final_ensuring body _ (s.holding hs)

theorem enterBufferLoop_of_none {s : Session} (letter : Char) (h : s.bufferLoops = 0) :
    enterBufferLoop letter s = .ok () s.inBufferLoop := by
  change (if s.bufferLoops ≠ 0 then _ else _ : Run Unit) s = _
  rw [if_neg (by simp [h])]
  rfl

theorem enterBufferLoop_of_some {s : Session} (letter : Char) (h : s.bufferLoops ≠ 0) :
    enterBufferLoop letter s = .error (.edit (.nestedBufferLoop letter)) s := by
  change (if s.bufferLoops ≠ 0 then _ else _ : Run Unit) s = _
  rw [if_pos h]
  rfl

/-- A loop over buffers, which is refused inside of another. -/
theorem follows_inBuffers [Loops R] (loop : BufferLoop) {body : Handle → Run Unit}
    (hbody : ∀ h, (body h).Follows R) :
    (do
      enterBufferLoop loop.letter
      ensuring (do
        let hs ← loopBuffers loop (← get).workspace.listed
        withPinned hs (eachBuffer body hs)) leaveBufferLoop : Run Unit).Follows R := by
  intro s
  by_cases hloops : s.bufferLoops = 0
  · have hfinal := follows_loopBuffers (R := Noted) loop s.workspace.listed s.inBufferLoop
    rw [final_bind_of_ok (enterBufferLoop_of_none _ hloops), final_ensuring]
    change R s (leaveBufferLoop
      ((loopBuffers loop s.workspace.listed >>= fun hs => withPinned hs (eachBuffer body hs)).final _))
    cases hloop : loopBuffers loop s.workspace.listed s.inBufferLoop with
    | error e u =>
      rw [final_of_error hloop] at hfinal
      obtain ⟨messages,notices,invocations,patterns,hwindow,rfl⟩ := hfinal
      rw [final_bind_of_error hloop]
      exact Quiet.note s messages notices invocations patterns hwindow
    | ok hs u =>
      rw [final_of_ok hloop] at hfinal
      obtain ⟨messages,notices,invocations,patterns,hwindow,rfl⟩ := hfinal
      rw [final_bind_of_ok hloop, final_withPinned]
      refine Quiet.trans (Quiet.note s messages notices invocations patterns hwindow) ?_
      have hsub := (loopBuffers_sublist hloop).subset
      exact Loops.buffers hloops (fun h hh => hsub hh) (follows_eachBuffer hbody hs _)
  · rw [final_bind_of_error (enterBufferLoop_of_some _ hloops)]
    exact Quiet.refl s

mutual

/-- A command undoes only if it is made to, at any depth; all else it does is deferred. -/
theorem follows_execute [Deeds R] [Loops R] (h : Option Handle) (c : Cmd)
    (hu : c.undoes = true → Undoes R) : (execute h c).Follows R := by
  have hwindow := follows_requireWindow (R := R) h c
  cases c with
  | act addr action =>
    exact follows_bind hwindow fun _ => follows_runAction h addr (serves_kind hu)
  | guard addr re negated body =>
    refine follows_bind hwindow fun _ => ?_
    refine follows_bind (follows_withDefault _ _ _) fun a => ?_
    refine follows_bind (follows_compileFor _ _) fun pattern => follows_bind (follows_buffer _) fun b => ?_
    refine follows_bind (follows_searching _) fun found => follows_ite ?_ (follows_pure _)
    exact follows_bind (follows_setDot _ _) fun _ => follows_execute _ body hu
  | extract addr loop body =>
    refine follows_bind hwindow fun _ => ?_
    refine follows_bind (follows_withDefault _ _ _) fun a => follows_inLoop ?_
    refine follows_bind (follows_loopRanges loop a) fun rs => ?_
    exact follows_eachRange a.buffer (follows_execute _ body hu) rs
  | buffers loop body =>
    exact follows_inBuffers loop fun h => follows_execute (some h) body hu
  | group addr body =>
    unfold execute
    refine follows_bind hwindow fun _ => ?_
    extract_lets run
    have hrun (a : Target) : (run a).Follows R := follows_executeGroup a body hu
    cases addr with
    | none =>
      exact follows_bind (follows_homeOf h) fun h => follows_bind (follows_dotOf h) hrun
    | some addr => exact follows_bind (follows_resolveFrom h addr) hrun

theorem follows_executeGroup [Deeds R] [Loops R] (a : Target) (cs : List Cmd)
    (hu : Cmd.undoesAny cs = true → Undoes R) : (executeGroup a cs).Follows R := by
  cases cs with
  | nil => exact follows_pure _
  | cons c rest =>
    unfold executeGroup
    refine follows_bind (follows_buffer _) fun b => follows_when (follows_fail _) fun _ => ?_
    refine follows_bind (follows_setDot _ _) fun _ => ?_
    refine follows_bind (follows_execute _ c fun hc => hu ?_) fun _ => ?_
    · simp only [Cmd.undoesAny, hc, Bool.true_or]
    · exact follows_executeGroup a rest fun hrest => hu (by simp only [Cmd.undoesAny, hrest, Bool.or_true])

end

/-! ## The text of an edit -/

theorem follows_runCommands [Deeds R] [Loops R] [Undoes R] (fuel : Nat) (c : Cursor) :
    (runCommands fuel c).Follows R := by
  induction fuel generalizing c with
  | zero => exact follows_pure _
  | succ fuel ih =>
    refine follows_bind (follows_nextCommand c) fun next => ?_
    obtain ⟨cmd,c⟩ := next
    cases cmd with
    | none => exact follows_pure _
    | some cmd =>
      refine follows_bind follows_get fun s => follows_bind ?_ fun _ => ih c
      exact follows_execute _ cmd fun _ => inferInstance

theorem follows_runText [Deeds R] [Loops R] [Undoes R] (h : Option Handle) (text : Text) :
    (runText h text).Follows R := by
  cases h with
  | none => exact follows_runCommands _ _
  | some h =>
    unfold runText
    exact follows_bind follows_get fun s => follows_when (follows_fail _) fun _ =>
      follows_runCommands _ _

end Run

end StructuralEdit
