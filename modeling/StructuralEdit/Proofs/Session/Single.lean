import StructuralEdit.Proofs.Command.WellFormed
import StructuralEdit.Proofs.Session.Naming
import StructuralEdit.Proofs.Session.Selecting

/-! # Texts of a single command

A text that executes one command, which is made of no others, reads it, executes it and reads on to its
end. So it comes to what the command comes to, unless it cannot be read.
-/
namespace StructuralEdit

/-- All that is read in a text is one command. Which pattern is remembered behind it does not matter. -/
def ReadsOne (text last : Text) (cmd : Cmd) : Prop :=
  ∃ c, Parser.command { Cursor.ofCommand text [] with last } = .ok (some cmd) c ∧
    ∀ last, ∃ d, Parser.command { c with last } = .ok none d

namespace Run
variable {h : Option Handle} {text : Text} {s t : Session} {c : Call}

theorem requireWindow_cases (h : Option Handle) (cmd : Cmd) (s : Session) :
    requireWindow h cmd s = .ok () s ∨ requireWindow h cmd s = .error (.edit .noCurrentWindow) s := by
  have hunless (p : Prop) [Decidable p] : (if p then fail .noCurrentWindow else pure () : Run Unit) s = .ok () s ∨
      (if p then fail .noCurrentWindow else pure () : Run Unit) s = .error (.edit .noCurrentWindow) s := by
    split
    · exact .inr rfl
    · exact .inl rfl
  exact hunless _

/-- A text that executes no more commands can only fail to be read. -/
theorem runCommands_faults {fuel : Nat} {cursor : Cursor} {f : Fault} (hcalls : callsFrom fuel cursor s = [])
    (hrun : runCommands fuel cursor s = .error f t) : ∃ p, f = .edit (.parse p) := by
  cases fuel with
  | zero => cases hrun
  | succ fuel =>
    unfold runCommands at hrun
    cases hnext : nextCommand cursor s with
    | error g u =>
      rw [bind_of_error hnext] at hrun
      cases hrun
      exact nextCommand_faults cursor s (by rw [fault, hnext])
    | ok next u =>
      rw [callsFrom, thenCalls_of_ok hnext] at hcalls
      rw [bind_of_ok hnext] at hrun
      obtain ⟨next,behind⟩ := next
      cases next with
      | none => cases hrun
      | some cmd =>
        obtain ⟨more,hself⟩ := exists_calls u.current cmd u
        simp only [hself] at hcalls
        cases hcalls

theorem runText_listed {h : Handle} (text : Text) (hlisted : s.workspace.listed.contains h = true) :
    runText (some h) text s =
      runCommands ((Cursor.ofCommand text []).rest.length + 1) (Cursor.ofCommand text []) s := by
  change (get >>= fun u : Session => if (!u.workspace.listed.contains h) = true then _ else _ : Run Unit) s = _
  rw [bind_of_ok (get_eq s), hlisted]
  rfl

/-- The one command is executed first, and nothing is executed behind it. -/
theorem runCommands_single {fuel : Nat} {cursor : Cursor} {addr : Option Addr} {action : Action}
    (hcalls : callsFrom fuel cursor s = [c]) (hcmd : c.cmd = .act addr action) :
    s.Noted c.before ∧ ∃ more behind,
      runCommands fuel cursor s = (execute c.home c.cmd >>= fun _ => runCommands more behind) c.before ∧
      ∀ u, execute c.home c.cmd c.before = .ok () u → callsFrom more behind u = [] := by
  cases fuel with
  | zero => cases hcalls
  | succ fuel =>
    cases hnext : nextCommand cursor s with
    | error g u =>
      rw [callsFrom, thenCalls_of_error hnext] at hcalls
      cases hcalls
    | ok next u =>
      rw [callsFrom, thenCalls_of_ok hnext] at hcalls
      obtain ⟨next,behind⟩ := next
      cases next with
      | none => cases hcalls
      | some cmd =>
        obtain ⟨more,hself⟩ := exists_calls u.current cmd u
        have hc : c = ⟨u.current, cmd, u⟩ := by
          simp only [hself, List.cons_append, List.cons.injEq] at hcalls
          exact hcalls.1.symm
        subst hc
        obtain rfl : cmd = .act addr action := hcmd
        refine ⟨(follows_nextCommand cursor).of_ok hnext,fuel,behind,?_,fun v hexecute => ?_⟩
        · rw [runCommands, bind_of_ok hnext]
          rfl
        dsimp only at hcalls hexecute
        rw [calls, List.singleton_append, List.cons.injEq, thenCalls_of_ok hexecute] at hcalls
        exact hcalls.2

theorem runText_single {addr : Option Addr} {action : Action} (hcalls : textCalls h text s = [c])
    (hcmd : c.cmd = .act addr action) :
    s.Noted c.before ∧ ∃ more behind,
      runText h text s = (execute c.home c.cmd >>= fun _ => runCommands more behind) c.before ∧
      ∀ u, execute c.home c.cmd c.before = .ok () u → callsFrom more behind u = [] := by
  cases h with
  | none => exact runCommands_single hcalls hcmd
  | some h =>
    unfold textCalls at hcalls
    rw [Option.all_some] at hcalls
    cases hlisted : s.workspace.listed.contains h with
    | true =>
      simp only [hlisted] at hcalls
      rw [runText_listed text hlisted]
      exact runCommands_single hcalls hcmd
    | false =>
      simp only [hlisted] at hcalls
      cases hcalls

/-- A text whose one command is made of no others fails where the command does, or cannot be read on. -/
theorem runText_failed {addr : Option Addr} {action : Action} {f : Fault} (hcalls : textCalls h text s = [c])
    (hcmd : c.cmd = .act addr action) (hrun : runText h text s = .error f t) :
    s.Noted c.before ∧ (execute c.home c.cmd c.before = .error f t ∨ ∃ p, f = .edit (.parse p)) := by
  obtain ⟨hbefore,more,behind,htext,hrest⟩ := runText_single hcalls hcmd
  refine ⟨hbefore,?_⟩
  rw [htext] at hrun
  cases hexecute : execute c.home c.cmd c.before with
  | error g u =>
    rw [bind_of_error hexecute] at hrun
    exact .inl hrun
  | ok _ u =>
    rw [bind_of_ok hexecute] at hrun
    exact .inr (runCommands_faults (hrest u hexecute) hrun)

theorem nextCommand_of_ok {cursor d : Cursor} {cmd : Option Cmd}
    (h : Parser.command { cursor with last := s.patterns.last } = .ok cmd d) :
    ∃ u, nextCommand cursor s = .ok (cmd, d) u ∧ s.Noted u := by
  refine ⟨{ s with patterns := { s.patterns with last := d.last } },?_,Session.Quiet.note s _ _ _ _ ⟨rfl,rfl⟩⟩
  unfold nextCommand
  rw [bind_of_ok (get_eq s)]
  dsimp only
  rw [h]
  rfl

theorem exists_length_of_reads {last : Text} {cmd : Cmd} {d : Cursor}
    (hread : Parser.command { Cursor.ofCommand text [] with last } = .ok (some cmd) d) :
    ∃ n, (Cursor.ofCommand text []).rest.length = n + 1 := by
  have hshrinks := Parser.commandFrom_shrinks hread
  exact Nat.exists_eq_succ_of_ne_zero (Nat.ne_zero_of_lt hshrinks)

/-- A text in which one command is read succeeds if the command does. -/
theorem runText_of_readsOne {h : Handle} {cmd : Cmd} (hlisted : h ∈ s.workspace.listed)
    (hreads : ReadsOne text s.patterns.last cmd) :
    ∃ b, s.Noted b ∧ ∀ t, execute b.current cmd b = .ok () t →
      ∃ u, runText (some h) text s = .ok () u ∧ t.Noted u := by
  obtain ⟨d,hread,hend⟩ := hreads
  obtain ⟨b,hfirst,hbefore⟩ := nextCommand_of_ok hread
  -- there is text for the command, so it is looked for another one
  obtain ⟨n,hn⟩ := exists_length_of_reads hread
  refine ⟨b,hbefore,fun t hexecute => ?_⟩
  obtain ⟨e,hlast⟩ := hend t.patterns.last
  obtain ⟨u,hnext,hafter⟩ := nextCommand_of_ok hlast
  refine ⟨u,?_,hafter⟩
  rw [runText_listed text (List.contains_iff_mem.mpr hlisted), hn, runCommands, bind_of_ok hfirst]
  dsimp only
  rw [bind_of_ok (get_eq b), bind_of_ok hexecute, runCommands, bind_of_ok hnext]
  rfl

/-- It is the only one that the text executes, if it is made of no others. -/
theorem textCalls_of_readsOne {h : Handle} {addr : Option Addr} {action : Action} (hlisted : h ∈ s.workspace.listed)
    (hreads : ReadsOne text s.patterns.last (.act addr action)) :
    ∃ b, textCalls (some h) text s = [⟨b.current, .act addr action, b⟩] := by
  obtain ⟨d,hread,hend⟩ := hreads
  obtain ⟨b,hfirst,-⟩ := nextCommand_of_ok hread
  obtain ⟨n,hn⟩ := exists_length_of_reads hread
  have hnone : (execute b.current (.act addr action)).thenCalls (fun _ => callsFrom (n + 1) d) b = [] := by
    cases hexecute : execute b.current (.act addr action) b with
    | error e t => rw [thenCalls_of_error hexecute]
    | ok _ t =>
      obtain ⟨e,hlast⟩ := hend t.patterns.last
      obtain ⟨u,hnext,-⟩ := nextCommand_of_ok hlast
      rw [thenCalls_of_ok hexecute, callsFrom, thenCalls_of_ok hnext]
  refine ⟨b,?_⟩
  unfold textCalls
  rw [Option.all_some, List.contains_iff_mem.mpr hlisted, if_pos rfl, hn, callsFrom, thenCalls_of_ok hfirst]
  dsimp only
  rw [hnone, calls, List.append_nil]

/-! ## The commit -/

/-- Sound changes are committed. -/
theorem commitBuffers_of_sound (seq : Int) {hs : List Handle} (hsound : ∀ j ∈ hs, (s.buffer j).log.Sound) :
    ∃ t, commitBuffers seq hs s = .ok () t := by
  induction hs generalizing s with
  | nil => exact ⟨s,rfl⟩
  | cons h rest ih =>
    obtain ⟨hfirst,hrest⟩ := List.forall_mem_cons.mp hsound
    have hcommit : ∃ r c, Buffer.commit seq (s.buffer h) = .ok r c := by
      cases hlog : (s.buffer h).log.isEmpty with
      | true => exact ⟨_,_,Buffer.commit_of_isEmpty seq hlog⟩
      | false =>
        obtain ⟨v,hc⟩ := Buffer.commit_of_sound seq hlog hfirst
        exact ⟨_,_,hc⟩
    obtain ⟨r,c,hcommit⟩ := hcommit
    let u : Session := { s with workspace := s.workspace.update h fun _ => c }
    have hdone : commitBuffer seq h s = .ok () u := by
      unfold commitBuffer
      rw [bind_of_ok (buffer_eq h s), hcommit]
      rfl
    obtain ⟨t,ht⟩ := ih (s := u) fun j hj => by
      rcases s.workspace.buffer_update_cases h j fun _ => c with hb | hb
      · rw [Session.buffer, hb]
        exact hrest j hj
      · rw [Session.buffer, hb]
        exact EditLog.sound_of_isEmpty (Buffer.commit_settles hcommit).1
    exact ⟨t,(bind_of_ok hdone).trans ht⟩

/-! ## Files at the beginning and at the end -/

theorem store_updateListed (w : Workspace) (f : Buffer → Buffer) : (w.updateListed f).store = w.store := by
  have hfold (js : List Handle) (v : Workspace) : (js.foldl (fun w h => w.update h f) v).store = v.store := by
    induction js generalizing v with
    | nil => rfl
    | cons j more ih => exact ih (v.update j f)
  exact hfold w.listed w

theorem store_begin (hrun : begin h s = .ok () t) : t.workspace.store = s.workspace.store := by
  cases hrun
  exact store_updateListed s.workspace _

/-- What does not depend on the buffers is the same after a commit. -/
theorem commitBuffers_fixes {α : Type} (f : Session → α) {seq : Int} {hs : List Handle}
    (hf : ∀ (s : Session) h b, f { s with workspace := s.workspace.update h b } = f s)
    (hrun : commitBuffers seq hs s = .ok () t) : f t = f s := by
  induction hs generalizing s with
  | nil =>
    cases hrun
    rfl
  | cons h rest ih =>
    obtain ⟨_,u,hfirst,hrest⟩ := ok_of_bind hrun
    obtain ⟨_,_,-,rfl⟩ := commitBuffer_ok hfirst
    exact (ih hrest).trans (hf s h _)

theorem store_commitBuffers {seq : Int} {hs : List Handle} (hrun : commitBuffers seq hs s = .ok () t) :
    t.workspace.store = s.workspace.store := commitBuffers_fixes (·.workspace.store) (fun _ _ _ => rfl) hrun

/-! ## Edits -/

theorem Begun.noted {b u : Session} (hb : Begun s b) (hu : b.Noted u) : Begun s u := by
  obtain ⟨_,_,_,_,-,rfl⟩ := hu
  exact ⟨hb.seq,hb.handles,hb.buffer⟩

/-- A text whose one command is made of no others begins and executes the command. Then it is committed, or it
is abandoned before if the command has failed or the text cannot be read on. -/
theorem edit_single {o : Option EditError} {addr : Option Addr} {action : Action} (hcalls : editCalls h text s = [c])
    (hcmd : c.cmd = .act addr action) (hrun : edit h text s = .ok o t) :
    Begun s c.before ∧ c.before.workspace.store = s.workspace.store ∧
    ∃ p v, commitBuffers p.seq p.workspace.listed p = .ok () v ∧ t = unlock v ∧
      ((o = none ∧ ∃ u, execute c.home c.cmd c.before = .ok () u ∧ u.Noted p) ∨
        ∃ e u, o = some e ∧ abandon e u = .ok () p ∧
          (execute c.home c.cmd c.before = .error (.edit e) u ∨ ∃ q, e = .parse q)) := by
  unfold editCalls at hcalls
  split at hcalls
  · cases hcalls
  rename_i haccepted
  obtain ⟨p,v,hpending,hcommit,ht⟩ := pending_of_accepted (Bool.eq_false_iff.mpr haccepted) hrun
  obtain ⟨b,hbegin,hb⟩ := begin_begun h s
  rw [final_of_ok hbegin] at hcalls
  unfold pending at hpending
  rw [bind_of_ok hbegin] at hpending
  have hstart (hbefore : b.Noted c.before) :
      Begun s c.before ∧ c.before.workspace.store = s.workspace.store :=
    ⟨hb.noted hbefore,by rw [hbefore.workspace, store_begin hbegin]⟩
  obtain ⟨ho,htext⟩ | ⟨e,u,ho,htext,habandon⟩ := carryOut_run hpending
  · obtain ⟨hbefore,u,hexecute,hafter⟩ := runText_call hcalls hcmd htext
    exact ⟨(hstart hbefore).1,(hstart hbefore).2,p,v,hcommit,ht,.inl ⟨ho,u,hexecute,hafter⟩⟩
  · obtain ⟨hbefore,hends⟩ := runText_failed hcalls hcmd htext
    refine ⟨(hstart hbefore).1,(hstart hbefore).2,p,v,hcommit,ht,.inr ⟨e,u,ho,habandon,?_⟩⟩
    exact hends.imp_right fun ⟨q,hq⟩ => ⟨q,Fault.edit.inj hq⟩

/-- A text that is carried out is committed then. -/
theorem edit_of_runText {u v : Session} (haccepted : (text.isEmpty || s.settings.maxCommand < text.length) = false)
    (hbegin : begin h s = .ok () t) (htext : runText h text t = .ok () u)
    (hcommit : commitBuffers u.seq u.workspace.listed u = .ok () v) : edit h text s = .ok none (unlock v) := by
  have hcarry : carryOut h text t = .ok none u := by
    have hcaught : caught (runText h text) t = .ok none u := by rw [caught, htext]
    exact bind_of_ok hcaught
  have hlisted : commitListed u = .ok () v := (bind_of_ok (get_eq u)).trans hcommit
  rw [edit_accepted h haccepted, bind_of_ok hbegin, ensuring, bind_of_ok hcarry, bind_of_ok hlisted]
  rfl

/-- A text in which one command is read begins, and executes the command in its buffer. If the command succeeds, and
what it leaves can be committed, so does the text. -/
theorem edit_of_readsOne {k : Handle} {addr : Option Addr} {action : Action} (hk : k ∈ s.workspace.listed)
    (haccepted : (text.isEmpty || s.settings.maxCommand < text.length) = false)
    (hreads : ReadsOne text s.patterns.last (.act addr action)) :
    (editCalls (some k) text s).map Call.action? = [some (addr, action)] ∧
    ∃ b, Begun s b ∧ b.workspace.store = s.workspace.store ∧ b.settings = s.settings ∧
      ∀ t, execute (some k) (.act addr action) b = .ok () t → ∃ u, t.Noted u ∧
        ∀ v, commitBuffers u.seq u.workspace.listed u = .ok () v → edit (some k) text s = .ok none (unlock v) := by
  obtain ⟨a,hbegin,ha⟩ := begin_begun (some k) s
  have hlisted : k ∈ a.workspace.listed := ha.handles.listed ▸ hk
  obtain ⟨hcurrent,hsettings,hpatterns⟩ : a.current = some k ∧ a.settings = s.settings ∧ a.patterns = s.patterns := by
    rw [← final_of_ok hbegin]
    exact ⟨rfl,rfl,rfl⟩
  rw [← hpatterns] at hreads
  constructor
  · obtain ⟨c,hcalls⟩ := textCalls_of_readsOne hlisted hreads
    rw [editCalls, if_neg (by simpa using haccepted), final_of_ok hbegin, hcalls]
    rfl
  · obtain ⟨b,hnoted,hgo⟩ := runText_of_readsOne hlisted hreads
    obtain ⟨hcurrent',hsettings'⟩ : b.current = some k ∧ b.settings = s.settings := by
      obtain ⟨_,_,_,_,-,rfl⟩ := hnoted
      exact ⟨hcurrent,hsettings⟩
    refine ⟨b,ha.noted hnoted,by rw [hnoted.workspace, store_begin hbegin],hsettings',fun t hexecute => ?_⟩
    obtain ⟨u,htext,hafter⟩ := hgo t (hcurrent'.symm ▸ hexecute)
    exact ⟨u,hafter,fun v hcommit => edit_of_runText haccepted hbegin htext hcommit⟩

end Run

end StructuralEdit
