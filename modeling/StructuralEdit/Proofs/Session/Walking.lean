import StructuralEdit.Proofs.Address.Whole
import StructuralEdit.Proofs.Session.Atomic
import StructuralEdit.Proofs.Session.Single

/-! # Walking through the lines

A bare newline command extends dot to whole lines, or goes on to the next line. From the start of a text it walks
through the lines, one with each command, and it does not matter how the commands are spread over command texts.
-/
namespace StructuralEdit
variable {k : Handle} {s t u : Session} {m n : Nat}

namespace Session

/-- A command text that has succeeded in a buffer has executed some bare newline commands there, and no others. -/
def Newlines (k : Handle) (n : Nat) (s t : Session) : Prop := ∃ text, Run.edit (some k) text s = .ok none t ∧
  (Run.editCalls (some k) text s).map Call.action? = List.replicate n (some (none, .newline))

/-- Such command texts have been run one after another, with so many commands in them all. -/
inductive Walks (k : Handle) : Nat → Session → Session → Prop
  | start (s : Session) : Walks k 0 s s
  | more {m n : Nat} {s t u : Session} (h : Walks k m s t) (h' : t.Newlines k n u) : Walks k (m + n) s u

end Session

namespace Run

theorem lineAddress_cases (n : Int) (a : Target) (sign : Int) (s : Session) :
    (∃ r, Lines.address (s.buffer a.buffer).text n a.r sign = .ok r ∧ lineAddress n a sign s = .ok ⟨r, a.buffer⟩ s) ∨
    ∃ f e, Lines.address (s.buffer a.buffer).text n a.r sign = .error f ∧ lineAddress n a sign s = .error e s := by
  unfold lineAddress
  rw [bind_of_ok (buffer_eq a.buffer s)]
  cases Lines.address (s.buffer a.buffer).text n a.r sign with
  | ok r => exact .inl ⟨r,rfl,rfl⟩
  | error f =>
    cases f with
    | outOfRange => exact .inr ⟨_,_,rfl,rfl⟩
    | offset f => exact .inr ⟨_,_,rfl,rfl⟩

/-- A bare newline command leads where it is counted to lead in the text of the buffer. -/
theorem nextLine_ok_iff : nextLine k s = .ok () t ↔
    ∃ r, Lines.next (s.buffer k).text (s.buffer k).dot = .ok r ∧ t = s.touch k (.dot r) := by
  have hdot : dotOf k s = .ok ⟨(s.buffer k).dot, k⟩ s := rfl
  have hset (r : Span) : setDot k r s = .ok () t ↔ ∃ r', Except.ok r = (.ok r' : Except CountFault Span) ∧
      t = s.touch k (.dot r') := by
    constructor
    · intro h
      cases h
      exact ⟨r,rfl,rfl⟩
    · rintro ⟨_,⟨⟩,rfl⟩
      rfl
  have hfail {e : Fault} {f : CountFault} : (.error e s : EStateM.Result Fault Session Unit) = .ok () t ↔
      ∃ r, Except.error f = .ok r ∧ t = s.touch k (.dot r) := ⟨nofun,nofun⟩
  unfold nextLine
  rw [bind_of_ok hdot]
  rcases lineAddress_cases 0 ⟨(s.buffer k).dot, k⟩ (-1) s with ⟨first,hfirst,hfirst'⟩ | ⟨f,e,hfirst,hfirst'⟩
  case inr =>
    rw [bind_of_error hfirst', Lines.next, hfirst]
    exact hfail
  rw [bind_of_ok hfirst']
  rcases lineAddress_cases 0 ⟨(s.buffer k).dot, k⟩ 1 s with ⟨last,hlast,hlast'⟩ | ⟨f,e,hlast,hlast'⟩
  case inr =>
    rw [bind_of_error hlast', Lines.next, hfirst, hlast]
    exact hfail
  rw [bind_of_ok hlast', Lines.next_eq hfirst hlast]
  by_cases hsame : (⟨first.q0, last.q1⟩ : Span) = (s.buffer k).dot
  · rw [if_pos hsame, if_pos hsame]
    rcases lineAddress_cases 1 ⟨(s.buffer k).dot, k⟩ 1 s with ⟨behind,hbehind,hbehind'⟩ | ⟨f,e,hbehind,hbehind'⟩
    · rw [bind_of_ok hbehind', hbehind]
      exact hset _
    · rw [bind_of_error hbehind', hbehind]
      exact hfail
  · rw [if_neg hsame, if_neg hsame]
    exact hset _

/-! ## Command texts -/

/-- A command is executed from the buffer that is then current. -/
theorem home_of_callsFrom {fuel : Nat} {cursor : Cursor} {c : Call} {cs : List Call}
    (hcalls : callsFrom fuel cursor s = c :: cs) : c.home = c.before.current := by
  cases fuel with
  | zero => cases hcalls
  | succ fuel =>
    cases hnext : nextCommand cursor s with
    | error e u =>
      rw [callsFrom, thenCalls_of_error hnext] at hcalls
      cases hcalls
    | ok next u =>
      obtain ⟨next,behind⟩ := next
      rw [callsFrom, thenCalls_of_ok hnext] at hcalls
      cases next with
      | none => cases hcalls
      | some cmd =>
        obtain ⟨more,hself⟩ := exists_calls u.current cmd u
        simp only [hself, List.cons_append, List.cons.injEq] at hcalls
        rw [← hcalls.1]

/-- Bare newline commands that a text executes one after another move dot as often, and nothing else. -/
theorem runCommands_newlines {fuel : Nat} {cursor : Cursor} (hk : k < s.workspace.known.length)
    (hcurrent : s.current = some k)
    (hcalls : (callsFrom fuel cursor s).map Call.action? = List.replicate n (some (none, .newline)))
    (hrun : runCommands fuel cursor s = .ok () t) :
    s.Pointed t ∧ (· >>= Lines.next (s.buffer k).text)^[n] (.ok (s.buffer k).dot) = .ok (t.buffer k).dot := by
  induction n generalizing fuel cursor s with
  | zero =>
    obtain ⟨_,_,_,_,hwindow,rfl⟩ := runCommands_noted (List.map_eq_nil_iff.mp hcalls) hrun
    exact ⟨Session.Quiet.note s _ _ _ _ hwindow,rfl⟩
  | succ n ih =>
    obtain ⟨c,cs,hlist,hfirst,hrest⟩ := List.map_eq_cons_iff.mp hcalls
    have hhome := home_of_callsFrom hlist
    have hcmd := Call.cmd_of_action? hfirst
    obtain ⟨hnoted,u,_,_,hexecute,hmore,hrun⟩ := runCommands_call hlist hcmd hrun
    obtain ⟨home,cmd,b⟩ := c
    obtain rfl : cmd = .act none .newline := hcmd
    obtain ⟨messages,notices,invocations,patterns,hwindow,rfl⟩ := hnoted
    obtain rfl : home = some k := hhome.trans hcurrent
    obtain ⟨r,hnext,rfl⟩ := nextLine_ok_iff.mp hexecute
    let b : Session := { s with messages, notices, invocations, patterns }
    have hpointed : s.Pointed (b.touch k (.dot r)) :=
      Session.Quiet.trans (Session.Quiet.note s messages notices invocations patterns hwindow) (Session.Dots.dot b k r)
    have hbuffer : (b.touch k (.dot r)).buffer k = { s.buffer k with dot := r } := b.buffer_touch (.dot r) hk
    obtain ⟨hrestPointed,hiterate⟩ := ih (s := b.touch k (.dot r)) (by rwa [b.length_known_touch]) hcurrent
      (hmore ▸ hrest) hrun
    refine ⟨Session.Quiet.trans hpointed hrestPointed,?_⟩
    rw [hbuffer] at hiterate
    rw [Function.iterate_succ_apply, ← hiterate]
    exact congrArg _ hnext

/-- A text of some bare newline commands that succeeds leaves the buffer as it was, its dot moved as often. -/
theorem edit_newlines (hs : s.Resting) (hk : k ∈ s.workspace.listed) (hedit : s.Newlines k n t) :
    k ∈ t.workspace.listed ∧ (t.buffer k).text = (s.buffer k).text ∧
      (· >>= Lines.next (s.buffer k).text)^[n] (.ok (s.buffer k).dot) = .ok (t.buffer k).dot := by
  obtain ⟨text,hrun,hcalls⟩ := hedit
  unfold editCalls at hcalls
  split at hcalls
  · rename_i hrefused
    obtain ⟨u,hedit,hnoted⟩ := edit_refused (some k) hrefused
    rw [hrun] at hedit
    cases hedit
    obtain rfl : n = 0 := by simpa using congrArg List.length hcalls.symm
    rw [Session.buffer_congr hnoted.workspace k, hnoted.workspace]
    exact ⟨hk,rfl,rfl⟩
  rename_i haccepted
  obtain ⟨p,v,hpending,hcommit,rfl⟩ := pending_of_accepted (Bool.eq_false_iff.mpr haccepted) hrun
  obtain ⟨b,hbegin,hb⟩ := begin_begun (some k) s
  rw [final_of_ok hbegin] at hcalls
  unfold pending at hpending
  rw [bind_of_ok hbegin] at hpending
  obtain ⟨-,htext⟩ | ⟨_,_,hne,-⟩ := carryOut_run hpending
  case inr => cases hne
  have hlisted : k ∈ b.workspace.listed := hb.handles.listed ▸ hk
  have hlt : k < b.workspace.known.length := hb.handles.length ▸ hs.known k hk
  have hcurrent : b.current = some k := by
    rw [← final_of_ok hbegin]
    rfl
  unfold textCalls at hcalls
  rw [Option.all_some, List.contains_iff_mem.mpr hlisted, if_pos rfl] at hcalls
  rw [runText_listed text (List.contains_iff_mem.mpr hlisted)] at htext
  obtain ⟨hpointed,hiterate⟩ := runCommands_newlines hlt hcurrent hcalls htext
  obtain ⟨editClean,hbk⟩ := hb.buffer k (hs.known k hk)
  obtain ⟨dot,hpk⟩ := hpointed.buffer k
  rw [hbk] at hiterate hpk
  -- there is nothing to commit in the buffer
  obtain ⟨-,hhandles,hbuffers⟩ := commitBuffers_ok hcommit
  have hpl : k ∈ p.workspace.listed := hpointed.handles.listed ▸ hlisted
  obtain ⟨r,hr⟩ := (if_pos hpl).mp (hbuffers k (hpointed.handles.length ▸ hlt))
  rw [Buffer.commit_of_isEmpty _ (by rw [hpk]; exact (hs k hk).2.1)] at hr
  injection hr with _ hvk
  refine ⟨hhandles.listed ▸ hpl,?_,?_⟩
  · change (v.buffer k).text = _
    rw [← hvk, hpk]
  · change _ = Except.ok (v.buffer k).dot
    rw [← hvk]
    exact hiterate

/-- Text after text dot is moved as often as there are commands. -/
theorem walks_next (hs : s.Resting) (hk : k ∈ s.workspace.listed) (hwalk : s.Walks k n t) :
    t.Resting ∧ k ∈ t.workspace.listed ∧ (t.buffer k).text = (s.buffer k).text ∧
      (· >>= Lines.next (s.buffer k).text)^[n] (.ok (s.buffer k).dot) = .ok (t.buffer k).dot := by
  induction hwalk with
  | start s => exact ⟨hs,hk,rfl,rfl⟩
  | @more m n s t u hwalk hedit ih =>
    obtain ⟨hrest,hlisted,htext,hiterate⟩ := ih hs hk
    obtain ⟨hlisted',htext',hiterate'⟩ := edit_newlines hrest hlisted hedit
    obtain ⟨_,hrun,-⟩ := hedit
    refine ⟨resting_edit hrest hrun,hlisted',htext'.trans htext,?_⟩
    rw [htext, ← hiterate, ← Function.iterate_add_apply, Nat.add_comm] at hiterate'
    exact hiterate'

/-! ## The commands succeed -/

theorem readsOne_newline (last : Text) : ReadsOne ['\n'] last (.act none .newline) :=
  ⟨{ before := ['\n'], rest := [], last },by cbv,fun last => ⟨{ before := ['\n'], rest := [], last },by cbv⟩⟩

/-- The text of one bare newline command succeeds if there is a line to go on to. -/
theorem exists_newline (hs : s.Resting) (hk : k ∈ s.workspace.listed) (hmax : 1 ≤ s.settings.maxCommand) {r : Span}
    (hnext : Lines.next (s.buffer k).text (s.buffer k).dot = .ok r) :
    ∃ t, s.Newlines k 1 t ∧ t.settings = s.settings := by
  have haccepted : (['\n'].isEmpty || s.settings.maxCommand < ['\n'].length) = false := by simpa using hmax
  obtain ⟨hcalls,b,hb,-,hsettings,hgo⟩ := edit_of_readsOne hk haccepted (readsOne_newline s.patterns.last)
  obtain ⟨editClean,hbk⟩ := hb.buffer k (hs.known k hk)
  have hline : nextLine k b = .ok () (b.touch k (.dot r)) := nextLine_ok_iff.mpr ⟨r,by rwa [hbk],rfl⟩
  obtain ⟨u,hafter,hedit⟩ := hgo (b.touch k (.dot r)) hline
  have hpointed : b.Pointed u := by
    obtain ⟨_,_,_,_,hwindow,rfl⟩ := hafter
    exact Session.Quiet.trans (Session.Dots.dot b k r) (Session.Quiet.note _ _ _ _ _ hwindow)
  have hsound : ∀ j ∈ u.workspace.listed, (u.buffer j).log.Sound := by
    intro j hj
    have hjs : j ∈ s.workspace.listed := hb.handles.listed ▸ hpointed.handles.listed ▸ hj
    obtain ⟨_,huj⟩ := hpointed.buffer j
    obtain ⟨_,hbj⟩ := hb.buffer j (hs.known j hjs)
    rw [huj, hbj]
    exact EditLog.sound_of_isEmpty (hs j hjs).2.1
  obtain ⟨v,hcommit⟩ := commitBuffers_of_sound u.seq hsound
  refine ⟨unlock v,⟨['\n'],hedit v hcommit,hcalls⟩,?_⟩
  have hcommitted : v.settings = u.settings := commitBuffers_fixes (·.settings) (fun _ _ _ => rfl) hcommit
  obtain ⟨_,_,_,_,-,rfl⟩ := hafter
  exact hcommitted.trans hsettings

/-- So do as many commands as there are lines to go on to. -/
theorem exists_walk (hs : s.Resting) (hk : k ∈ s.workspace.listed) (hmax : 1 ≤ s.settings.maxCommand) {r : Span}
    (hiterate : (· >>= Lines.next (s.buffer k).text)^[n] (.ok (s.buffer k).dot) = .ok r) :
    ∃ t, s.Walks k n t ∧ t.settings = s.settings := by
  induction n generalizing r with
  | zero => exact ⟨s,.start s,rfl⟩
  | succ n ih =>
    rw [Function.iterate_succ_apply'] at hiterate
    obtain ⟨dot,hdot,hnext⟩ := result_of_bind hiterate
    obtain ⟨t,hwalk,hsettings⟩ := ih hdot
    obtain ⟨hrest,hlisted,htext,hiterate'⟩ := walks_next hs hk hwalk
    rw [hdot] at hiterate'
    injection hiterate' with hdot'
    rw [← htext, hdot'] at hnext
    obtain ⟨u,hedit,hsettings'⟩ := exists_newline hrest hlisted (hsettings ▸ hmax) hnext
    exact ⟨u,hwalk.more hedit,hsettings'.trans hsettings⟩

/-! ## Through the lines -/

/-- From the start of its text dot is walked through the lines of a buffer by bare newline commands, however they
are spread over command texts that succeed: after `n` of them it is line `n` with its newline, and they succeed as
long as there is such a line. Behind a newline at the end of the text the last one is empty. One that begins at a dot
not made of whole lines extends it to the least run of whole lines that it lies in. The texts are left as they were. -/
theorem newlines_walk (hs : s.Resting) (hk : k ∈ s.workspace.listed) :
    let text := (s.buffer k).text
    let dot := (s.buffer k).dot
    (dot = .point 0 → ∀ n, 1 ≤ n → n ≤ text.count '\n' + 1 →
      (1 ≤ s.settings.maxCommand → ∃ t, s.Walks k n t) ∧
        ∀ t, s.Walks k n t → (t.buffer k).text = text ∧ Lines.IsLine text n (t.buffer k).dot) ∧
    (dot.Within text → ¬Lines.Whole text dot →
      (1 ≤ s.settings.maxCommand → ∃ t, s.Walks k 1 t) ∧
        ∀ t, s.Walks k 1 t → (t.buffer k).text = text ∧ Lines.Extends text dot (t.buffer k).dot) := by
  intro text dot
  have hwalks {r : Span} {n : Nat} (hiterate : (· >>= Lines.next text)^[n] (.ok dot) = .ok r) :
      (1 ≤ s.settings.maxCommand → ∃ t, s.Walks k n t) ∧
        ∀ t, s.Walks k n t → (t.buffer k).text = text ∧ (t.buffer k).dot = r := by
    refine ⟨fun hmax => ?_,fun t hwalk => ?_⟩
    · obtain ⟨t,hwalk,-⟩ := exists_walk hs hk hmax hiterate
      exact ⟨t,hwalk⟩
    · obtain ⟨-,-,htext,hiterate'⟩ := walks_next hs hk hwalk
      exact ⟨htext,Except.ok.inj (hiterate'.symm.trans hiterate)⟩
  constructor
  · intro hdot n hpos hn
    obtain ⟨n,rfl⟩ := Nat.exists_eq_add_of_le' hpos
    obtain ⟨line,hline,hiterate⟩ := Lines.iterate_next (Nat.le_of_succ_le_succ hn)
    rw [← hdot] at hiterate
    obtain ⟨hsucceed,hlead⟩ := hwalks hiterate
    refine ⟨hsucceed,fun t hwalk => ?_⟩
    obtain ⟨htext,hdot'⟩ := hlead t hwalk
    exact ⟨htext,hdot' ▸ hline⟩
  · intro hr hwhole
    obtain ⟨r,hextends,hnext⟩ := Lines.next_of_not_whole hr hwhole
    obtain ⟨hsucceed,hlead⟩ := hwalks (n := 1) hnext
    refine ⟨hsucceed,fun t hwalk => ?_⟩
    obtain ⟨htext,hdot'⟩ := hlead t hwalk
    exact ⟨htext,hdot' ▸ hextends⟩

/-- Three commands lead through an empty line to a line without a newline, and one command extends a dot that
begins inside a line and ends with its newline. -/
theorem newlines_walk_unended :
    let text : Text := "ab\n\ncd".toList
    let session (dot : Span) : Session := { workspace := { known := [{ text, dot }], listed := [0] } }
    let s := session (.point 0)
    let s' := session ⟨1, 3⟩
    (s.Resting ∧ 0 ∈ s.workspace.listed ∧ (s.buffer 0).dot = .point 0 ∧ 1 ≤ s.settings.maxCommand ∧
      ∃ t, s.Walks 0 3 t ∧ (t.buffer 0).text = text ∧ (t.buffer 0).dot = ⟨4, 6⟩) ∧
    s'.Resting ∧ 0 ∈ s'.workspace.listed ∧ (s'.buffer 0).dot.Within text ∧ ¬Lines.Whole text (s'.buffer 0).dot ∧
      1 ≤ s'.settings.maxCommand ∧
      ∃ t, s'.Walks 0 1 t ∧ (t.buffer 0).text = text ∧ (t.buffer 0).dot = ⟨0, 3⟩ := by
  intro text session s s'
  have hs : s.Resting := by decide
  have hs' : s'.Resting := by decide
  have hk (dot : Span) : 0 ∈ (session dot).workspace.listed := List.mem_cons_self
  have hmax : 1 ≤ s.settings.maxCommand := by decide
  have hr : (s'.buffer 0).dot.Within text := by decide
  have hwhole : ¬Lines.Whole text (s'.buffer 0).dot := by
    intro h
    have hstart : Lines.Complete (text.slice 0 1) := h.start
    rcases hstart with h | h
    · cases h
    · cases h
  obtain ⟨hwalks,-⟩ := newlines_walk hs (hk _)
  obtain ⟨-,hextends⟩ := newlines_walk hs' (hk _)
  refine ⟨⟨hs,hk _,rfl,hmax,?_⟩,hs',hk _,hr,hwhole,hmax,?_⟩
  · obtain ⟨hsucceed,hlead⟩ := hwalks rfl 3 (by decide) (by decide)
    obtain ⟨t,hwalk⟩ := hsucceed hmax
    obtain ⟨htext,hline⟩ := hlead t hwalk
    exact ⟨t,hwalk,htext,hline.unique (Lines.isLine_iff.mpr ⟨4,by rfl,by rfl⟩)⟩
  · obtain ⟨hsucceed,hlead⟩ := hextends hr hwhole
    obtain ⟨t,hwalk⟩ := hsucceed hmax
    obtain ⟨htext,hleast⟩ := hlead t hwalk
    obtain ⟨r,hextends',hnext⟩ := Lines.next_of_not_whole hr hwhole
    have hr' : r = ⟨0, 3⟩ := by
      have hvalue : Lines.next text ⟨1, 3⟩ = .ok ⟨0, 3⟩ := by rfl
      exact Except.ok.inj (hnext.symm.trans hvalue)
    exact ⟨t,hwalk,htext,(hleast.unique hextends').trans hr'⟩

end Run
end StructuralEdit
