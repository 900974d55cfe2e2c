import StructuralEdit.Proofs.Session.Command
import StructuralEdit.Proofs.Session.Learning

/-! # What buffers write over

Command texts are edited with, and files come to be others in between. When a buffer is written
over its own file then, it has learned of the version that is lost before, as long as its name is
the one it had when it last learned of a version. It may have learned of it from a command that
failed. A version that came from outside so soon behind one it knew that it may pass for
that one is written over all the same.
-/
namespace StructuralEdit

/-! ## Between commands -/

/-- Files may have become others, and every buffer knows the version of its file that it knew. -/
structure Workspace.Meanwhile (w w' : Workspace) : Prop where
  store : w.store.Later w'.store
  times : ∀ k, (w'.buffer k).diskTime = (w.buffer k).diskTime

namespace Workspace
variable {w w' w'' : Workspace}

theorem Meanwhile.refl (w : Workspace) : w.Meanwhile w := ⟨.refl w.store,fun _ => rfl⟩

theorem Meanwhile.trans (h : w.Meanwhile w') (h' : w'.Meanwhile w'') : w.Meanwhile w'' :=
  ⟨h.store.trans h'.store,fun k => (h'.times k).trans (h.times k)⟩

theorem meanwhile_update (w : Workspace) (h : Handle) {f : Buffer → Buffer}
    (hf : (f (w.buffer h)).diskTime = (w.buffer h).diskTime) : w.Meanwhile (w.update h f) := by
  refine ⟨.refl w.store,fun k => ?_⟩
  by_cases hkh : k = h
  · rcases w.buffer_update_cases h k f with hb | hb <;> rw [hb]
    rw [hkh, hf]
  · rw [w.buffer_update_of_ne f hkh]

theorem meanwhile_foldl {f : Workspace → Handle → Workspace} (hf : ∀ w h, Meanwhile w (f w h))
    (hs : List Handle) (w : Workspace) : w.Meanwhile (hs.foldl f w) := by
  induction hs generalizing w with
  | nil => exact .refl w
  | cons h rest ih => exact (hf w h).trans (ih _)

theorem meanwhile_hold (w : Workspace) (hs : List Handle) : w.Meanwhile (w.hold hs) := by
  have hpin := meanwhile_foldl (fun w h => w.meanwhile_update h (f := fun b => { b with pins := b.pins + 1 }) rfl) hs w
  exact ⟨hpin.store,hpin.times⟩

theorem meanwhile_release (w : Workspace) (hs : List Handle) : w.Meanwhile (w.release hs) := by
  have hunpin (w : Workspace) (h : Handle) : w.Meanwhile (w.unpin h) := by
    have hpins := w.meanwhile_update h (f := fun b => { b with pins := b.pins - 1 }) rfl
    simp only [unpin]
    split
    · exact ⟨hpins.store,hpins.times⟩
    · exact hpins
  have hnone : w.Meanwhile { w with latePins := none } := ⟨.refl w.store,fun _ => rfl⟩
  exact hnone.trans (meanwhile_foldl hunpin _ _)

theorem meanwhile_updateListed (w : Workspace) {f : Buffer → Buffer} (hf : ∀ b, (f b).diskTime = b.diskTime) :
    w.Meanwhile (w.updateListed f) :=
  meanwhile_foldl (fun w h => w.meanwhile_update h (hf _)) w.listed w

end Workspace

def Session.Meanwhile (s t : Session) : Prop := s.workspace.Meanwhile t.workspace

namespace Session

instance : Between Meanwhile where
  refl s := .refl s.workspace
  trans h h' := Workspace.Meanwhile.trans h h'
  note s _ _ _ _ _ := .refl s.workspace
  dot s h r := s.workspace.meanwhile_update h (f := fun b => { b with dot := r }) rfl
  loops s _ _ := .refl s.workspace
  hold s hs := s.workspace.meanwhile_hold hs
  release s hs := s.workspace.meanwhile_release hs

theorem Noted.meanwhile {s t : Session} (h : s.Noted t) : s.Meanwhile t := by
  rw [Meanwhile, h.workspace]
  exact .refl s.workspace

end Session

namespace Run
open Session
variable {h : Option Handle} {text : Text} {s t : Session}

theorem follows_begin (h : Option Handle) : (begin h).Follows Meanwhile := by
  intro s
  have hclear := s.workspace.meanwhile_updateListed (f := fun b => { b with editClean := false }) fun _ => rfl
  exact ⟨hclear.store,hclear.times⟩

theorem follows_abandon (e : EditError) : (abandon e).Follows Meanwhile := by
  have hrollback : (modifyWorkspace (·.rollback)).Follows Meanwhile := fun s =>
    s.workspace.meanwhile_updateListed fun b => b.sameStatus_rollback.diskTime
  exact follows_bind hrollback fun _ => follows_bind (follows_warn _) fun _ => follows_notify _

theorem follows_commitBuffer (seq : Int) (h : Handle) : (commitBuffer seq h).Follows Meanwhile := by
  intro s
  unfold commitBuffer
  rw [final_bind_of_ok (buffer_eq h s)]
  have hstatus := Buffer.sameStatus_commit seq (s.buffer h)
  cases hcommit : Buffer.commit seq (s.buffer h) with
  | ok r b =>
    rw [hcommit] at hstatus
    exact s.workspace.meanwhile_update h hstatus.diskTime
  | error e b =>
    rw [hcommit] at hstatus
    exact s.workspace.meanwhile_update h hstatus.diskTime

theorem follows_commitBuffers (seq : Int) (hs : List Handle) : (commitBuffers seq hs).Follows Meanwhile := by
  induction hs with
  | nil => exact follows_pure _
  | cons h rest ih => exact follows_bind (follows_commitBuffer seq h) fun _ => ih

theorem traces_carryOut (h : Option Handle) (text : Text) :
    (carryOut h text).Traces Meanwhile (textCalls h text) := by
  have hcaught : (caught (runText h text)).Traces Meanwhile (textCalls h text) := fun s => by
    rw [final_caught]
    exact traces_runText h text s
  refine traces_ahead hcaught fun failure => ?_
  cases failure with
  | none => exact follows_pure _
  | some e => exact follows_bind (follows_abandon e) fun _ => follows_pure _

theorem follows_commitListed : commitListed.Follows Meanwhile :=
  follows_bind follows_get fun s => follows_commitBuffers s.seq s.workspace.listed

/-- No buffer learns of its file when a text is edited with, but by the commands of the text. -/
theorem course_edit (h : Option Handle) (text : Text) (s : Session) :
    Course Meanwhile s (editCalls h text s) ((edit h text).final s) := by
  unfold editCalls
  cases haccepted : text.isEmpty || s.settings.maxCommand < text.length with
  | true =>
    obtain ⟨t,hedit,hnoted⟩ := edit_refused h haccepted
    rw [final_of_ok hedit]
    exact .done hnoted.meanwhile
  | false =>
    obtain ⟨b,hbegin,-⟩ := begin_begun h s
    have hbegun := follows_begin h s
    have hunlock (s : Session) : s.Meanwhile (unlock s) := ⟨.refl s.workspace.store,fun _ => rfl⟩
    have hcommitted := traces_ahead (traces_carryOut h text) fun failure =>
      follows_bind follows_commitListed fun _ => follows_pure failure
    have hbody := traces_ensuring hcommitted hunlock
    rw [final_of_ok hbegin] at hbegun ⊢
    rw [final, edit_accepted h haccepted, ← final, final_bind_of_ok hbegin]
    exact (hbody b).behind hbegun

end Run

/-! ## Histories -/

/-- From a session on, texts are edited with, and between two of them files come to be others. All the
commands that are executed are listed. What the programs they run write is later than what was there, too. -/
inductive History (s₀ : Session) : List Call → Session → Prop
  | start : History s₀ [] s₀
  | edit {past : List Call} {s : Session} (h : Option Handle) (text : Text) (hpast : History s₀ past s)
    (hprograms : ∀ c ∈ Run.editCalls h text s, c.kind.starts = true →
      c.before.workspace.store.Later c.after.workspace.store) :
    History s₀ (past ++ Run.editCalls h text s) ((Run.edit h text).final s)
  | outside {past : List Call} {s : Session} (store : FileStore) (hpast : History s₀ past s)
    (hlater : s.workspace.store.Later store) : History s₀ past (s.storing store)

/-- A version that a buffer knows is the one of its name, and not newer than what it has noted. -/
structure Session.Knows (s : Session) (k : Handle) (f : StoredFile) : Prop where
  place : s.workspace.store.place (s.buffer k).name = .file f
  time : ∃ time, (s.buffer k).diskTime = some time ∧ f.time ≤ time

/-- A buffer knew a version in the beginning, or has learned of it from a command since. -/
def Session.Learned (s₀ : Session) (past : List Call) (k : Handle) (f : StoredFile) : Prop :=
  s₀.Knows k f ∨ ∃ c ∈ past, c.Learns k (.file f)

/-- The name a buffer had when it last learned what its name leads to, or in the beginning. -/
def Session.LearnedAs (s₀ : Session) (past : List Call) (k : Handle) (name : Text) : Prop :=
  ((∀ c ∈ past, ∀ p, ¬ c.Learns k p) ∧ (s₀.buffer k).name = name) ∨
  ∃ pre c post p, past = pre ++ c :: post ∧ c.Learns k p ∧ (∀ d ∈ post, ∀ q, ¬ d.Learns k q) ∧
    (c.after.buffer k).name = name

/-! ## What buffers have learned of -/

/-- No file is newer than the clock, and no buffer has noted a later time. -/
structure Session.Timely (s : Session) : Prop where
  files : s.workspace.store.Timed
  known : ∀ k time, (s.buffer k).diskTime = some time → time ≤ s.workspace.store.clock

/-- What is not newer than a buffer has noted, and is found where it last learned of a version, it has
learned of. -/
structure Session.Informed (s₀ : Session) (past : List Call) (s : Session) : Prop extends s.Timely where
  learned : ∀ k time name f, (s.buffer k).diskTime = some time → s₀.LearnedAs past k name →
    s.workspace.store.place name = .file f → f.time ≤ time → s₀.Learned past k f

namespace Session
variable {s₀ s t : Session} {past cs : List Call} {c : Call} {k : Handle} {name : Text} {f : StoredFile}

theorem Learned.snoc (h : s₀.Learned past k f) (c : Call) : s₀.Learned (past ++ [c]) k f :=
  h.imp_right fun ⟨d,hd,hlearns⟩ => ⟨d,List.mem_append_left _ hd,hlearns⟩

theorem learnedAs_snoc (h : s₀.LearnedAs (past ++ [c]) k name) :
    (∃ p, c.Learns k p ∧ (c.after.buffer k).name = name) ∨
    (∀ p, ¬ c.Learns k p) ∧ s₀.LearnedAs past k name := by
  rcases h with ⟨hnone,hname⟩ | ⟨pre,d,post,p,hsplit,hlearns,hnone,hname⟩
  · right
    obtain ⟨hpast,hc⟩ := List.forall_mem_append.mp hnone
    exact ⟨hc c List.mem_cons_self,.inl ⟨hpast,hname⟩⟩
  · rcases List.eq_nil_or_concat post with rfl | ⟨post,e,rfl⟩
    · obtain ⟨rfl,rfl⟩ := List.append_singleton_inj.mp hsplit
      exact .inl ⟨p,hlearns,hname⟩
    · rw [List.concat_eq_append] at hsplit hnone
      rw [← List.cons_append, ← List.append_assoc] at hsplit
      obtain ⟨rfl,rfl⟩ := List.append_singleton_inj.mp hsplit
      obtain ⟨hpost,hc⟩ := List.forall_mem_append.mp hnone
      exact .inr ⟨hc c List.mem_cons_self,.inr ⟨pre,d,post,p,rfl,hlearns,hpost,hname⟩⟩

theorem timely_of_files (hfiles : s.workspace.store.Timed)
    (hknown : ∀ b ∈ s.workspace.known, ∀ time, b.diskTime = some time → time ≤ s.workspace.store.clock) :
    s.Timely where
  files := hfiles
  known k time htime := by
    by_cases hk : k < s.workspace.known.length
    · refine hknown (s.buffer k) ?_ time htime
      rw [buffer, Workspace.buffer, List.getD_eq_getElem?_getD, List.getElem?_eq_getElem hk]
      exact List.getElem_mem hk
    · rw [buffer, Workspace.buffer_of_unknown (Nat.not_lt.mp hk)] at htime
      cases htime

theorem informed_start (h : s₀.Timely) : s₀.Informed [] s₀ where
  toTimely := h
  learned k time name f htime has hplace hle := by
    rcases has with ⟨-,rfl⟩ | ⟨pre,c,post,p,hsplit,-⟩
    · exact .inl ⟨hplace,time,htime,hle⟩
    · simp at hsplit

/-- What buffers have noted stands for the files it stood for, as files become others. -/
theorem Informed.meanwhile (h : s₀.Informed past s) (hst : s.Meanwhile t) : s₀.Informed past t where
  files := h.files.later hst.store
  known k time htime := by
    rw [buffer, hst.times k] at htime
    exact Int.le_trans (h.known k time htime) hst.store.clock
  learned k time name f htime has hplace hle := by
    rw [buffer, hst.times k] at htime
    exact h.learned k time name f htime has (hst.store.place_of_le (h.known k time htime) hplace hle) hle

/-- A command keeps buffers informed: where it changes what one has noted, the buffer learns. -/
theorem Informed.call (h : s₀.Informed past c.before)
    (hlater : c.before.workspace.store.Later c.after.workspace.store) :
    s₀.Informed (past ++ [c]) c.after where
  files := h.files.later hlater
  known k time htime := by
    rcases c.sameTime_or_learns k with hsame | ⟨p,hlearns⟩
    · rw [hsame] at htime
      exact Int.le_trans (h.known k time htime) hlater.clock
    · rw [hlearns.time] at htime
      exact (h.files.later hlater).time htime
  learned k time name f htime has hplace hle := by
    rcases learnedAs_snoc has with ⟨p,hlearns,rfl⟩ | ⟨hnone,has⟩
    · -- What the name leads to is what the buffer has just learned of.
      rw [hlearns.place] at hplace
      exact .inr ⟨c,List.mem_append_right _ List.mem_cons_self,hplace ▸ hlearns⟩
    · -- The time is the one noted before, so the file was there before, too: what is new is newer.
      have hsame := (c.sameTime_or_learns k).resolve_right fun ⟨p,hlearns⟩ => hnone p hlearns
      rw [hsame] at htime
      have hthere := hlater.place_of_le (h.known k time htime) hplace hle
      exact (h.learned k time name f htime has hthere hle).snoc c

theorem Informed.course (h : s₀.Informed past s) (hcourse : Course Meanwhile s cs t)
    (hlater : ∀ c ∈ cs, c.before.workspace.store.Later c.after.workspace.store) :
    s₀.Informed (past ++ cs) t := by
  induction hcourse generalizing past with
  | done hst =>
    rw [List.append_nil]
    exact h.meanwhile hst
  | @call s t c cs hst _ ih =>
    obtain ⟨hc,hcs⟩ := List.forall_mem_cons.mp hlater
    have hrest := ih ((h.meanwhile hst).call hc) hcs
    rwa [List.append_assoc] at hrest

end Session

namespace History
open Session
variable {s₀ s : Session} {past pre post : List Call} {c : Call} {k : Handle} {f : StoredFile}

theorem course (h : History s₀ past s) : Course Meanwhile s₀ past s ∧
    ∀ c ∈ past, c.before.workspace.store.Later c.after.workspace.store := by
  induction h with
  | start => exact ⟨.done (Quiet.refl s₀),fun _ hc => by cases hc⟩
  | edit h text hpast hprograms ih =>
    refine ⟨ih.1.append (Run.course_edit h text _),List.forall_mem_append.mpr ⟨ih.2,fun c hc => ?_⟩⟩
    cases hk : c.kind.starts with
    | true => exact hprograms c hc hk
    | false => exact c.later_of_kind hk
  | outside store hpast hlater ih => exact ⟨ih.1.ahead ⟨hlater,fun _ => rfl⟩,ih.2⟩

/-- A version of its file that a buffer is written over is one it has learned of, if its name is the
one it had when it last learned, or so little newer than the one it has noted that it passes for it. -/
theorem overwritten_learned (hs : s₀.Timely) (h : History s₀ past s) (hpast : past = pre ++ c :: post)
    (hover : c.Overwrites k f) (has : s₀.LearnedAs pre k (c.after.buffer k).name) :
    s₀.Learned pre k f ∨ ∃ time, (c.before.buffer k).diskTime = some time ∧ time < f.time ∧
      f.time ≤ time + Run.tolerance := by
  obtain ⟨hcourse,hlater⟩ := h.course
  rw [hpast] at hcourse hlater
  -- The commands before the one that writes lead to where it begins.
  have hinformed := (informed_start hs).course hcourse.split.1 (List.forall_mem_append.mp hlater).1
  obtain ⟨time,htime,hle⟩ := hover.knows
  by_cases hnewer : time < f.time
  · exact .inr ⟨time,htime,hnewer,hle⟩
  · exact .inl (hinformed.learned k time _ f htime has hover.there (Int.not_lt.mp hnewer))

/-- A buffer is written over a version that has come from outside, once it has reported it. -/
theorem overwritten_learned_reported :
    let old : StoredFile := { location := ["f".toList], content := Text.encode "ab\n".toList, time := 1001000000000 }
    let new : StoredFile := { location := ["f".toList], content := Text.encode "xy\n".toList, time := 1002000000000 }
    let last : StoredFile := { location := ["f".toList], content := Text.encode "abc\n".toList, time := 1003000000000 }
    let s₀ : Session := {
      workspace := {
        known := [{ name := "f".toList, text := "abc\n".toList, diskTime := some 1001000000000 }]
        listed := [0], store := { files := [old], clock := 1001000000000 } } }
    let s : Session := s₀.storing (s₀.workspace.store.put ["f".toList] (Text.encode "xy\n".toList))
    let text : Text := "w\nw".toList
    let t : Session := (Run.edit (some 0) text).final s
    s₀.Timely ∧ ∃ c d, Run.editCalls (some 0) text s = [c, d] ∧ History s₀ [c, d] t ∧ d.Overwrites 0 new ∧
      s₀.LearnedAs [c] 0 (d.after.buffer 0).name ∧ s₀.Learned [c] 0 new ∧
      t.workspace.store.files = [last] := by
  intro old new last s₀ s text t
  have hs : s₀.Timely := by
    refine timely_of_files (FileStore.timed_of_files (by decide) (by decide)) fun b hb time htime => ?_
    obtain rfl := List.mem_singleton.mp hb
    cases htime
    decide
  have hnames : (Run.editCalls (some 0) text s).map (fun c => (c.target, (c.after.buffer 0).name)) =
      [(some (0, "f".toList), "f".toList), (some (0, "f".toList), "f".toList)] := by decide +kernel
  obtain ⟨c,_,hfirst,hc,hnames⟩ := List.map_eq_cons_iff.mp hnames
  obtain ⟨d,_,rfl,hd,hnames⟩ := List.map_eq_cons_iff.mp hnames
  obtain rfl := List.map_eq_nil_iff.mp hnames
  have hversions : (Run.editCalls (some 0) text s).map (fun c => ((c.before.buffer 0).diskTime,
      (c.after.buffer 0).diskTime, c.before.workspace.store.place "f".toList,
      c.after.workspace.store.place "f".toList)) =
      [(some 1001000000000, some 1002000000000, .file new, .file new),
        (some 1002000000000, some 1003000000000, .file new, .file last)] := by decide +kernel
  simp only [hfirst, List.map_cons, List.map_nil, List.cons.injEq, Prod.mk.injEq] at hc hd hversions
  obtain ⟨htold,hname⟩ := hc
  obtain ⟨htarget,hname'⟩ := hd
  obtain ⟨⟨hbefore,hafter,-,-⟩,⟨hnoted,-,hthere,hgone⟩,-⟩ := hversions
  have hquiet : ∀ c ∈ Run.editCalls (some 0) text s, c.kind.starts = false := by decide +kernel
  have hhistory : History s₀ ([] ++ Run.editCalls (some 0) text s) t := by
    refine .edit _ _ (.outside _ .start (FileStore.later_put _ _ _)) fun e he hstarts => ?_
    rw [hquiet e he] at hstarts
    cases hstarts
  rw [hfirst] at hhistory
  have hover : d.Overwrites 0 new := by
    constructor
    · rw [hname', htarget]
    · rw [hname', hthere]
    · rw [hname', hgone]
      decide
  obtain ⟨p,hlearns⟩ := (c.sameTime_or_learns 0).resolve_left (by rw [hbefore, hafter]; decide)
  have has : s₀.LearnedAs [c] 0 (d.after.buffer 0).name :=
    .inr ⟨[],c,[],p,rfl,hlearns,by simp,by rw [hname, hname']⟩
  refine ⟨hs,c,d,hfirst,hhistory,hover,has,?_,by decide +kernel⟩
  have hsplit : [c, d] = [c] ++ d :: [] := rfl
  rcases overwritten_learned hs hhistory hsplit hover has with hlearned | ⟨time,htime,hnewer,-⟩
  · exact hlearned
  · cases hnoted.symm.trans htime
    exact absurd hnewer (Int.lt_irrefl _)

/-- A buffer that is given the name of another file is written over that file, of which it has learned
nothing, and reports nothing. -/
theorem overwritten_renamed :
    let other : StoredFile := {
      location := ["a".toList], content := Text.encode "other\n".toList, time := 1001000000000 }
    let own : StoredFile := {
      location := ["f".toList], content := Text.encode "own\n".toList, time := 1002000000000 }
    let s : Session := {
      workspace := {
        known := [{ name := "f".toList, text := "own\n".toList, diskTime := some 1002000000000 }]
        listed := [0], store := { files := [other, own], clock := 1002000000000 } } }
    let text : Text := "f a\nw".toList
    let t : Session := (Run.edit (some 0) text).final s
    s.Timely ∧ ∃ c d, Run.editCalls (some 0) text s = [c, d] ∧ History s [c, d] t ∧ d.Overwrites 0 other ∧
      d.after.messages = d.before.messages ∧ ¬ s.Learned [c] 0 other := by
  intro other own s text t
  have hs : s.Timely := by
    refine timely_of_files (FileStore.timed_of_files (by decide) (by decide)) fun b hb time htime => ?_
    obtain rfl := List.mem_singleton.mp hb
    cases htime
    decide
  have hcalls : (Run.editCalls (some 0) text s).map (fun c => (c.kind, c.target, (c.after.buffer 0).name)) =
      [(.plain, none, "a".toList), (.writes, some (0, "a".toList), "a".toList)] := by decide +kernel
  obtain ⟨c,_,hfirst,hc,hcalls⟩ := List.map_eq_cons_iff.mp hcalls
  obtain ⟨d,_,rfl,hd,hcalls⟩ := List.map_eq_cons_iff.mp hcalls
  obtain rfl := List.map_eq_nil_iff.mp hcalls
  have hwritten : (Run.editCalls (some 0) text s).map (fun c => (c.before.workspace.store.place "a".toList,
      c.after.workspace.store.place "a".toList, decide (c.after.messages = c.before.messages))) =
      [(.file other, .file other, false),
        (.file other, .file {
          location := ["a".toList], content := Text.encode "own\n".toList, time := 1003000000000 }, true)] := by
    decide +kernel
  have hquiet : ∀ c ∈ Run.editCalls (some 0) text s, c.kind.starts = false := by decide +kernel
  have hhistory : History s ([] ++ Run.editCalls (some 0) text s) t := by
    refine .edit _ _ .start fun e he hstarts => ?_
    rw [hquiet e he] at hstarts
    cases hstarts
  rw [hfirst] at hhistory hwritten
  simp only [List.map_cons, List.map_nil, List.cons.injEq, Prod.mk.injEq, decide_eq_true_eq] at hc hd hwritten
  obtain ⟨hkind,-,-⟩ := hc
  obtain ⟨-,htarget,hname⟩ := hd
  obtain ⟨-,⟨hthere,hgone,hsilent⟩,-⟩ := hwritten
  have hover : d.Overwrites 0 other := by
    constructor
    · rw [hname, htarget]
    · rw [hname, hthere]
    · rw [hname, hgone]
      decide
  refine ⟨hs,c,d,hfirst,hhistory,hover,hsilent,?_⟩
  rintro (hknows | ⟨e,he,hlearns⟩)
  · have hother : s.workspace.store.place "f".toList ≠ .file other := by decide +kernel
    exact hother hknows.place
  · obtain rfl := List.mem_singleton.mp he
    exact hlearns.kind_ne hkind

end History

end StructuralEdit
