import StructuralEdit.Proofs.Session.Atomic
import StructuralEdit.Proofs.Session.Single

/-! # Files that cannot be read

A command that is to read a file takes the file's name for its buffer before it opens the file. Where
the file cannot be read the command fails, and its changes are taken back; but the name stays. A buffer
that has its own file read, or a file put into it under its own name, is as it was.
-/
namespace StructuralEdit

/-- The file that could not be read, if that is what is wrong. -/
def EditError.unread? : EditError → Option Text
  | isDirectory name | cannotOpen name _ => some name
  | _ => none

/-- The buffer that a command reads a file into, and whether the buffer is replaced by the file as a whole. -/
def Call.reader? (c : Call) : Option (Handle × Bool) :=
  match c.cmd with
  | .act _ (.load _) => c.home.map fun h => (h, true)
  | .act addr (.read _) => ((Run.withDefault false c.home addr).value c.before).map fun a => (a.buffer, false)
  | _ => none

theorem Call.act_of_reader? {c : Call} {k : Handle} {loads : Bool} (h : c.reader? = some (k, loads)) :
    ∃ addr action, c.cmd = .act addr action := by
  unfold reader? at h
  split at h
  · exact ⟨_,_,‹_›⟩
  · exact ⟨_,_,‹_›⟩
  · cases h

namespace Run
open Session
variable {h : Option Handle} {text argument name : Text} {s t : Session} {c : Call} {e : EditError} {k : Handle}
  {loads : Bool}

/-! ## Commands that fail to read a file -/

theorem readFile_unread (hrun : readFile name s = .error (.edit e) t) : t = s ∧ e.unread? = some name := by
  unfold readFile at hrun
  rw [bind_of_ok (get_eq s)] at hrun
  dsimp only at hrun
  split at hrun
  · cases hrun
    exact ⟨rfl,rfl⟩
  · cases hread : s.workspace.store.read name with
    | ok bytes =>
      rw [hread] at hrun
      cases hrun
    | error f =>
      rw [hread] at hrun
      cases f <;> cases hrun <;> exact ⟨rfl,rfl⟩

/-- A file that cannot be read has been named, and nothing else was done. -/
theorem insertFile_unread {h : Handle} {r : Span} (hrun : insertFile h r argument loads s = .error (.edit e) t)
    (he : e.unread? = some name) : commandName h argument loads s = .ok name t := by
  obtain ⟨name',u,hname⟩ := total_commandName h argument loads s
  unfold insertFile at hrun
  rw [bind_of_ok (buffer_eq h s)] at hrun
  dsimp only at hrun
  rw [bind_of_ok hname] at hrun
  split at hrun
  · cases hrun
    cases he
  rw [bind_of_ok (buffer_eq h u)] at hrun
  cases hread : readFile name' u with
  | error f v =>
    rw [bind_of_error hread] at hrun
    cases hrun
    obtain ⟨rfl,he'⟩ := readFile_unread hread
    rw [he] at he'
    cases he'
    exact hname
  | ok plain v =>
    rw [bind_of_ok hread] at hrun
    refine absurd hrun (Total.ne_error ?_)
    refine total_bind (total_record h (.replace r.q0 r.q1 _)) fun _ => ?_
    exact total_ite (total_warn _) (total_ite (total_bind total_get fun _ => total_modify _) (total_pure _))

theorem refuseIfDirty_cases (h : Handle) (s : Session) : refuseIfDirty h s = .ok () s ∨
    refuseIfDirty h s = .error (.edit (.modified (s.buffer h).name)) (s.touch h .markClean) := by
  unfold refuseIfDirty
  rw [bind_of_ok (buffer_eq h s)]
  split
  · exact .inr rfl
  · exact .inl rfl

theorem loadFile_unread {h : Handle} (hrun : loadFile h argument s = .error (.edit e) t)
    (he : e.unread? = some name) : commandName h argument true s = .ok name t := by
  rcases refuseIfDirty_cases h s with hclean | hdirty
  · rw [loadFile, bind_of_ok hclean, bind_of_ok (buffer_eq h s)] at hrun
    exact insertFile_unread hrun he
  · rw [loadFile, bind_of_error hdirty] at hrun
    cases hrun
    cases he

/-- A command that fails to read its file has set dots and looked its name up. -/
theorem execute_unread (hreader : c.reader? = some (k, loads))
    (hrun : execute c.home c.cmd c.before = .error (.edit e) t) (he : e.unread? = some name) :
    ∃ u argument, c.before.Pointed u ∧ c.before.Aside u ∧ commandName k argument loads u = .ok name t := by
  obtain ⟨home,cmd,s⟩ := c
  have hact {addr : Option Addr} {action : Action} (hrun : execute home (.act addr action) s = .error (.edit e) t) :
      runAction home addr action s = .error (.edit e) t := by
    rcases requireWindow_cases home (.act addr action) s with hwindow | hwindow
    · exact (bind_of_ok hwindow).symm.trans hrun
    · rw [execute, bind_of_error hwindow] at hrun
      cases hrun
      cases he
  unfold Call.reader? at hreader
  split at hreader
  · rename_i addr argument hcmd
    obtain rfl : cmd = .act addr (.load argument) := hcmd
    cases home with
    | none => cases hreader
    | some h =>
      cases hreader
      exact ⟨s,argument,Quiet.refl s,Quiet.refl s,loadFile_unread (hact hrun) he⟩
  · rename_i addr argument hcmd
    obtain rfl : cmd = .act addr (.read argument) := hcmd
    obtain ⟨a,hvalue,heq⟩ := Option.map_eq_some_iff.mp hreader
    cases heq
    have hrange := ok_of_value hvalue
    have hinsert : insertFile a.buffer a.r argument false _ = .error (.edit e) t :=
      (bind_of_ok hrange).symm.trans (hact hrun)
    have hpointed := follows_withDefault (R := Pointed) false home addr
    have haside := follows_withDefault (R := Aside) false home addr
    exact ⟨_,argument,hpointed.of_ok hrange,haside.of_ok hrange,insertFile_unread hinsert he⟩
  · cases hreader

/-! ## Edits that fail to read a file -/

/-- Where no undo steps could be taken back, a command that fails drops what is pending and does nothing
else. -/
theorem commit_abandoned {r p v : Session} {seq : Int} (habandon : abandon e r = .ok () p)
    (hcommit : commitBuffers seq p.workspace.listed p = .ok () v) :
    v.workspace.store = r.workspace.store ∧ v.workspace.listed = r.workspace.listed ∧
    ∀ j ∈ r.workspace.listed, j < r.workspace.known.length → (r.buffer j).undoMark = none →
      v.buffer j = (r.buffer j).clearLog := by
  cases habandon
  obtain ⟨-,hhandles,hbuffers⟩ := commitBuffers_ok hcommit
  have hrolled := r.workspace.sameHandles_updateListed Buffer.rollback
  refine ⟨?_,hhandles.listed.trans hrolled.listed,fun j hj hlt hmark => ?_⟩
  · exact (store_commitBuffers hcommit).trans (store_updateListed r.workspace _)
  have hdone := hbuffers j (hrolled.length ▸ hlt)
  rw [if_pos (hrolled.listed ▸ hj)] at hdone
  obtain ⟨done,hdone⟩ := hdone
  have hpj : Workspace.buffer r.workspace.rollback j = (r.buffer j).clearLog :=
    ((Workspace.buffer_updateListed Buffer.rollback_rollback r.workspace hlt).trans (if_pos hj)).trans
      (Buffer.rollback_of_unmarked hmark)
  change Buffer.commit _ (Workspace.buffer r.workspace.rollback j) = _ at hdone
  rw [hpj, Buffer.commit_of_isEmpty _ rfl] at hdone
  injection hdone with _ hv
  rw [← hv, ← hmark]
  rfl

/-- After a command that cannot read its file the files are the same, the same buffers are listed, and all of
them have the texts, timelines and file times they had. The buffer of the command has taken the file's name
if it was to be replaced or had none. -/
theorem edit_unread (hs : s.Resting) (hcalls : editCalls h text s = [c]) (hreader : c.reader? = some (k, loads))
    (he : e.unread? = some name) (hrun : edit h text s = .ok (some e) t) :
    t.workspace.store = s.workspace.store ∧ t.workspace.listed = s.workspace.listed ∧
    ∀ j ∈ s.workspace.listed, ∃ dot editClean, t.buffer j =
      { (if j = k ∧ (loads = true ∨ (s.buffer j).name = []) then (s.buffer j).rename name else s.buffer j) with
        dot, editClean, log := {} } := by
  obtain ⟨addr,action,hcmd⟩ := Call.act_of_reader? hreader
  obtain ⟨hb,hstore,p,v,hcommit,rfl,hends⟩ := edit_single hcalls hcmd hrun
  obtain ⟨hnone,-⟩ | ⟨_,r,heq,habandon,hends⟩ := hends
  · cases hnone
  cases heq
  obtain hexecute | ⟨q,rfl⟩ := hends
  case inr => cases he
  obtain ⟨u,argument,hpointed,haside,hname⟩ := execute_unread hreader hexecute he
  obtain ⟨hstore',hhandles,hnames⟩ := buffers_commandName hname
  obtain ⟨hstore'',hlisted,hbuffers⟩ := commit_abandoned habandon hcommit
  have hrlisted : r.workspace.listed = s.workspace.listed := by
    rw [hhandles.listed, hpointed.handles.listed, hb.handles.listed]
  have hulength : u.workspace.known.length = s.workspace.known.length := by
    rw [hpointed.handles.length, hb.handles.length]
  refine ⟨?_,hlisted.trans hrlisted,fun j hj => ?_⟩
  · exact hstore''.trans (by rw [hstore', haside.store, hstore])
  -- what is set before the name is looked up, and then the name
  obtain ⟨editClean,hbj⟩ := hb.buffer j (hs.known j hj)
  obtain ⟨dot,huj⟩ := hpointed.buffer j
  rw [hbj] at huj
  let taken : Buffer :=
    if j = k ∧ (loads = true ∨ (s.buffer j).name = []) then (s.buffer j).rename name else s.buffer j
  have hrj : r.buffer j = { taken with dot, editClean } := by
    rw [hnames j (hulength ▸ hs.known j hj), huj]
    simp only [taken, Buffer.rename]
    split
    · split <;> rfl
    · rfl
  have hmark : taken.undoMark = none := by
    simp only [taken, Buffer.rename]
    split
    · split <;> exact (hs j hj).2.2
    · exact (hs j hj).2.2
  refine ⟨dot,editClean,(hbuffers j (hrlisted ▸ hj) ?_ ?_).trans ?_⟩
  · rw [hhandles.length, hulength]
    exact hs.known j hj
  · rw [hrj]
    exact hmark
  · rw [hrj]
    rfl

/-- A named buffer into which a missing file was to be put is as it was. -/
theorem edit_unread_named :
    let s : Session := {
      workspace := { known := [{ name := "f".toList, text := "abc".toList, dot := ⟨0, 1⟩ }], listed := [0] } }
    let t : Session := (edit (some 0) "$r nosuch".toList).final s
    let e : EditError := .cannotOpen "nosuch".toList .missing
    s.Resting ∧ e.unread? = some "nosuch".toList ∧
      (∃ c, editCalls (some 0) "$r nosuch".toList s = [c] ∧ c.reader? = some (0, false)) ∧
      edit (some 0) "$r nosuch".toList s = .ok (some e) t ∧
      ∃ dot editClean, t.buffer 0 = { s.buffer 0 with dot, editClean, log := {} } := by
  intro s t e
  have hs : s.Resting := by decide
  have hrun : edit (some 0) "$r nosuch".toList s = .ok (some e) t := ok_of_value (by decide +kernel)
  let cs : List Call := editCalls (some 0) "$r nosuch".toList s
  obtain ⟨c,hc⟩ := List.length_eq_one_iff.mp (show cs.length = 1 by decide +kernel)
  have hreaders : cs.map Call.reader? = [some (0, false)] := by decide +kernel
  rw [hc] at hreaders
  have hreader := (List.cons.inj hreaders).1
  obtain ⟨-,-,hbuffers⟩ := edit_unread hs hc hreader rfl hrun
  obtain ⟨dot,editClean,hb⟩ := hbuffers 0 List.mem_cons_self
  exact ⟨hs,rfl,⟨c,hc,hreader⟩,hrun,dot,editClean,hb⟩

/-- A clean buffer that was to be replaced by a missing file has the name of that file, and is not clean any
more; what is written next goes there. A buffer without name takes the name of a missing file that was to be
put into it. -/
theorem edit_unread_renames :
    let f : StoredFile := { location := ["f".toList], content := Text.encode "abc\n".toList, time := 1001000000000 }
    let s : Session := {
      workspace := {
        known := [
          { name := "f".toList, text := "abc\n".toList, diskTime := some 1001000000000 }, { text := "x".toList }]
        listed := [0, 1], store := { files := [f], clock := 1001000000000 } } }
    let e : EditError := .cannotOpen "nosuch".toList .missing
    let t : Session := (edit (some 0) "e nosuch".toList).final s
    let u : Session := (edit (some 0) "w".toList).final t
    let v : Session := (edit (some 1) "r nosuch".toList).final s
    edit (some 0) "e nosuch".toList s = .ok (some e) t ∧ (s.buffer 0).dirty = false ∧
      (t.buffer 0).name = "nosuch".toList ∧ (t.buffer 0).dirty = true ∧
      edit (some 0) "w".toList t = .ok none u ∧
      u.workspace.store.files = [f, { f with location := ["nosuch".toList], time := 1002000000000 }] ∧
      edit (some 1) "r nosuch".toList s = .ok (some e) v ∧ (v.buffer 1).name = "nosuch".toList := by
  intro f s e t u v
  have hload : edit (some 0) "e nosuch".toList s = .ok (some e) t := ok_of_value (by decide +kernel)
  have hwrite : edit (some 0) "w".toList t = .ok none u := ok_of_value (by decide +kernel)
  have hread : edit (some 1) "r nosuch".toList s = .ok (some e) v := ok_of_value (by decide +kernel)
  refine ⟨hload,rfl,?_,?_,hwrite,?_,hread,?_⟩ <;> decide +kernel

end Run

end StructuralEdit
