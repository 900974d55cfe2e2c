import StructuralEdit.Proofs.Session.FileActions
import StructuralEdit.Proofs.Session.Frozen
import StructuralEdit.Proofs.Session.Pending

/-! # Buffers that are read from their files

A buffer that a command replaces as a whole by its file is marked clean when the command is
committed. Nothing else has that effect, and nothing takes it back: what other commands record
in the buffer, before or behind, is committed too. So the clean buffer has the text of its file
if its replacement is all that is pending, and need not have it otherwise.
-/
namespace StructuralEdit

namespace Touch

/-- All but replacing a whole buffer by its file. -/
def Unread : Touch → Prop
  | read _ => False
  | _ => True

instance : Gentle Unread where
  of_still {t} _ hl := by
    cases t with
    | read time => exact hl trivial
    | _ => trivial

theorem editClean_apply {t : Touch} (ht : t.Unread) (b : Buffer) :
    (t.apply b).editClean = b.editClean := by
  cases t with
  | read time => exact ht.elim
  | travel steps =>
    obtain ⟨_,_,_,_,_,h⟩ := b.traveled_travel steps
    simp only [apply, h]
  | rename name =>
    simp only [apply, Buffer.rename]
    split <;> rfl
  | dot | record | markClean | markDirty | know | pin | close => rfl

end Touch

namespace Session
variable {s t u : Session} {k : Handle}

instance : Dots (Reaches Touch.Unread) where
  dot s h r := .touch (t := .dot r) trivial s h

instance : Undoes (Reaches Touch.Unread) where
  travel s h steps := .touch (t := .travel steps) trivial s h

instance : Writes (Reaches Touch.Unread) where
  write s _ _ store _ := ⟨.single (.note s.workspace store _),rfl,.refl _⟩
  know s h time := .touch (t := .know time) trivial s h

instance : Plain (Reaches Touch.Unread) where

/-- Changes are recorded in a buffer at most, which is expected to be clean if it was before. -/
structure Adds (k : Handle) (s t : Session) : Prop where
  grows : Grows k s t
  clean : (t.buffer k).editClean = (s.buffer k).editClean

theorem Adds.trans (h : Adds k s t) (h' : Adds k t u) : Adds k s u :=
  ⟨h.grows.trans h'.grows,h'.clean.trans h.clean⟩

theorem adds_of_buffer (hlog : (t.buffer k).log = (s.buffer k).log)
    (hclean : (t.buffer k).editClean = (s.buffer k).editClean) : Adds k s t := ⟨⟨[],hlog⟩,hclean⟩

theorem Reaches.adds (h : s.Reaches Touch.Unread t) (k : Handle) : Adds k s t := by
  refine ⟨h.grows k,?_⟩
  let I (b : Buffer) : Prop := b.editClean = (s.buffer k).editClean
  refine h.moves.preserves (I := I) (fun t ht b hb => (t.editClean_apply ht b).trans hb) (fun store path hb => ?_) rfl
  unfold Workspace.load
  split <;> exact hb

theorem Aside.adds (h : s.Aside t) (k : Handle) : Adds k s t := by
  obtain ⟨_,_,_,hk⟩ := h.buffer k
  exact adds_of_buffer (by rw [hk]) (by rw [hk])

theorem Noted.adds (h : s.Noted t) (k : Handle) : Adds k s t := by
  have hk : t.buffer k = s.buffer k := by rw [buffer, h.workspace, buffer]
  exact adds_of_buffer (by rw [hk]) (by rw [hk])

end Session

namespace Call
open Session
variable {c : Call} {k : Handle}

theorem not_undoes_of_reads (c : Call) (h : c.kind = .reads) : c.undoes = false := by
  obtain ⟨_,cmd,_⟩ := c
  cases cmd with
  | act addr action =>
    cases action with
    | undo steps => cases h
    | _ => rfl
  | guard | extract | buffers | group => rfl

theorem adds_or_took (c : Call) (k : Handle) : Adds k c.before c.after ∨ ∃ f, c.Took k f := by
  by_cases hk : c.kind = .reads
  · rcases c.reads_cases (R := Reaches Touch.Unread) hk k with hreaches | ⟨_,_,_,haside⟩ | htook
    · exact .inl (hreaches.adds k)
    · exact .inl (adds_of_buffer (by rw [haside]) (by rw [haside]))
    · exact .inr htook
  · have hserves : c.kind.Serves (Reaches Touch.Unread) := by
      cases hc : c.kind with
      | reads => exact absurd hc hk
      | plain => trivial
      | undoes => exact inferInstanceAs (Undoes _)
      | runs => exact inferInstanceAs (Programs _)
      | opens => exact ⟨inferInstance,inferInstance⟩
      | writes => exact inferInstanceAs (Writes _)
    exact .inl ((c.follows hserves).adds k)

/-- Where some commands leave a buffer to be clean that was not, one of them has replaced it by its
file. -/
theorem took_of_course {s t : Session} {cs : List Call} (h : Course (Reaches Touch.Unread) s cs t) :
    Adds k s t ∨ ∃ pre d post f, cs = pre ++ d :: post ∧ d.Took k f ∧ Grows k d.after t := by
  induction h with
  | done h => exact .inl (h.adds k)
  | @call s t c cs h hrest ih =>
    rcases ih with hadds | ⟨pre,d,post,f,rfl,htook,hgrows⟩
    · rcases c.adds_or_took k with hc | ⟨f,htook⟩
      · exact .inl ((h.adds k).trans (hc.trans hadds))
      · exact .inr ⟨[],c,cs,f,rfl,htook,hadds.grows⟩
    · exact .inr ⟨c :: pre,d,post,f,rfl,htook,hgrows⟩

end Call

namespace Buffer
variable {b c : Buffer} {seq : Int} {r : Bool}

theorem clean_of_commit (hlog : b.log.isEmpty = false) (hclean : b.editClean = true)
    (h : commit seq b = .ok r c) : c.dirty = false := by
  rw [commit_run, if_neg (by simp [hlog])] at h
  obtain ⟨_,d,htransaction,h⟩ := ok_of_bind h
  obtain ⟨_,_,hget,htransaction⟩ := ok_of_bind htransaction
  cases hget
  obtain ⟨_,a,happly,hpush⟩ := ok_of_bind htransaction
  obtain ⟨text,version,dot,rfl⟩ := retexted_applyLog happly
  cases hpush
  simp only [clearLog, hclean] at h
  cases h
  simp [dirty, markClean]

/-- A commit of nothing but the replacement of the whole text. -/
theorem text_of_commit {l : EditLog} {text : Text} (hl : l.isEmpty = true) (hlog : b.log.isEmpty = false)
    (hreplace : b.log = (l.replace 0 b.size text).1) (h : commit seq b = .ok r c) : c.text = text := by
  have hchanges : l.changes = [] := List.isEmpty_iff.mp hl
  have hb : b.log.changes = [⟨.replace, 0, b.size, text⟩] := by
    unfold EditLog.replace at hreplace
    split at hreplace
    · rw [hreplace, hl] at hlog
      cases hlog
    · rw [hreplace]
      simp [EditLog.push, hchanges]
  have hsound : b.log.Sound := by
    intro e he
    rw [hb] at he
    obtain rfl := List.mem_singleton.mp he
    exact ChangeRequest.sound_change (c := .replace 0 b.size text) ⟨Int.le_refl 0,Int.natCast_nonneg _⟩
  obtain ⟨v,hcommit⟩ := commit_of_sound seq hlog hsound
  rw [hcommit] at h
  cases h
  simp [hb, Change.applyTo, Change.stop, size]

end Buffer

namespace Run
open Session
variable {h : Option Handle} {text : Text} {s t c : Session} {k : Handle}

theorem editClean_begin {b : Session} (hs : s.Resting) (hbegin : begin h s = .ok () b)
    (hk : k ∈ s.workspace.listed ∨ s.workspace.known.length ≤ k) : (b.buffer k).editClean = false := by
  cases hbegin
  let clear (b : Buffer) : Buffer := { b with editClean := false }
  change ((s.workspace.updateListed clear).buffer k).editClean = false
  rcases hk with hk | hnew
  · rw [Workspace.buffer_updateListed (f := clear) (fun _ => rfl) _ (hs.known k hk), if_pos hk]
  · rw [← (s.workspace.sameHandles_updateListed clear).length] at hnew
    rw [Workspace.buffer_of_unknown hnew]
    rfl

/-- Where a command text without an error leaves a buffer to be committed as clean, one of its commands
has replaced the buffer by its file. The text is still the one that was to be replaced if nothing has
been undone since. -/
theorem took_of_pending (hs : s.Resting) (hpending : pending h text s = .ok none c)
    (hcalls : editCalls h text s ≠ []) (hk : k ∈ c.workspace.listed)
    (hclean : (c.buffer k).editClean = true) :
    ∃ pre d post f, editCalls h text s = pre ++ d :: post ∧ d.Took k f ∧ Grows k d.after c ∧
      ((∀ e ∈ post, e.undoes = false) → (c.buffer k).text = (d.before.buffer k).text) := by
  obtain ⟨b,hbegin,hcourse,hreaches⟩ := course_of_pending (R := Reaches Touch.Unread) hpending hcalls
  obtain ⟨b',hbegin',hb⟩ := begin_begun h s
  rw [hbegin] at hbegin'
  cases hbegin'
  have horigin : k ∈ s.workspace.listed ∨ s.workspace.known.length ≤ k := by
    rw [← hb.handles.listed, ← hb.handles.length]
    exact (hreaches.moves.listed hk).imp_right And.left
  rcases Call.took_of_course (k := k) hcourse with hadds | ⟨pre,d,post,f,hsplit,htook,hgrows⟩
  · have hmark := hadds.clean
    rw [editClean_begin hs hbegin horigin, hclean] at hmark
    cases hmark
  · refine ⟨pre,d,post,f,hsplit,htook,hgrows,fun hundo => ?_⟩
    obtain ⟨_,-,hcourse,-⟩ := course_of_pending (R := Reaches Touch.Deferred) hpending hcalls
    rw [hsplit] at hcourse
    have hlater := hcourse.split.2.follows fun e he => defers_call (hundo e he)
    have hd := defers_call (d.not_undoes_of_reads htook.reads)
    exact ((Quiet.trans hd hlater).frozen htook.known).text

theorem accepted_of_calls (hcalls : editCalls h text s ≠ []) :
    (text.isEmpty || s.settings.maxCommand < text.length) = false := by
  unfold editCalls at hcalls
  split at hcalls
  · exact absurd rfl hcalls
  · exact Bool.eq_false_iff.mpr ‹_›

/-- A buffer that is committed to be clean was replaced as a whole by its file. If nothing had been
recorded in it before, and nothing was recorded or undone since, it has the text of the file. -/
theorem edit_reads_clean (hs : s.Resting) (hrun : edit h text s = .ok none t)
    (hcalls : editCalls h text s ≠ []) (hpending : pending h text s = .ok none c)
    (hk : k ∈ t.workspace.listed) (hclean : (c.buffer k).editClean = true)
    (hlog : (c.buffer k).log.isEmpty = false) :
    (t.buffer k).dirty = false ∧
    ∃ pre d post f, editCalls h text s = pre ++ d :: post ∧ d.Took k f ∧ Grows k d.after c ∧
      ((d.before.buffer k).log.isEmpty = true → (c.buffer k).log = (d.after.buffer k).log →
        (∀ e ∈ post, e.undoes = false) → (t.buffer k).text = Text.decode f.content) := by
  obtain ⟨c',u,hpending',hcommit,rfl⟩ := pending_of_accepted (accepted_of_calls hcalls) hrun
  rw [hpending] at hpending'
  cases hpending'
  obtain ⟨-,hhandles,hcommitted⟩ := commitBuffers_ok hcommit
  have hkc : k ∈ c.workspace.listed := hhandles.listed ▸ hk
  obtain ⟨-,-,hbuffers⟩ := pending_cases hpending hs.known
  have hk' := hcommitted k (hbuffers k hkc).1
  rw [if_pos hkc] at hk'
  obtain ⟨r,hcommitk⟩ := hk'
  refine ⟨Buffer.clean_of_commit hlog hclean hcommitk,?_⟩
  obtain ⟨pre,d,post,f,hsplit,htook,hgrows,htext⟩ := took_of_pending hs hpending hcalls hkc hclean
  refine ⟨pre,d,post,f,hsplit,htook,hgrows,fun hbefore hsame hundo => ?_⟩
  refine Buffer.text_of_commit hbefore hlog ?_ hcommitk
  rw [hsame, htook.log, Buffer.size, Buffer.size, htext hundo]

/-- A buffer takes its file between a look at its text and a change of another buffer. -/
theorem edit_reads_clean_between :
    let f : StoredFile := { location := ["f".toList], content := Text.encode "abc\n".toList, time := 1001000000000 }
    let s : Session := {
      workspace := {
        known := [{ name := "f".toList, text := "ab".toList, diskTime := some 1000000000000 }, { name := "g".toList }]
        listed := [0, 1], store := { files := [f], clock := 1001000000000 } } }
    let text : Text := ",p\ne f\nX/g/ a/z/\n=#".toList
    let c : Session := final (pending (some 0) text) s
    let t : Session := final (edit (some 0) text) s
    s.Resting ∧ edit (some 0) text s = .ok none t ∧ editCalls (some 0) text s ≠ [] ∧
      pending (some 0) text s = .ok none c ∧ 0 ∈ t.workspace.listed ∧ (c.buffer 0).editClean = true ∧
      (c.buffer 0).log.isEmpty = false ∧ (t.buffer 0).text = "abc\n".toList ∧ (t.buffer 0).dirty = false ∧
      ∃ pre d post f, editCalls (some 0) text s = pre ++ d :: post ∧ d.Took 0 f ∧ Grows 0 d.after c ∧
        ((d.before.buffer 0).log.isEmpty = true → (c.buffer 0).log = (d.after.buffer 0).log →
          (∀ e ∈ post, e.undoes = false) → (t.buffer 0).text = Text.decode f.content) := by
  intro f s text c t
  have hrun : edit (some 0) text s = .ok none t := ok_of_value (by decide +kernel)
  have hlength : (editCalls (some 0) text s).length = 5 := by decide +kernel
  have hcalls : editCalls (some 0) text s ≠ [] := fun h => by simp [h] at hlength
  have hpending : pending (some 0) text s = .ok none c := ok_of_value (by decide +kernel)
  have hlisted : 0 ∈ t.workspace.listed := by decide +kernel
  have hclean : (c.buffer 0).editClean = true := by decide +kernel
  have hlog : (c.buffer 0).log.isEmpty = false := by decide +kernel
  refine ⟨by decide,hrun,hcalls,hpending,hlisted,hclean,hlog,by decide +kernel,?_⟩
  exact edit_reads_clean (by decide) hrun hcalls hpending hlisted hclean hlog

/-- A buffer that takes its file and is added to in the same command is marked clean, and has another
text than the file. -/
theorem edit_reads_clean_added :
    let f : StoredFile := { location := ["f".toList], content := Text.encode "abc\n".toList, time := 1001000000000 }
    let s : Session := {
      workspace := {
        known := [{ name := "f".toList, text := "abc\n".toList, diskTime := some 1001000000000 }]
        listed := [0], store := { files := [f], clock := 1001000000000 } } }
    let text : Text := "e\n$a/x/".toList
    let c : Session := final (pending (some 0) text) s
    let t : Session := final (edit (some 0) text) s
    s.Resting ∧ edit (some 0) text s = .ok none t ∧ pending (some 0) text s = .ok none c ∧
      0 ∈ t.workspace.listed ∧ (c.buffer 0).editClean = true ∧ (c.buffer 0).log.isEmpty = false ∧
      (t.buffer 0).dirty = false ∧ t.workspace.store.files = [f] ∧
      (t.buffer 0).text = Text.decode f.content ++ "x".toList := by
  intro f s text c t
  have hrun : edit (some 0) text s = .ok none t := ok_of_value (by decide +kernel)
  have hpending : pending (some 0) text s = .ok none c := ok_of_value (by decide +kernel)
  refine ⟨by decide,hrun,hpending,by decide +kernel,by decide +kernel,by decide +kernel,by decide +kernel,?_⟩
  constructor <;> decide +kernel

end Run

end StructuralEdit
