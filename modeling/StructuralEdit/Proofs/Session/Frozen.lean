import StructuralEdit.Proofs.Session.Calls
import StructuralEdit.Proofs.Session.Command
import StructuralEdit.Proofs.Session.Lookup

/-! # Texts are frozen until the commit

While commands are executed, at whatever depth and whether or not they fail, the texts of all
buffers stay as they are, and so do their versions and timelines, until something is undone.
So the commands of a text all look into the texts there were when it was begun.
-/
namespace StructuralEdit

/-- Text, version, timeline and what a rollback leads back to are the same in two buffers. -/
def Buffer.Frozen (b c : Buffer) : Prop :=
  ∃ name dot log diskTime editClean pins closed cleanSeq,
    c = { b with name, dot, log, diskTime, editClean, pins, closed, cleanSeq }

namespace Buffer
variable {b c d : Buffer}

theorem Frozen.refl (b : Buffer) : b.Frozen b := ⟨_,_,_,_,_,_,_,_,rfl⟩

theorem Frozen.trans (h : b.Frozen c) (h' : c.Frozen d) : b.Frozen d := by
  obtain ⟨_,_,_,_,_,_,_,_,rfl⟩ := h
  obtain ⟨_,_,_,_,_,_,_,_,rfl⟩ := h'
  exact ⟨_,_,_,_,_,_,_,_,rfl⟩

theorem Frozen.text (h : b.Frozen c) : c.text = b.text := by
  obtain ⟨_,_,_,_,_,_,_,_,rfl⟩ := h
  rfl

theorem frozen_apply {t : Touch} (ht : t.Deferred) (b : Buffer) : b.Frozen (t.apply b) := by
  cases t with
  | travel steps => exact ht.elim
  | rename name =>
    simp only [Touch.apply, rename]
    split <;> exact ⟨_,_,_,_,_,_,_,_,rfl⟩
  | dot | record | markClean | markDirty | read | know | pin | close => exact ⟨_,_,_,_,_,_,_,_,rfl⟩

theorem Touched.frozen (h : Touched Touch.Deferred b c) : b.Frozen c :=
  h.preserves (I := b.Frozen) (fun _ ht _ hc => hc.trans (frozen_apply ht _)) (.refl b)

end Buffer

theorem Session.Reaches.frozen {s t : Session} (h : s.Reaches Touch.Deferred t) {k : Handle}
    (hk : k < s.workspace.known.length) : (s.buffer k).Frozen (t.buffer k) := (h.moves.touched hk).frozen

/-- A command that undoes or redoes something itself. -/
def Call.undoes (c : Call) : Bool :=
  match c.cmd with
  | .act _ action => action.undoes
  | _ => false

namespace Run
open Session
variable {h : Option Handle} {text : Text} {s : Session} {k : Handle}

theorem defers_call {c : Call} (hc : c.undoes = false) : c.before.Reaches Touch.Deferred c.after := by
  apply c.follows
  obtain ⟨h,cmd,s⟩ := c
  cases cmd with
  | act addr action =>
    have hu : action.undoes = false := hc
    exact serves_kind fun hu' => absurd hu' (by simp [hu])
  | guard | extract | buffers | group => trivial

/-- When a command is executed, nothing but a command that undoes something has changed a text since
the command text began. -/
theorem frozen_before {pre post : List Call} {c : Call} (hcalls : editCalls h text s = pre ++ c :: post)
    (hpre : ∀ d ∈ pre, d.undoes = false) (hk : k < s.workspace.known.length) :
    (s.buffer k).Frozen (c.before.buffer k) ∧ s.Agree k c.before := by
  unfold editCalls at hcalls
  split at hcalls
  · exact absurd hcalls (by simp)
  obtain ⟨b,hbegin,hb⟩ := begin_begun h s
  have halike : b.patterns.Alike s.patterns := by
    rw [← final_of_ok hbegin]
    exact .refl _
  rw [final_of_ok hbegin] at hcalls
  have hcourse := traces_runText (R := Reaches Touch.Deferred) h text b
  rw [hcalls] at hcourse
  have hreaches := hcourse.split.1.follows fun d hd => defers_call (hpre d hd)
  have hfrozen : (s.buffer k).Frozen (c.before.buffer k) := by
    obtain ⟨editClean,hbk⟩ := hb.buffer k hk
    have hsb : (s.buffer k).Frozen (b.buffer k) := hbk ▸ ⟨_,_,_,_,_,_,_,_,rfl⟩
    exact hsb.trans (hreaches.frozen (hb.handles.length ▸ hk))
  exact ⟨hfrozen,hfrozen.text,hreaches.patterns.trans halike⟩

/-- A command that undoes nothing changes logs, dots, names and what is known of files only, whether
or not it fails. So each command of a text, until something is undone, goes by the texts there were
when the text was begun: it is executed on them, and looks up in them what it looks up. -/
theorem edits_deferred :
    (∀ (h : Option Handle) (c : Cmd) (s : Session), c.undoes = false →
      ∀ k < s.workspace.known.length, (s.buffer k).Frozen (((execute h c).final s).buffer k)) ∧
    ∀ (h : Option Handle) (text : Text) (s : Session) (pre post : List Call) (c : Call),
      editCalls h text s = pre ++ c :: post → (∀ d ∈ pre, d.undoes = false) →
      ∀ k < s.workspace.known.length,
        (s.buffer k).Frozen (c.before.buffer k) ∧ SameLookups k s c.before := by
  constructor
  · intro h c s hu k hk
    have hreaches := follows_execute (R := Reaches Touch.Deferred) h c (fun hu' => absurd hu' (by simp [hu])) s
    exact hreaches.frozen hk
  · intro h text s pre post c hcalls hpre k hk
    obtain ⟨hfrozen,hagree⟩ := frozen_before hcalls hpre hk
    exact ⟨hfrozen,sameLookups_of_agree hagree⟩

/-- A loop has recorded two changes that make the text longer; the command behind it, which fails,
still finds the lines and matches there were. -/
theorem edits_deferred_behind_loop :
    let s : Session := {
      workspace := { known := [{ text := "banana\nband\n".toList, dot := ⟨0, 4⟩ }], listed := [0] } }
    let cs : List Call := editCalls (some 0) ",x/an/ c/own/\n/zz/d".toList s
    ∃ c, cs = cs.take 4 ++ c :: cs.drop 5 ∧ (∀ d ∈ cs.take 4, d.undoes = false) ∧
      (c.before.buffer 0).log.entries.length = 3 ∧
      (s.buffer 0).Frozen (c.before.buffer 0) ∧ SameLookups 0 s c.before := by
  intro s cs
  obtain ⟨c,hc⟩ := Option.isSome_iff_exists.mp (show cs[4]?.isSome = true by decide +kernel)
  obtain ⟨hlt,hget⟩ := List.getElem?_eq_some_iff.mp hc
  have hcalls : cs = cs.take 4 ++ c :: cs.drop 5 := by
    rw [← hget, ← List.drop_eq_getElem_cons hlt, List.take_append_drop]
  have hpre : ∀ d ∈ cs.take 4, d.undoes = false := by decide +kernel
  have hlog : (cs[4]?.map fun c => (c.before.buffer 0).log.entries.length) = some 3 := by decide +kernel
  rw [hc, Option.map_some, Option.some.injEq] at hlog
  exact ⟨c,hcalls,hpre,hlog,edits_deferred.2 (some 0) _ s _ _ c hcalls hpre 0 (by decide)⟩

end Run

end StructuralEdit
