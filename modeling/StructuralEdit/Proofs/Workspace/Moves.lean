import StructuralEdit.Proofs.Buffer.Touch
import StructuralEdit.Workspace

/-! # What a command does to a workspace

A command at work touches buffers, lists buffers for files and takes buffers from
the list. No handle is used twice, so a listed buffer was listed before or is new.
-/
namespace StructuralEdit
open Relation

namespace Workspace

/-- The workspace with one more buffer, which is listed. -/
def enter (w : Workspace) (b : Buffer) : Workspace :=
  { w with known := w.known ++ [b], listed := w.listed ++ [w.known.length] }

@[simp] theorem length_known_enter (w : Workspace) (b : Buffer) :
    (w.enter b).known.length = w.known.length + 1 := by simp [enter]

/-- There is no buffer yet at a handle that is not known. -/
theorem buffer_of_unknown {w : Workspace} {k : Handle} (hk : w.known.length ≤ k) :
    w.buffer k = default := by
  rw [buffer, List.getD_eq_getElem?_getD, List.getElem?_eq_none hk, Option.getD_none]

theorem buffer_enter (w : Workspace) (b : Buffer) (k : Handle) :
    (w.enter b).buffer k = if k = w.known.length then b else w.buffer k := by
  simp only [enter, buffer, List.getD_eq_getElem?_getD]
  rcases Nat.lt_trichotomy k w.known.length with hlt | rfl | hgt
  · rw [List.getElem?_append_left hlt, if_neg (Nat.ne_of_lt hlt)]
  · simp
  · have hlen : (w.known ++ [b]).length ≤ k := by simpa using Nat.succ_le_of_lt hgt
    rw [List.getElem?_eq_none hlen, List.getElem?_eq_none (Nat.le_of_lt hgt), if_neg (Nat.ne_of_gt hgt)]

theorem add_eq (w : Workspace) (b : Buffer) : (w.add b).2 = match w.latePins with
    | none => w.enter b
    | some late =>
      { (w.enter b).pin w.known.length with latePins := some (late ++ [w.known.length]) } := rfl

/-- One thing that a command at work does to a workspace. -/
inductive Move (P : Touch → Prop) : Workspace → Workspace → Prop
  | touch (w : Workspace) (h : Handle) (t : Touch) (ht : P t) : Move P w (w.update h t.apply)
  /-- A new buffer for a file is listed. -/
  | enter (w : Workspace) (path : Text) :
    Move P w (w.enter (load w.store path))
  /-- A buffer that was closed is taken from the list. -/
  | remove (w : Workspace) (h : Handle) (hclosed : h < w.known.length → (w.buffer h).closed = true) :
    Move P w (w.remove h)
  /-- Files change, or what is known of the buffers opened late. -/
  | note (w : Workspace) (store : FileStore) (latePins : Option (List Handle)) :
    Move P w { w with store, latePins }

abbrev Moves (P : Touch → Prop) : Workspace → Workspace → Prop := ReflTransGen (Move P)

variable {P Q : Touch → Prop} {w w' : Workspace}

theorem Move.mono (hPQ : ∀ t, P t → Q t) (m : Move P w w') : Move Q w w' := by
  cases m with
  | touch h t ht => exact .touch w h t (hPQ t ht)
  | enter path => exact .enter w path
  | remove h hclosed => exact .remove w h hclosed
  | note store latePins => exact .note w store latePins

theorem Moves.mono (hPQ : ∀ t, P t → Q t) (h : Moves P w w') : Moves Q w w' := by
  induction h with
  | refl => exact .refl
  | tail _ m ih => exact ih.tail (m.mono hPQ)

/-- What an update makes of the buffer it is for is all that counts. -/
theorem update_congr (w : Workspace) {h : Handle} {f g : Buffer → Buffer}
    (hfg : f (w.buffer h) = g (w.buffer h)) : w.update h f = w.update h g := by
  have hknown : w.known.modify h f = w.known.modify h g := by
    apply List.ext_getElem?
    intro k
    rw [List.getElem?_modify, List.getElem?_modify]
    cases hb : w.known[k]? with
    | none => rfl
    | some b =>
      by_cases hkh : h = k
      · have hwb : w.buffer h = b := by
          rw [buffer, List.getD_eq_getElem?_getD, hkh, hb, Option.getD_some]
        simp only [hkh, if_pos, Functor.map, Option.map_some, ← hwb]
        rw [← hkh, hfg]
      · simp only [if_neg hkh]
  rw [update, update, hknown]

/-! ## What moves keep -/

theorem buffer_update_of_ne (w : Workspace) {h k : Handle} (f : Buffer → Buffer) (hkh : k ≠ h) :
    (w.update h f).buffer k = w.buffer k := by
  rw [buffer, buffer, update, List.getD_eq_getElem?_getD, List.getElem?_modify_ne f _ hkh.symm,
    ← List.getD_eq_getElem?_getD]

theorem Move.length_le (m : Move P w w') : w.known.length ≤ w'.known.length := by
  cases m with
  | touch h t ht => exact Nat.le_of_eq (w.length_known_update h t.apply).symm
  | enter path => simp
  | remove h => exact Nat.le_refl _
  | note store latePins => exact Nat.le_refl _

theorem Moves.length_le (h : Moves P w w') : w.known.length ≤ w'.known.length := by
  induction h with
  | refl => exact Nat.le_refl _
  | tail _ m ih => exact Nat.le_trans ih m.length_le

/-- Only a new buffer comes to be listed. -/
theorem Move.listed (m : Move P w w') {k : Handle} (hk : k ∈ w'.listed) :
    k ∈ w.listed ∨ w.known.length ≤ k ∧ k < w'.known.length := by
  cases m with
  | touch h t ht => exact .inl hk
  | enter path =>
    rcases List.mem_append.mp hk with hk | hk
    · exact .inl hk
    · obtain rfl := List.mem_singleton.mp hk
      exact .inr ⟨Nat.le_refl _,by simp⟩
  | remove h => exact .inl (List.mem_filter.mp hk).1
  | note store latePins => exact .inl hk

theorem Moves.listed (h : Moves P w w') {k : Handle} (hk : k ∈ w'.listed) :
    k ∈ w.listed ∨ w.known.length ≤ k ∧ k < w'.known.length := by
  induction h with
  | refl => exact .inl hk
  | tail hs m ih =>
    rcases m.listed hk with hk | ⟨hle,hlt⟩
    · exact (ih hk).imp_right fun hnew => ⟨hnew.1,Nat.lt_of_lt_of_le hnew.2 m.length_le⟩
    · exact .inr ⟨Nat.le_trans (Moves.length_le hs) hle,hlt⟩

/-- A known buffer is touched at most. -/
theorem Move.touched (m : Move P w w') {k : Handle} (hk : k < w.known.length) :
    Buffer.Touched P (w.buffer k) (w'.buffer k) := by
  cases m with
  | touch h t ht =>
    by_cases hkh : k = h
    · subst hkh
      rw [buffer_update w k t.apply hk, if_pos rfl]
      exact .single ht _
    · rw [buffer_update_of_ne w t.apply hkh]
      exact .refl _
  | enter path =>
    rw [buffer_enter, if_neg (Nat.ne_of_lt hk)]
    exact .refl _
  | remove h => exact .refl _
  | note store latePins => exact .refl _

theorem Moves.touched (h : Moves P w w') {k : Handle} (hk : k < w.known.length) :
    Buffer.Touched P (w.buffer k) (w'.buffer k) := by
  induction h with
  | refl => exact .refl _
  | tail hs m ih => exact ih.trans (m.touched (Nat.lt_of_lt_of_le hk (Moves.length_le hs)))

/-- A new buffer was loaded from a file, or from none, and touched at most since. -/
theorem Moves.opened (h : Moves P w w') {k : Handle} (hle : w.known.length ≤ k)
    (hlt : k < w'.known.length) :
    ∃ store path, Buffer.Touched P (load store path) (w'.buffer k) := by
  induction h with
  | refl => exact absurd hlt (Nat.not_lt.mpr hle)
  | @tail v v' hs m ih =>
    by_cases hv : k < v.known.length
    · obtain ⟨store,path,ht⟩ := ih hv
      exact ⟨store,path,ht.trans (m.touched hv)⟩
    · cases m with
      | touch h t ht => exact absurd (by simpa using hlt) hv
      | remove h => exact absurd hlt hv
      | note store latePins => exact absurd hlt hv
      | enter path =>
        refine ⟨v.store,path,?_⟩
        rw [length_known_enter] at hlt
        have hk : k = v.known.length := Nat.le_antisymm (Nat.le_of_lt_succ hlt) (Nat.not_lt.mp hv)
        rw [buffer_enter, if_pos hk]
        exact .refl _

/-- An update makes something of the buffer at a handle, if the handle is known. -/
theorem buffer_update_cases (w : Workspace) (h k : Handle) (f : Buffer → Buffer) :
    (w.update h f).buffer k = w.buffer k ∨ (w.update h f).buffer k = f (w.buffer k) := by
  by_cases hkh : k = h
  · subst hkh
    by_cases hk : k < w.known.length
    · exact .inr ((buffer_update w k f hk).trans (if_pos rfl))
    · have hle : w.known.length ≤ k := Nat.not_lt.mp hk
      left
      rw [buffer_of_unknown hle, buffer_of_unknown (by rwa [length_known_update])]
  · exact .inl (buffer_update_of_ne w f hkh)

/-- What becomes of the buffer at a handle, known or not. -/
theorem Move.buffer_cases (m : Move P w w') (k : Handle) :
    w'.buffer k = w.buffer k ∨ (∃ t, P t ∧ w'.buffer k = t.apply (w.buffer k)) ∨
      w.buffer k = default ∧ ∃ store path, w'.buffer k = load store path := by
  cases m with
  | touch h t ht => exact (buffer_update_cases w h k t.apply).imp_right fun hb => .inl ⟨t,ht,hb⟩
  | remove h => exact .inl rfl
  | note store latePins => exact .inl rfl
  | enter path =>
    rw [buffer_enter]
    split
    · rename_i hk
      exact .inr (.inr ⟨buffer_of_unknown (Nat.le_of_eq hk.symm),w.store,path,rfl⟩)
    · exact .inl rfl

/-- What touches keep and loading can only bring about is kept at every handle. -/
theorem Moves.preserves {I : Buffer → Prop} (hP : ∀ t, P t → ∀ b, I b → I (t.apply b))
    (hload : ∀ store path, I default → I (load store path)) (h : Moves P w w') {k : Handle}
    (hk : I (w.buffer k)) : I (w'.buffer k) := by
  induction h with
  | refl => exact hk
  | tail _ m ih =>
    rcases m.buffer_cases k with hb | ⟨t,ht,hb⟩ | ⟨hdefault,store,path,hb⟩ <;> rw [hb]
    · exact ih
    · exact hP t ht _ ih
    · exact hload store path (hdefault ▸ ih)

/-- A known buffer that is listed stays so until it is closed. -/
theorem Moves.listed_or_closed (h : Moves P w w') (hclosed : ∀ t, P t → ∀ b : Buffer,
    b.closed = true → (t.apply b).closed = true) {k : Handle}
    (hk : k ∈ w.listed ∨ w.known.length ≤ k) (hlt : k < w'.known.length) :
    k ∈ w'.listed ∨ (w'.buffer k).closed = true := by
  induction h with
  | refl => exact hk.imp_right fun hle => absurd hlt (Nat.not_lt.mpr hle)
  | @tail v v' hs m ih =>
    cases m with
    | touch h t ht =>
      rw [length_known_update] at hlt
      refine (ih hlt).imp_right fun hv => ?_
      rcases buffer_update_cases v h k t.apply with hb | hb <;> rw [hb]
      · exact hv
      · exact hclosed t ht _ hv
    | enter path =>
      by_cases hv : k < v.known.length
      · refine (ih hv).imp (List.mem_append_left _) fun hb => ?_
        rwa [buffer_enter, if_neg (Nat.ne_of_lt hv)]
      · rw [length_known_enter] at hlt
        exact .inl (List.mem_append_right _ (List.mem_singleton.mpr (Nat.le_antisymm
          (Nat.le_of_lt_succ hlt) (Nat.not_lt.mp hv))))
    | remove h hremoved =>
      by_cases hkh : k = h
      · exact .inr (hkh ▸ hremoved (hkh ▸ hlt))
      · exact (ih hlt).imp_left fun hv => List.mem_filter.mpr ⟨hv,by simp [hkh]⟩
    | note store latePins => exact ih hlt

/-! ## Operations made of moves -/

theorem moves_foldl {f : Workspace → Handle → Workspace} (hf : ∀ w h, Moves P w (f w h))
    (hs : List Handle) (w : Workspace) : Moves P w (hs.foldl f w) := by
  induction hs generalizing w with
  | nil => exact .refl
  | cons h rest ih => exact (hf w h).trans (ih (f w h))

section
variable [Touch.Gentle P]

theorem moves_pin (w : Workspace) (h : Handle) : Moves P w (w.pin h) :=
  .single (.touch w h (.pin 1) (Touch.Gentle.of_still trivial id))

theorem moves_openFile (w : Workspace) (path : Text) :
    Moves P w (w.openFile path).2 := by
  unfold openFile
  split
  · exact .refl
  · have henter := ReflTransGen.single (Move.enter (P := P) w path)
    simp only [add, introduce, list]
    split
    · exact henter
    · exact (henter.trans (moves_pin _ _)).tail (.note _ _ _)

theorem moves_close (w : Workspace) (h : Handle) : Moves P w (w.close h) := by
  have hclosed := ReflTransGen.single (Move.touch (P := P) w h .close (Touch.Gentle.of_still trivial id))
  simp only [close]
  split
  · refine hclosed.tail (.remove _ h fun hh => ?_)
    rw [length_known_update] at hh
    exact congrArg Buffer.closed ((w.buffer_update h _ hh).trans (if_pos rfl))
  · exact hclosed

theorem moves_unpin (w : Workspace) (h : Handle) : Moves P w (w.unpin h) := by
  have hunpinned := ReflTransGen.single (Move.touch (P := P) w h (.pin (-1)) (Touch.Gentle.of_still trivial id))
  simp only [unpin]
  split
  · rename_i hunused
    exact hunpinned.tail (.remove _ h fun _ => hunused.2)
  · exact hunpinned

theorem moves_hold (w : Workspace) (hs : List Handle) : Moves P w (w.hold hs) :=
  (moves_foldl moves_pin hs w).tail (.note _ _ _)

theorem moves_release (w : Workspace) (hs : List Handle) :
    Moves P w (w.release hs) :=
  (ReflTransGen.single (.note w w.store none)).trans (moves_foldl moves_unpin _ _)

end

/-! ## Updates of all listed buffers -/

section
variable (f : Buffer → Buffer) (hs : List Handle) (w : Workspace)

theorem listed_foldl_update : (hs.foldl (fun w h => w.update h f) w).listed = w.listed := by
  induction hs generalizing w with
  | nil => rfl
  | cons h rest ih => rw [List.foldl_cons, ih, listed_update]

theorem length_known_foldl_update :
    (hs.foldl (fun w h => w.update h f) w).known.length = w.known.length := by
  induction hs generalizing w with
  | nil => rfl
  | cons h rest ih => rw [List.foldl_cons, ih, length_known_update]

/-- Where an update repeated is the same as made once, it is made of each buffer in the list. -/
theorem buffer_foldl_update (hf : ∀ b, f (f b) = f b) {k : Handle} (hk : k < w.known.length) :
    (hs.foldl (fun w h => w.update h f) w).buffer k =
      if k ∈ hs then f (w.buffer k) else w.buffer k := by
  induction hs generalizing w with
  | nil => rfl
  | cons h rest ih =>
    rw [List.foldl_cons, ih (w.update h f) (by rwa [length_known_update])]
    by_cases hkh : k = h
    · subst hkh
      rw [buffer_update w k f hk, if_pos rfl, hf, ite_self, if_pos List.mem_cons_self]
    · rw [buffer_update_of_ne w f hkh]
      simp only [List.mem_cons, hkh, false_or]

end

/-- Such an update changes nothing but buffers. -/
theorem updateListed_eq (f : Buffer → Buffer) (w : Workspace) :
    ∃ known, w.updateListed f = { w with known } := by
  have hfold (hs : List Handle) (v : Workspace) :
      ∃ known, hs.foldl (fun w h => w.update h f) v = { v with known } := by
    induction hs generalizing v with
    | nil => exact ⟨v.known,rfl⟩
    | cons h rest ih => exact ih (v.update h f)
  exact hfold w.listed w

/-- One workspace has the handles of another, and the same ones listed. -/
structure SameHandles (w w' : Workspace) : Prop where
  listed : w'.listed = w.listed
  length : w'.known.length = w.known.length

theorem SameHandles.refl (w : Workspace) : w.SameHandles w := ⟨rfl,rfl⟩

theorem sameHandles_updateListed (f : Buffer → Buffer) (w : Workspace) :
    w.SameHandles (w.updateListed f) :=
  ⟨listed_foldl_update f w.listed w,length_known_foldl_update f w.listed w⟩

theorem buffer_updateListed {f : Buffer → Buffer} (hf : ∀ b, f (f b) = f b) (w : Workspace)
    {k : Handle} (hk : k < w.known.length) :
    (w.updateListed f).buffer k = if k ∈ w.listed then f (w.buffer k) else w.buffer k :=
  buffer_foldl_update f w.listed w hf hk

end Workspace

end StructuralEdit
