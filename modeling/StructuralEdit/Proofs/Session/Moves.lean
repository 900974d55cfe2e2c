import StructuralEdit.Proofs.Session.Execution

/-! # What a part of a command does to a session

A part of a command moves the workspace as a command at work may, whether it succeeds
or fails, and leaves alone the number of the command and how patterns are searched for.
But for undoing, none changes a text or a timeline: changes are recorded, and left to the
commit.
-/
namespace StructuralEdit

/-- One session comes from another by moves of the workspace under one command number. -/
structure Session.Reaches (P : Touch → Prop) (s t : Session) : Prop where
  moves : Workspace.Moves P s.workspace t.workspace
  seq : t.seq = s.seq
  patterns : t.patterns.Alike s.patterns

/-- A run only makes moves whose touches are of some kind. -/
def Run.Within {α : Type} (P : Touch → Prop) (x : Run α) : Prop :=
  ∀ s : Session, s.Reaches P (x.final s)

/-- A run leaves all changes of a text to the commit. -/
abbrev Run.Defers {α : Type} (x : Run α) : Prop := x.Within Touch.Deferred

variable {P Q : Touch → Prop}

theorem Touch.Filing.still {t : Touch} (ht : t.Filing) : t.Still := by
  cases t with
  | rename | markClean | markDirty => trivial
  | dot | record | travel | read | know | pin | close => exact ht.elim

theorem Touch.Filing.not_learning {t : Touch} (ht : t.Filing) : ¬ t.Learning := by
  cases t with
  | read | know => exact ht.elim
  | dot | record | travel | rename | markClean | markDirty | pin | close => exact id

namespace Session
variable {s t u : Session}

theorem Reaches.refl (s : Session) : s.Reaches P s := ⟨.refl,rfl,.refl _⟩

theorem Reaches.trans (h : s.Reaches P t) (h' : t.Reaches P u) : s.Reaches P u :=
  ⟨h.moves.trans h'.moves,h'.seq.trans h.seq,h'.patterns.trans h.patterns⟩

theorem Reaches.mono (hPQ : ∀ t, P t → Q t) (h : s.Reaches P t) : s.Reaches Q t :=
  ⟨h.moves.mono hPQ,h.seq,h.patterns⟩

theorem Reaches.touch {t : Touch} (ht : P t) (s : Session) (h : Handle) : s.Reaches P (s.touch h t) :=
  ⟨.single (.touch s.workspace h t ht),rfl,.refl _⟩

/-! ## Which steps are such moves -/

instance : Quiet (Reaches P) where
  refl := .refl
  trans := .trans
  note _ _ _ _ _ halike := ⟨.refl,rfl,halike⟩

instance : Programs (Reaches P) where
  program s store _ := ⟨.single (.note s.workspace store _),rfl,.refl _⟩

section
variable [Touch.Gentle P]

instance : Records (Reaches P) where
  record s h c := .touch (t := .record c) (Touch.Gentle.of_still trivial id) s h

instance : Files (Reaches P) where
  filing s h _ ht := .touch (Touch.Gentle.of_still ht.still ht.not_learning) s h

instance : Closes (Reaches P) where
  close s h := ⟨s.workspace.moves_close h,rfl,.refl _⟩
  switch _ _ _ _ := ⟨.refl,rfl,.refl _⟩

instance : Opens (Reaches P) where
  openFile s path := ⟨s.workspace.moves_openFile path,rfl,.refl _⟩

instance : Loops (Reaches P) where
  range h := ⟨h.moves,h.seq,h.patterns⟩
  buffers {s t hs} _ _ h := by
    have hbody := h.moves.trans (t.workspace.moves_release hs)
    exact ⟨(s.workspace.moves_hold hs).trans hbody,h.seq,h.patterns⟩

end

section
variable [Touch.Learns P]

instance : Reads (Reaches P) where
  read s h time := .touch (t := .read time) (Touch.Learns.of_learning trivial) s h

instance : Writes (Reaches P) where
  write s _ _ store _ := ⟨.single (.note s.workspace store _),rfl,.refl _⟩
  know s h time := .touch (t := .know time) (Touch.Learns.of_learning trivial) s h

end

instance : Dots (Reaches Touch.Deferred) where
  dot s h r := .touch (t := .dot r) trivial s h

instance : Dots (Reaches Touch.Any) where
  dot s h r := .touch (t := .dot r) trivial s h

instance : Undoes (Reaches Touch.Any) where
  travel s h steps := .touch (t := .travel steps) trivial s h

instance : Deeds (Reaches Touch.Deferred) where

instance : Deeds (Reaches Touch.Any) where

end Session

namespace Run
variable {α : Type} {x : Run α}

theorem Within.mono (hx : x.Within P) (hPQ : ∀ t, P t → Q t) : x.Within Q :=
  fun s => (hx s).mono hPQ

theorem within_modifyWorkspace {f : Workspace → Workspace} (hf : ∀ w, Workspace.Moves P w (f w)) :
    (modifyWorkspace f).Within P := fun s => ⟨hf s.workspace,rfl,.refl _⟩

/-- What leaves alone the workspace, the command number and the patterns. -/
theorem within_aside {f : Session → Session} (hw : ∀ s, (f s).workspace = s.workspace)
    (hs : ∀ s, (f s).seq = s.seq) (hp : ∀ s, (f s).patterns = s.patterns) :
    (modify f : Run Unit).Within P := by
  intro s
  refine ⟨?_,hs s,by rw [show (modify f : Run Unit).final s = f s from rfl, hp]; exact .refl _⟩
  rw [show (modify f : Run Unit).final s = f s from rfl, hw]

/-- A command without undo, however it is built, leaves all changes of a text to the commit. -/
theorem defers_execute (h : Option Handle) (c : Cmd) (hu : c.undoes = false) :
    (execute h c).Defers :=
  follows_execute h c fun hc => absurd hc (by simp [hu])

end Run

end StructuralEdit
