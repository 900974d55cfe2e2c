import StructuralEdit.Buffer.Basic
import StructuralEdit.Files.Store
import StructuralEdit.Text.Decoding

/-! # Workspaces

A workspace lists the open buffers in order. A buffer that a loop has pinned stays
listed when it is closed, until its last pin is taken; buffers opened while a loop
runs are pinned by it too.
-/
namespace StructuralEdit

/-- Names a buffer for as long as the workspace lives. -/
abbrev Handle := Nat

structure Workspace where
  /-- Every buffer there ever was, by its handle. -/
  known : List Buffer := []
  listed : List Handle := []
  /-- The buffers opened since pins were last set, while they are. -/
  latePins : Option (List Handle) := none
  /-- A command is at work. -/
  locked : Bool := false
  directory : Text := []
  store : FileStore := {}

namespace Workspace

def buffer (w : Workspace) (h : Handle) : Buffer := w.known.getD h default

def update (w : Workspace) (h : Handle) (f : Buffer → Buffer) : Workspace :=
  { w with known := w.known.modify h f }

@[simp] theorem listed_update (w : Workspace) (h : Handle) (f : Buffer → Buffer) :
    (w.update h f).listed = w.listed := rfl

@[simp] theorem length_known_update (w : Workspace) (h : Handle) (f : Buffer → Buffer) :
    (w.update h f).known.length = w.known.length := by simp [update]

theorem buffer_update (w : Workspace) {h : Handle} (k : Handle) (f : Buffer → Buffer)
    (hk : h < w.known.length) :
    (w.update h f).buffer k = if k = h then f (w.buffer h) else w.buffer k := by
  by_cases hkh : k = h
  · subst hkh
    simp [buffer, update, List.getD_eq_getElem?_getD, hk]
  · simp [buffer, update, List.getD_eq_getElem?_getD, Ne.symm hkh, hkh]

/-- Make a buffer known without listing it. -/
def introduce (w : Workspace) (b : Buffer) : Handle × Workspace :=
  (w.known.length, { w with known := w.known ++ [b] })

def pin (w : Workspace) (h : Handle) : Workspace :=
  w.update h fun b => { b with pins := b.pins + 1 }

/-- List a buffer, pinned if pins are set. -/
def list (w : Workspace) (h : Handle) : Workspace :=
  let w := { w with listed := w.listed ++ [h] }
  match w.latePins with
  | none => w
  | some late => { w.pin h with latePins := some (late ++ [h]) }

def add (w : Workspace) (b : Buffer) : Handle × Workspace :=
  let (h, w) := w.introduce b
  (h, w.list h)

/-- The first listed buffer of a name that is not closed. -/
def lookup (w : Workspace) (name : Text) : Option Handle :=
  w.listed.find? fun h => (w.buffer h).name == name && !(w.buffer h).closed

/-- A buffer for a file, empty if there is no such file. -/
def load (store : FileStore) (path : Text) : Buffer :=
  match store.place path with
  | .file f =>
    { name := path, text := Text.plainNewlines (Text.decode f.content), diskTime := some f.time }
  | _ => { name := path }

/-- The buffer of a name, loaded from its file if none is listed. -/
def openFile (w : Workspace) (path : Text) : Handle × Workspace :=
  match w.lookup path with
  | some h => (h, w)
  | none => w.add (load w.store path)

def remove (w : Workspace) (h : Handle) : Workspace :=
  { w with listed := w.listed.filter (· != h) }

def close (w : Workspace) (h : Handle) : Workspace :=
  let w := w.update h fun b => { b with closed := true }
  if (w.buffer h).pins = 0 then w.remove h else w

def unpin (w : Workspace) (h : Handle) : Workspace :=
  let w := w.update h fun b => { b with pins := b.pins - 1 }
  if (w.buffer h).pins ≤ 0 ∧ (w.buffer h).closed then w.remove h else w

/-- Pin buffers and, from now on, those that are opened. -/
def hold (w : Workspace) (hs : List Handle) : Workspace :=
  { hs.foldl pin w with latePins := some [] }

/-- Take back the pins on buffers held and on those opened since. -/
def release (w : Workspace) (hs : List Handle) : Workspace :=
  let late := w.latePins.getD []
  (hs ++ late).foldl unpin { w with latePins := none }

def updateListed (w : Workspace) (f : Buffer → Buffer) : Workspace :=
  w.listed.foldl (fun w h => w.update h f) w

/-- Drop the pending changes of every listed buffer. -/
def rollback (w : Workspace) : Workspace := w.updateListed Buffer.rollback

/-- The directory of a buffer's file, empty if the buffer has no name. -/
def directoryOf (w : Workspace) (b : Buffer) : Text :=
  if b.name.isEmpty then []
  else if w.store.isDirectory b.name then b.name
  else Path.directory b.name

end Workspace

end StructuralEdit
