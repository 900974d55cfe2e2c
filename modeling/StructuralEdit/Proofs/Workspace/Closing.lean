import StructuralEdit.Proofs.Workspace.Pins

/-! # Closing with pins

A workspace is used from outside: buffers are listed, opened, closed and looked up, and a block may
pin some of them for as long as it lasts. What is closed while it is pinned leaves the list with its
last pin. Nothing else leaves it, and what has left it does not come back by being pinned.
-/
namespace StructuralEdit.Workspace

/-- What a workspace is used for. -/
inductive Operation
  /-- A buffer comes to be, in no list yet. -/
  | make (b : Buffer)
  | add (h : Handle)
  | openFile (path : Text)
  | close (h : Handle)
  | lookup (name : Text)
  /-- A block begins, which pins buffers, each as often as it is named. -/
  | enter (hs : List Handle)
  | leave
  /-- The files change. -/
  | files (store : FileStore)

/-- The buffers that are pinned by name. -/
def Operation.pinned : Operation → List Handle
  | enter hs => hs
  | _ => []

/-- A workspace, and what the block under way has pinned, if there is one. -/
structure Stage where
  workspace : Workspace
  block : Option (List Handle) := none

namespace Stage

def after (s : Stage) : Operation → Stage
  | .make b => { s with workspace := (s.workspace.introduce b).2 }
  | .add h => { s with workspace := s.workspace.list h }
  | .openFile path => { s with workspace := (s.workspace.openFile path).2 }
  | .close h => { s with workspace := s.workspace.close h }
  | .lookup _ => s
  | .enter hs => { workspace := s.workspace.hold hs, block := some hs }
  | .leave => { workspace := s.workspace.release (s.block.getD []), block := none }
  | .files store => { s with workspace := { s.workspace with store } }

/-- Only known buffers are named, a new one has no pins, and blocks are not nested. -/
def Allows (s : Stage) : Operation → Prop
  | .make b => b.pins = 0
  | .add h | .close h => h < s.workspace.known.length
  | .enter hs => s.block = none ∧ ∀ h ∈ hs, h < s.workspace.known.length
  | .leave => s.block.isSome
  | .openFile _ | .lookup _ | .files _ => True

instance (s : Stage) : (op : Operation) → Decidable (s.Allows op)
  | .make b => inferInstanceAs (Decidable (b.pins = 0))
  | .add h | .close h => inferInstanceAs (Decidable (h < s.workspace.known.length))
  | .enter hs => inferInstanceAs (Decidable (s.block = none ∧ ∀ h ∈ hs, h < s.workspace.known.length))
  | .leave => inferInstanceAs (Decidable (s.block.isSome = true))
  | .openFile _ | .lookup _ | .files _ => .isTrue trivial

def run (s : Stage) (ops : List Operation) : Stage := ops.foldl after s

def Permits (s : Stage) : List Operation → Prop
  | [] => True
  | op :: more => s.Allows op ∧ (s.after op).Permits more

instance decidablePermits : (ops : List Operation) → (s : Stage) → Decidable (s.Permits ops)
  | [], _ => .isTrue trivial
  | op :: more, s =>
    have := decidablePermits more (s.after op)
    inferInstanceAs (Decidable (s.Allows op ∧ (s.after op).Permits more))

/-- The buffers that an operation lists. -/
def adds (s : Stage) : Operation → List Handle
  | .add h => [h]
  | .openFile path => if (s.workspace.lookup path).isNone then [s.workspace.known.length] else []
  | _ => []

/-- The buffers that are listed in a run, in order. -/
def added (s : Stage) : List Operation → List Handle
  | [] => []
  | op :: more => s.adds op ++ (s.after op).added more

/-- The buffers that are pinned, by the block or for having been listed in it, once for each pin. -/
def held (s : Stage) : List Handle := s.block.getD [] ++ s.workspace.latePins.getD []

/-- Pins are those of the block under way, and of what was listed since it began. -/
structure Tidy (s : Stage) : Prop where
  listed : ∀ k ∈ s.workspace.listed, k < s.workspace.known.length
  held : ∀ k ∈ s.held, k < s.workspace.known.length
  pins : ∀ k, (s.workspace.buffer k).pins = s.held.count k
  late : s.workspace.latePins.isSome = s.block.isSome

end Stage

/-- Nothing is pinned. -/
structure Idle (w : Workspace) : Prop where
  listed : ∀ k ∈ w.listed, k < w.known.length
  pins : ∀ k, (w.buffer k).pins = 0
  late : w.latePins = none

/-- A buffer has not been closed or still has a pin. -/
def Keeps (w : Workspace) (k : Handle) : Prop := (w.buffer k).closed = false ∨ 0 < (w.buffer k).pins

variable {w w' w'' : Workspace} {s : Stage} {new new' hs : List Handle} {j k : Handle} {op : Operation}

theorem Idle.tidy (h : w.Idle) : Stage.Tidy { workspace := w } where
  listed := h.listed
  held k hk := by
    rw [Stage.held, h.late] at hk
    cases hk
  pins k := by
    rw [Stage.held, h.late]
    exact h.pins k
  late := by rw [h.late]

/-! ## What happens to the list -/

/-- Some buffers are put at the end of the list. Of the others only those leave it that are closed and have
no pins, and those come to have some only by being pinned. -/
structure Relists (new pinned : List Handle) (w w' : Workspace) : Prop where
  length : w.known.length ≤ w'.known.length
  order : ∃ stay, w'.listed = stay ++ new ∧ stay.Sublist w.listed
  keeps : ∀ k ∈ w.listed, k ∉ new → w.Keeps k → (k ∈ w'.listed ↔ w'.Keeps k)
  kept : ∀ k < w.known.length, k ∉ new → k ∉ pinned → w'.Keeps k → w.Keeps k

theorem Relists.of_same (hknown : w'.known = w.known) (hlisted : w'.listed = w.listed) :
    Relists [] hs w w' where
  length := Nat.le_of_eq (congrArg List.length hknown.symm)
  order := ⟨w.listed,hlisted.trans (List.append_nil _).symm,.refl _⟩
  keeps k hk _ hkeeps := by
    refine iff_of_true (hlisted ▸ hk) ?_
    rwa [Keeps, buffer, hknown]
  kept k _ _ _ hkeeps := by rwa [Keeps, buffer, hknown] at hkeeps

theorem buffer_introduce (w : Workspace) (b : Buffer) (hk : k < w.known.length) :
    (w.introduce b).2.buffer k = w.buffer k :=
  (buffer_enter w b k).trans (if_neg (Nat.ne_of_lt hk))

theorem list_of_none (h : w.latePins = none) (j : Handle) :
    w.list j = { w with listed := w.listed ++ [j] } := by simp only [list, h]

theorem list_of_some {late : List Handle} (h : w.latePins = some late) (j : Handle) :
    w.list j = { ({ w with listed := w.listed ++ [j] } : Workspace).pin j with latePins := some (late ++ [j]) } := by
  simp only [list, h]

theorem closed_list (w : Workspace) (j k : Handle) :
    ((w.list j).buffer k).closed = (w.buffer k).closed := by
  cases hlate : w.latePins with
  | none => rw [list_of_none hlate]; rfl
  | some late =>
    rw [list_of_some hlate]
    exact closed_update_pins { w with listed := w.listed ++ [j] } j 1 k

theorem pins_list (w : Workspace) (hj : j < w.known.length) (k : Handle) :
    ((w.list j).buffer k).pins = (w.buffer k).pins + if w.latePins.isSome ∧ k = j then 1 else 0 := by
  cases hlate : w.latePins with
  | none => rw [list_of_none hlate]; simp [buffer]
  | some late =>
    rw [list_of_some hlate]
    simp only [Option.isSome_some, true_and]
    exact pins_update_pins { w with listed := w.listed ++ [j] } j 1 hj k

theorem list_same (w : Workspace) (j : Handle) : (w.list j).listed = w.listed ++ [j] ∧
    (w.list j).known.length = w.known.length ∧ (w.list j).latePins = w.latePins.map (· ++ [j]) := by
  cases hlate : w.latePins with
  | none => rw [list_of_none hlate]; exact ⟨rfl,rfl,hlate⟩
  | some late => rw [list_of_some hlate]; exact ⟨rfl,length_known_update _ j _,rfl⟩

/-- A file that is opened anew is loaded and then listed. -/
theorem openFile_of_lookup {path : Text} (h : w.lookup path = none) :
    (w.openFile path).2 = (w.introduce (load w.store path)).2.list w.known.length := by
  rw [openFile, h]
  rfl

theorem openFile_of_found {path : Text} (h : w.lookup path = some k) : (w.openFile path).2 = w := by
  rw [openFile, h]

/-! ## Pinning and taking pins back -/

section
variable (w)

theorem foldl_pin_pins (hknown : ∀ j ∈ hs, j < w.known.length) (k : Handle) :
    ((hs.foldl pin w).buffer k).pins = (w.buffer k).pins + hs.count k := by
  induction hs generalizing w with
  | nil => simp
  | cons j more ih =>
    obtain ⟨hj,hmore⟩ := List.forall_mem_cons.mp hknown
    have hmore' : ∀ i ∈ more, i < (w.pin j).known.length := fun i hi => by
      rw [pin, length_known_update]
      exact hmore i hi
    rw [List.foldl_cons, ih (w.pin j) hmore', pin, pins_update_pins w j 1 hj, count_cons_eq]
    omega

theorem foldl_pin_same (hs : List Handle) : (hs.foldl pin w).listed = w.listed ∧
    (hs.foldl pin w).known.length = w.known.length ∧
    ∀ k, ((hs.foldl pin w).buffer k).closed = (w.buffer k).closed := by
  induction hs generalizing w with
  | nil => exact ⟨rfl,rfl,fun _ => rfl⟩
  | cons j more ih =>
    obtain ⟨hlisted,hlength,hclosed⟩ := ih (w.pin j)
    exact ⟨hlisted,hlength.trans (w.length_known_update j _),
      fun k => (hclosed k).trans (closed_update_pins w j 1 k)⟩

end

/-- Where the pins are those to be taken back, none is left, and what is listed and open stays listed. -/
structure Unpinned (hs : List Handle) (w w' : Workspace) : Prop where
  order : w'.listed.Sublist w.listed
  listed : ∀ k, k ∈ w'.listed ↔ k ∈ w.listed ∧ (k ∈ hs → (w.buffer k).closed = false)
  pins : ∀ k, (w'.buffer k).pins = 0
  closed : ∀ k, (w'.buffer k).closed = (w.buffer k).closed
  length : w'.known.length = w.known.length

theorem mem_unpin (w : Workspace) (hj : j < w.known.length) (k : Handle) : k ∈ (w.unpin j).listed ↔
    k ∈ w.listed ∧ (k = j → (w.buffer j).pins ≤ 1 → (w.buffer j).closed = false) := by
  simp only [unpin, buffer_update w j _ hj, if_pos]
  split
  · rename_i hc
    have hpins : (w.buffer j).pins ≤ 1 := by omega
    simp [remove, hpins, hc.2]
  · rename_i hc
    refine ⟨fun hk => ⟨hk,fun _ hpins => ?_⟩,fun hk => hk.1⟩
    simpa using fun hclosed => hc ⟨by omega,hclosed⟩

theorem buffer_unpin (w : Workspace) (j k : Handle) :
    (w.unpin j).buffer k = (w.update j fun b => { b with pins := b.pins - 1 }).buffer k := by
  simp only [unpin]
  split <;> rfl

theorem foldl_unpin (hs : List Handle) (w : Workspace) (hknown : ∀ k ∈ hs, k < w.known.length)
    (hpins : ∀ k, (w.buffer k).pins = hs.count k) : Unpinned hs w (hs.foldl unpin w) := by
  induction hs generalizing w with
  | nil => exact ⟨.refl _,fun k => by simp,fun k => by simpa using hpins k,fun _ => rfl,rfl⟩
  | cons j more ih =>
    obtain ⟨hj,hmore⟩ := List.forall_mem_cons.mp hknown
    have hlength : (w.unpin j).known.length = w.known.length := by
      simp only [unpin]
      split <;> exact w.length_known_update j _
    have hclosed (k : Handle) : ((w.unpin j).buffer k).closed = (w.buffer k).closed := by
      rw [buffer_unpin]
      exact closed_update_pins w j (-1) k
    have hleft (k : Handle) : ((w.unpin j).buffer k).pins = more.count k := by
      have hk := pins_update_pins w j (-1) hj k
      rw [hpins k, count_cons_eq] at hk
      rw [buffer_unpin]
      refine hk.trans ?_
      split <;> omega
    have hrest := ih (w.unpin j) (fun k hk => hlength ▸ hmore k hk) hleft
    have hsub : (w.unpin j).listed.Sublist w.listed := by
      simp only [unpin]
      split
      · exact List.filter_sublist
      · exact .refl _
    refine ⟨hrest.order.trans hsub,fun k => ?_,hrest.pins,
      fun k => (hrest.closed k).trans (hclosed k),hrest.length.trans hlength⟩
    rw [List.foldl_cons, hrest.listed k, hclosed k, mem_unpin w hj, hpins j, List.mem_cons, and_assoc]
    refine and_congr_right fun _ => ⟨?_,?_⟩
    · -- it is taken off with its last pin, now or later
      rintro ⟨hnow,hlater⟩ (rfl | hk)
      · by_cases hk : k ∈ more
        · exact hlater hk
        · exact hnow rfl (by simp [List.count_eq_zero.mpr hk])
      · exact hlater hk
    · intro hopen
      exact ⟨fun hkj _ => hkj ▸ hopen (.inl hkj),fun hk => hopen (.inr hk)⟩

/-! ## What an operation does -/

theorem buffer_close (w : Workspace) (hj : j < w.known.length) (k : Handle) :
    (w.close j).buffer k = if k = j then { w.buffer j with closed := true } else w.buffer k := by
  rw [← buffer_update w k (fun b => { b with closed := true }) hj]
  simp only [close]
  split <;> rfl

theorem mem_close (w : Workspace) (hj : j < w.known.length) (k : Handle) :
    k ∈ (w.close j).listed ↔ k ∈ w.listed ∧ (k = j → (w.buffer j).pins ≠ 0) := by
  simp only [close, buffer_update w j _ hj, if_pos]
  split
  · rename_i hc
    simp [remove, hc]
  · rename_i hc
    exact ⟨fun hk => ⟨hk,fun _ => hc⟩,fun hk => hk.1⟩

theorem close_same (w : Workspace) (j : Handle) : (w.close j).listed.Sublist w.listed ∧
    (w.close j).known.length = w.known.length := by
  simp only [close]
  split
  · exact ⟨List.filter_sublist,w.length_known_update j _⟩
  · exact ⟨.refl _,w.length_known_update j _⟩

theorem relists_introduce (hlisted : ∀ k ∈ w.listed, k < w.known.length) (b : Buffer) :
    Relists [] hs w (w.introduce b).2 where
  length := by simp [introduce]
  order := ⟨w.listed,(List.append_nil _).symm,.refl _⟩
  keeps k hk _ hkeeps := by
    refine iff_of_true hk ?_
    rw [Keeps, buffer_introduce w b (hlisted k hk)]
    exact hkeeps
  kept k hk _ _ hkeeps := by rwa [Keeps, buffer_introduce w b hk] at hkeeps

theorem relists_list (w : Workspace) (hj : j < w.known.length) : Relists [j] hs w (w.list j) where
  length := Nat.le_of_eq (w.list_same j).2.1.symm
  order := ⟨w.listed,(w.list_same j).1,.refl _⟩
  keeps k hk hkj hkeeps := by
    refine iff_of_true ((w.list_same j).1 ▸ List.mem_append_left _ hk) ?_
    have hother : k ≠ j := fun h => hkj (List.mem_singleton.mpr h)
    rwa [Keeps, closed_list, pins_list w hj, if_neg fun h => hother h.2, Int.add_zero]
  kept k _ hkj _ hkeeps := by
    have hother : k ≠ j := fun h => hkj (List.mem_singleton.mpr h)
    rwa [Keeps, closed_list, pins_list w hj, if_neg fun h => hother h.2, Int.add_zero] at hkeeps

theorem relists_add (hlisted : ∀ k ∈ w.listed, k < w.known.length) (b : Buffer) :
    Relists [w.known.length] hs w (w.add b).2 := by
  have hmade : Relists [] hs w (w.introduce b).2 := relists_introduce hlisted b
  have hlist : Relists [w.known.length] hs (w.introduce b).2 (w.add b).2 :=
    relists_list _ (by simp [introduce])
  refine ⟨Nat.le_trans hmade.length hlist.length,hlist.order,fun k hk hnew hkeeps => ?_,
    fun k hk hnew hpinned hkeeps => ?_⟩
  · exact hlist.keeps k hk hnew ((hmade.keeps k hk List.not_mem_nil hkeeps).mp hk)
  · exact hmade.kept k hk List.not_mem_nil hpinned
      (hlist.kept k (Nat.lt_of_lt_of_le hk hmade.length) hnew hpinned hkeeps)

theorem relists_close (hj : j < w.known.length) (hpins : ∀ k, 0 ≤ (w.buffer k).pins) :
    Relists [] hs w (w.close j) where
  length := Nat.le_of_eq (w.close_same j).2.symm
  order := ⟨(w.close j).listed,(List.append_nil _).symm,(w.close_same j).1⟩
  keeps k hk _ hkeeps := by
    rw [mem_close w hj, Keeps, buffer_close w hj]
    by_cases hkj : k = j
    · have hle := hpins j
      rw [if_pos hkj]
      constructor
      · rintro ⟨-,hne⟩
        exact .inr (Int.lt_iff_le_and_ne.mpr ⟨hle,(hne hkj).symm⟩)
      · rintro (hopen | hpos)
        · cases hopen
        · exact ⟨hk,fun _ => (Int.ne_of_gt hpos)⟩
    · rw [if_neg hkj]
      exact iff_of_true ⟨hk,fun h => absurd h hkj⟩ hkeeps
  kept k _ _ _ hkeeps := by
    rw [Keeps, buffer_close w hj] at hkeeps
    split at hkeeps
    · rename_i hkj
      exact .inr (hkj ▸ hkeeps.resolve_left Bool.noConfusion)
    · exact hkeeps

theorem relists_hold (hknown : ∀ j ∈ hs, j < w.known.length) : Relists [] hs w (w.hold hs) where
  length := Nat.le_of_eq (w.foldl_pin_same hs).2.1.symm
  order := ⟨w.listed,(w.foldl_pin_same hs).1.trans (List.append_nil _).symm,.refl _⟩
  keeps k hk _ hkeeps := by
    refine iff_of_true ((w.foldl_pin_same hs).1 ▸ hk) ?_
    change (hs.foldl pin w).Keeps k
    rw [Keeps, (w.foldl_pin_same hs).2.2, foldl_pin_pins w hknown]
    exact hkeeps.imp_right fun hpos => by omega
  kept k _ _ hkpin hkeeps := by
    change (hs.foldl pin w).Keeps k at hkeeps
    rwa [Keeps, (w.foldl_pin_same hs).2.2, foldl_pin_pins w hknown, List.count_eq_zero.mpr hkpin,
      Int.natCast_zero, Int.add_zero] at hkeeps

theorem Unpinned.relists (h : Unpinned hs w w') (hpins : ∀ k, (w.buffer k).pins = hs.count k) :
    Relists [] new w w' where
  length := Nat.le_of_eq h.length.symm
  order := ⟨w'.listed,(List.append_nil _).symm,h.order⟩
  keeps k hk _ hkeeps := by
    rw [h.listed k, Keeps, h.closed k, h.pins k]
    constructor
    · rintro ⟨-,hopen⟩
      left
      by_cases hkh : k ∈ hs
      · exact hopen hkh
      · rw [Keeps, hpins k, List.count_eq_zero.mpr hkh] at hkeeps
        exact hkeeps.resolve_right (by decide)
    · rintro (hopen | hpos)
      · exact ⟨hk,fun _ => hopen⟩
      · exact absurd hpos (by decide)
  kept k _ _ _ hkeeps := by
    rw [Keeps, h.closed k, h.pins k] at hkeeps
    exact .inl (hkeeps.resolve_right (by decide))

namespace Stage

theorem Tidy.nonneg (h : s.Tidy) (k : Handle) : 0 ≤ (s.workspace.buffer k).pins := by
  rw [h.pins k]
  exact Int.natCast_nonneg _

theorem Tidy.make (h : s.Tidy) {b : Buffer} (hpins : b.pins = 0) : (s.after (.make b)).Tidy where
  listed k hk := Nat.lt_of_lt_of_le (h.listed k hk) (by simp [after, introduce])
  held k hk := Nat.lt_of_lt_of_le (h.held k hk) (by simp [after, introduce])
  pins k := by
    change ((s.workspace.enter b).buffer k).pins = s.held.count k
    rw [buffer_enter]
    split
    · rename_i hk
      have hnew : k ∉ s.held := fun hheld => Nat.ne_of_lt (h.held k hheld) hk
      rw [hpins, List.count_eq_zero.mpr hnew]
      rfl
    · exact h.pins k
  late := h.late

theorem held_add (s : Stage) (j : Handle) :
    (s.after (.add j)).held = s.held ++ if s.workspace.latePins.isSome then [j] else [] := by
  change s.block.getD [] ++ (s.workspace.list j).latePins.getD [] = _
  rw [(s.workspace.list_same j).2.2, held]
  cases s.workspace.latePins <;> simp

theorem Tidy.add (h : s.Tidy) (hj : j < s.workspace.known.length) : (s.after (.add j)).Tidy where
  listed k hk := by
    change k ∈ (s.workspace.list j).listed at hk
    rw [(s.workspace.list_same j).1, List.mem_append, List.mem_singleton] at hk
    change k < (s.workspace.list j).known.length
    rw [(s.workspace.list_same j).2.1]
    rcases hk with hk | rfl
    · exact h.listed k hk
    · exact hj
  held k hk := by
    change k < (s.workspace.list j).known.length
    rw [(s.workspace.list_same j).2.1]
    rw [held_add, List.mem_append] at hk
    rcases hk with hk | hk
    · exact h.held k hk
    · split at hk
      · exact List.mem_singleton.mp hk ▸ hj
      · cases hk
  pins k := by
    rw [held_add, List.count_append, Int.natCast_add, ← h.pins k]
    refine (pins_list s.workspace hj k).trans ?_
    cases s.workspace.latePins with
    | none => simp
    | some late => by_cases hkj : k = j <;> simp [hkj, Ne.symm]
  late := by
    change (s.workspace.list j).latePins.isSome = s.block.isSome
    rw [(s.workspace.list_same j).2.2, Option.isSome_map, h.late]

theorem Tidy.close (h : s.Tidy) (hj : j < s.workspace.known.length) : (s.after (.close j)).Tidy where
  listed k hk := by
    change k < (s.workspace.close j).known.length
    rw [(s.workspace.close_same j).2]
    exact h.listed k ((s.workspace.close_same j).1.subset hk)
  held k hk := by
    rw [Stage.held, Stage.after, latePins_close] at hk
    change k < (s.workspace.close j).known.length
    rw [(s.workspace.close_same j).2]
    exact h.held k hk
  pins k := by
    rw [Stage.held, Stage.after, latePins_close, buffer_close s.workspace hj]
    refine Eq.trans ?_ (h.pins k)
    split
    · rename_i hkj
      rw [hkj]
    · rfl
  late := by
    rw [Stage.after, latePins_close]
    exact h.late

theorem Tidy.held_of_none (h : s.Tidy) (hb : s.block = none) : s.held = [] := by
  have hlate := h.late
  rw [hb, Option.isSome_none, Option.isSome_eq_false_iff, Option.isNone_iff_eq_none] at hlate
  rw [Stage.held, hb, hlate]
  rfl

theorem Tidy.enter (h : s.Tidy) (hb : s.block = none) (hknown : ∀ j ∈ hs, j < s.workspace.known.length) :
    (s.after (.enter hs)).Tidy where
  listed k hk := by
    change k ∈ (hs.foldl pin s.workspace).listed at hk
    change k < (hs.foldl pin s.workspace).known.length
    rw [(s.workspace.foldl_pin_same hs).2.1]
    exact h.listed k ((s.workspace.foldl_pin_same hs).1 ▸ hk)
  held k hk := by
    change k < (hs.foldl pin s.workspace).known.length
    rw [(s.workspace.foldl_pin_same hs).2.1]
    exact hknown k ((List.append_nil hs) ▸ hk)
  pins k := by
    change ((hs.foldl pin s.workspace).buffer k).pins = (hs ++ []).count k
    rw [foldl_pin_pins s.workspace hknown, h.pins k, h.held_of_none hb, List.append_nil]
    exact Int.zero_add _
  late := rfl

theorem Tidy.unpinned (h : s.Tidy) :
    Unpinned s.held s.workspace (s.workspace.release (s.block.getD [])) := by
  have hfold := foldl_unpin s.held { s.workspace with latePins := none } h.held h.pins
  exact ⟨hfold.order,hfold.listed,hfold.pins,hfold.closed,hfold.length⟩

theorem Tidy.leave (h : s.Tidy) : (s.after .leave).Tidy := by
  have hheld : (s.after .leave).held = [] := by
    rw [Stage.held, Stage.after, latePins_release]
    rfl
  refine ⟨fun k hk => ?_,fun k hk => ?_,fun k => ?_,?_⟩
  · exact h.unpinned.length ▸ h.listed k (h.unpinned.order.subset hk)
  · rw [hheld] at hk
    cases hk
  · rw [hheld]
    exact h.unpinned.pins k
  · rw [Stage.after, latePins_release]

/-- To open a file is nothing, or to load a buffer and list it. -/
theorem after_openFile (s : Stage) (path : Text) :
    s.after (.openFile path) = s ∧ s.adds (.openFile path) = [] ∨
    s.after (.openFile path) =
        (s.after (.make (load s.workspace.store path))).after (.add s.workspace.known.length) ∧
      s.adds (.openFile path) = [s.workspace.known.length] := by
  cases hl : s.workspace.lookup path with
  | some k => exact .inl ⟨by rw [after, openFile_of_found hl],by simp [adds, hl]⟩
  | none =>
    refine .inr ⟨?_,by simp [adds, hl]⟩
    exact congrArg (fun w => { s with workspace := w }) (openFile_of_lookup hl)

theorem Tidy.after (h : s.Tidy) (hop : s.Allows op) : (s.after op).Tidy := by
  cases op with
  | make b => exact h.make hop
  | add j => exact h.add hop
  | openFile path =>
    rcases s.after_openFile path with ⟨hs,-⟩ | ⟨hs,-⟩ <;> rw [hs]
    · exact h
    · exact (h.make (load_pins _ path).1).add (by simp [Stage.after, introduce])
  | close j => exact h.close hop
  | lookup name => exact h
  | enter hs => exact h.enter hop.1 hop.2
  | leave => exact h.leave
  | files store => exact ⟨h.listed,h.held,h.pins,h.late⟩

theorem Tidy.relists (h : s.Tidy) (hop : s.Allows op) :
    Relists (s.adds op) op.pinned s.workspace (s.after op).workspace := by
  cases op with
  | make b => exact relists_introduce h.listed b
  | add j => exact s.workspace.relists_list hop
  | openFile path =>
    rcases s.after_openFile path with ⟨hs,hadds⟩ | ⟨hs,hadds⟩ <;> rw [hs, hadds]
    · exact .of_same rfl rfl
    · exact relists_add h.listed (load s.workspace.store path)
  | close j => exact relists_close hop h.nonneg
  | lookup name => exact .of_same rfl rfl
  | enter hs => exact relists_hold hop.2
  | leave => exact h.unpinned.relists h.pins
  | files store => exact .of_same rfl rfl

/-! ## Runs -/

theorem permits_append {pre post : List Operation} (h : s.Permits (pre ++ post)) :
    s.Permits pre ∧ (s.run pre).Permits post := by
  induction pre generalizing s with
  | nil => exact ⟨trivial,h⟩
  | cons op more ih =>
    obtain ⟨hmore,hpost⟩ := ih h.2
    exact ⟨⟨h.1,hmore⟩,hpost⟩

variable {ops : List Operation}

theorem Tidy.run (h : s.Tidy) (hops : s.Permits ops) : (s.run ops).Tidy := by
  induction ops generalizing s with
  | nil => exact h
  | cons op more ih => exact ih (h.after hops.1) hops.2

/-- Listed buffers keep their order, and what is listed later follows them. -/
theorem Tidy.order (h : s.Tidy) (hops : s.Permits ops) : ∃ stay new,
    (s.run ops).workspace.listed = stay ++ new ∧ stay.Sublist s.workspace.listed ∧
      new.Sublist (s.added ops) := by
  induction ops generalizing s with
  | nil => exact ⟨s.workspace.listed,[],(List.append_nil _).symm,.refl _,.refl _⟩
  | cons op more ih =>
    obtain ⟨first,hfirst,hstay⟩ := (h.relists hops.1).order
    obtain ⟨stay,new,hlisted,hsub,hnew⟩ := ih (h.after hops.1) hops.2
    rw [hfirst] at hsub
    -- what is left in the end, cut where the first operation has put its buffers
    obtain ⟨a,b,rfl,ha,hb⟩ := List.sublist_append_iff.mp hsub
    exact ⟨a,b ++ new,hlisted.trans (List.append_assoc ..),ha.trans hstay,hb.append hnew⟩

/-- What is not listed is not listed later either, unless it is put there. -/
theorem Tidy.not_listed (h : s.Tidy) (hops : s.Permits ops) (hk : k ∉ s.workspace.listed)
    (hnew : k ∉ s.added ops) : k ∉ (s.run ops).workspace.listed := by
  obtain ⟨stay,new,hlisted,hstay,hsub⟩ := h.order hops
  rw [hlisted, List.mem_append]
  rintro (hmem | hmem)
  · exact hk (hstay.subset hmem)
  · exact hnew (hsub.subset hmem)

/-- A buffer leaves the list the first time it is closed and has no pin. -/
theorem Tidy.listed_iff_kept (h : s.Tidy) (hops : s.Permits ops) (hk : k ∈ s.workspace.listed)
    (hkeeps : s.workspace.Keeps k) (hnew : k ∉ s.added ops) :
    k ∈ (s.run ops).workspace.listed ↔ ∀ m, m <+: ops → (s.run m).workspace.Keeps k := by
  induction ops generalizing s with
  | nil =>
    refine iff_of_true hk fun m hm => ?_
    rw [List.prefix_nil.mp hm]
    exact hkeeps
  | cons op more ih =>
    obtain ⟨hadds,hmore⟩ := not_or.mp (mt List.mem_append.mpr hnew)
    have hlisted := (h.relists hops.1).keeps k hk hadds hkeeps
    by_cases hafter : (s.after op).workspace.Keeps k
    · refine (ih (h.after hops.1) hops.2 (hlisted.mpr hafter) hafter hmore).trans ⟨fun hall m hm => ?_,
        fun hall m hm => hall (op :: m) (List.cons_prefix_cons.mpr ⟨rfl,hm⟩)⟩
      rcases List.prefix_cons_iff.mp hm with rfl | ⟨m',rfl,hm'⟩
      · exact hkeeps
      · exact hall m' hm'
    · -- it leaves with this operation, and nothing brings it back
      have hgone : k ∉ (s.after op).workspace.listed := fun hk' => hafter (hlisted.mp hk')
      refine iff_of_false ((h.after hops.1).not_listed hops.2 hgone hmore) fun hall => hafter ?_
      exact hall [op] (List.cons_prefix_cons.mpr ⟨rfl,List.nil_prefix⟩)

/-- If only listed buffers are pinned, a buffer is listed as long as it is not closed or has a pin. -/
theorem Tidy.listed_iff (h : s.Tidy) (hops : s.Permits ops) (hknown : k < s.workspace.known.length)
    (hk : k ∈ s.workspace.listed ↔ s.workspace.Keeps k) (hnew : k ∉ s.added ops)
    (hpinned : ∀ m op, m ++ [op] <+: ops → k ∈ op.pinned → k ∈ (s.run m).workspace.listed) :
    k ∈ (s.run ops).workspace.listed ↔ (s.run ops).workspace.Keeps k := by
  induction ops generalizing s with
  | nil => exact hk
  | cons op more ih =>
    obtain ⟨hadds,hmore⟩ := not_or.mp (mt List.mem_append.mpr hnew)
    have hstep := h.relists hops.1
    refine ih (h.after hops.1) hops.2 (Nat.lt_of_lt_of_le hknown hstep.length) ?_ hmore fun m op' hm =>
      hpinned (op :: m) op' (List.cons_prefix_cons.mpr ⟨rfl,hm⟩)
    by_cases hlisted : k ∈ s.workspace.listed
    · exact hstep.keeps k hlisted hadds (hk.mp hlisted)
    · -- it is gone, so it is not pinned, and without that it cannot come to be kept
      have hnot : k ∉ op.pinned := fun hmem =>
        hlisted (hpinned [] op (List.cons_prefix_cons.mpr ⟨rfl,List.nil_prefix⟩) hmem)
      refine iff_of_false ?_ fun hkeeps => hlisted (hk.mpr (hstep.kept k hknown hadds hnot hkeeps))
      have hone : s.Permits [op] := ⟨hops.1,trivial⟩
      exact h.not_listed hone hlisted (by simpa [added] using hadds)

end Stage

/-- However a workspace is used, there are as many pins as the block under way took, and none after it; what
is looked up is listed and open; and listed buffers keep their order. A buffer that is listed once, and is
open or pinned then, stays as long as it is not closed or still has a pin. When it has gone a pin does not
bring it back; if none is taken on it then, it is listed just when it is not closed or still has a pin. -/
theorem listed_while_kept (hw : w.Idle) {pre post : List Operation}
    (hops : Stage.Permits { workspace := w } (pre ++ post)) :
    let t := Stage.run { workspace := w } pre
    let u := t.run post
    (∀ k, 0 ≤ (u.workspace.buffer k).pins ∧ (u.workspace.buffer k).pins = u.held.count k ∧
      (u.block = none → (u.workspace.buffer k).pins = 0)) ∧
    (∀ name k, u.workspace.lookup name = some k →
      k ∈ u.workspace.listed ∧ (u.workspace.buffer k).closed = false) ∧
    (∃ stay new, u.workspace.listed = stay ++ new ∧ stay.Sublist t.workspace.listed ∧
      new.Sublist (t.added post)) ∧
    ∀ k ∈ t.workspace.listed, t.workspace.Keeps k → k ∉ t.added post →
      (k ∈ u.workspace.listed ↔ ∀ m, m <+: post → (t.run m).workspace.Keeps k) ∧
      ((∀ m hs, m ++ [.enter hs] <+: post → k ∈ hs → k ∈ (t.run m).workspace.listed) →
        (k ∈ u.workspace.listed ↔
          (u.workspace.buffer k).closed = false ∨ 0 < (u.workspace.buffer k).pins)) := by
  intro t u
  obtain ⟨hpre,hpost⟩ := Stage.permits_append hops
  have ht : t.Tidy := hw.tidy.run hpre
  have hu : u.Tidy := ht.run hpost
  refine ⟨fun k => ⟨hu.nonneg k,hu.pins k,fun hb => ?_⟩,fun name k => opens_of_lookup,ht.order hpost,
    fun k hk hkeeps hnew => ⟨ht.listed_iff_kept hpost hk hkeeps hnew,fun hpinned => ?_⟩⟩
  · rw [hu.pins k, hu.held_of_none hb]
    rfl
  · refine ht.listed_iff hpost (ht.listed k hk) (iff_of_true hk hkeeps) hnew fun m op hm hmem => ?_
    cases op with
    | enter hs => exact hpinned m hs hm hmem
    | _ => cases hmem

/-- A buffer that a block has pinned twice is closed in it, and so is one that was opened in it. Both are
listed until the block ends. -/
theorem listed_until_block_ends :
    let w : Workspace := { known := [{ name := ['a'] }], listed := [0] }
    let t := Stage.run { workspace := w } [.enter [0, 0], .openFile ['b']]
    let u := t.run [.close 0, .close 1]
    let v := t.run [.close 0, .close 1, .leave]
    w.Idle ∧ Stage.Permits { workspace := w } [.enter [0, 0], .openFile ['b'], .close 0, .close 1, .leave] ∧
      (0 ∈ u.workspace.listed ∧ 1 ∈ u.workspace.listed) ∧
      (0 ∉ v.workspace.listed ∧ 1 ∉ v.workspace.listed) ∧ ∀ k, (v.workspace.buffer k).pins = 0 := by
  intro w t u v
  have hw : w.Idle := ⟨by decide,fun k => by cases k <;> rfl,rfl⟩
  have hops : Stage.Permits { workspace := w }
    ([.enter [0, 0], .openFile ['b']] ++ [.close 0, .close 1, .leave]) := by decide
  have hexact (post : List Operation)
      (hpost : Stage.Permits { workspace := w } ([.enter [0, 0], .openFile ['b']] ++ post))
      (hpinned : ∀ op ∈ post, op.pinned = []) (hadded : t.added post = []) :
      ∀ k ∈ t.workspace.listed, t.workspace.Keeps k →
        (k ∈ (t.run post).workspace.listed ↔ (t.run post).workspace.Keeps k) := by
    intro k hk hkeeps
    obtain ⟨-,-,-,hlisted⟩ := listed_while_kept hw hpost
    refine (hlisted k hk hkeeps (by simp [t, hadded])).2 fun m hs hm hmem => ?_
    have hnone : hs = [] := hpinned (.enter hs) (hm.subset (by simp))
    rw [hnone] at hmem
    cases hmem
  have hu := hexact [.close 0, .close 1] (by decide) (by decide) rfl
  have hv := hexact [.close 0, .close 1, .leave] hops (by decide) rfl
  obtain ⟨hpins,-⟩ := listed_while_kept hw hops
  refine ⟨hw,hops,⟨?_,?_⟩,⟨fun h0 => ?_,fun h1 => ?_⟩,fun k => (hpins k).2.2 rfl⟩
  · exact (hu 0 (by decide) (.inl rfl)).mpr (.inr (by decide))
  · exact (hu 1 (by decide) (.inl rfl)).mpr (.inr (by decide))
  · exact absurd ((hv 0 (by decide) (.inl rfl)).mp h0) (by unfold Keeps; decide)
  · exact absurd ((hv 1 (by decide) (.inl rfl)).mp h1) (by unfold Keeps; decide)

/-- A buffer that has been closed and has left the list is not listed for being pinned, and one that was
closed before it is listed stays with no pin. -/
theorem pinned_not_listed :
    let w : Workspace := { known := [{ name := ['a'] }], listed := [0] }
    let ops : List Operation := [.close 0, .enter [0]]
    let u := Stage.run { workspace := w } ops
    let late : List Operation := [.make {}, .close 0, .add 0]
    let v := Stage.run { workspace := {} } late
    (w.Idle ∧ Stage.Permits { workspace := w } ops ∧
      (w.listed ++ Stage.added { workspace := w } ops).count 0 = 1 ∧
      (u.workspace.buffer 0).pins = 1 ∧ 0 ∉ u.workspace.listed) ∧
    Idle {} ∧ Stage.Permits { workspace := {} } late ∧ (Stage.added { workspace := {} } late).count 0 = 1 ∧
      (v.workspace.buffer 0).closed = true ∧ (v.workspace.buffer 0).pins = 0 ∧ 0 ∈ v.workspace.listed := by
  intro w ops u late v
  have hw : w.Idle := ⟨by decide,fun k => by cases k <;> rfl,rfl⟩
  have hv : Idle {} := ⟨by decide,fun k => rfl,rfl⟩
  have hops : Stage.Permits { workspace := w } ops := by decide
  have hlate : Stage.Permits { workspace := {} } late := by decide
  exact ⟨⟨hw,hops,by decide,by decide,by decide⟩,hv,hlate,by decide,by decide,by decide,by decide⟩

end StructuralEdit.Workspace
