import StructuralEdit.Proofs.Workspace.Moves

/-! # Pins

A loop over buffers pins them while it is at work, and with them whatever is opened in it. A
pinned buffer that is closed stays listed until its last pin is taken. Here the pins are counted
against a list of the buffers held, in which a buffer stands once for each of its pins.
-/
namespace StructuralEdit.Workspace
variable {w w' : Workspace} {rest : Handle → Int} {held hs : List Handle} {j k : Handle}

/-- A listed buffer that is not closed. -/
def Opens (w : Workspace) (k : Handle) : Prop := k ∈ w.listed ∧ (w.buffer k).closed = false

/-- Every buffer has the pins it has at rest, a listed one none, and one for each time it is held.
What is held is listed. -/
structure Counted (rest : Handle → Int) (held : List Handle) (w : Workspace) : Prop where
  known : ∀ k ∈ w.listed, k < w.known.length
  pins : ∀ k, (w.buffer k).pins = rest k + held.count k
  none : ∀ k ∈ w.listed, rest k = 0
  listed : ∀ k ∈ held, k ∈ w.listed

/-- Pins are counted, and what is listed and closed is held. -/
structure Pinned (rest : Handle → Int) (held : List Handle) (w : Workspace) : Prop extends
    w.Counted rest held where
  closed : ∀ k ∈ w.listed, (w.buffer k).closed = true → k ∈ held

theorem Pinned.perm {held' : List Handle} (h : w.Pinned rest held) (hperm : held.Perm held') :
    w.Pinned rest held' where
  known := h.known
  pins k := by rw [h.pins k, hperm.count_eq]
  none := h.none
  listed k hk := h.listed k (hperm.mem_iff.mpr hk)
  closed k hk hclosed := hperm.mem_iff.mp (h.closed k hk hclosed)

theorem Counted.count (h : w.Counted rest held) (hk : k ∈ w.listed) :
    (w.buffer k).pins = held.count k := by rw [h.pins k, h.none k hk, Int.zero_add]

/-- Where nothing is held, all listed buffers are open and have no pins. -/
theorem Pinned.opens (h : w.Pinned rest []) (hk : k ∈ w.listed) :
    w.Opens k ∧ (w.buffer k).pins = 0 := by
  refine ⟨⟨hk,?_⟩,h.count hk⟩
  cases hc : (w.buffer k).closed with
  | false => rfl
  | true => exact absurd (h.closed k hk hc) List.not_mem_nil

/-! ## What leaves pins alone -/

/-- The same buffers are known and listed, with the same pins, and the same ones are closed. -/
structure SamePins (w w' : Workspace) : Prop where
  handles : w.SameHandles w'
  pins : ∀ k, (w'.buffer k).pins = (w.buffer k).pins
  closed : ∀ k, (w'.buffer k).closed = (w.buffer k).closed

theorem SamePins.refl (w : Workspace) : w.SamePins w := ⟨.refl w,fun _ => rfl,fun _ => rfl⟩

theorem SamePins.trans {w'' : Workspace} (h : w.SamePins w') (h' : w'.SamePins w'') :
    w.SamePins w'' where
  handles := ⟨h'.handles.listed.trans h.handles.listed,h'.handles.length.trans h.handles.length⟩
  pins k := (h'.pins k).trans (h.pins k)
  closed k := (h'.closed k).trans (h.closed k)

theorem samePins_update (w : Workspace) {f : Buffer → Buffer}
    (hpins : (f (w.buffer j)).pins = (w.buffer j).pins)
    (hclosed : (f (w.buffer j)).closed = (w.buffer j).closed) : w.SamePins (w.update j f) := by
  have hsame (k : Handle) : ((w.update j f).buffer k).pins = (w.buffer k).pins ∧
      ((w.update j f).buffer k).closed = (w.buffer k).closed := by
    by_cases hkj : k = j
    · rcases buffer_update_cases w j k f with hb | hb <;> rw [hb]
      · exact ⟨rfl,rfl⟩
      · exact hkj ▸ ⟨hpins,hclosed⟩
    · rw [buffer_update_of_ne w f hkj]
      exact ⟨rfl,rfl⟩
  exact ⟨⟨rfl,w.length_known_update j f⟩,fun k => (hsame k).1,fun k => (hsame k).2⟩

theorem samePins_updateListed (w : Workspace) {f : Buffer → Buffer} (hf : ∀ b : Buffer, b.SameStatus (f b)) :
    w.SamePins (w.updateListed f) := by
  have hfold (js : List Handle) (v : Workspace) : v.SamePins (js.foldl (fun w h => w.update h f) v) := by
    induction js generalizing v with
    | nil => exact .refl v
    | cons j more ih => exact (v.samePins_update (hf _).pins (hf _).closed).trans (ih _)
  exact hfold w.listed w

theorem Counted.congr (h : w.Counted rest held) (hhandles : w.SameHandles w')
    (hpins : ∀ k, (w'.buffer k).pins = (w.buffer k).pins) : w'.Counted rest held where
  known k hk := by
    rw [hhandles.length]
    exact h.known k (hhandles.listed ▸ hk)
  pins k := by rw [hpins k, h.pins k]
  none k hk := h.none k (hhandles.listed ▸ hk)
  listed k hk := hhandles.listed ▸ h.listed k hk

theorem Pinned.congr (h : w.Pinned rest held) (hsame : w.SamePins w') : w'.Pinned rest held where
  toCounted := h.toCounted.congr hsame.handles hsame.pins
  closed k hk hclosed := h.closed k (hsame.handles.listed ▸ hk) (hsame.closed k ▸ hclosed)

theorem Opens.congr (h : w.Opens k) (hsame : w.SamePins w') : w'.Opens k :=
  ⟨hsame.handles.listed ▸ h.1,(hsame.closed k).trans h.2⟩

/-! ## Holding and releasing -/

section
variable (w : Workspace) (j : Handle) (n : Int)

theorem pins_update_pins (hj : j < w.known.length) (k : Handle) :
    ((w.update j fun b => { b with pins := b.pins + n }).buffer k).pins =
      (w.buffer k).pins + if k = j then n else 0 := by
  rw [w.buffer_update k _ hj]
  split
  · rename_i hkj
    rw [hkj]
  · rw [Int.add_zero]

theorem closed_update_pins (k : Handle) :
    ((w.update j fun b => { b with pins := b.pins + n }).buffer k).closed = (w.buffer k).closed := by
  rcases buffer_update_cases w j k fun b => { b with pins := b.pins + n } with hb | hb <;> rw [hb]

end

theorem count_cons_eq (j k : Handle) (held : List Handle) :
    ((j :: held).count k : Int) = held.count k + if k = j then 1 else 0 := by
  rw [List.count_cons, Int.natCast_add]
  by_cases hkj : k = j
  · simp [hkj]
  · simp [hkj, Ne.symm hkj]

theorem Pinned.pin (h : w.Pinned rest held) (hj : j ∈ w.listed) :
    (w.pin j).Pinned rest (j :: held) where
  known k hk := by
    rw [Workspace.pin, length_known_update]
    exact h.known k hk
  pins k := by
    rw [Workspace.pin, pins_update_pins w j 1 (h.known j hj), h.pins k, count_cons_eq, Int.add_assoc]
  none := h.none
  listed k hk := by
    rcases List.mem_cons.mp hk with rfl | hk
    · exact hj
    · exact h.listed k hk
  closed k hk hclosed := by
    rw [Workspace.pin, closed_update_pins] at hclosed
    exact List.mem_cons_of_mem _ (h.closed k hk hclosed)

theorem Pinned.foldl_pin (h : w.Pinned rest held) (hlisted : ∀ k ∈ hs, k ∈ w.listed) :
    (hs.foldl Workspace.pin w).Pinned rest (held ++ hs) := by
  induction hs generalizing w held with
  | nil => exact h.perm (by simp)
  | cons j more ih =>
    obtain ⟨hj,hmore⟩ := List.forall_mem_cons.mp hlisted
    exact (ih (h.pin hj) hmore).perm (by simpa using List.perm_middle.symm)

theorem Pinned.hold (h : w.Pinned rest held) (hlisted : ∀ k ∈ hs, k ∈ w.listed) :
    (w.hold hs).Pinned rest (held ++ hs) :=
  (h.foldl_pin hlisted).congr ⟨⟨rfl,rfl⟩,fun _ => rfl,fun _ => rfl⟩

/-- A buffer is removed that may be closed and is not held; else all that is closed is held. -/
theorem Counted.pinned_drop (h : w.Counted rest held) {c : Prop} [Decidable c] (hdrop : c → j ∉ held)
    (hkeep : ¬ c → j ∈ w.listed → (w.buffer j).closed = true → j ∈ held)
    (hothers : ∀ k ∈ w.listed, k ≠ j → (w.buffer k).closed = true → k ∈ held) :
    (if c then w.remove j else w).Pinned rest held := by
  split
  · rename_i hc
    have hmem (k : Handle) : k ∈ (w.remove j).listed ↔ k ∈ w.listed ∧ k ≠ j := by
      simp [Workspace.remove]
    refine ⟨⟨fun k hk => ?_,h.pins,fun k hk => ?_,fun k hk => ?_⟩,fun k hk hclosed => ?_⟩
    · exact h.known k ((hmem k).mp hk).1
    · exact h.none k ((hmem k).mp hk).1
    · exact (hmem k).mpr ⟨h.listed k hk,fun hkj => hdrop hc (hkj ▸ hk)⟩
    · obtain ⟨hlisted,hkj⟩ := (hmem k).mp hk
      exact hothers k hlisted hkj hclosed
  · rename_i hc
    refine ⟨h,fun k hk hclosed => ?_⟩
    by_cases hkj : k = j
    · subst hkj
      exact hkeep hc hk hclosed
    · exact hothers k hk hkj hclosed

theorem Pinned.unpin (h : w.Pinned rest (j :: held)) : (w.unpin j).Pinned rest held := by
  have hj := h.listed j List.mem_cons_self
  have hclosed (k : Handle) : ((w.update j fun b => { b with pins := b.pins - 1 }).buffer k).closed =
      (w.buffer k).closed := closed_update_pins w j (-1) k
  have hcounted : (w.update j fun b => { b with pins := b.pins - 1 }).Counted rest held := by
    refine ⟨fun k hk => ?_,fun k => ?_,h.none,fun k hk => h.listed k (List.mem_cons_of_mem _ hk)⟩
    · rw [length_known_update]
      exact h.known k hk
    · have hk := pins_update_pins w j (-1) (h.known j hj) k
      rw [h.pins k, count_cons_eq] at hk
      refine hk.trans ?_
      split <;> omega
  have hcount := hcounted.count hj
  refine hcounted.pinned_drop (fun hc hheld => ?_) (fun hc _ hj' => ?_) fun k hk hkj hk' => ?_
  · have hpos := List.count_pos_iff.mpr hheld
    omega
  · have hpos : 0 < held.count j := by
      simp only [hj', and_true, Int.not_le] at hc
      omega
    exact List.count_pos_iff.mp hpos
  · rw [hclosed] at hk'
    exact (List.mem_cons.mp (h.closed k hk hk')).resolve_left hkj

theorem Pinned.foldl_unpin (h : w.Pinned rest (hs ++ held)) :
    (hs.foldl Workspace.unpin w).Pinned rest held := by
  induction hs generalizing w with
  | nil => exact h
  | cons j more ih => exact ih h.unpin

/-- What a loop held, and what was opened in it, is released. -/
theorem Pinned.release {late : List Handle} (h : w.Pinned rest (held ++ hs ++ late))
    (hlate : w.latePins = some late) : (w.release hs).Pinned rest held := by
  have hnone : ({ w with latePins := Option.none } : Workspace).Pinned rest (hs ++ late ++ held) := by
    refine (h.perm ?_).congr ⟨⟨rfl,rfl⟩,fun _ => rfl,fun _ => rfl⟩
    rw [List.append_assoc]
    exact List.perm_append_comm
  rw [Workspace.release, hlate, Option.getD_some]
  exact hnone.foldl_unpin

/-! ## Closing and opening -/

theorem Pinned.close (h : w.Pinned rest held) (j : Handle) : (w.close j).Pinned rest held := by
  let v := w.update j fun b => { b with closed := true }
  have hpins (k : Handle) : (v.buffer k).pins = (w.buffer k).pins := by
    rcases buffer_update_cases w j k fun b => { b with closed := true } with hb | hb <;> simp only [v, hb]
  have hcounted : v.Counted rest held := h.toCounted.congr ⟨rfl,w.length_known_update j _⟩ hpins
  change (if (v.buffer j).pins = 0 then v.remove j else v).Pinned rest held
  refine hcounted.pinned_drop (fun hc hheld => ?_) (fun hc hj _ => ?_) fun k hk hkj hk' => ?_
  · have hpos := List.count_pos_iff.mpr hheld
    have hcount := hcounted.count (hcounted.listed j hheld)
    omega
  · have hcount := hcounted.count hj
    exact List.count_pos_iff.mp (by omega)
  · rw [buffer_update_of_ne _ _ hkj] at hk'
    exact h.closed k hk hk'

theorem Pinned.enter (h : w.Pinned rest held) {b : Buffer} (hpins : b.pins = 0)
    (hclosed : b.closed = false) : (w.enter b).Pinned rest held := by
  have hnew : w.known.length ∉ held := fun hk => Nat.lt_irrefl _ (h.known _ (h.listed _ hk))
  have hrest : rest w.known.length = 0 := by
    have hpins := h.pins w.known.length
    rw [buffer_of_unknown (Nat.le_refl _), List.count_eq_zero.mpr hnew, Int.natCast_zero, Int.add_zero] at hpins
    exact hpins.symm
  have hmem (k : Handle) : k ∈ (w.enter b).listed ↔ k ∈ w.listed ∨ k = w.known.length := by
    simp [Workspace.enter]
  have hold {k : Handle} (hk : k ∈ w.listed) : k ≠ w.known.length := Nat.ne_of_lt (h.known k hk)
  refine ⟨⟨fun k hk => ?_,fun k => ?_,fun k hk => ?_,fun k hk => ?_⟩,fun k hk hk' => ?_⟩
  · rw [length_known_enter]
    rcases (hmem k).mp hk with hk | rfl
    · exact Nat.lt_succ_of_lt (h.known k hk)
    · exact Nat.lt_succ_self _
  · rw [buffer_enter]
    split
    · rename_i hk
      rw [hk, hpins, hrest, List.count_eq_zero.mpr hnew]
      rfl
    · exact h.pins k
  · rcases (hmem k).mp hk with hk | rfl
    · exact h.none k hk
    · exact hrest
  · exact (hmem k).mpr (.inl (h.listed k hk))
  · rw [buffer_enter] at hk'
    rcases (hmem k).mp hk with hk | rfl
    · rw [if_neg (hold hk)] at hk'
      exact h.closed k hk hk'
    · rw [if_pos rfl, hclosed] at hk'
      cases hk'

theorem load_pins (store : FileStore) (path : Text) :
    (load store path).pins = 0 ∧ (load store path).closed = false := by
  unfold load
  split <;> exact ⟨rfl,rfl⟩

/-- A buffer that is opened is pinned if buffers are held, and is then to be released with them. -/
theorem Pinned.openFile (h : w.Pinned rest held) (path : Text) :
    ∃ more, (w.openFile path).2.Pinned rest (held ++ more) ∧
      (w.openFile path).2.latePins = w.latePins.map (· ++ more) ∧
      (w.latePins = .none → more = []) := by
  obtain ⟨hpins,hclosed⟩ := load_pins w.store path
  have hentered := h.enter hpins hclosed
  unfold Workspace.openFile
  split
  · refine ⟨[],by rwa [List.append_nil],?_,fun _ => rfl⟩
    cases w.latePins <;> simp
  · rw [add_eq]
    cases hlate : w.latePins with
    | none => exact ⟨[],by rwa [List.append_nil],hlate,fun _ => rfl⟩
    | some late =>
      refine ⟨[w.known.length],?_,rfl,fun hn => by cases hn⟩
      have hpinned := hentered.pin (List.mem_append_right _ List.mem_cons_self)
      have hperm : (w.known.length :: held).Perm (held ++ [w.known.length]) := by
        rw [← List.singleton_append]
        exact List.perm_append_comm
      exact (hpinned.perm hperm).congr ⟨⟨rfl,rfl⟩,fun _ => rfl,fun _ => rfl⟩

theorem latePins_close (w : Workspace) (j : Handle) : (w.close j).latePins = w.latePins := by
  simp only [Workspace.close]
  split <;> rfl

theorem latePins_unpin (w : Workspace) (j : Handle) : (w.unpin j).latePins = w.latePins := by
  simp only [Workspace.unpin]
  split <;> rfl

theorem latePins_release (w : Workspace) (hs : List Handle) : (w.release hs).latePins = none := by
  have hfold (js : List Handle) (v : Workspace) : (js.foldl Workspace.unpin v).latePins = v.latePins := by
    induction js generalizing v with
    | nil => rfl
    | cons j more ih => exact (ih (v.unpin j)).trans (v.latePins_unpin j)
  exact hfold _ _

/-! ## What stays open -/

theorem Opens.pin (h : w.Opens k) (j : Handle) : (w.pin j).Opens k :=
  ⟨h.1,(closed_update_pins w j 1 k).trans h.2⟩

theorem Opens.hold (h : w.Opens k) (hs : List Handle) : (w.hold hs).Opens k := by
  have hpinned : (hs.foldl Workspace.pin w).Opens k := by
    induction hs generalizing w with
    | nil => exact h
    | cons j more ih => exact ih (h.pin j)
  exact ⟨hpinned.1,hpinned.2⟩

theorem Opens.unpin (h : w.Opens k) (j : Handle) : (w.unpin j).Opens k := by
  have hopens : (w.update j fun b => { b with pins := b.pins - 1 }).Opens k :=
    ⟨h.1,(closed_update_pins w j (-1) k).trans h.2⟩
  simp only [Workspace.unpin]
  split
  · rename_i hc
    refine ⟨?_,hopens.2⟩
    have hkj : k ≠ j := by
      rintro rfl
      rw [hopens.2] at hc
      exact absurd hc.2 (by decide)
    simpa [remove, hkj] using h.1
  · exact hopens

theorem Opens.release (h : w.Opens k) (hs : List Handle) : (w.release hs).Opens k := by
  have hfold (js : List Handle) {v : Workspace} (hv : v.Opens k) : (js.foldl Workspace.unpin v).Opens k := by
    induction js generalizing v with
    | nil => exact hv
    | cons j more ih => exact ih (hv.unpin j)
  exact hfold _ ⟨h.1,h.2⟩

theorem Opens.close (h : w.Opens k) (hkj : k ≠ j) : (w.close j).Opens k := by
  have hclosed : (w.update j fun b => { b with closed := true }).Opens k :=
    ⟨h.1,by rw [buffer_update_of_ne _ _ hkj]; exact h.2⟩
  simp only [Workspace.close]
  split
  · exact ⟨by simpa [remove, hkj] using h.1,hclosed.2⟩
  · exact hclosed

theorem Opens.openFile (h : w.Opens k) (hk : k < w.known.length) (path : Text) :
    (w.openFile path).2.Opens k := by
  have hentered : (w.enter (load w.store path)).Opens k := by
    refine ⟨List.mem_append_left _ h.1,?_⟩
    rw [buffer_enter, if_neg (Nat.ne_of_lt hk)]
    exact h.2
  unfold Workspace.openFile
  split
  · exact h
  · rw [add_eq]
    split
    · exact hentered
    · obtain ⟨hlisted,hclosed⟩ := hentered.pin w.known.length
      exact ⟨hlisted,hclosed⟩

theorem opens_of_lookup {name : Text} (h : w.lookup name = some k) : w.Opens k := by
  have hfound := List.find?_some h
  refine ⟨List.mem_of_find?_eq_some h,?_⟩
  simpa using (Bool.and_eq_true_iff.mp hfound).2

end StructuralEdit.Workspace
