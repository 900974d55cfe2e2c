import StructuralEdit.Proofs.Session.FileActions

/-! # The name of the file of a command

Every command for a file looks the name of its file up first. That never fails. It reports names that
are used twice, and it may give the buffer the name, but it does nothing else.
-/
namespace StructuralEdit

/-- The name an argument stands for in a buffer: that of the buffer if there is none, and else one below the
buffer's directory. -/
def Session.fileName (s : Session) (h : Handle) (argument : Text) : Text :=
  let b := s.buffer h
  let stripped := Run.trimPads argument
  let dir := s.workspace.directoryOf b
  if argument.isEmpty then b.name
  else if stripped.isEmpty then []
  else if Path.isAbsolute stripped then stripped
  else Path.normalize (if dir.isEmpty then stripped else Path.join dir stripped)

theorem Session.buffer_congr {s t : Session} (h : t.workspace = s.workspace) (k : Handle) : t.buffer k = s.buffer k :=
  congrArg (fun w => Workspace.buffer w k) h

namespace Run
open Session
variable {α β : Type} {x : Run α} {h : Handle} {argument name : Text} {rename : Bool} {s t : Session}

/-! ## Runs that do not fail -/

/-- A run gives a result in every session. -/
def Total (x : Run α) : Prop := ∀ s, ∃ a t, x s = .ok a t

theorem Total.ne_error (hx : x.Total) {f : Fault} : x s ≠ .error f t := by
  obtain ⟨a,u,h⟩ := hx s
  rw [h]
  nofun

theorem total_pure (a : α) : (pure a : Run α).Total := fun s => ⟨a,s,rfl⟩

theorem total_get : (get : Run Session).Total := fun s => ⟨s,s,rfl⟩

theorem total_modify (f : Session → Session) : (modify f : Run Unit).Total := fun s => ⟨(),f s,rfl⟩

theorem total_bind {f : α → Run β} (hx : x.Total) (hf : ∀ a, (f a).Total) : (x >>= f).Total := by
  intro s
  obtain ⟨a,t,ht⟩ := hx s
  obtain ⟨b,u,hu⟩ := hf a t
  exact ⟨b,u,(bind_of_ok ht).trans hu⟩

theorem total_ite {c : Prop} [Decidable c] {y : Run α} (hx : x.Total) (hy : y.Total) :
    (if c then x else y).Total := by
  split
  · exact hx
  · exact hy

theorem total_forIn {γ : Type} (l : List β) {f : β → γ → Run (ForInStep γ)} (hf : ∀ b c, (f b c).Total)
    (init : γ) : (forIn l init f).Total := by
  induction l generalizing init with
  | nil => exact total_pure init
  | cons b rest ih =>
    rw [List.forIn_cons]
    refine total_bind (hf b init) fun r => ?_
    cases r with
    | done c => exact total_pure c
    | yield c => exact ih c

theorem total_warn (text : Text) : (warn text).Total := total_modify _

theorem total_record (h : Handle) (c : ChangeRequest) : (record h c.record).Total := by
  intro s
  rw [record_eq]
  cases (c.record (s.buffer h).log).2 with
  | none => exact total_pure () _
  | some w => exact total_warn _ _

theorem Follows.of_ok {R : Session → Session → Prop} {a : α} (hx : x.Follows R) (hrun : x s = .ok a t) :
    R s t := by
  have hs := hx s
  rwa [final_of_ok hrun] at hs

/-! ## Names -/

theorem total_pathFrom (home : Option Handle) (name : Text) : (pathFrom home name).Total := by
  unfold pathFrom
  refine total_ite (total_pure _) (total_bind total_get fun s => ?_)
  cases home with
  | none => exact total_pure _
  | some h => exact total_pure _

theorem total_commandName (h : Handle) (argument : Text) (rename : Bool) :
    (commandName h argument rename).Total := by
  unfold commandName
  refine total_bind (total_bind total_get fun _ => total_pure _) fun b => total_ite (total_pure _) ?_
  extract_lets stripped finish
  have hfinish (name : Text) : (finish name).Total := by
    have htake (c : Prop) [Decidable c] : (if c then do
        updateBuffer h fun b => b.rename name
        pure name
      else pure name : Run Text).Total :=
      total_ite (total_bind (total_modify _) fun _ => total_pure _) (total_pure _)
    refine total_ite (total_bind total_get fun s => ?_) (htake _)
    refine total_bind (total_forIn _ (fun other _ => ?_) _) fun _ => htake _
    exact total_ite (total_bind (total_warn _) fun _ => total_pure _) (total_pure _)
  split
  · exact total_bind (total_pure _) hfinish
  · exact total_bind (total_pathFrom _ _) hfinish

theorem pathFrom_ok {path : Text} (hrun : pathFrom (some h) name s = .ok path t) : t = s ∧
    path = if Path.isAbsolute name then name
      else
        let dir := s.workspace.directoryOf (s.buffer h)
        Path.normalize (if dir.isEmpty then name else Path.join dir name) := by
  unfold pathFrom at hrun
  split at hrun
  · rename_i habsolute
    cases hrun
    exact ⟨rfl,(if_pos habsolute).symm⟩
  · rename_i hrelative
    cases hrun
    exact ⟨rfl,(if_neg hrelative).symm⟩

/-- A buffer takes another name than its own if it is to be renamed or has none. -/
theorem commandName_ok (hrun : commandName h argument rename s = .ok name t) : name = s.fileName h argument ∧
    ∃ u, s.Noted u ∧
      t = if name ≠ (s.buffer h).name ∧ (rename = true ∨ (s.buffer h).name = []) then u.touch h (.rename name)
        else u := by
  let own := (s.buffer h).name
  -- how it ends once there is a name, blank or not
  have hrename {c : Bool} {name' : Text} {u : Session} (hname : name' = s.fileName h argument) (hu : s.Noted u)
      (hc : name' ≠ own → (c = true ↔ rename = true ∨ own = []))
      (hrun : (if (c && decide (name' ≠ own)) = true then do
        updateBuffer h fun b => b.rename name'
        pure name'
      else pure name' : Run Text) u = .ok name t) : name = s.fileName h argument ∧
      ∃ u, s.Noted u ∧
        t = if name ≠ own ∧ (rename = true ∨ own = []) then u.touch h (.rename name) else u := by
    split at hrun
    · rename_i hnew
      cases hrun
      obtain ⟨hc',hne⟩ := Bool.and_eq_true_iff.mp hnew
      have hne' := of_decide_eq_true hne
      exact ⟨hname,_,hu,(if_pos ⟨hne',(hc hne').mp hc'⟩).symm⟩
    · rename_i hold
      cases hrun
      refine ⟨hname,_,hu,(if_neg fun hnew => hold ?_).symm⟩
      exact Bool.and_eq_true_iff.mpr ⟨(hc hnew.1).mpr hnew.2,decide_eq_true hnew.1⟩
  obtain ⟨_,_,hget,hrun⟩ := ok_of_bind hrun
  cases hget
  dsimp only at hrun
  split at hrun
  · rename_i hempty
    cases hrun
    exact ⟨(if_pos hempty).symm,s,Quiet.refl s,(if_neg fun hc => hc.1 rfl).symm⟩
  rename_i hempty
  have hgiven : s.fileName h argument = if (trimPads argument).isEmpty then [] else
      if Path.isAbsolute (trimPads argument) then trimPads argument
      else
        let dir := s.workspace.directoryOf (s.buffer h)
        Path.normalize (if dir.isEmpty then trimPads argument else Path.join dir (trimPads argument)) :=
    if_neg hempty
  cases hblank : (trimPads argument).isEmpty with
  | true =>
    simp only [hblank, if_true, Bool.not_true, Bool.false_eq_true, if_false, Bool.false_and, Bool.or_false] at hrun
    refine hrename (hgiven.trans (if_pos hblank)).symm (Quiet.refl s) (fun hne => ?_) hrun
    have hnamed : own ≠ [] := fun h => hne h.symm
    simp [hnamed]
  | false =>
    simp only [hblank, Bool.not_false, if_true, Bool.false_eq_true, if_false, Bool.true_and] at hrun
    obtain ⟨path,u,hpath,hrun⟩ := ok_of_bind hrun
    obtain ⟨rfl,hpath⟩ := pathFrom_ok hpath
    obtain ⟨_,_,hget,hrun⟩ := ok_of_bind hrun
    cases hget
    obtain ⟨_,v,hwarn,hrun⟩ := ok_of_bind hrun
    have hwarned : u.Noted v := by
      refine Follows.of_ok (follows_forIn _ (fun other _ => ?_) _) hwarn
      exact follows_ite (follows_bind (follows_warn _) fun _ => follows_pure _) (follows_pure _)
    refine hrename (hpath.trans (hgiven.trans (by rw [hblank]; rfl)).symm) hwarned (fun _ => ?_) hrun
    simp [own]

/-- Of all that is in buffers, looking a name up changes at most the name of the buffer it is for. -/
theorem buffers_commandName (hrun : commandName h argument rename s = .ok name t) :
    t.workspace.store = s.workspace.store ∧ s.workspace.SameHandles t.workspace ∧
    ∀ j < s.workspace.known.length, t.buffer j =
      if j = h ∧ (rename = true ∨ (s.buffer j).name = []) then (s.buffer j).rename name else s.buffer j := by
  obtain ⟨-,u,hnoted,ht⟩ := commandName_ok hrun
  have hsame (j : Handle) : u.buffer j = s.buffer j := buffer_congr hnoted.workspace j
  have hstore : u.workspace.store = s.workspace.store := by rw [hnoted.workspace]
  have hlisted : u.workspace.listed = s.workspace.listed := by rw [hnoted.workspace]
  have hlength : u.workspace.known.length = s.workspace.known.length := by rw [hnoted.workspace]
  split at ht
  · rename_i hnew
    subst ht
    refine ⟨hstore,⟨hlisted,(length_known_touch u h _).trans hlength⟩,fun j hj => ?_⟩
    by_cases hjh : j = h
    · subst hjh
      rw [if_pos ⟨rfl,hnew.2⟩, buffer_touch u _ (hlength ▸ hj), hsame]
      rfl
    · rw [if_neg fun hc => hjh hc.1, buffer_touch_of_ne u _ hjh, hsame]
  · rename_i hold
    subst ht
    refine ⟨hstore,⟨hlisted,hlength⟩,fun j hj => ?_⟩
    rw [hsame]
    split
    · -- the buffer has the name that it takes
      rename_i htakes
      obtain ⟨rfl,htakes⟩ := htakes
      have hname : name = (s.buffer j).name := Decidable.byContradiction fun hne => hold ⟨hne,htakes⟩
      rw [hname]
      simp [Buffer.rename]
    · rfl

end Run

end StructuralEdit
