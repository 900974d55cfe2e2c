import StructuralEdit.Files.Store

/-! # Files as time goes on

Each time a file is written it gets a time later than all times before. So a file that is not
newer than some time in the past is the one that was there then.
-/
namespace StructuralEdit

deriving instance DecidableEq for Place

namespace FileStore
variable {a b c s t : FileStore} {l : Location} {content : Text.Bytes} {name : Text} {f : StoredFile}

/-- Whatever file a name leads to later on was there, or has been written since. -/
structure Later (a b : FileStore) : Prop where
  clock : a.clock ≤ b.clock
  place : ∀ name f, b.place name = .file f →
    a.place name = .file f ∨ a.clock < f.time ∧ f.time ≤ b.clock

theorem Later.refl (a : FileStore) : a.Later a := ⟨Int.le_refl _,fun _ _ h => .inl h⟩

theorem Later.trans (h : a.Later b) (h' : b.Later c) : a.Later c := by
  refine ⟨Int.le_trans h.clock h'.clock,fun name f hf => ?_⟩
  have hab := h.clock
  have hbc := h'.clock
  rcases h'.place name f hf with hf | ⟨hlt,hle⟩
  · exact (h.place name f hf).imp_right fun hnew => ⟨hnew.1,Int.le_trans hnew.2 hbc⟩
  · exact .inr ⟨Int.lt_of_le_of_lt hab hlt,hle⟩

theorem Later.place_of_le (h : a.Later b) {time : Int} (htime : time ≤ a.clock) (hf : b.place name = .file f)
    (hle : f.time ≤ time) : a.place name = .file f := by
  refine (h.place name f hf).resolve_right fun hnew => ?_
  omega

/-- No time is later than that of the clock. -/
structure Timed (a : FileStore) : Prop where
  file : ∀ name f, a.place name = .file f → f.time ≤ a.clock
  directory : directoryTime ≤ a.clock

theorem Timed.later (ha : a.Timed) (h : a.Later b) : b.Timed where
  file name f hf := by
    rcases h.place name f hf with hf | hnew
    · exact Int.le_trans (ha.file name f hf) h.clock
    · exact hnew.2
  directory := Int.le_trans ha.directory h.clock

theorem Timed.time (ha : a.Timed) {time : Int} (h : a.time? name = some time) : time ≤ a.clock := by
  unfold time? at h
  split at h
  · rename_i f hplace
    cases h
    exact ha.file name f hplace
  · cases h
    exact ha.directory
  · cases h

/-! ## Writing a file -/

/-- What a name leads to at a location where there is no directory: the file that stands there, if the
name ends there. -/
def ending (found : Option StoredFile) (there : Location) : List Text → Place
  | [] => match found with
    | some f => .file f
    | none => .vacant there
  | _ :: _ => .nowhere (if found.isSome then .notDirectory else .missing)

/-- Two stores have the same directories, and let go into the same ones. -/
structure SameTree (s t : FileStore) : Prop where
  directories : t.directories = s.directories
  closed : t.closed = s.closed

theorem SameTree.refl (s : FileStore) : s.SameTree s := ⟨rfl,rfl⟩

theorem sameTree_put (s : FileStore) (l : Location) (content : Text.Bytes) : s.SameTree (s.put l content) :=
  ⟨rfl,rfl⟩

/-- The first part of a name leads to a directory, or to where there is none, or nowhere, the same
in all stores of the same directories. -/
theorem follow_cons_cases (s : FileStore) (here : Location) (part : Text) (rest : List Text) :
    (∃ next, ∀ t, s.SameTree t → t.follow here (part :: rest) = t.follow next rest) ∨
    (∃ there, ∀ t, s.SameTree t → t.follow here (part :: rest) = ending (t.fileAt? there) there rest) ∨
    ∃ e, ∀ t, s.SameTree t → t.follow here (part :: rest) = .nowhere e := by
  by_cases hempty : part.isEmpty = true
  · exact .inl ⟨here,fun t _ => by simp only [follow, hempty, if_true]⟩
  by_cases hdenied : s.closed.contains here = true
  · exact .inr (.inr ⟨.denied,fun t ht => by
      simp only [follow, hempty, ht.closed, hdenied, Bool.false_eq_true, if_true, if_false]⟩)
  by_cases hdot : (part == Path.dotPart) = true
  · exact .inl ⟨here,fun t ht => by
      simp only [follow, hempty, ht.closed, hdenied, hdot, Bool.false_eq_true, if_true, if_false]⟩
  by_cases hparent : (part == Path.parentPart) = true
  · exact .inl ⟨here.dropLast,fun t ht => by
      simp only [follow, hempty, ht.closed, hdenied, hdot, hparent, Bool.false_eq_true, if_true, if_false]⟩
  by_cases hlong : longestPart < (Text.encode part).length
  · exact .inr (.inr ⟨.nameTooLong,fun t ht => by
      simp only [follow, hempty, ht.closed, hdenied, hdot, hparent, hlong, Bool.false_eq_true, if_true,
        if_false]⟩)
  have hdirectory (t : FileStore) (ht : s.SameTree t) :
      t.hasDirectory (here ++ [part]) = s.hasDirectory (here ++ [part]) := by
    rw [hasDirectory, ht.directories, hasDirectory]
  by_cases hthere : s.hasDirectory (here ++ [part]) = true
  · refine .inl ⟨here ++ [part],fun t ht => ?_⟩
    simp only [follow, hempty, ht.closed, hdenied, hdot, hparent, hlong, hdirectory t ht, hthere,
      Bool.false_eq_true, if_true, if_false]
  · refine .inr (.inl ⟨here ++ [part],fun t ht => ?_⟩)
    simp only [follow, hempty, ht.closed, hdenied, hdot, hparent, hlong, hdirectory t ht, hthere,
      Bool.false_eq_true, if_false]
    cases t.fileAt? (here ++ [part]) <;> cases rest <;> rfl

/-- What a name leads to, unless it is refused, is found by following its parts. -/
theorem place_cases (name : Text) :
    (∀ s : FileStore, s.place name = s.follow (s.base name) (Path.parts name)) ∨
    ∃ e, ∀ s : FileStore, s.place name = .nowhere e := by
  unfold place
  split
  · exact .inr ⟨_,fun _ => rfl⟩
  split
  · exact .inr ⟨_,fun _ => rfl⟩
  split
  · exact .inr ⟨_,fun _ => rfl⟩
  · exact .inl fun _ => rfl

theorem location_fileAt? (h : s.fileAt? l = some f) : f.location = l := by
  simpa using List.find?_some h

/-- What a name leads to is what stands at its location. -/
theorem fileAt?_of_follow {here : Location} {parts : List Text} :
    (∀ f, s.follow here parts = .file f → s.fileAt? f.location = some f) ∧
      ∀ l, s.follow here parts = .vacant l → s.fileAt? l = none := by
  induction parts generalizing here with
  | nil => exact ⟨nofun,nofun⟩
  | cons part rest ih =>
    rcases s.follow_cons_cases here part rest with ⟨next,hnext⟩ | ⟨there,hthere⟩ | ⟨e,he⟩
    · rw [hnext s (.refl s)]
      exact ih
    · rw [hthere s (.refl s)]
      cases rest with
      | cons => exact ⟨nofun,nofun⟩
      | nil =>
        cases hfile : s.fileAt? there with
        | none =>
          refine ⟨nofun,?_⟩
          rintro _ ⟨⟩
          exact hfile
        | some g =>
          refine ⟨?_,nofun⟩
          rintro _ ⟨⟩
          rw [location_fileAt? hfile, hfile]
    · rw [he s (.refl s)]
      exact ⟨nofun,nofun⟩

theorem fileAt?_of_place : (∀ f, s.place name = .file f → s.fileAt? f.location = some f) ∧
    ∀ l, s.place name = .vacant l → s.fileAt? l = none := by
  rcases place_cases name with hplace | ⟨e,hplace⟩ <;> rw [hplace]
  · exact fileAt?_of_follow
  · exact ⟨nofun,nofun⟩

theorem timed_of_files (hfiles : ∀ f ∈ s.files, f.time ≤ s.clock) (hdirectory : directoryTime ≤ s.clock) :
    s.Timed where
  directory := hdirectory
  file _ f hf := hfiles f (List.mem_of_find?_eq_some (fileAt?_of_place.1 f hf))

@[simp] theorem location_written (s : FileStore) (l : Location) (content : Text.Bytes) :
    (s.written l content).location = l := rfl

theorem fileAt?_put (s : FileStore) (l k : Location) (content : Text.Bytes) :
    (s.put l content).fileAt? k = if k = l then some (s.written l content) else s.fileAt? k := by
  let file := s.written l content
  let renew (f : StoredFile) : StoredFile := if f.location == l then file else f
  by_cases hthere : (s.fileAt? l).isSome = true
  · have hput : (s.put l content).files = s.files.map renew := if_pos hthere
    have hlocation (f : StoredFile) : (renew f).location = f.location := by
      simp only [renew]
      split
      · rename_i h
        exact (eq_of_beq h).symm
      · rfl
    have hfound : (s.put l content).fileAt? k = (s.fileAt? k).map renew := by
      rw [fileAt?, hput, List.find?_map]
      simp only [Function.comp_def, hlocation, fileAt?]
    rw [hfound]
    split
    · rename_i hk
      obtain ⟨g,hg⟩ := Option.isSome_iff_exists.mp hthere
      simp [hk, hg, renew, location_fileAt? hg, file]
    · rename_i hk
      cases hg : s.fileAt? k with
      | none => rfl
      | some g => simp [renew, location_fileAt? hg, hk]
  · have hput : (s.put l content).files = s.files ++ [file] := if_neg hthere
    have hnone : s.files.find? (·.location == l) = none := by simpa [fileAt?] using hthere
    rw [fileAt?, hput, List.find?_append]
    split
    · rename_i hk
      subst hk
      simp [hnone, file]
    · rename_i hk
      simp [file, fileAt?, Ne.symm hk]

/-- A name leads to what it led to, or to the file that was put in place. -/
theorem follow_put_file {here : Location} {parts : List Text}
    (h : (s.put l content).follow here parts = .file f) :
    s.follow here parts = .file f ∨ f = s.written l content := by
  induction parts generalizing here with
  | nil => cases h
  | cons part rest ih =>
    rcases s.follow_cons_cases here part rest with ⟨next,hnext⟩ | ⟨there,hthere⟩ | ⟨e,he⟩
    · rw [hnext _ (s.sameTree_put l content)] at h
      rw [hnext s (.refl s)]
      exact ih h
    · rw [hthere _ (s.sameTree_put l content), fileAt?_put] at h
      rw [hthere s (.refl s)]
      split at h
      · cases rest with
        | nil =>
          cases h
          exact .inr rfl
        | cons => cases h
      · exact .inl h
    · rw [he _ (s.sameTree_put l content)] at h
      cases h

theorem follow_put {here : Location} {parts : List Text}
    (h : s.follow here parts = .vacant l ∨ ∃ f, s.follow here parts = .file f ∧ f.location = l) :
    (s.put l content).follow here parts = .file (s.written l content) := by
  induction parts generalizing here with
  | nil =>
    rcases h with h | ⟨f,h,-⟩ <;> cases h
  | cons part rest ih =>
    rcases s.follow_cons_cases here part rest with ⟨next,hnext⟩ | ⟨there,hthere⟩ | ⟨e,he⟩
    · rw [hnext s (.refl s)] at h
      rw [hnext _ (s.sameTree_put l content)]
      exact ih h
    · rw [hthere s (.refl s)] at h
      rw [hthere _ (s.sameTree_put l content), fileAt?_put]
      cases rest with
      | cons =>
        rcases h with h | ⟨f,h,-⟩ <;> cases h
      | nil =>
        have hend : there = l := by
          cases hfile : s.fileAt? there with
          | none => simpa [ending, hfile] using h
          | some g =>
            rw [← location_fileAt? hfile]
            simpa [ending, hfile] using h
        rw [if_pos hend]
        rfl
    · rw [he s (.refl s)] at h
      rcases h with h | ⟨f,h,-⟩ <;> cases h

theorem clock_lt_next (s : FileStore) : s.clock < s.next := by
  unfold next
  omega

theorem later_put (s : FileStore) (l : Location) (content : Text.Bytes) : s.Later (s.put l content) where
  clock := Int.le_of_lt s.clock_lt_next
  place name f hf := by
    rcases place_cases name with hplace | ⟨e,hplace⟩ <;> rw [hplace] at hf ⊢
    · refine (follow_put_file hf).imp_right ?_
      rintro rfl
      exact ⟨s.clock_lt_next,Int.le_refl _⟩
    · cases hf

theorem place_of_writePlace {p : Place} (h : s.writePlace name = p) :
    s.place name = p ∨ p = .directory ∨ ∃ e, p = .nowhere e := by
  subst h
  unfold writePlace
  split
  · right
    dsimp only
    split
    · split
      · exact .inl rfl
      · exact .inr ⟨_,rfl⟩
    · exact .inl rfl
  · exact .inl rfl

/-- Where a file was written its name leads to it, and it may be read and written. -/
theorem write_ok (h : s.write name content = .ok t) :
    ∃ l, t = s.put l content ∧ t.place name = .file (s.written l content) ∧
      (s.written l content).access = .full := by
  have hput {l : Location} (hplace : s.place name = .vacant l ∨ ∃ f, s.place name = .file f ∧ f.location = l) :
      (s.put l content).place name = .file (s.written l content) := by
    rcases place_cases name with hname | ⟨e,hname⟩ <;> rw [hname] at hplace ⊢
    · exact follow_put hplace
    · rcases hplace with hplace | ⟨f,hplace,-⟩ <;> cases hplace
  unfold write at h
  split at h
  · rename_i f hplace
    split at h
    · rename_i haccess
      cases h
      have hname : s.place name = .file f := by simpa using place_of_writePlace hplace
      refine ⟨f.location,rfl,hput (.inr ⟨f,hname,rfl⟩),?_⟩
      rw [written, fileAt?_of_place.1 f hname]
      exact haccess
    · cases h
  · rename_i l hplace
    split at h
    · cases h
    cases h
    have hname : s.place name = .vacant l := by simpa using place_of_writePlace hplace
    refine ⟨l,rfl,hput (.inl hname),?_⟩
    rw [written, fileAt?_of_place.2 l hname]
    rfl
  · cases h
  · cases h

theorem later_write (h : s.write name content = .ok t) : s.Later t := by
  obtain ⟨l,rfl,-⟩ := write_ok h
  exact later_put s l content

end FileStore

end StructuralEdit
