import StructuralEdit.Proofs.Session.Calls

/-! # What becomes of files and buffers in the commands for files

A command that reads a file or writes one looks up its range and its name first, which leaves
aside all texts and files. What it does then is told here case by case: a range is replaced by
the file, or the whole buffer is, which then knows the file; a file is written, or the buffer
takes notice of the version that it would have overwritten.
-/
namespace StructuralEdit

theorem FileStore.read_ok {store : FileStore} {name : Text} {bytes : Text.Bytes}
    (h : store.read name = .ok bytes) : ∃ f, store.place name = .file f ∧ f.content = bytes := by
  unfold FileStore.read at h
  split at h
  · rename_i f hplace
    split at h
    · cases h
    · exact ⟨f,hplace,Except.ok.inj h⟩
  · cases h
  · cases h
  · cases h

namespace Session
variable {s t u : Session}

/-- Only names, dots and clean marks differ, and what is reported and remembered. -/
structure Aside (s t : Session) : Prop where
  store : t.workspace.store = s.workspace.store
  known : t.workspace.known.length = s.workspace.known.length
  buffer : ∀ k, ∃ name dot cleanSeq, t.buffer k = { s.buffer k with name, dot, cleanSeq }

theorem aside_touch {t : Touch} (ht : ∀ b, ∃ name dot cleanSeq, t.apply b = { b with name, dot, cleanSeq })
    (s : Session) (h : Handle) : s.Aside (s.touch h t) where
  store := rfl
  known := s.workspace.length_known_update h t.apply
  buffer k := by
    rcases s.workspace.buffer_update_cases h k t.apply with hb | hb
    · exact ⟨_,_,_,hb⟩
    · obtain ⟨name,dot,cleanSeq,happly⟩ := ht (s.buffer k)
      exact ⟨name,dot,cleanSeq,hb.trans happly⟩

instance : Quiet Aside where
  refl s := ⟨rfl,rfl,fun _ => ⟨_,_,_,rfl⟩⟩
  trans {s t u} h h' := by
    refine ⟨h'.store.trans h.store,h'.known.trans h.known,fun k => ?_⟩
    obtain ⟨_,_,_,hk⟩ := h.buffer k
    obtain ⟨name,dot,cleanSeq,hk'⟩ := h'.buffer k
    rw [hk] at hk'
    exact ⟨name,dot,cleanSeq,hk'⟩
  note s _ _ _ _ _ := ⟨rfl,rfl,fun _ => ⟨_,_,_,rfl⟩⟩

instance : Dots Aside where
  dot s h r := aside_touch (t := .dot r) (fun _ => ⟨_,_,_,rfl⟩) s h

instance : Files Aside where
  filing s h t ht := by
    refine aside_touch (fun b => ?_) s h
    cases t with
    | rename name =>
      simp only [Touch.apply, Buffer.rename]
      split <;> exact ⟨_,_,_,rfl⟩
    | markClean | markDirty => exact ⟨_,_,_,rfl⟩
    | dot | record | travel | read | know | pin | close => exact ht.elim

theorem Aside.text (h : s.Aside t) (k : Handle) : (t.buffer k).text = (s.buffer k).text := by
  obtain ⟨_,_,_,hk⟩ := h.buffer k
  rw [hk]

theorem Aside.size (h : s.Aside t) (k : Handle) : (t.buffer k).size = (s.buffer k).size :=
  congrArg List.length (h.text k)

theorem Noted.workspace (h : s.Noted t) : t.workspace = s.workspace := by
  obtain ⟨_,_,_,_,-,rfl⟩ := h
  rfl

theorem Noted.touch (h : s.Noted t) (k : Handle) (x : Touch) : (s.touch k x).Noted (t.touch k x) := by
  obtain ⟨messages,notices,invocations,patterns,hwindow,rfl⟩ := h
  exact ⟨messages,notices,invocations,patterns,hwindow,rfl⟩

/-- Replace a whole buffer by a version of its file, which the buffer then knows. -/
def taking (s : Session) (h : Handle) (f : StoredFile) : Session :=
  (s.touch h (.record (.replace 0 (s.buffer h).size (Text.decode f.content)))).touch h (.read (some f.time))

@[simp] theorem length_known_touch (s : Session) (h : Handle) (t : Touch) :
    (s.touch h t).workspace.known.length = s.workspace.known.length :=
  s.workspace.length_known_update h t.apply

theorem buffer_touch (s : Session) {h : Handle} (t : Touch) (hh : h < s.workspace.known.length) :
    (s.touch h t).buffer h = t.apply (s.buffer h) :=
  (s.workspace.buffer_update h t.apply hh).trans (if_pos rfl)

theorem buffer_touch_of_ne (s : Session) {h k : Handle} (t : Touch) (hk : k ≠ h) :
    (s.touch h t).buffer k = s.buffer k := s.workspace.buffer_update_of_ne t.apply hk

theorem buffer_taking (s : Session) {h : Handle} (f : StoredFile) (hh : h < s.workspace.known.length) :
    (s.taking h f).buffer h = { s.buffer h with
      log := ((s.buffer h).log.replace 0 (s.buffer h).size (Text.decode f.content)).1
      editClean := true, diskTime := some f.time } := by
  rw [taking, buffer_touch _ _ (by rwa [length_known_touch]), buffer_touch s _ hh]
  rfl

theorem buffer_taking_of_ne (s : Session) {h k : Handle} (f : StoredFile) (hk : k ≠ h) :
    (s.taking h f).buffer k = s.buffer k := by
  rw [taking, buffer_touch_of_ne _ _ hk, buffer_touch_of_ne s _ hk]

theorem buffer_taking_of_unknown (s : Session) {h : Handle} (f : StoredFile)
    (hh : s.workspace.known.length ≤ h) : (s.taking h f).buffer h = s.buffer h := by
  rw [buffer, Workspace.buffer_of_unknown (by simpa [taking] using hh), buffer,
    Workspace.buffer_of_unknown hh]

/-- No buffer differs. -/
def SameBuffers (s t : Session) : Prop := t.workspace.known = s.workspace.known

instance : Programs SameBuffers where
  refl _ := rfl
  trans h h' := h'.trans h
  note _ _ _ _ _ _ := rfl
  program _ _ _ := rfl

theorem SameBuffers.buffer (h : s.SameBuffers t) (k : Handle) : t.buffer k = s.buffer k := by
  rw [Session.buffer, Workspace.buffer, h, Session.buffer, Workspace.buffer]

/-- Buffers have been loaded from the files there are, and the old ones pinned at most. -/
structure Opening (s t : Session) : Prop where
  store : t.workspace.store = s.workspace.store
  length_le : s.workspace.known.length ≤ t.workspace.known.length
  old : ∀ k < s.workspace.known.length, ∃ pins, t.buffer k = { s.buffer k with pins }
  new : ∀ k, s.workspace.known.length ≤ k → k < t.workspace.known.length →
    ∃ path pins, t.buffer k = { Workspace.load s.workspace.store path with pins }

instance : Quiet Opening where
  refl s := ⟨rfl,Nat.le_refl _,fun _ _ => ⟨_,rfl⟩,fun _ hle hlt => absurd hlt (Nat.not_lt.mpr hle)⟩
  trans {s t u} h h' := by
    refine ⟨h'.store.trans h.store,Nat.le_trans h.length_le h'.length_le,fun k hk => ?_,fun k hle hlt => ?_⟩
    · obtain ⟨_,ht⟩ := h.old k hk
      obtain ⟨pins,hu⟩ := h'.old k (Nat.lt_of_lt_of_le hk h.length_le)
      exact ⟨pins,by rw [hu, ht]⟩
    · by_cases hk : k < t.workspace.known.length
      · obtain ⟨path,_,ht⟩ := h.new k hle hk
        obtain ⟨pins,hu⟩ := h'.old k hk
        exact ⟨path,pins,by rw [hu, ht]⟩
      · obtain ⟨path,pins,hu⟩ := h'.new k (Nat.not_lt.mp hk) hlt
        exact ⟨path,pins,by rw [hu, h.store]⟩
  note _ _ _ _ _ _ :=
    ⟨rfl,Nat.le_refl _,fun _ _ => ⟨_,rfl⟩,fun _ hle hlt => absurd hlt (Nat.not_lt.mpr hle)⟩

instance : Opens Opening where
  openFile s path := by
    have henter : s.Opening { s with workspace := s.workspace.enter (Workspace.load s.workspace.store path) } := by
      refine ⟨rfl,by simp,fun k hk => ?_,fun k hle hlt => ?_⟩
      · exact ⟨_,(s.workspace.buffer_enter _ k).trans (if_neg (Nat.ne_of_lt hk))⟩
      · have hk : k = s.workspace.known.length := by
          simp only [Workspace.length_known_enter] at hlt
          omega
        exact ⟨path,_,(s.workspace.buffer_enter _ k).trans (if_pos hk)⟩
    have hpin (w : Workspace) (h : Handle) (late : Option (List Handle)) :
        Opening { s with workspace := w } { s with workspace := { w.pin h with latePins := late } } := by
      refine ⟨rfl,Nat.le_of_eq (w.length_known_update _ _).symm,fun k _ => ?_,fun k hle hlt => ?_⟩
      · rcases w.buffer_update_cases h k fun b => { b with pins := b.pins + 1 } with hb | hb
        · exact ⟨_,hb⟩
        · exact ⟨_,hb⟩
      · exact absurd (Nat.lt_of_lt_of_eq hlt (w.length_known_update _ _)) (Nat.not_lt.mpr hle)
    unfold Workspace.openFile
    split
    · exact Quiet.refl s
    · rw [Workspace.add_eq]
      split
      · exact henter
      · exact Quiet.trans henter (hpin _ _ _)

/-- Have other files. -/
def storing (s : Session) (store : FileStore) : Session :=
  { s with workspace := { s.workspace with store } }

end Session

namespace Run
open Session
variable {R : Session → Session → Prop} {α β : Type} {x : Run α} {s t u : Session}

/-! ## Reading -/

/-- From a session a run makes steps that `R` holds of, or it leaves texts and files aside and then
does one thing. -/
def Concludes (R T : Session → Session → Prop) (x : Run α) (s : Session) : Prop :=
  R s (x.final s) ∨ ∃ u, s.Aside u ∧ T u (x.final s)

section
variable {T : Session → Session → Prop}

theorem concludes_of_follows (hx : x.Follows R) (s : Session) : x.Concludes R T s := .inl (hx s)

theorem concludes_bind [Quiet R] {f : α → Run β} (hx : x.Follows R) (haside : x.Follows Aside)
    (hf : ∀ a t, x s = .ok a t → (f a).Concludes R T t) : (x >>= f).Concludes R T s := by
  have hxs := hx s
  have hasides := haside s
  unfold Concludes
  cases h : x s with
  | error e t =>
    rw [final_of_error h] at hxs
    rw [final_bind_of_error h]
    exact .inl hxs
  | ok a t =>
    rw [final_of_ok h] at hxs hasides
    rw [final_bind_of_ok h]
    rcases hf a t h with hR | ⟨u,hu,hT⟩
    · exact .inl (Quiet.trans hxs hR)
    · exact .inr ⟨u,Quiet.trans hasides hu,hT⟩

theorem concludes_unless [Quiet R] {c : Prop} [Decidable c] {e : EditError} {f : Unit → Run α}
    (hf : ¬ c → (f ()).Concludes R T s) : (if c then fail e >>= f else f ()).Concludes R T s := by
  split
  · exact .inl (Quiet.refl s)
  · exact hf ‹_›

theorem concludes_onBuffer [Quiet R] {h : Option Handle} {f : Handle → Run Unit}
    (hf : ∀ h, (f h).Concludes R T s) : (onBuffer h f).Concludes R T s := by
  cases h with
  | none => exact .inl (Quiet.refl s)
  | some h => exact hf h

theorem concludes_onRange [Dots R] {whole : Bool} {h : Option Handle} {addr : Option Addr} {f : Target → Run Unit}
    (hf : ∀ a t, withDefault whole h addr s = .ok a t → (f a).Concludes R T t) :
    (onRange whole h addr f).Concludes R T s :=
  concludes_bind (follows_withDefault whole h addr) (follows_withDefault whole h addr) hf

end

theorem readFile_ok {name text : Text} (h : readFile name s = .ok text t) :
    t = s ∧ ∃ f, s.workspace.store.place name = .file f ∧ text = Text.decode f.content := by
  obtain ⟨_,_,hget,h⟩ := ok_of_bind h
  cases hget
  dsimp only at h
  split at h
  · cases h
  cases hread : s.workspace.store.read name with
  | ok bytes =>
    obtain ⟨f,hplace,rfl⟩ := FileStore.read_ok hread
    rw [hread] at h
    cases h
    exact ⟨rfl,f,hplace,rfl⟩
  | error e =>
    rw [hread] at h
    cases e <;> cases h

theorem record_ok {h : Handle} {c : ChangeRequest} (hrun : record h c.record s = .ok () t) :
    (s.touch h (.record c)).Noted t := by
  have hreport := follows_reportOrder (R := Noted) (c.record (s.buffer h).log).2 (s.touch h (.record c))
  rw [record_eq] at hrun
  rwa [final_of_ok hrun] at hreport

/-- A whole buffer takes a version of its own file in place of its text. -/
def Takes (s t : Session) : Prop :=
  ∃ h f, s.workspace.store.place (s.buffer h).name = .file f ∧ (s.taking h f).Noted t

theorem concludes_taking [Records R] {h : Handle} {f : StoredFile}
    (hplace : s.workspace.store.place (s.buffer h).name = .file f) {name : Text}
    (hname : name = (s.buffer h).name) :
    (do
      record h (ChangeRequest.replace 0 (s.buffer h).size (Text.decode f.content)).record
      let diskTime := (← get).workspace.store.time? name
      updateBuffer h fun b => { b with editClean := true, diskTime } : Run Unit).Concludes R Takes s := by
  have hrecord := follows_record (R := R) h (.replace 0 (s.buffer h).size (Text.decode f.content)) s
  unfold Concludes
  cases hrun : record h (ChangeRequest.replace 0 (s.buffer h).size (Text.decode f.content)).record s with
  | error e t =>
    rw [final_of_error hrun] at hrecord
    rw [final_bind_of_error hrun]
    exact .inl hrecord
  | ok _ t =>
    have hnoted := record_ok hrun
    have htime : t.workspace.store.time? name = some f.time := by
      rw [hnoted.workspace, hname]
      change s.workspace.store.time? (s.buffer h).name = _
      rw [FileStore.time?, hplace]
    rw [final_bind_of_ok hrun, final_bind_of_ok (get_eq t), htime]
    exact .inr ⟨s,Quiet.refl s,h,f,hplace,hnoted.touch h (.read (some f.time))⟩

/-- A range is replaced by a file in two ways: the buffer has one more change to make, or it is
replaced as a whole by its own file. -/
theorem concludes_insertFile [Files R] [Records R] (h : Handle) (r : Span) (argument : Text) (rename : Bool)
    (s : Session) : (insertFile h r argument rename).Concludes R Takes s := by
  refine concludes_bind (follows_buffer h) (follows_buffer h) fun b t hb => ?_
  cases hb
  refine concludes_bind (follows_commandName h _ _) (follows_commandName h _ _) fun name u hname => ?_
  refine concludes_unless fun _ => concludes_bind (follows_buffer h) (follows_buffer h) fun b t hb => ?_
  cases hb
  refine concludes_bind (follows_readFile name) (follows_readFile name) fun text v hread => ?_
  obtain ⟨rfl,f,hplace,rfl⟩ := readFile_ok hread
  extract_lets plain
  have hrecord := follows_record (R := R) h (.replace r.q0 r.q1 plain)
  split
  · exact concludes_of_follows (follows_bind hrecord fun _ => follows_warn _) v
  split
  · rename_i hplain hwhole
    obtain ⟨⟨hq0,hq1⟩,hown⟩ := hwhole
    have haside := follows_commandName (R := Aside) h argument rename s
    rw [final_of_ok hname] at haside
    have htext : plain = Text.decode f.content :=
      List.filter_sublist.eq_of_length (Nat.le_antisymm List.filter_sublist.length_le (Nat.not_lt.mp hplain))
    rw [hq0, hq1, ← haside.size, htext]
    exact concludes_taking (R := R) (hown ▸ hplace) hown
  · exact concludes_of_follows (follows_bind hrecord fun _ => follows_pure _) v

theorem concludes_reading [Dots R] [Files R] [Records R] (h : Option Handle) (addr : Option Addr)
    {action : Action} (hk : action.kind = .reads) (s : Session) : (runAction h addr action).Concludes R Takes s := by
  cases action with
  | load name =>
    refine concludes_onBuffer fun h => concludes_bind (follows_refuseIfDirty h) (follows_refuseIfDirty h) fun _ t _ => ?_
    exact concludes_bind (follows_buffer h) (follows_buffer h) fun b u _ => concludes_insertFile h _ name true u
  | read name => exact concludes_onRange fun a t _ => concludes_insertFile a.buffer a.r name false t
  | _ => cases hk

/-! ## Writing -/

/-- How putting a range of a buffer into a file of a name ends. -/
inductive Puts (u : Session) (h : Handle) (r : Span) (name : Text) (t : Session) : Prop
  /-- The file cannot be written. -/
  | refused (ht : u.Noted t)
  /-- The buffer takes notice of the version of its file that it does not know. -/
  | reported {time : Int} {report : Text} (hown : name = (u.buffer h).name)
    (htime : u.workspace.store.time? name = some time)
    (hreport : unknownVersion (u.buffer h) time = some report)
    (ht : (u.touch h (.know (some time))).Noted t) (hmessage : t.messages.getLast? = some (name ++ report))
  /-- The buffer knows its file, and is all in it. -/
  | whole {store : FileStore}
    (hwrite : u.workspace.store.write name (Text.encode ((u.buffer h).slice r.q0 r.q1)) = .ok store)
    (hown : name = (u.buffer h).name)
    (hknown : ∀ time, u.workspace.store.time? name = some time → unknownVersion (u.buffer h) time = none)
    (hr : r.q0 = 0 ∧ r.q1 = (u.buffer h).size)
    (ht : t = ((u.storing store).touch h (.know (store.time? name))).touch h .markClean)
  /-- The buffer knows its file, and a part of it is in it. -/
  | part {store : FileStore}
    (hwrite : u.workspace.store.write name (Text.encode ((u.buffer h).slice r.q0 r.q1)) = .ok store)
    (hown : name = (u.buffer h).name)
    (hknown : ∀ time, u.workspace.store.time? name = some time → unknownVersion (u.buffer h) time = none)
    (ht : t = (u.storing store).touch h .markDirty)
  /-- Another file than that of the buffer is written. -/
  | foreign {store : FileStore}
    (hwrite : u.workspace.store.write name (Text.encode ((u.buffer h).slice r.q0 r.q1)) = .ok store)
    (hother : name ≠ (u.buffer h).name) (ht : t = u.storing store)

/-- All the ways in which a range is put into a file. -/
theorem puts_putFile (u : Session) (h : Handle) (r : Span) (name : Text) :
    Puts u h r name ((putFile h r name).final u) := by
  unfold putFile
  rw [final_bind_of_ok (buffer_eq h u), final_bind_of_ok (get_eq u)]
  extract_lets store save
  have hsave (hknown : name = (u.buffer h).name → ∀ time, store.time? name = some time →
      unknownVersion (u.buffer h) time = none) : Puts u h r name ((save ()).final u) := by
    simp only [save]
    split
    · exact .refused (Quiet.refl u)
    · exact .refused (follows_warn _ u)
    · rename_i written hwrite
      rw [final_bind_of_ok (show modifyWorkspace (fun w => { w with store := written }) u = .ok () (u.storing written) from rfl)]
      split
      · rename_i hown
        split
        · rename_i hr
          exact .whole hwrite hown (hknown hown) hr rfl
        · exact .part hwrite hown (hknown hown) rfl
      · exact .foreign hwrite ‹_› rfl
  split
  · rename_i hown
    split
    · rename_i time htime
      split
      · rename_i report hreport
        refine .reported hown htime hreport ?_ (List.getLast?_concat (l := u.messages))
        exact Quiet.note (R := Noted) (u.touch h (.know (some time))) _ _ u.invocations u.patterns (.refl _)
      · rename_i hreport
        refine hsave fun _ time' htime' => ?_
        rw [htime] at htime'
        cases htime'
        cases hreport' : unknownVersion (u.buffer h) time with
        | none => rfl
        | some report => exact absurd hreport' (hreport report)
    · rename_i htime
      exact hsave fun _ time htime' => absurd htime' (htime time)
  · exact hsave fun hown => absurd hown ‹_›

theorem requireWindow_ok {h : Option Handle} {c : Cmd} (hrun : requireWindow h c s = .ok () t) : t = s := by
  have hunless {p : Prop} [Decidable p] (hp : (if p then fail .noCurrentWindow else pure () : Run Unit) s = .ok () t) :
      t = s := by
    split at hp <;> cases hp
    rfl
  exact hunless hrun

end Run

/-- The buffer that a command writes, and the name it writes it to, if it comes to that. -/
def Call.target (c : Call) : Option (Handle × Text) :=
  match c.cmd with
  | .act addr (.write argument) => (do
    let a ← Run.withDefault true c.home addr
    let name ← Run.commandName a.buffer argument false
    return (a.buffer, name) : Run (Handle × Text)).value c.before
  | _ => none

/-- From one session to another a command puts a range into the file it is for. -/
def Call.Puts (c : Call) (u t : Session) : Prop :=
  ∃ (a : Target) (name : Text), c.target = some (a.buffer, name) ∧ name ≠ [] ∧
    Run.Puts u a.buffer a.r name t

/-- A command that reads a file has replaced the whole of a buffer by it, which is the buffer's
own. -/
structure Call.Took (c : Call) (k : Handle) (f : StoredFile) : Prop where
  reads : c.kind = .reads
  known : k < c.before.workspace.known.length
  place : c.after.workspace.store.place (c.after.buffer k).name = .file f
  log : (c.after.buffer k).log =
    ((c.before.buffer k).log.replace 0 (c.before.buffer k).size (Text.decode f.content)).1
  clean : (c.after.buffer k).editClean = true
  time : (c.after.buffer k).diskTime = some f.time

namespace Call
open Session
variable {R : Session → Session → Prop}

theorem concludes_of_reads [Dots R] [Files R] [Records R] {c : Call} (hk : c.kind = .reads) :
    R c.before c.after ∨ ∃ u, c.before.Aside u ∧ Run.Takes u c.after := by
  obtain ⟨h,cmd,s⟩ := c
  cases cmd with
  | act addr action =>
    have hwindow := Run.follows_requireWindow (R := R) h (.act addr action)
    exact Run.concludes_bind hwindow (Run.follows_requireWindow h _) fun _ t _ => Run.concludes_reading h addr hk t
  | guard | extract | buffers | group => cases hk

/-- A command that reads a file makes other steps, or leaves a buffer with another name, dot and clean
mark at most, or has replaced the whole of it by its file. -/
theorem reads_cases [Dots R] [Files R] [Records R] {c : Call} (hk : c.kind = .reads) (k : Handle) :
    R c.before c.after ∨
    (∃ name dot cleanSeq, c.after.buffer k = { c.before.buffer k with name, dot, cleanSeq }) ∨
    ∃ f, c.Took k f := by
  refine (concludes_of_reads hk).imp_right fun ⟨u,haside,h,f,hplace,hnoted⟩ => ?_
  have hafter : c.after.buffer k = (u.taking h f).buffer k := by rw [buffer, hnoted.workspace, buffer]
  obtain ⟨name,dot,cleanSeq,hu⟩ := haside.buffer k
  by_cases hkh : k = h
  · subst hkh
    by_cases hlt : k < u.workspace.known.length
    · right
      rw [buffer_taking u f hlt, haside.size, hu] at hafter
      refine ⟨f,hk,haside.known ▸ hlt,?_,by rw [hafter],by rw [hafter],by rw [hafter]⟩
      rw [hnoted.workspace, hafter]
      change u.workspace.store.place name = .file f
      rwa [hu] at hplace
    · left
      rw [buffer_taking_of_unknown u f (Nat.not_lt.mp hlt)] at hafter
      exact ⟨name,dot,cleanSeq,hafter.trans hu⟩
  · left
    rw [buffer_taking_of_ne u f hkh] at hafter
    exact ⟨name,dot,cleanSeq,hafter.trans hu⟩

theorem opens_cases {c : Call} (hk : c.kind = .opens) : ∃ u, c.before.SameBuffers u ∧ u.Opening c.after := by
  obtain ⟨h,cmd,s⟩ := c
  cases cmd with
  | guard | extract | buffers | group => cases hk
  | act addr action =>
    cases action with
    | openFiles names =>
      have hwindow := Run.follows_requireWindow (R := SameBuffers) h (.act addr (.openFiles names)) s
      change ∃ u, s.SameBuffers u ∧
        u.Opening ((Run.requireWindow h (.act addr (.openFiles names)) >>= fun _ => Run.openFiles h names).final s)
      cases hrun : Run.requireWindow h (.act addr (.openFiles names)) s with
      | error e t =>
        rw [Run.final_of_error hrun] at hwindow
        rw [Run.final_bind_of_error hrun]
        exact ⟨t,hwindow,Quiet.refl t⟩
      | ok _ t =>
        obtain rfl := Run.requireWindow_ok hrun
        rw [Run.final_bind_of_ok hrun]
        exact Run.openFiles_list h names t
    | _ => cases hk

/-- A command that writes leaves texts and files aside, or it puts a range into the file it is for. -/
theorem writes_cases {c : Call} (hk : c.kind = .writes) :
    c.before.Aside c.after ∨ ∃ u, c.before.Aside u ∧ c.Puts u c.after := by
  obtain ⟨h,cmd,s⟩ := c
  cases cmd with
  | guard | extract | buffers | group => cases hk
  | act addr action =>
    cases action with
    | write argument =>
      refine Run.concludes_bind (R := Aside) (T := Puts ⟨h, .act addr (.write argument), s⟩)
        (Run.follows_requireWindow _ _) (Run.follows_requireWindow _ _) fun _ t ht => ?_
      obtain rfl := Run.requireWindow_ok ht
      refine Run.concludes_onRange fun a u ha => ?_
      refine Run.concludes_bind (Run.follows_buffer _) (Run.follows_buffer _) fun b v hb => ?_
      cases hb
      refine Run.concludes_unless fun _ => ?_
      refine Run.concludes_bind (Run.follows_commandName _ _ _) (Run.follows_commandName _ _ _) fun name v hname => ?_
      refine Run.concludes_unless fun hnamed =>
        .inr ⟨v,Quiet.refl v,a,name,?_,?_,Run.puts_putFile v _ _ name⟩
      · change Run.value _ t = _
        rw [Run.value, bind_of_ok ha, bind_of_ok hname]
        rfl
      · exact fun hn => hnamed (by rw [hn]; rfl)
    | _ => cases hk

end Call

end StructuralEdit
