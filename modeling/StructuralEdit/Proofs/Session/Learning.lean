import StructuralEdit.Proofs.Files.Later
import StructuralEdit.Proofs.Log.Simultaneous
import StructuralEdit.Proofs.Session.FileActions

/-! # How a buffer learns of versions of its file

A buffer keeps the time of the version of its file that it knows. It learns of a version when it
takes its text from it, is opened from it or writes it itself, and when it is told that the file
has come to be another one. No command changes the time otherwise.
-/
namespace StructuralEdit

namespace Session
variable {s t u : Session} {k : Handle}

/-- Every buffer knows the version of its file that it knew. -/
def SameTimes (s t : Session) : Prop := ∀ k, (t.buffer k).diskTime = (s.buffer k).diskTime

theorem sameTimes_update {w : Workspace} {f : Buffer → Buffer} (hf : ∀ b, (f b).diskTime = b.diskTime)
    (h k : Handle) : ((w.update h f).buffer k).diskTime = (w.buffer k).diskTime := by
  rcases w.buffer_update_cases h k f with hb | hb <;> rw [hb]
  exact hf _

theorem sameTimes_touch {t : Touch} (ht : ¬ t.Learning) (s : Session) (h : Handle) :
    s.SameTimes (s.touch h t) := by
  refine fun k => sameTimes_update (fun b => ?_) h k
  cases t with
  | read | know => exact absurd trivial ht
  | travel steps => exact (b.traveled_travel steps).sameStatus.diskTime
  | rename name =>
    simp only [Touch.apply, Buffer.rename]
    split <;> rfl
  | dot | record | markClean | markDirty | pin | close => rfl

instance : Quiet SameTimes where
  refl _ _ := rfl
  trans h h' k := (h' k).trans (h k)
  note _ _ _ _ _ _ _ := rfl

instance : Plain SameTimes where
  dot s h r := sameTimes_touch (t := .dot r) id s h
  record s h c := sameTimes_touch (t := .record c) id s h
  filing s h _ ht := sameTimes_touch ht.not_learning s h
  close s h k := by
    have hclosed := sameTimes_update (w := s.workspace) (f := fun b => { b with closed := true }) (fun _ => rfl) h k
    change ((s.workspace.close h).buffer k).diskTime = _
    simp only [Workspace.close]
    split <;> exact hclosed
  switch _ _ _ _ _ := rfl

instance : Programs SameTimes where
  program _ _ _ _ := rfl

instance : Undoes SameTimes where
  travel s h steps := sameTimes_touch (t := .travel steps) id s h

/-- The files are the same ones. -/
def SameStore (s t : Session) : Prop := t.workspace.store = s.workspace.store

instance : Quiet SameStore where
  refl _ := rfl
  trans h h' := h'.trans h
  note _ _ _ _ _ _ := rfl

instance : Plain SameStore where
  dot _ _ _ := rfl
  record _ _ _ := rfl
  filing _ _ _ _ := rfl
  close s h := by
    change (s.workspace.close h).store = _
    simp only [Workspace.close]
    split <;> rfl
  switch _ _ _ _ := rfl

instance : Undoes SameStore where
  travel _ _ _ := rfl

instance : Reads SameStore where
  read _ _ _ := rfl

theorem known_of_name (h : (s.buffer k).name ≠ []) : k < s.workspace.known.length := by
  refine Nat.lt_of_not_le fun hle => h ?_
  rw [buffer, Workspace.buffer_of_unknown hle]
  rfl

theorem Aside.sameTimes (h : s.Aside t) : s.SameTimes t := by
  intro k
  obtain ⟨_,_,_,hk⟩ := h.buffer k
  rw [hk]

theorem Noted.sameTimes (h : s.Noted t) : s.SameTimes t := by
  intro k
  rw [buffer, h.workspace, buffer]

end Session

/-- A command has opened a buffer from its file. -/
structure Call.Opened (c : Call) (k : Handle) (f : StoredFile) : Prop where
  opens : c.kind = .opens
  new : c.before.workspace.known.length ≤ k
  place : c.after.workspace.store.place (c.after.buffer k).name = .file f
  text : (c.after.buffer k).text = Text.plainNewlines (Text.decode f.content)
  time : (c.after.buffer k).diskTime = some f.time

/-- A command has written the whole of a buffer to its file. -/
structure Call.Wrote (c : Call) (k : Handle) (f : StoredFile) : Prop where
  target : c.target = some (k, (c.after.buffer k).name)
  newer : c.before.workspace.store.clock < f.time
  place : c.after.workspace.store.place (c.after.buffer k).name = .file f
  content : f.content = Text.encode (c.before.buffer k).text
  time : (c.after.buffer k).diskTime = some f.time

/-- A command that was to write a buffer to its file has reported what is there instead. -/
structure Call.Reported (c : Call) (k : Handle) (p : Place) : Prop where
  target : c.target = some (k, (c.after.buffer k).name)
  store : c.after.workspace.store = c.before.workspace.store
  place : c.after.workspace.store.place (c.after.buffer k).name = p
  report : ∃ time report, c.after.workspace.store.time? (c.after.buffer k).name = some time ∧
    Run.unknownVersion (c.before.buffer k) time = some report ∧
    c.after.messages.getLast? = some ((c.after.buffer k).name ++ report) ∧
    (c.after.buffer k).diskTime = some time

/-- A buffer learns what its name leads to. -/
inductive Call.Learns (c : Call) (k : Handle) : Place → Prop
  | took {f : StoredFile} (h : c.Took k f) : Learns c k (.file f)
  | opened {f : StoredFile} (h : c.Opened k f) : Learns c k (.file f)
  | wrote {f : StoredFile} (h : c.Wrote k f) : Learns c k (.file f)
  | reported {p : Place} (h : c.Reported k p) : Learns c k p

namespace Call
open Session
variable {c : Call} {k : Handle} {p : Place} {f : StoredFile} {name : Text}

theorem Learns.place (h : c.Learns k p) : c.after.workspace.store.place (c.after.buffer k).name = p := by
  cases h with
  | took h => exact h.place
  | opened h => exact h.place
  | wrote h => exact h.place
  | reported h => exact h.place

theorem Learns.time (h : c.Learns k p) :
    (c.after.buffer k).diskTime = c.after.workspace.store.time? (c.after.buffer k).name := by
  have hfile {f : StoredFile} (hplace : c.after.workspace.store.place (c.after.buffer k).name = .file f)
      (htime : (c.after.buffer k).diskTime = some f.time) :
      (c.after.buffer k).diskTime = c.after.workspace.store.time? (c.after.buffer k).name := by
    rw [htime, FileStore.time?, hplace]
  cases h with
  | took h => exact hfile h.place h.time
  | opened h => exact hfile h.place h.time
  | wrote h => exact hfile h.place h.time
  | reported h =>
    obtain ⟨time,_,htime,-,-,hknown⟩ := h.report
    rw [hknown, htime]

theorem learns_of_opens (hk : c.kind = .opens) (k : Handle) :
    (c.after.buffer k).diskTime = (c.before.buffer k).diskTime ∨ ∃ p, c.Learns k p := by
  obtain ⟨u,hbuffers,hopening⟩ := c.opens_cases hk
  have hlength : u.workspace.known.length = c.before.workspace.known.length := congrArg List.length hbuffers
  by_cases hold : k < u.workspace.known.length
  · left
    obtain ⟨_,hafter⟩ := hopening.old k hold
    rw [hafter, hbuffers.buffer]
  have hle : u.workspace.known.length ≤ k := Nat.not_lt.mp hold
  have hbefore : (c.before.buffer k).diskTime = none := by
    rw [buffer, Workspace.buffer_of_unknown (hlength ▸ hle)]
    rfl
  by_cases hnew : k < c.after.workspace.known.length
  · obtain ⟨path,pins,hafter⟩ := hopening.new k hle hnew
    unfold Workspace.load at hafter
    split at hafter
    · rename_i f hplace
      refine .inr ⟨.file f,.opened ⟨hk,hlength ▸ hle,?_,by rw [hafter],by rw [hafter]⟩⟩
      rw [hafter, hopening.store]
      exact hplace
    · left
      rw [hafter, hbefore]
  · left
    rw [hbefore, buffer, Workspace.buffer_of_unknown (Nat.not_lt.mp hnew)]
    rfl

/-- A file that is written has a later time than all others, and is what its name leads to. -/
theorem writes_later (hk : c.kind = .writes) :
    c.before.workspace.store.Later c.after.workspace.store := by
  rcases c.writes_cases hk with haside | ⟨u,haside,a,name,-,-,hputs⟩
  · rw [haside.store]
    exact .refl _
  rw [← haside.store]
  cases hputs with
  | refused ht =>
    rw [ht.workspace]
    exact .refl _
  | reported _ _ _ ht _ =>
    rw [ht.workspace]
    exact .refl _
  | whole hwrite _ _ _ ht =>
    rw [ht]
    exact FileStore.later_write hwrite
  | part hwrite _ _ ht =>
    rw [ht]
    exact FileStore.later_write hwrite
  | foreign hwrite _ ht =>
    rw [ht]
    exact FileStore.later_write hwrite

/-- No command makes files older by itself. It may run a program that does. -/
theorem later_of_kind (hk : c.kind.starts = false) :
    c.before.workspace.store.Later c.after.workspace.store := by
  by_cases hwrites : c.kind = .writes
  · exact c.writes_later hwrites
  have hsame : SameStore c.before c.after := by
    have hfollows := c.follows (R := SameStore)
    cases hkind : c.kind with
    | plain =>
      rw [hkind] at hfollows
      exact hfollows trivial
    | undoes =>
      rw [hkind] at hfollows
      exact hfollows (inferInstanceAs (Undoes SameStore))
    | reads =>
      rw [hkind] at hfollows
      exact hfollows (inferInstanceAs (Reads SameStore))
    | writes => exact absurd hkind hwrites
    | runs | opens =>
      rw [hkind] at hk
      cases hk
  rw [hsame]
  exact .refl _

theorem reported_of_puts {u : Session} {a : Target} {time : Int} {report : Text}
    (haside : c.before.Aside u) (htarget : c.target = some (a.buffer, name)) (hnamed : name ≠ [])
    (hown : name = (u.buffer a.buffer).name) (htime : u.workspace.store.time? name = some time)
    (hreport : Run.unknownVersion (u.buffer a.buffer) time = some report)
    (ht : (u.touch a.buffer (.know (some time))).Noted c.after)
    (hmessage : c.after.messages.getLast? = some (name ++ report)) :
    c.Reported a.buffer (u.workspace.store.place name) := by
  have hlt := known_of_name (hown ▸ hnamed)
  have hafter : c.after.buffer a.buffer = { u.buffer a.buffer with diskTime := some time } := by
    rw [buffer, ht.workspace]
    exact u.buffer_touch (.know (some time)) hlt
  have hstore : c.after.workspace.store = u.workspace.store := by
    rw [ht.workspace]
    rfl
  have hname : (c.after.buffer a.buffer).name = name := by rw [hafter, hown]
  have hversion : Run.unknownVersion (c.before.buffer a.buffer) time = some report := by
    obtain ⟨_,_,_,hu⟩ := haside.buffer a.buffer
    rw [hu] at hreport
    exact hreport
  constructor
  · rw [hname]
    exact htarget
  · rw [hstore, haside.store]
  · rw [hname, hstore]
  · refine ⟨time,report,?_,hversion,?_,by rw [hafter]⟩
    · rw [hname, hstore, htime]
    · rw [hname, hmessage]

theorem wrote_of_puts {u : Session} {a : Target} {store : FileStore} (haside : c.before.Aside u)
    (htarget : c.target = some (a.buffer, name)) (hnamed : name ≠ []) (hown : name = (u.buffer a.buffer).name)
    (hr : a.r.q0 = 0 ∧ a.r.q1 = (u.buffer a.buffer).size)
    (hwrite : u.workspace.store.write name (Text.encode ((u.buffer a.buffer).slice a.r.q0 a.r.q1)) = .ok store)
    (ht : c.after = ((u.storing store).touch a.buffer (.know (store.time? name))).touch a.buffer .markClean) :
    ∃ f, c.Wrote a.buffer f := by
  obtain ⟨l,-,hplace,-⟩ := FileStore.write_ok hwrite
  have hlt := known_of_name (hown ▸ hnamed)
  have htime : store.time? name = some u.workspace.store.next := by
    rw [FileStore.time?, hplace]
    rfl
  have hafter : c.after.buffer a.buffer = Touch.apply .markClean
      { u.buffer a.buffer with diskTime := some u.workspace.store.next } := by
    rw [ht, buffer_touch _ _ (by rwa [length_known_touch]), buffer_touch (u.storing store) _ hlt, htime]
    rfl
  have hname : (c.after.buffer a.buffer).name = name := by
    rw [hafter]
    exact hown.symm
  have hstore : c.after.workspace.store = store := by
    rw [ht]
    rfl
  refine ⟨u.workspace.store.written l (Text.encode ((u.buffer a.buffer).slice a.r.q0 a.r.q1)),?_,?_,?_,?_,?_⟩
  · rw [hname]
    exact htarget
  · rw [← haside.store]
    exact u.workspace.store.clock_lt_next
  · rw [hname, hstore]
    exact hplace
  · rw [hr.1, hr.2, Buffer.slice, ← haside.text, Buffer.size, Text.slice_whole]
    rfl
  · rw [hafter]
    rfl

theorem learns_of_writes (hk : c.kind = .writes) (k : Handle) :
    (c.after.buffer k).diskTime = (c.before.buffer k).diskTime ∨ ∃ p, c.Learns k p := by
  rcases c.writes_cases hk with haside | ⟨u,haside,a,name,htarget,hnamed,hputs⟩
  · exact .inl (haside.sameTimes k)
  rw [← haside.sameTimes k]
  have hothers {t : Session} {x : Touch} (hka : k ≠ a.buffer) :
      ((t.touch a.buffer x).buffer k).diskTime = (t.buffer k).diskTime :=
    congrArg Buffer.diskTime (t.buffer_touch_of_ne x hka)
  cases hputs with
  | refused ht => exact .inl (ht.sameTimes k)
  | reported hown htime hreport ht hmessage =>
    by_cases hka : k = a.buffer
    · rw [hka]
      exact .inr ⟨_,.reported (c.reported_of_puts haside htarget hnamed hown htime hreport ht hmessage)⟩
    · exact .inl ((ht.sameTimes k).trans (hothers hka))
  | whole hwrite hown hknown hr ht =>
    by_cases hka : k = a.buffer
    · obtain ⟨f,hwrote⟩ := c.wrote_of_puts haside htarget hnamed hown hr hwrite ht
      rw [hka]
      exact .inr ⟨_,.wrote hwrote⟩
    · left
      rw [ht]
      exact (hothers hka).trans (hothers hka)
  | part hwrite hown hknown ht =>
    left
    rw [ht]
    exact sameTimes_touch (t := .markDirty) id (u.storing _) a.buffer k
  | foreign hwrite hother ht =>
    left
    rw [ht]
    rfl

theorem learns_of_reads (hk : c.kind = .reads) (k : Handle) :
    (c.after.buffer k).diskTime = (c.before.buffer k).diskTime ∨ ∃ p, c.Learns k p := by
  rcases c.reads_cases (R := SameTimes) hk k with hsame | ⟨_,_,_,haside⟩ | ⟨f,htook⟩
  · exact .inl (hsame k)
  · left
    rw [haside]
  · exact .inr ⟨_,.took htook⟩

/-- After a command a buffer knows the version of its file that it knew, or it has learned what there
is. -/
theorem sameTime_or_learns (c : Call) (k : Handle) :
    (c.after.buffer k).diskTime = (c.before.buffer k).diskTime ∨ ∃ p, c.Learns k p := by
  have hfollows := c.follows (R := SameTimes)
  cases hk : c.kind with
  | plain =>
    rw [hk] at hfollows
    exact .inl (hfollows trivial k)
  | undoes =>
    rw [hk] at hfollows
    exact .inl (hfollows (inferInstanceAs (Undoes SameTimes)) k)
  | runs =>
    rw [hk] at hfollows
    exact .inl (hfollows (inferInstanceAs (Programs SameTimes)) k)
  | opens => exact c.learns_of_opens hk k
  | reads => exact c.learns_of_reads hk k
  | writes => exact c.learns_of_writes hk k

theorem kind_of_target {k : Handle} (h : c.target = some (k, name)) : c.kind = .writes := by
  obtain ⟨home,cmd,s⟩ := c
  cases cmd with
  | guard | extract | buffers | group => cases h
  | act addr action =>
    cases action with
    | write argument => rfl
    | _ => cases h

theorem Learns.kind_ne (h : c.Learns k p) : c.kind ≠ .plain := by
  intro hk
  cases h with
  | took h => cases hk.symm.trans h.reads
  | opened h => cases hk.symm.trans h.opens
  | wrote h => cases hk.symm.trans (kind_of_target h.target)
  | reported h => cases hk.symm.trans (kind_of_target h.target)

end Call

/-- A command writes a buffer over a version of its own file. -/
structure Call.Overwrites (c : Call) (k : Handle) (f : StoredFile) : Prop where
  target : c.target = some (k, (c.after.buffer k).name)
  there : c.before.workspace.store.place (c.after.buffer k).name = .file f
  gone : c.after.workspace.store.place (c.after.buffer k).name ≠ .file f

/-- A buffer is written over no version that is newer than the one it knows by more than may pass for it. -/
theorem Call.Overwrites.knows {c : Call} {k : Handle} {f : StoredFile} (h : c.Overwrites k f) :
    ∃ time, (c.before.buffer k).diskTime = some time ∧ f.time ≤ time + Run.tolerance := by
  obtain ⟨htarget,hthere,hgone⟩ := h
  have hsame : c.after.workspace.store ≠ c.before.workspace.store := fun hstore => hgone (hstore ▸ hthere)
  rcases c.writes_cases (kind_of_target htarget) with haside | ⟨u,haside,a,name,htarget',-,hputs⟩
  · exact absurd haside.store hsame
  rw [htarget', Option.some.injEq, Prod.mk.injEq] at htarget
  obtain ⟨rfl,rfl⟩ := htarget
  rw [← haside.store] at hthere hsame
  have hguard (hknown : ∀ time, u.workspace.store.time? (c.after.buffer a.buffer).name = some time →
      Run.unknownVersion (u.buffer a.buffer) time = none) :
      ∃ time, (c.before.buffer a.buffer).diskTime = some time ∧ f.time ≤ time + Run.tolerance := by
    have hversion := hknown f.time (by rw [FileStore.time?, hthere])
    rw [← haside.sameTimes a.buffer]
    unfold Run.unknownVersion at hversion
    split at hversion
    · cases hversion
    · rename_i time htime
      split at hversion
      · cases hversion
      · exact ⟨time,htime,by omega⟩
  -- Only what has passed the check of the time replaces the file.
  cases hputs with
  | refused ht => exact absurd (congrArg Workspace.store ht.workspace) hsame
  | reported _ _ _ ht _ => exact absurd (congrArg Workspace.store ht.workspace) hsame
  | whole _ _ hknown _ _ => exact hguard hknown
  | part _ _ hknown _ => exact hguard hknown
  | foreign _ hother ht =>
    rw [ht] at hother
    exact absurd rfl hother

end StructuralEdit
