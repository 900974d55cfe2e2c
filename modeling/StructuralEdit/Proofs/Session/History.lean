import StructuralEdit.Proofs.Buffer.History
import StructuralEdit.Proofs.Session.Atomic

/-! # Timelines over a run of commands

However many command texts are run, and whether they succeed or fail, the timeline of
every listed buffer stays a history of its text, with at most one more entry for each
command. What a command undoes before it edits or fails is no exception.
-/
namespace StructuralEdit
open Relation

namespace Session

/-- A session at rest in which nothing was committed yet. -/
def Fresh (s : Session) : Prop :=
  s.Resting ∧ ∀ k ∈ s.workspace.listed, (s.buffer k).timeline = {}

instance (s : Session) : Decidable s.Fresh := inferInstanceAs (Decidable (_ ∧ ∀ _ ∈ _, _))

/-- One session comes from another by running command texts that all return. -/
abbrev Runs : Session → Session → Prop :=
  ReflTransGen fun s t => ∃ h text o, Run.edit h text s = .ok o t

/-- The text a buffer had when the session began, or when it was loaded later on. -/
def Began (s : Session) (k : Handle) (base : Text) : Prop :=
  (k ∈ s.workspace.listed ∧ base = (s.buffer k).text) ∨
  (s.workspace.known.length ≤ k ∧ ∃ store path, base = (Workspace.load store path).text)

/-- Each listed buffer was committed as `c` had left it, with the entries there were in `s`. -/
def Advances (s c t : Session) : Prop :=
  ∀ k ∈ t.workspace.listed, (c.buffer k).timeline.entries = (s.buffer k).timeline.entries ∧
    Buffer.Advanced t.seq (c.buffer k) (t.buffer k)

end Session

namespace Run
variable {h : Option Handle} {text : Text} {s t : Session} {o : Option EditError} {k : Handle}

/-- A buffer unknown when a command begins stands for one without a timeline. -/
theorem Origin.timeline {b : Buffer} (ho : Origin s k b) : b.timeline = (s.buffer k).timeline := by
  rcases ho with ⟨-,-,editClean,rfl⟩ | ⟨hle,store,path,rfl⟩
  · rfl
  · have hk : s.buffer k = default := by
      simp [Session.buffer, Workspace.buffer, List.getD_eq_getElem?_getD, hle]
    rw [timeline_load, hk]
    rfl

/-- A command that returns keeps the history of each listed buffer, under its own number. -/
theorem history_edit (hs : s.Resting) (hrun : edit h text s = .ok o t)
    (hk : k ∈ t.workspace.listed) : ∃ b, Origin s k b ∧
      ∀ base, b.History base s.seq → (t.buffer k).History base t.seq := by
  rcases edit_cases hs.known hrun with ⟨-,hw,hseq⟩ | ⟨c,-,hseq,-,hbuffers⟩
  · rw [hw] at hk
    refine ⟨s.buffer k,.inl ⟨hk,hs.known k hk,_,rfl⟩,fun base hb => ?_⟩
    rw [Session.buffer, hw, hseq]
    exact hb
  · obtain ⟨-,b,d,r,horigin,htouched,hck,hcommit⟩ := hbuffers k hk
    refine ⟨b,horigin,fun base hb => ?_⟩
    have hc : (c.buffer k).History base s.seq := by
      rw [hck]
      split
      · obtain ⟨htext,htimeline⟩ := horigin.rollback hs htouched
        exact hb.congr htext htimeline
      · exact hb.touched htouched
    exact hc.commit (by omega) hcommit

/-- A command that returns has done nothing, or has committed each listed buffer as it was left,
with the entries the command began with. -/
theorem timeline_edit (hs : s.Resting) (hrun : edit h text s = .ok o t) :
    t.workspace = s.workspace ∨ ∃ c, pending h text s = .ok o c ∧ s.Advances c t := by
  rcases edit_cases hs.known hrun with ⟨-,hw,-⟩ | ⟨c,hpending,-,-,hbuffers⟩
  · exact .inl hw
  · refine .inr ⟨c,hpending,fun k hk => ?_⟩
    obtain ⟨-,b,d,r,horigin,htouched,hck,hcommit⟩ := hbuffers k hk
    refine ⟨?_,Buffer.advanced_of_commit hcommit⟩
    rw [hck, ← horigin.timeline]
    split
    · exact congrArg Timeline.entries (horigin.rollback hs htouched).2
    · exact htouched.entries

theorem length_known_edit (hs : s.Resting) (hrun : edit h text s = .ok o t) :
    s.workspace.known.length ≤ t.workspace.known.length := by
  rcases edit_cases hs.known hrun with ⟨-,hw,-⟩ | ⟨c,-,-,hgrown,-⟩
  · exact Nat.le_of_eq (by rw [hw])
  · exact hgrown

/-- What holds after every run of commands that began in a fresh session. -/
theorem recorded_runs (hs : s.Fresh) (hruns : s.Runs t) :
    t.Resting ∧ s.workspace.known.length ≤ t.workspace.known.length ∧
      ∀ k ∈ t.workspace.listed, ∃ base, s.Began k base ∧ (t.buffer k).History base t.seq := by
  induction hruns with
  | refl =>
    refine ⟨hs.1,Nat.le_refl _,fun k hk => ⟨_,.inl ⟨hk,rfl⟩,?_⟩⟩
    exact .of_fresh (hs.2 k hk) s.seq
  | @tail t u _ hstep ih =>
    obtain ⟨hrest,hle,hhistory⟩ := ih
    obtain ⟨h,text,o,hrun⟩ := hstep
    refine ⟨resting_edit hrest hrun,Nat.le_trans hle (length_known_edit hrest hrun),fun k hk => ?_⟩
    obtain ⟨b,horigin,hkeep⟩ := history_edit hrest hrun hk
    rcases horigin with ⟨hold,-,editClean,rfl⟩ | ⟨hnew,store,path,rfl⟩
    · obtain ⟨base,hbegan,hb⟩ := hhistory k hold
      exact ⟨base,hbegan,hkeep base (hb.congr rfl rfl)⟩
    · refine ⟨_,.inr ⟨Nat.le_trans hle hnew,store,path,rfl⟩,hkeep _ ?_⟩
      exact .of_fresh (timeline_load store path) t.seq

/-- The timeline of every listed buffer is a linear history of its text, whatever commands were
run; undo steps that are available can be redone to the same text and position; and the next
command adds at most one entry, exactly one where something was pending at its commit. -/
theorem runs_history (hs : s.Fresh) (hruns : s.Runs t) :
    (∀ k ∈ t.workspace.listed,
      (∃ base, s.Began k base ∧ (t.buffer k).History base t.seq) ∧
      ∀ n ≤ (t.buffer k).timeline.past.length,
        let b := Buffer.repeatStep Buffer.redoStep n (Buffer.repeatStep Buffer.undoStep n (t.buffer k))
        b.text = (t.buffer k).text ∧ b.timeline = (t.buffer k).timeline) ∧
    ∀ h text o u, edit h text t = .ok o u →
      u.workspace = t.workspace ∨ ∃ c, pending h text t = .ok o c ∧ t.Advances c u := by
  obtain ⟨hrest,-,hhistory⟩ := recorded_runs hs hruns
  refine ⟨fun k hk => ?_,fun h text o u hrun => timeline_edit hrest hrun⟩
  obtain ⟨base,hbegan,hb⟩ := hhistory k hk
  exact ⟨⟨base,hbegan,hb⟩,fun n hn => hb.undo_redo hn⟩

/-- An insertion, and after it a command that undoes it, inserts and then fails: the one entry can
be undone and redone. -/
theorem runs_history_failed :
    let s : Session := { workspace := { known := [{ text := "ab".toList }], listed := [0] } }
    let t : Session := (edit (some 0) "i/x/".toList).final s
    let u : Session := (edit (some 0) "u\ni/y/\nb z".toList).final t
    s.Runs u ∧ (u.buffer 0).timeline.past.length = 1 ∧
      (∃ base, s.Began 0 base ∧ (u.buffer 0).History base u.seq) ∧
      let b := Buffer.repeatStep Buffer.redoStep 1 (Buffer.repeatStep Buffer.undoStep 1 (u.buffer 0))
      b.text = (u.buffer 0).text ∧ b.timeline = (u.buffer 0).timeline := by
  intro s t u
  have hfirst : edit (some 0) "i/x/".toList s = .ok none t := ok_of_value (by decide +kernel)
  have hsecond : edit (some 0) "u\ni/y/\nb z".toList t = .ok (some (.noSuchFile "z".toList)) u :=
    ok_of_value (by decide +kernel)
  have hruns : s.Runs u := (ReflTransGen.single ⟨_,_,_,hfirst⟩).tail ⟨_,_,_,hsecond⟩
  have hlength : (u.buffer 0).timeline.past.length = 1 := by decide +kernel
  obtain ⟨hbuffers,-⟩ := runs_history (by decide) hruns
  obtain ⟨hhistory,hundo⟩ := hbuffers 0 (by decide +kernel)
  exact ⟨hruns,hlength,hhistory,hundo 1 (Nat.le_of_eq hlength.symm)⟩

end Run

end StructuralEdit
