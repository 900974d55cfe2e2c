import Mathlib
import StructuralEdit.Proofs.Session.Dots
import StructuralEdit.Proofs.Session.History

/-! # Dot over a run of commands

However many command texts are run, and whether they succeed or fail, dot stays in the
text of every listed buffer, as long as all commands that are run are steady. One that
undoes something between the ranges of a loop may leave it behind the end.
-/
namespace StructuralEdit
open Relation Pattern

namespace Workspace
variable {I : Buffer → Prop} {f : Buffer → Buffer}

theorem updateListed_preserves (hf : ∀ b, I b → I (f b)) (w : Workspace) {k : Handle}
    (hk : I (w.buffer k)) : I ((w.updateListed f).buffer k) := by
  have hfold (hs : List Handle) (w : Workspace) (hk : I (w.buffer k)) :
      I ((hs.foldl (fun w h => w.update h f) w).buffer k) := by
    induction hs generalizing w with
    | nil => exact hk
    | cons h rest ih =>
      refine ih _ ?_
      rcases buffer_update_cases w h k f with hb | hb <;> rw [hb]
      · exact hk
      · exact hf _ hk
  exact hfold w.listed w hk

end Workspace

/-- Every listed buffer is known, and its dots lie in their texts. -/
def Session.DotsWithin (s : Session) : Prop :=
  ∀ k ∈ s.workspace.listed, k < s.workspace.known.length ∧ (s.buffer k).DotsWithin

instance (s : Session) : Decidable s.DotsWithin := inferInstanceAs (Decidable (∀ _ ∈ _, _ ∧ _))

namespace Run
variable {h : Option Handle} {text : Text} {s t : Session} {o : Option EditError} {k : Handle}
  {engine : Engine}

/-! ## The commands that are run -/

/-- The commands that are run from a cursor on; the last of them may fail. -/
def commandsFrom : (fuel : Nat) → Cursor → Session → List Cmd
  | 0, _, _ => []
  | fuel + 1, c, s =>
    match nextCommand c s with
    | .ok (some cmd, c) s =>
      cmd :: match execute s.current cmd s with
        | .ok _ s => commandsFrom fuel c s
        | .error _ _ => []
    | _ => []

/-- The commands that are run in a session that a command text has begun in. -/
def textCommands (h : Option Handle) (text : Text) (s : Session) : List Cmd :=
  let c := Cursor.ofCommand text []
  if h.all s.workspace.listed.contains then commandsFrom (c.rest.length + 1) c s else []

/-- The commands that are run when a command text is edited with. -/
def commandsOf (h : Option Handle) (text : Text) (s : Session) : List Cmd :=
  if text.isEmpty || s.settings.maxCommand < text.length then []
  else textCommands h text ((begin h).final s)

/-- One session comes from another by running command texts that all return, with none but steady
commands run. -/
abbrev SteadyRuns : Session → Session → Prop :=
  ReflTransGen fun s t => ∃ h text o, edit h text s = .ok o t ∧
    ∀ c ∈ commandsOf h text s, c.Steady s.patterns.engine

/-! ## One command text -/

section
variable {R : Session → Session → Prop} [Session.Quiet R]

/-- What holds across each of the commands that are run holds across all of them. -/
theorem follows_commandsFrom {fuel : Nat} {c : Cursor} (hcmd : ∀ cmd ∈ commandsFrom fuel c s, ∀ u,
    R s u → R u ((execute u.current cmd).final u)) : R s ((runCommands fuel c).final s) := by
  induction fuel generalizing c s with
  | zero => exact Session.Quiet.refl s
  | succ fuel ih =>
    have hread := follows_nextCommand (R := R) c s
    unfold commandsFrom at hcmd
    unfold runCommands
    cases hnext : nextCommand c s with
    | error e u =>
      rw [final_of_error hnext] at hread
      rw [final_bind_of_error hnext]
      exact hread
    | ok next u =>
      rw [final_of_ok hnext] at hread
      rw [final_bind_of_ok hnext]
      obtain ⟨cmd,c'⟩ := next
      cases cmd with
      | none => exact hread
      | some cmd =>
        simp only [hnext] at hcmd
        obtain ⟨hfirst,hmore⟩ := List.forall_mem_cons.mp hcmd
        have hdone := hfirst u hread
        rw [final_bind_of_ok (get_eq u)]
        cases hrun : execute u.current cmd u with
        | error e v =>
          rw [final_of_error hrun] at hdone
          rw [final_bind_of_error hrun]
          exact Session.Quiet.trans hread hdone
        | ok a v =>
          rw [final_of_ok hrun] at hdone
          rw [final_bind_of_ok hrun]
          simp only [hrun] at hmore
          have hsofar := Session.Quiet.trans hread hdone
          refine Session.Quiet.trans hsofar (ih fun cmd hmem w hw => ?_)
          exact hmore cmd hmem w (Session.Quiet.trans hsofar hw)

theorem follows_textCommands (hcmd : ∀ cmd ∈ textCommands h text s, ∀ u,
    R s u → R u ((execute u.current cmd).final u)) : R s ((runText h text).final s) := by
  unfold textCommands at hcmd
  extract_lets c at hcmd
  cases h with
  | none => exact follows_commandsFrom hcmd
  | some h =>
    unfold runText
    rw [final_bind_of_ok (get_eq s)]
    simp only [Option.all_some] at hcmd
    split at hcmd
    · rename_i hlisted
      rw [if_neg (by simp only [hlisted]; decide)]
      exact follows_commandsFrom hcmd
    · rename_i hlisted
      rw [if_pos (by simp only [hlisted]; decide)]
      exact Session.Quiet.refl s

end

theorem fit_runText (hsteady : ∀ c ∈ textCommands h text s, c.Steady engine)
    (hk : s.Fit k engine) : ((runText h text).final s).Fit k engine := by
  have : Session.Quiet fun s t => s.Fit k engine → t.Fit k engine :=
    ⟨fun _ hs => hs,fun hst htu hs => htu (hst hs),
      fun _ _ _ _ _ halike hs => ⟨hs.dots,halike.engine.trans hs.engine⟩⟩
  refine follows_textCommands (R := fun s t => s.Fit k engine → t.Fit k engine)
    (fun cmd hcmd u _ hu => ?_) hk
  exact (keeps_execute u.current cmd (hsteady cmd hcmd) u hu trivial).1

theorem keeps_abandon (e : EditError) : (abandon e).Keeps k engine (fun _ => True) fun _ _ => True := by
  refine keeps_bind (Q := fun _ _ => True) ?_ fun _ => keeps_quietly ?_
  · intro s hs _
    have hdots := s.workspace.updateListed_preserves (fun _ hb => hb.rollback) hs.dots
    exact ⟨⟨hdots,hs.engine⟩,fun _ _ => trivial⟩
  · exact follows_bind (follows_warn _) fun _ => within_aside (fun _ => rfl) (fun _ => rfl) fun _ => rfl

theorem fit_carryOut (hsteady : ∀ c ∈ textCommands h text s, c.Steady engine)
    (hk : s.Fit k engine) : ((carryOut h text).final s).Fit k engine := by
  have hdone := fit_runText hsteady hk
  unfold carryOut
  cases hrun : runText h text s with
  | ok a r =>
    rw [final_of_ok hrun] at hdone
    rw [final_bind_of_ok (show caught (runText h text) s = .ok none r by simp only [caught, hrun])]
    exact hdone
  | error f r =>
    rw [final_of_error hrun] at hdone
    cases f with
    | edit e =>
      rw [final_bind_of_ok (show caught (runText h text) s = .ok (some e) r by
        simp only [caught, hrun])]
      change ((abandon e >>= fun _ => pure (some e)).final r).Fit k engine
      rw [final_bind_pure]
      exact (keeps_abandon e r hdone trivial).1
    | _ =>
      rw [final_bind_of_error (by simp only [caught, hrun]; rfl)]
      exact hdone

theorem fit_begin (h : Option Handle) (hk : s.Fit k engine) : ((begin h).final s).Fit k engine where
  dots := s.workspace.updateListed_preserves (f := fun b => { b with editClean := false })
    (fun _ hb => hb.congr rfl rfl rfl rfl) hk.dots
  engine := hk.engine

/-- A text that is empty or too long is not run. -/
theorem workspace_edit_refused (hrun : edit h text s = .ok o t)
    (hrefused : (text.isEmpty || s.settings.maxCommand < text.length) = true) :
    t.workspace = s.workspace := by
  unfold edit at hrun
  split at hrun
  · cases hrun
    rfl
  obtain ⟨_,_,hget,hrun⟩ := ok_of_bind hrun
  cases hget
  split at hrun
  · cases hrun
    rfl
  · simp_all

/-- A command text that returns keeps every dot in its text, if steady commands are run only. -/
theorem dotsWithin_edit (hs : s.DotsWithin) (hrun : edit h text s = .ok o t)
    (hsteady : ∀ c ∈ commandsOf h text s, c.Steady s.patterns.engine) : t.DotsWithin := by
  unfold commandsOf at hsteady
  split at hsteady
  · rename_i hrefused
    have hw := workspace_edit_refused hrun hrefused
    unfold Session.DotsWithin Session.buffer
    rw [hw]
    exact hs
  rcases edit_cases (fun k hk => (hs k hk).1) hrun with ⟨-,hw,-⟩ | ⟨c,hpending,-,-,hbuffers⟩
  · unfold Session.DotsWithin Session.buffer
    rw [hw]
    exact hs
  intro k hk
  obtain ⟨hlt,b,d,r,horigin,-,-,hcommit⟩ := hbuffers k hk
  refine ⟨hlt,?_⟩
  have hbefore : (s.buffer k).DotsWithin := by
    rcases horigin with ⟨hold,-⟩ | ⟨hnew,-⟩
    · exact (hs k hold).2
    · have hdefault : s.buffer k = default := by
        simp [Session.buffer, Workspace.buffer, List.getD_eq_getElem?_getD, hnew]
      rw [hdefault]
      exact Buffer.dotsWithin_default
  have hc : (c.buffer k).DotsWithin := by
    have hdone := (fit_carryOut hsteady (fit_begin h ⟨hbefore,rfl⟩)).dots
    obtain ⟨b,hbegin,-⟩ := begin_begun h s
    unfold pending at hpending
    rw [bind_of_ok hbegin] at hpending
    rwa [final_of_ok hbegin, final_of_ok hpending] at hdone
  exact hc.commit hcommit

/-! ## Runs of command texts -/

theorem dotsWithin_runs (hs : s.DotsWithin) (hruns : SteadyRuns s t) : t.DotsWithin := by
  induction hruns with
  | refl => exact hs
  | tail _ hstep ih =>
    obtain ⟨h,text,o,hrun,hsteady⟩ := hstep
    exact dotsWithin_edit ih hrun hsteady

/-- Dot never leaves the text of a listed buffer while steady commands are run. -/
theorem dot_within_runs (hs : s.DotsWithin) (hruns : SteadyRuns s t) :
    ∀ k ∈ t.workspace.listed, (t.buffer k).dot.Within (t.buffer k).text :=
  fun k hk => (dotsWithin_runs hs hruns k hk).2.dot

/-- Every pattern matches forward if possessive repetitions are atomic. -/
theorem matchesForward_of_engine (hengine : engine.keepsFailedRounds = false) (p : Text) :
    MatchesForward engine p := fun _ hre => Regex.forward_of_compile hengine hre

/-- An undo step that makes the text longer, and after it a loop that goes through all of it. -/
theorem dot_within_runs_undone :
    let last : UndoEntry := ⟨1, "banana".toList, "band".toList, ⟨0, 0⟩, ⟨3, 4⟩⟩
    let s : Session := {
      workspace := {
        known := [{ text := "band".toList, dot := ⟨3, 4⟩, timeline := ⟨[last], []⟩ }], listed := [0] }
      seq := 1 }
    let t : Session := (edit (some 0) "u\n,x/an/ c/o/".toList).final s
    s.DotsWithin ∧ SteadyRuns s t ∧ (t.buffer 0).text = "booa".toList ∧
      (t.buffer 0).dot.Within (t.buffer 0).text := by
  intro last s t
  have hs : s.DotsWithin := by decide
  have hcommands : commandsOf (some 0) "u\n,x/an/ c/o/".toList s = [.act none (.undo 1),
      .extract (some (.toEnd none .comma)) (.matching "an".toList) (.act none (.change "o".toList))] := by
    cbv
  have han : MatchesForward s.patterns.engine "an".toList := matchesForward_of_engine rfl _
  have hrun : edit (some 0) "u\n,x/an/ c/o/".toList s = .ok none t := ok_of_value (by decide +kernel)
  have hruns : SteadyRuns s t := by
    refine .single ⟨_,_,_,hrun,?_⟩
    rw [hcommands]
    simpa [Cmd.Steady, Addr.Forward, RangeLoop.Forward, Cmd.undoes, Action.undoes] using han
  exact ⟨hs,hruns,by decide +kernel,dot_within_runs hs hruns 0 (by decide +kernel)⟩

/-- A loop that undoes the insertion it visits: its ranges are gone, and still dot is set to the
last of them. -/
theorem dot_leaves_text :
    let s : Session := { workspace := { known := [{}], listed := [0] } }
    let t : Session := (edit (some 0) "a/xyz/".toList).final s
    let u : Session := (edit (some 0) ",x/./ u".toList).final t
    s.DotsWithin ∧ s.Runs u ∧ 0 ∈ u.workspace.listed ∧ (u.buffer 0).text = [] ∧
      (u.buffer 0).dot = ⟨2, 3⟩ ∧ ¬ (u.buffer 0).dot.Within (u.buffer 0).text := by
  intro s t u
  have hfirst : edit (some 0) "a/xyz/".toList s = .ok none t := ok_of_value (by decide +kernel)
  have hsecond : edit (some 0) ",x/./ u".toList t = .ok none u := ok_of_value (by decide +kernel)
  have hruns : s.Runs u := (ReflTransGen.single ⟨_,_,_,hfirst⟩).tail ⟨_,_,_,hsecond⟩
  exact ⟨by decide,hruns,by decide +kernel,by decide +kernel,by decide +kernel,by decide +kernel⟩

end Run

end StructuralEdit
