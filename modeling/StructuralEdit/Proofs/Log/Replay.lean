import StructuralEdit.Buffer.Basic
import StructuralEdit.Proofs.Log.Request
import StructuralEdit.Proofs.Outcome

/-! # Replaying a log

Carrying out a sound change never fails, and all it does to a buffer is to cut its
text at two offsets, clipped to the text, and to move its dot. A log is carried out
newest change first.
-/
namespace StructuralEdit

namespace Change

/-- The text after a change; offsets behind the end mean the end. -/
def applyTo (e : Change) (t : Text) : Text := t.take e.q0.toNat ++ e.text ++ t.drop e.stop.toNat

/-- An empty dot at the place of a change covers the new text. -/
def cover (e : Change) (dot : Span) : Span :=
  if dot.q0 = e.q0 ∧ dot.q1 = e.q0 then ⟨dot.q0, dot.q1 + e.text.length⟩ else dot

/-- Dot after a change in a text of some size: first for what is taken out, then for what is put
in. -/
def dotAfter (e : Change) (size : Nat) (dot : Span) : Span :=
  let q0 := min e.q0 size
  e.cover (Buffer.dotAfterInsert (Buffer.dotAfterDelete dot q0 (min e.stop size - q0)) q0 e.text.length)

end Change

namespace Text

/-- The text after some changes, made in the given order. -/
def replay (t : Text) (es : List Change) : Text := es.foldl (fun t e => e.applyTo t) t

/-- Dot after some changes, made in the given order. -/
def replayDot (t : Text) (dot : Span) : List Change → Span
  | [] => dot
  | e :: es => (e.applyTo t).replayDot (e.dotAfter t.length dot) es

@[simp] theorem replay_nil (t : Text) : t.replay [] = t := rfl
@[simp] theorem replay_cons (t : Text) (e : Change) (es : List Change) :
    t.replay (e :: es) = (e.applyTo t).replay es := rfl

end Text

namespace Buffer

@[simp] theorem dotAfterDelete_zero (dot : Span) (q : Int) : dotAfterDelete dot q 0 = dot := by
  obtain ⟨d0,d1⟩ := dot
  simp only [dotAfterDelete, Span.mk.injEq]
  constructor <;> split <;> omega

@[simp] theorem dotAfterInsert_zero (dot : Span) (q : Int) : dotAfterInsert dot q 0 = dot := by
  simp [dotAfterInsert]

theorem rangeFault?_eq_none {b : Buffer} {q0 q1 : Int} (h0 : 0 ≤ q0) (h1 : q0 ≤ q1)
    (h2 : q1 ≤ b.size) : b.rangeFault? q0 q1 = none := by
  rw [rangeFault?, if_neg (by omega), if_neg (by omega)]

/-- What deleting in range does to a buffer. -/
theorem delete_eq {b : Buffer} {q0 q1 : Int} (h0 : 0 ≤ q0) (h1 : q0 ≤ q1) (h2 : q1 ≤ b.size) :
    ∃ v, b.delete q0 q1 = .ok { b with
      text := b.text.take q0.toNat ++ b.text.drop q1.toNat, version := v,
      dot := dotAfterDelete b.dot q0 (q1 - q0) } := by
  simp only [delete, rangeFault?_eq_none h0 h1 h2]
  by_cases h : q1 ≤ q0
  · have hq : q1.toNat = q0.toNat := by omega
    rw [if_pos h, hq, List.take_append_drop]
    exact ⟨b.version,rfl⟩
  · rw [if_neg h]
    exact ⟨_,rfl⟩

/-- What inserting in range does to a buffer. -/
theorem insert_eq {b : Buffer} {q : Int} (t : Text) (h0 : 0 ≤ q) (h1 : q ≤ b.size) :
    ∃ v, b.insert q t = .ok { b with
      text := b.text.take q.toNat ++ t ++ b.text.drop q.toNat, version := v,
      dot := dotAfterInsert b.dot q t.length } := by
  simp only [insert, rangeFault?_eq_none h0 (Int.le_refl q) h1]
  by_cases h : t = []
  · subst h
    simp only [List.append_nil, List.take_append_drop, ↓reduceIte]
    exact ⟨b.version,rfl⟩
  · rw [if_neg h]
    exact ⟨_,rfl⟩

theorem coverNewText_eq (e : Change) (b : Buffer) :
    coverNewText e b = { b with dot := e.cover b.dot } := by
  unfold coverNewText Change.cover
  split <;> rfl

/-- Inserting the text of a change, with dot grown over it. -/
theorem insert_cover_eq {b : Buffer} {q : Int} (e : Change) (h0 : 0 ≤ q) (h1 : q ≤ b.size) :
    ∃ v, (do attempt (·.insert q e.text); modify (coverNewText e) : Edit Unit) b =
      .ok () { b with
        text := b.text.take q.toNat ++ e.text ++ b.text.drop q.toNat, version := v,
        dot := e.cover (dotAfterInsert b.dot q e.text.length) } := by
  obtain ⟨v,hi⟩ := insert_eq e.text h0 h1
  have hinsert : attempt (·.insert q e.text) b = .ok () { b with
      text := b.text.take q.toNat ++ e.text ++ b.text.drop q.toNat, version := v,
      dot := dotAfterInsert b.dot q e.text.length } := by simp only [attempt, hi]
  refine ⟨v,?_⟩
  rw [bind_of_ok hinsert]
  exact congrArg (EStateM.Result.ok ()) (coverNewText_eq e _)

theorem attempt_delete_eq {b : Buffer} {q0 q1 : Int} (h0 : 0 ≤ q0) (h1 : q0 ≤ q1)
    (h2 : q1 ≤ b.size) : ∃ v, attempt (·.delete q0 q1) b = .ok () { b with
      text := b.text.take q0.toNat ++ b.text.drop q1.toNat, version := v,
      dot := dotAfterDelete b.dot q0 (q1 - q0) } := by
  obtain ⟨v,hd⟩ := delete_eq h0 h1 h2
  exact ⟨v,by simp only [attempt, hd]⟩

/-- Carrying out a sound change. -/
theorem applyChange_eq {e : Change} (he : e.Sound) (b : Buffer) :
    ∃ v, applyChange e b = .ok () { b with
      text := e.applyTo b.text, version := v, dot := e.dotAfter b.size b.dot } := by
  have hle := he.start_le_stop
  obtain ⟨h0,hl,hi,hd⟩ := he
  let q0 := min e.q0 b.size
  let q1 := min e.stop b.size
  have hq0 : 0 ≤ q0 := by simp only [q0]; omega
  have hq01 : q0 ≤ q1 := by simp only [q0, q1]; omega
  have hq1 : q1 ≤ b.size := Int.min_le_right ..
  -- cutting at an offset clips it by itself
  have htake : b.text.take q0.toNat = b.text.take e.q0.toNat := by
    rw [List.take_eq_take_iff]
    simp only [q0, size]
    omega
  have hdrop : b.text.drop q1.toNat = b.text.drop e.stop.toNat := by
    rw [List.drop_eq_drop_iff]
    simp only [q1, size]
    omega
  have htext : e.applyTo b.text = b.text.take q0.toNat ++ e.text ++ b.text.drop q1.toNat := by
    rw [Change.applyTo, htake, hdrop]
  cases hk : e.kind with
  | delete =>
    obtain ⟨v,hdel⟩ := attempt_delete_eq hq0 hq01 hq1
    have hrun : applyChange e b = attempt (·.delete q0 q1) b := by
      simp only [applyChange, hk]
      rfl
    have hdot : e.dotAfter b.size b.dot = dotAfterDelete b.dot q0 (q1 - q0) := by
      simp [Change.dotAfter, Change.cover, hd hk, q0, q1]
    exact ⟨v,by rw [hrun, hdel, htext, hdot, hd hk, List.append_nil]⟩
  | insert =>
    have hq : q1 = q0 := by simp only [q0, q1, Change.stop, hi hk]; omega
    obtain ⟨v,hins⟩ := insert_cover_eq (b := b) e hq0 (Int.le_trans hq01 hq1)
    have hrun : applyChange e b = (do attempt (·.insert q0 e.text); modify (coverNewText e) : Edit Unit) b := by
      simp only [applyChange, hk]
      rfl
    have hdot : e.dotAfter b.size b.dot = e.cover (dotAfterInsert b.dot q0 e.text.length) := by
      rw [Change.dotAfter, show min e.stop b.size - min e.q0 b.size = 0 from by
        simp only [q0, q1] at hq; omega, dotAfterDelete_zero]
    exact ⟨v,by rw [hrun, hins, htext, hdot, hq]⟩
  | replace =>
    obtain ⟨v,hdel⟩ := attempt_delete_eq hq0 hq01 hq1
    let d : Buffer := { b with
      text := b.text.take q0.toNat ++ b.text.drop q1.toNat, version := v,
      dot := dotAfterDelete b.dot q0 (q1 - q0) }
    have hlen : (b.text.take q0.toNat).length = q0.toNat := by
      rw [List.length_take]
      simp only [size] at hq1
      omega
    have hqd : q0 ≤ d.size := by
      simp only [d, size, List.length_append, hlen]
      omega
    obtain ⟨w,hins⟩ := insert_cover_eq (b := d) e hq0 hqd
    have hrun : applyChange e b = (do
        attempt (·.delete q0 q1)
        attempt (·.insert q0 e.text)
        modify (coverNewText e) : Edit Unit) b := by
      simp only [applyChange, hk]
      rfl
    have hcut : d.text.take q0.toNat ++ e.text ++ d.text.drop q0.toNat = e.applyTo b.text := by
      rw [htext, List.take_left' hlen, List.drop_left' hlen]
    exact ⟨w,by rw [hrun, bind_of_ok hdel, hins, hcut]; rfl⟩

/-- Carrying out sound changes one after another. -/
theorem applyChanges_eq {es : List Change} (hs : ∀ e ∈ es, e.Sound) (b : Buffer) :
    ∃ v, applyChanges es b = .ok () { b with
      text := b.text.replay es, version := v, dot := b.text.replayDot b.dot es } := by
  induction es generalizing b with
  | nil => exact ⟨b.version,rfl⟩
  | cons e es ih =>
    obtain ⟨v,he⟩ := applyChange_eq (hs e List.mem_cons_self) b
    obtain ⟨w,hes⟩ := ih (fun d hd => hs d (List.mem_cons_of_mem e hd)) { b with
      text := e.applyTo b.text, version := v, dot := e.dotAfter b.size b.dot }
    exact ⟨w,by rw [applyChanges, bind_of_ok he, hes]; rfl⟩

/-- Carrying out a sound log, which is empty afterwards. -/
theorem applyLog_eq {b : Buffer} (hs : b.log.Sound) :
    ∃ v, applyLog b = .ok () { b with
      text := b.text.replay b.log.changes, version := v,
      dot := b.text.replayDot b.dot b.log.changes, log := {} } := by
  obtain ⟨v,h⟩ := applyChanges_eq hs b
  refine ⟨v,?_⟩
  have hrun : applyLog b = (do applyChanges b.log.changes; modify clearLog : Edit Unit) b := rfl
  rw [hrun, bind_of_ok h]
  rfl

end Buffer

end StructuralEdit
