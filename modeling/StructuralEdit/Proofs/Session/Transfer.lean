import StructuralEdit.Proofs.Address.Within
import StructuralEdit.Proofs.Session.Recording
import StructuralEdit.Session.Execute

/-! # Copying and moving a range

A copy and a move are recorded against the offsets that the text has before either is made. Whether
a range is moved forward or back, its removal and its insertion stand in the log from left to
right, so that neither disturbs the other.
-/
namespace StructuralEdit

namespace Text
variable {t : Text} {a : Span} {p q : Int}

theorem slice_reversed (h0 : 0 ≤ q) (h : q ≤ p) : t.slice p q = [] := by
  have hclip : t.clip q ≤ t.clip p := by
    unfold clip
    rw [if_neg (by omega), if_neg (by omega)]
    omega
  rw [slice, List.drop_eq_nil_of_le (Nat.le_trans (List.length_take_le _ _) hclip)]

/-- What `[p, q)` of a text holds outside a range. -/
def outside (t : Text) (a : Span) (p q : Int) : Text := t.slice p (min q a.q0) ++ t.slice (max p a.q1) q

/-- A text with a range of it taken from its place and put at an offset. -/
def moved (t : Text) (a : Span) (p : Int) : Text :=
  t.outside a 0 p ++ t.slice a.q0 a.q1 ++ t.outside a p t.length

theorem outside_front (ha : a.q0 ≤ a.q1) (h0 : 0 ≤ q) (hq : q ≤ a.q0) : t.outside a p q = t.slice p q := by
  have hbehind : t.slice (max p a.q1) q = [] := slice_reversed h0 (by omega)
  rw [outside, hbehind, Int.min_eq_left hq, List.append_nil]

theorem outside_behind (h0 : 0 ≤ a.q0) (ha : a.q0 ≤ a.q1) (hp : a.q1 ≤ p) (hpq : p ≤ q) :
    t.outside a p q = t.slice p q := by
  have hfront : t.slice p (min q a.q0) = [] := slice_reversed (by omega) (by omega)
  rw [outside, hfront, Int.max_eq_left hp, List.nil_append]

theorem outside_around (hp : p ≤ a.q1) (hq : a.q0 ≤ q) :
    t.outside a p q = t.slice p a.q0 ++ t.slice a.q1 q := by
  rw [outside, Int.min_eq_right hq, Int.max_eq_right hp]

theorem moved_back (ha : a.Within t) (h0 : 0 ≤ p) (hp : p ≤ a.q0) :
    t.moved a p = t.slice 0 p ++ t.slice a.q0 a.q1 ++ (t.slice p a.q0 ++ t.slice a.q1 t.length) := by
  obtain ⟨-,h1,h2⟩ := ha
  rw [moved, outside_front h1 h0 hp, outside_around (by omega) (by omega)]

theorem moved_onward (ha : a.Within t) (hp : a.q1 ≤ p) (h2 : p ≤ t.length) :
    t.moved a p = t.slice 0 a.q0 ++ (t.slice a.q1 p ++ t.slice a.q0 a.q1 ++ t.slice p t.length) := by
  obtain ⟨h0,h1,-⟩ := ha
  rw [moved, outside_around (by omega) (by omega), outside_behind h0 h1 hp h2]
  simp only [List.append_assoc]

theorem slice_around (ha : a.Within t) :
    t.slice 0 a.q0 ++ (t.slice a.q0 a.q1 ++ t.slice a.q1 t.length) = t := by
  obtain ⟨h0,h1,h2⟩ := ha
  rw [slice_append_slice h0 h1 h2 (Int.le_refl _), slice_append_slice (Int.le_refl 0) h0
    (Int.le_trans h1 h2) (Int.le_refl _), slice_whole]

theorem moved_self (ha : a.Within t) : t.moved a a.q1 = t := by
  rw [moved_onward ha (Int.le_refl _) ha.stop, slice_self, List.nil_append, slice_around ha]

/-- Moving neither loses nor doubles a character. -/
theorem moved_perm (ha : a.Within t) (h0 : 0 ≤ p) (h2 : p ≤ t.length) (hp : p ≤ a.q0 ∨ a.q1 ≤ p) :
    (t.moved a p).Perm t := by
  have hwhole := slice_around ha
  have hstop := ha.stop
  -- the range changes places with what lies between it and the offset
  have hswap (front piece behind : Text) : (front ++ (piece ++ t.slice a.q0 a.q1 ++ behind)).Perm
      (front ++ (t.slice a.q0 a.q1 ++ piece ++ behind)) :=
    (List.perm_append_comm.append_right behind).append_left front
  rcases hp with hp | hp
  · have hfront := slice_append_slice (Int.le_refl 0) h0 hp (Int.le_trans ha.ordered hstop)
    have hperm := (hswap (t.slice 0 p) (t.slice p a.q0) (t.slice a.q1 t.length)).symm
    rw [moved_back ha h0 hp]
    simp only [List.append_assoc] at hperm ⊢
    rwa [← List.append_assoc (t.slice 0 p) (t.slice p a.q0), hfront, hwhole] at hperm
  · have hbehind := slice_append_slice (Int.le_trans ha.start ha.ordered) hp h2 (Int.le_refl _)
    have hperm := hswap (t.slice 0 a.q0) (t.slice a.q1 p) (t.slice p t.length)
    rw [moved_onward ha hp h2]
    simp only [List.append_assoc] at hperm ⊢
    rwa [hbehind, hwhole] at hperm

end Text

namespace Session
variable {h : Handle} {s t : Session} {text : Text}

/-- Something has been recorded in a buffer, without a warning, that a commit makes a text of. -/
def Prepared (h : Handle) (text : Text) (s t : Session) : Prop :=
  ∃ cs, s.Recorded h cs t ∧ ∀ seq, ∃ r d, Buffer.commit seq (t.buffer h) = .ok r d ∧ d.text = text

theorem Recorded.prepared {cs : List ChangeRequest} (hr : s.Recorded h cs t)
    (hlog : (s.buffer h).log.isEmpty = true) (hcs : InSequence 0 (s.buffer h).size cs) :
    Prepared h ((s.buffer h).text.simultaneous 0 cs) s t := ⟨cs,hr,hr.commit hlog hcs⟩

end Session

namespace Run
variable {h : Handle} {s : Session} {a b : Span} {c d : ChangeRequest}

/-- Requests in sequence recorded one after the other in a buffer with nothing pending. -/
theorem recorded_both (hk : h < s.workspace.known.length) (hlog : (s.buffer h).log.isEmpty = true)
    (hcs : InSequence 0 (s.buffer h).size [c, d]) : ∃ t u, record h c.record s = .ok () t ∧
      (t.buffer h).text = (s.buffer h).text ∧ record h d.record t = .ok () u ∧
      s.Prepared h ((s.buffer h).text.simultaneous 0 [c, d]) u := by
  have hquiet := hcs.quiet (Int.le_refl 0) (EditLog.below_of_isEmpty hlog) (EditLog.sound_of_isEmpty hlog)
  obtain ⟨hc,hd⟩ := EditLog.recordAll_cons_quiet.mp hquiet
  obtain ⟨t,ht,hr,-⟩ := record_recorded hk hc
  have hd' : (d.record (t.buffer h).log).2 = none := by
    rw [hr.log]
    exact (EditLog.recordAll_cons_quiet.mp hd).1
  obtain ⟨u,hu,hr',-⟩ := record_recorded (hr.handles.length ▸ hk) hd'
  exact ⟨t,u,ht,hr.text,hu,(hr.trans hr').prepared hlog hcs⟩

theorem copyTo_eq (h : Handle) (a b : Span) (s : Session) : copyTo ⟨a, h⟩ ⟨b, h⟩ s =
    record h (ChangeRequest.insert b.q1 ((s.buffer h).text.slice a.q0 a.q1)).record s := rfl

theorem moveTo_onward (hab : a.q1 ≤ b.q0) (s : Session) : moveTo ⟨a, h⟩ ⟨b, h⟩ s =
    (do record h (ChangeRequest.delete a.q0 a.q1).record; copyTo ⟨a, h⟩ ⟨b, h⟩ : Run Unit) s := by
  unfold moveTo
  rw [if_pos (.inr hab)]
  rfl

theorem moveTo_back (hab : ¬a.q1 ≤ b.q0) (hba : b.q1 ≤ a.q0) (s : Session) : moveTo ⟨a, h⟩ ⟨b, h⟩ s =
    (do copyTo ⟨a, h⟩ ⟨b, h⟩; record h (ChangeRequest.delete a.q0 a.q1).record : Run Unit) s := by
  unfold moveTo
  rw [if_neg (not_or.mpr ⟨not_not_intro rfl,hab⟩), if_pos hba]
  rfl

theorem moveTo_over (hab : ¬a.q1 ≤ b.q0) (hba : ¬b.q1 ≤ a.q0) (s : Session) : moveTo ⟨a, h⟩ ⟨b, h⟩ s =
    if a = b then .ok () s else .error (.edit .moveOverlaps) s := by
  unfold moveTo
  rw [if_neg (not_or.mpr ⟨not_not_intro rfl,hab⟩), if_neg hba]
  split <;> rfl

theorem copyTo_prepared (hk : h < s.workspace.known.length) (hlog : (s.buffer h).log.isEmpty = true)
    (hb : b.Within (s.buffer h).text) : ∃ t, copyTo ⟨a, h⟩ ⟨b, h⟩ s = .ok () t ∧
      s.Prepared h ((s.buffer h).text.slice 0 b.q1 ++ (s.buffer h).text.slice a.q0 a.q1 ++
        (s.buffer h).text.slice b.q1 (s.buffer h).text.length) t := by
  obtain ⟨h0,h1,h2⟩ := hb
  have hcs : InSequence 0 (s.buffer h).size [.insert b.q1 ((s.buffer h).text.slice a.q0 a.q1)] :=
    ⟨Int.le_trans h0 h1,Int.le_refl _,h2⟩
  have hquiet := hcs.quiet (Int.le_refl 0) (EditLog.below_of_isEmpty hlog) (EditLog.sound_of_isEmpty hlog)
  obtain ⟨t,ht,hr,-⟩ := record_recorded hk (EditLog.recordAll_cons_quiet.mp hquiet).1
  exact ⟨t,ht,hr.prepared hlog hcs⟩

theorem moveTo_prepared (hk : h < s.workspace.known.length) (hlog : (s.buffer h).log.isEmpty = true)
    (ha : a.Within (s.buffer h).text) (hb : b.Within (s.buffer h).text)
    (hover : ¬(b.q0 < a.q1 ∧ a.q0 < b.q1 ∧ a ≠ b)) : ∃ t, moveTo ⟨a, h⟩ ⟨b, h⟩ s = .ok () t ∧
      s.Prepared h ((s.buffer h).text.moved a b.q1) t := by
  obtain ⟨ha0,ha1,ha2⟩ := ha
  obtain ⟨hb0,hb1,hb2⟩ := hb
  by_cases hab : a.q1 ≤ b.q0
  · have hcs : InSequence 0 (s.buffer h).size
        [.delete a.q0 a.q1, .insert b.q1 ((s.buffer h).text.slice a.q0 a.q1)] :=
      ⟨ha0,ha1,Int.le_trans hab hb1,Int.le_refl _,hb2⟩
    obtain ⟨t,u,ht,htext,hu,hprepared⟩ := recorded_both hk hlog hcs
    refine ⟨u,?_,?_⟩
    · rw [moveTo_onward hab, bind_of_ok ht, copyTo_eq, htext, hu]
    · rw [Text.moved_onward ⟨ha0,ha1,ha2⟩ (Int.le_trans hab hb1) hb2]
      simpa [Text.simultaneous, ChangeRequest.span, ChangeRequest.text, Span.point] using hprepared
  by_cases hba : b.q1 ≤ a.q0
  · have hcs : InSequence 0 (s.buffer h).size
        [.insert b.q1 ((s.buffer h).text.slice a.q0 a.q1), .delete a.q0 a.q1] :=
      ⟨Int.le_trans hb0 hb1,Int.le_refl _,hba,ha1,ha2⟩
    obtain ⟨t,u,ht,-,hu,hprepared⟩ := recorded_both hk hlog hcs
    refine ⟨u,?_,?_⟩
    · rw [moveTo_back hab hba, bind_of_ok ((copyTo_eq h a b s).trans ht), hu]
    · rw [Text.moved_back ⟨ha0,ha1,ha2⟩ (Int.le_trans hb0 hb1) hba]
      simpa [Text.simultaneous, ChangeRequest.span, ChangeRequest.text, Span.point] using hprepared
  · obtain rfl : a = b := Decidable.byContradiction fun hne => hover ⟨by omega,by omega,hne⟩
    have hcs : InSequence 0 (s.buffer h).size [] := Int.natCast_nonneg _
    have hprepared := (Session.Recorded.refl h s).prepared hlog hcs
    refine ⟨s,?_,?_⟩
    · rw [moveTo_over hab hba, if_pos rfl]
    · rw [Text.moved_self ⟨ha0,ha1,ha2⟩]
      rwa [Text.simultaneous, Text.slice_whole] at hprepared

/-- A copy within a buffer with nothing pending puts the text of a range behind another and changes nothing
else. A move that overlaps its target, and is not from a range to itself, records nothing and is an error; every
other one takes the range from its place and puts it behind the target, and what it leaves outside stays in
order. -/
theorem transfer_exact (hk : h < s.workspace.known.length) (hlog : (s.buffer h).log.isEmpty = true)
    (ha : a.Within (s.buffer h).text) (hb : b.Within (s.buffer h).text) :
    let text := (s.buffer h).text
    (∃ t, copyTo ⟨a, h⟩ ⟨b, h⟩ s = .ok () t ∧ s.Prepared h
      (text.slice 0 b.q1 ++ text.slice a.q0 a.q1 ++ text.slice b.q1 text.length) t) ∧
    if b.q0 < a.q1 ∧ a.q0 < b.q1 ∧ a ≠ b then
      moveTo ⟨a, h⟩ ⟨b, h⟩ s = .error (.edit .moveOverlaps) s
    else (text.moved a b.q1).Perm text ∧
      ∃ t, moveTo ⟨a, h⟩ ⟨b, h⟩ s = .ok () t ∧ s.Prepared h (text.moved a b.q1) t := by
  intro text
  refine ⟨copyTo_prepared hk hlog hb,?_⟩
  split
  · rename_i hover
    obtain ⟨hab,hba,hne⟩ := hover
    rw [moveTo_over (by omega) (by omega), if_neg hne]
  · rename_i hover
    refine ⟨Text.moved_perm ha (Int.le_trans hb.start hb.ordered) hb.stop ?_,moveTo_prepared hk hlog ha hb hover⟩
    by_cases heq : a = b
    · exact .inr (heq ▸ Int.le_refl _)
    · have hordered := hb.ordered
      have hapart : ¬(b.q0 < a.q1 ∧ a.q0 < b.q1) := fun h => hover ⟨h.1,h.2,heq⟩
      omega

theorem transfer_exact_back :
    let s : Session := { workspace := { known := [{ text := "one two".toList }], listed := [0] } }
    let a : Span := ⟨4, 7⟩
    let b : Span := ⟨0, 0⟩
    0 < s.workspace.known.length ∧ (s.buffer 0).log.isEmpty = true ∧ a.Within (s.buffer 0).text ∧
      b.Within (s.buffer 0).text ∧
      (∃ t, copyTo ⟨a, 0⟩ ⟨b, 0⟩ s = .ok () t ∧ s.Prepared 0 "twoone two".toList t) ∧
      "twoone ".toList.Perm "one two".toList ∧
      ∃ t, moveTo ⟨a, 0⟩ ⟨b, 0⟩ s = .ok () t ∧ s.Prepared 0 "twoone ".toList t := by
  intro s a b
  have ha : a.Within (s.buffer 0).text := by decide
  have hb : b.Within (s.buffer 0).text := by decide
  have hk : 0 < s.workspace.known.length := by decide
  have hlog : (s.buffer 0).log.isEmpty = true := by decide
  obtain ⟨hcopy,hmove⟩ := transfer_exact hk hlog ha hb
  rw [if_neg (by decide)] at hmove
  exact ⟨hk,hlog,ha,hb,hcopy,hmove⟩

end Run

end StructuralEdit
