import StructuralEdit.Proofs.Buffer.Dots
import StructuralEdit.Proofs.Log.Order
import StructuralEdit.Proofs.Log.Simultaneous

/-! # How dot moves with the text

Whatever was recorded in a log, carrying it out leaves dot in the text. Dot keeps to the text it
selects when no change reaches that text: changes behind it leave it where it is, and changes in
front of it move it by what they make the text grow. It selects the new text of a change made
in its place.
-/
namespace StructuralEdit

/-! ## Slices of joined texts -/

namespace Text
variable {t u : Text} {p q : Int}

theorem slice_append_left (h0 : 0 ≤ p) (hpq : p ≤ q) (hq : q ≤ t.length) :
    (t ++ u).slice p q = t.slice p q := by
  have hlen : q ≤ (t ++ u).length := by
    rw [List.length_append]
    omega
  rw [slice_eq h0 hpq hlen, slice_eq h0 hpq hq, List.take_append_of_le_length (by omega)]

theorem slice_append_right (h0 : 0 ≤ p) (hpq : p ≤ q) (hq : q ≤ u.length) :
    (t ++ u).slice (t.length + p) (t.length + q) = u.slice p q := by
  have hlen : t.length + q ≤ (t ++ u).length := by
    rw [List.length_append]
    omega
  have hadd {r : Int} (hr : 0 ≤ r) : (t.length + r).toNat = t.length + r.toNat := by omega
  rw [slice_eq (by omega) (by omega) hlen, slice_eq h0 hpq hq, hadd h0, hadd (by omega),
    List.take_length_add_append, List.drop_length_add_append]

/-- A slice behind an offset, counted from there. -/
theorem slice_drop {n : Nat} (h0 : 0 ≤ p) (hpq : p ≤ q) (hq : n + q ≤ t.length) :
    slice (t.drop n) p q = t.slice (n + p) (n + q) := by
  have hn : (t.take n).length = n := List.length_take_of_le (by omega)
  have hright := slice_append_right (t := t.take n) (u := t.drop n) h0 hpq (by rw [List.length_drop]; omega)
  rw [List.take_append_drop, hn] at hright
  exact hright.symm

theorem slice_take {n : Nat} (h0 : 0 ≤ p) (hpq : p ≤ q) (hn : q ≤ n) (hq : q ≤ t.length) :
    slice (t.take n) p q = t.slice p q := by
  have hlen : q ≤ (t.take n).length := by
    rw [List.length_take]
    omega
  rw [← slice_append_left (u := t.drop n) h0 hpq hlen, List.take_append_drop]

end Text

/-! ## One change -/

def Span.moveBy (r : Span) (n : Int) : Span := ⟨r.q0 + n, r.q1 + n⟩

@[simp] theorem Span.moveBy_zero (r : Span) : r.moveBy 0 = r := by simp [Span.moveBy]

@[simp] theorem Span.moveBy_moveBy (r : Span) (m n : Int) : (r.moveBy m).moveBy n = r.moveBy (m + n) := by
  simp [Span.moveBy, Int.add_assoc]

namespace Change
variable {e d : Change} {t : Text} {dot : Span}

/-- A change does not reach dot: it ends before dot begins, or begins no sooner than dot ends. -/
def Apart (e : Change) (dot : Span) : Prop := e.stop < dot.q0 ∨ dot.q1 ≤ e.q0

instance (e : Change) (dot : Span) : Decidable (e.Apart dot) := inferInstanceAs (Decidable (_ ∨ _))

/-- How far a change moves the text that begins with dot. -/
def shift (e : Change) (dot : Span) : Int := if e.stop < dot.q0 then e.text.length - e.deleted else 0

/-- A change in front of dot moves it. -/
theorem dotAfter_of_front (he : e.Sound) (hdot : dot.Within t) (hfront : e.stop < dot.q0) :
    e.dotAfter t.length dot = dot.moveBy (e.shift dot) := by
  have hle := he.start_le_stop
  have hordered := hdot.ordered
  have hstop := hdot.stop
  have hdeleted : e.stop - e.q0 = e.deleted := by
    unfold stop
    omega
  have hdelete : Buffer.dotAfterDelete dot e.q0 e.deleted = dot.moveBy (-e.deleted) := by
    rw [Buffer.dotAfterDelete, if_pos (by omega), if_pos (by omega)]
    simp only [Span.moveBy, Span.mk.injEq]
    omega
  have hinsert : Buffer.dotAfterInsert (dot.moveBy (-e.deleted)) e.q0 e.text.length =
      dot.moveBy (e.shift dot) := by
    simp only [Span.moveBy]
    rw [Buffer.dotAfterInsert, if_pos (by simp only; omega), if_pos (by simp only; omega), shift, if_pos hfront]
    simp only [Span.mk.injEq]
    omega
  have hcover : e.cover (dot.moveBy (e.shift dot)) = dot.moveBy (e.shift dot) := by
    refine if_neg fun hat => ?_
    have hstart := hat.1
    simp only [Span.moveBy, shift, if_pos hfront] at hstart
    omega
  rw [dotAfter, Int.min_eq_left (by omega), Int.min_eq_left (by omega), hdeleted, hdelete, hinsert, hcover]

/-- A change behind a dot that selects something leaves it. -/
theorem dotAfter_of_behind (he : e.Sound) (hdot : dot.Within t) (hne : dot.q0 < dot.q1)
    (hbehind : dot.q1 ≤ e.q0) : e.dotAfter t.length dot = dot := by
  have hle := he.start_le_stop
  have hstop := hdot.stop
  have hplace : dot.q1 ≤ min e.q0 t.length := by omega
  have hcover : e.cover dot = dot := if_neg (by omega)
  have hdelete (n : Int) : Buffer.dotAfterDelete dot (min e.q0 t.length) n = dot := by
    rw [Buffer.dotAfterDelete, if_neg (by omega), if_neg (by omega)]
  have hinsert (n : Nat) : Buffer.dotAfterInsert dot (min e.q0 t.length) n = dot := by
    rw [Buffer.dotAfterInsert, if_neg (by omega), if_neg (by omega)]
  simp only [dotAfter, hdelete, hinsert, hcover]

theorem slice_applyTo_of_front (he : e.Sound) (hdot : dot.Within t) (hfront : e.stop < dot.q0) :
    (dot.moveBy (e.shift dot)).Within (e.applyTo t) ∧
      (e.applyTo t).slice (dot.moveBy (e.shift dot)).q0 (dot.moveBy (e.shift dot)).q1 =
        t.slice dot.q0 dot.q1 := by
  have h0 := he.start
  have hle := he.start_le_stop
  have hordered := hdot.ordered
  have hstop := hdot.stop
  have hfirst : ((t.take e.q0.toNat ++ e.text).length : Int) = e.q0 + e.text.length := by
    rw [List.length_append, List.length_take]
    omega
  have hrest : ((t.drop e.stop.toNat).length : Int) = t.length - e.stop := by
    rw [List.length_drop]
    omega
  have hlength : ((t.take e.q0.toNat ++ e.text ++ t.drop e.stop.toNat).length : Int) =
      (t.take e.q0.toNat ++ e.text).length + (t.drop e.stop.toNat).length := by
    rw [List.length_append, Int.natCast_add]
  -- counted from the end of the change dot stays where it is
  have hmove (q : Int) : q + e.shift dot = (t.take e.q0.toNat ++ e.text).length + (q - e.stop) := by
    rw [hfirst, shift, if_pos hfront, stop]
    omega
  constructor
  · constructor <;> simp only [Span.moveBy, hmove, applyTo, hlength] <;> omega
  · simp only [Span.moveBy, hmove, applyTo]
    rw [Text.slice_append_right (by omega) (by omega) (by omega),
      Text.slice_drop (by omega) (by omega) (by omega)]
    congr 1 <;> omega

theorem slice_applyTo_of_behind (hdot : dot.Within t) (hbehind : dot.q1 ≤ e.q0) :
    dot.Within (e.applyTo t) ∧ (e.applyTo t).slice dot.q0 dot.q1 = t.slice dot.q0 dot.q1 := by
  obtain ⟨h0,hordered,hstop⟩ := hdot
  have hlen : dot.q1 ≤ (t.take e.q0.toNat).length := by
    rw [List.length_take]
    omega
  rw [applyTo, List.append_assoc]
  constructor
  · exact ⟨h0,hordered,by rw [List.length_append]; omega⟩
  · rw [Text.slice_append_left h0 hordered hlen, Text.slice_take h0 hordered (by omega) hstop]

/-- A dot that begins with a change and does not reach beyond it selects the new text. -/
theorem dotAfter_of_place {size : Nat} (hstart : dot.q0 = e.q0) (hordered : e.q0 ≤ dot.q1) (hle : dot.q1 ≤ e.stop)
    (hsize : e.stop ≤ size) : e.dotAfter size dot = ⟨e.q0, e.q0 + e.text.length⟩ := by
  have hdeleted : e.stop - e.q0 = e.deleted := by
    unfold stop
    omega
  have hdelete : Buffer.dotAfterDelete dot e.q0 e.deleted = .point e.q0 := by
    rw [Buffer.dotAfterDelete, if_neg (by omega), hstart]
    simp only [Span.point, Span.mk.injEq, true_and]
    split <;> omega
  have hinsert : Buffer.dotAfterInsert (.point e.q0) e.q0 e.text.length = .point e.q0 := by
    simp [Buffer.dotAfterInsert, Span.point]
  rw [dotAfter, Int.min_eq_left (by omega), Int.min_eq_left hsize, hdeleted, hdelete, hinsert]
  exact if_pos ⟨rfl,rfl⟩

theorem slice_applyTo_place (he : e.Sound) (hsize : e.stop ≤ t.length) :
    (e.applyTo t).slice e.q0 (e.q0 + e.text.length) = e.text := by
  have h0 := he.start
  have hle := he.start_le_stop
  have hlen : ((t.take e.q0.toNat).length : Int) = e.q0 := by
    rw [List.length_take]
    omega
  have hright := Text.slice_append_right (t := t.take e.q0.toNat) (u := e.text ++ t.drop e.stop.toNat)
    (Int.le_refl 0) (Int.natCast_nonneg e.text.length) (by rw [List.length_append]; omega)
  rw [hlen, Int.add_zero, Text.slice_append_left (Int.le_refl 0) (Int.natCast_nonneg _) (Int.le_refl _),
    Text.slice_whole, ← List.append_assoc] at hright
  exact hright

/-- A change apart from dot moves it with its text. -/
theorem Apart.step (h : e.Apart dot) (he : e.Sound) (hdot : dot.Within t) (hne : dot.q0 < dot.q1) :
    e.dotAfter t.length dot = dot.moveBy (e.shift dot) ∧ (dot.moveBy (e.shift dot)).Within (e.applyTo t) ∧
      (e.applyTo t).slice (dot.moveBy (e.shift dot)).q0 (dot.moveBy (e.shift dot)).q1 =
        t.slice dot.q0 dot.q1 := by
  rcases h with hfront | hbehind
  · exact ⟨dotAfter_of_front he hdot hfront,slice_applyTo_of_front he hdot hfront⟩
  · have hle := he.start_le_stop
    have hshift : e.shift dot = 0 := if_neg (by omega)
    rw [hshift, Span.moveBy_zero]
    exact ⟨dotAfter_of_behind he hdot hne hbehind,slice_applyTo_of_behind hdot hbehind⟩

/-- A change in front of it finds dot on the same side, and moves it as far, as if it were made first. -/
theorem Apart.older (h : d.Apart dot) (hle : d.stop ≤ e.q0) (he : e.Sound) :
    d.Apart (dot.moveBy (e.shift dot)) ∧ d.shift (dot.moveBy (e.shift dot)) = d.shift dot := by
  by_cases hfront : e.stop < dot.q0
  · have hstart := he.start_le_stop
    have hshift : e.shift dot = e.text.length - e.deleted := if_pos hfront
    have hmoved : d.stop < (dot.moveBy (e.shift dot)).q0 := by
      simp only [Span.moveBy, hshift]
      unfold stop at *
      omega
    exact ⟨.inl hmoved,(if_pos hmoved).trans (if_pos (by omega)).symm⟩
  · have hshift : e.shift dot = 0 := if_neg hfront
    rw [hshift, Span.moveBy_zero]
    exact ⟨h,rfl⟩

/-- In a log in sequence every change ends in front of a newer one. -/
theorem older_le {es : List Change} (hs : ∀ d ∈ es, d.Sound)
    (h : (e :: es).IsChain fun b a => a.stop ≤ b.q0) : ∀ d ∈ es, d.stop ≤ e.q0 := by
  induction es generalizing e with
  | nil => nofun
  | cons f es ih =>
    obtain ⟨hsf,hs⟩ := List.forall_mem_cons.mp hs
    obtain ⟨hfe,hchain⟩ := List.isChain_cons_cons.mp h
    refine List.forall_mem_cons.mpr ⟨hfe,fun d hd => ?_⟩
    exact Int.le_trans (ih hs hchain d hd) (Int.le_trans hsf.start_le_stop hfe)

end Change

/-! ## Changes one after another -/

/-- How far some changes move the text that begins with dot. -/
def Span.shiftBy (dot : Span) : List Change → Int
  | [] => 0
  | e :: es => e.shift dot + dot.shiftBy es

/-- It depends on how far each of them moves it. -/
theorem Span.shiftBy_congr {dot dot' : Span} {es : List Change} (h : ∀ e ∈ es, e.shift dot' = e.shift dot) :
    dot'.shiftBy es = dot.shiftBy es := by
  induction es with
  | nil => rfl
  | cons e es ih =>
    obtain ⟨he,hes⟩ := List.forall_mem_cons.mp h
    rw [shiftBy, shiftBy, he, ih hes]

/-- Sound changes leave dot in the text. -/
theorem Text.replayDot_within {t : Text} {dot : Span} {es : List Change} (hs : ∀ e ∈ es, e.Sound)
    (hdot : dot.Within t) : (t.replayDot dot es).Within (t.replay es) := by
  obtain ⟨v,hchanges⟩ := Buffer.applyChanges_eq hs { text := t, dot }
  exact Buffer.applyChanges_within (b := { text := t, dot }) hdot hchanges

/-- Changes in sequence, none of which reaches dot, move it with its text: each one of them by as
much as it would alone. -/
theorem Text.replayDot_of_apart {t : Text} {dot : Span} {es : List Change} (hs : ∀ e ∈ es, e.Sound)
    (hchain : es.IsChain fun b a => a.stop ≤ b.q0) (hapart : ∀ e ∈ es, e.Apart dot) (hdot : dot.Within t)
    (hne : dot.q0 < dot.q1) :
    t.replayDot dot es = dot.moveBy (dot.shiftBy es) ∧
      (t.replay es).slice (t.replayDot dot es).q0 (t.replayDot dot es).q1 = t.slice dot.q0 dot.q1 := by
  induction es generalizing t dot with
  | nil => exact ⟨dot.moveBy_zero.symm,rfl⟩
  | cons e es ih =>
    obtain ⟨hse,hses⟩ := List.forall_mem_cons.mp hs
    obtain ⟨hae,haes⟩ := List.forall_mem_cons.mp hapart
    obtain ⟨hstep,hwithin,hslice⟩ := hae.step hse hdot hne
    have holder (d : Change) (hd : d ∈ es) := (haes d hd).older (Change.older_le hses hchain d hd) hse
    have hmoved : (dot.moveBy (e.shift dot)).q0 < (dot.moveBy (e.shift dot)).q1 := by
      simp only [Span.moveBy]
      omega
    obtain ⟨hih,hihslice⟩ := ih hses hchain.tail (fun d hd => (holder d hd).1) hwithin hmoved
    rw [Span.shiftBy_congr fun d hd => (holder d hd).2, Span.moveBy_moveBy] at hih
    rw [Text.replayDot, hstep, Text.replay_cons]
    exact ⟨hih,hihslice.trans hslice⟩

namespace Buffer

/-- Carrying out a log in sequence, none of whose changes reaches a dot that selects something, moves
dot by what the changes in front of it make the text grow, and it selects the same text. -/
theorem applyLog_keeps_selected (b : Buffer) (cs : List ChangeRequest) (hlog : b.log.isEmpty = true)
    (hcs : ∀ c ∈ cs, c.Proper) (hordered : (b.log.recordAll cs).1.Ordered) (hdot : b.dot.Within b.text)
    (hne : b.dot.q0 < b.dot.q1) (hapart : ∀ e ∈ (b.log.recordAll cs).1.entries, e.Apart b.dot) :
    ∃ c, applyLog { b with log := (b.log.recordAll cs).1 } = .ok () c ∧
      c.dot = b.dot.moveBy (b.dot.shiftBy (b.log.recordAll cs).1.changes) ∧
      c.slice c.dot.q0 c.dot.q1 = b.slice b.dot.q0 b.dot.q1 := by
  have hs := EditLog.sound_recordAll hcs (EditLog.sound_of_isEmpty hlog)
  obtain ⟨v,happly⟩ := applyLog_eq (b := { b with log := (b.log.recordAll cs).1 }) hs
  obtain ⟨hmoved,hslice⟩ := Text.replayDot_of_apart hs ((EditLog.ordered_iff _).mp hordered)
    (fun e he => hapart e (List.mem_reverse.mpr he)) hdot hne
  exact ⟨_,happly,hmoved,hslice⟩

/-- Changes that touch the dot from behind, and one that ends a character in front of it. -/
theorem applyLog_keeps_selected_between :
    let b : Buffer := { text := "hello world".toList, dot := ⟨4, 7⟩ }
    let cs : List ChangeRequest := [.insert 0 ">".toList, .replace 1 3 "i".toList, .delete 7 9,
      .insert 9 "x".toList, .insert 20 "!".toList]
    b.log.isEmpty = true ∧ (∀ c ∈ cs, c.Proper) ∧ (b.log.recordAll cs).1.Ordered ∧ b.dot.Within b.text ∧
      b.dot.q0 < b.dot.q1 ∧ (∀ e ∈ (b.log.recordAll cs).1.entries, e.Apart b.dot) ∧
      ∃ c, applyLog { b with log := (b.log.recordAll cs).1 } = .ok () c ∧
        c.dot = b.dot.moveBy (b.dot.shiftBy (b.log.recordAll cs).1.changes) ∧
        c.slice c.dot.q0 c.dot.q1 = b.slice b.dot.q0 b.dot.q1 := by
  intro b cs
  have hordered : (b.log.recordAll cs).1.Ordered := by
    rw [EditLog.ordered_iff]
    decide
  have hdot : b.dot.Within b.text := by constructor <;> decide
  exact ⟨rfl,by decide,hordered,hdot,by decide,by decide,
    applyLog_keeps_selected b cs rfl (by decide) hordered hdot (by decide) (by decide)⟩

/-- Whatever is recorded in a log, out of sequence, overlapping or behind the end of the text, carrying
it out is not refused; it leaves the log empty and dot in the text. So a commit never fails, half
way or otherwise. -/
theorem applyLog_safe (b : Buffer) (cs : List ChangeRequest) (hlog : b.log.isEmpty = true)
    (hdot : b.dot.Within b.text) (hcs : ∀ c ∈ cs, c.Proper) :
    (∃ c, applyLog { b with log := (b.log.recordAll cs).1 } = .ok () c ∧ c.log.isEmpty = true ∧
      c.dot.Within c.text) ∧
    ∀ seq, ∃ done c, commit seq { b with log := (b.log.recordAll cs).1 } = .ok done c ∧
      c.log.isEmpty = true ∧ c.dot.Within c.text := by
  have hs := EditLog.sound_recordAll hcs (EditLog.sound_of_isEmpty hlog)
  have hwithin := Text.replayDot_within hs hdot
  obtain ⟨v,happly⟩ := applyLog_eq (b := { b with log := (b.log.recordAll cs).1 }) hs
  refine ⟨⟨_,happly,rfl,hwithin⟩,fun seq => ?_⟩
  cases hl : (b.log.recordAll cs).1.isEmpty with
  | true => exact ⟨_,_,commit_of_isEmpty seq hl,hl,hdot⟩
  | false =>
    obtain ⟨u,hcommit⟩ := commit_of_sound (b := { b with log := (b.log.recordAll cs).1 }) seq hl hs
    exact ⟨_,_,hcommit,rfl,hwithin⟩

/-- Requests from right to left, overlapping, and behind the end. -/
theorem applyLog_safe_disordered :
    let b : Buffer := { text := "hello".toList, dot := ⟨2, 5⟩ }
    let cs : List ChangeRequest := [.delete 3 9, .replace 1 4 "xyz".toList, .insert 2 "!".toList,
      .delete 2 5, .insert 40 "?".toList, .replace 0 0 "-".toList]
    b.log.isEmpty = true ∧ b.dot.Within b.text ∧ (∀ c ∈ cs, c.Proper) ∧
      (∃ c, applyLog { b with log := (b.log.recordAll cs).1 } = .ok () c ∧ c.log.isEmpty = true ∧
        c.dot.Within c.text) ∧
      ∀ seq, ∃ done c, commit seq { b with log := (b.log.recordAll cs).1 } = .ok done c ∧
        c.log.isEmpty = true ∧ c.dot.Within c.text := by
  intro b cs
  have hdot : b.dot.Within b.text := by constructor <;> decide
  exact ⟨rfl,hdot,by decide,applyLog_safe b cs rfl hdot (by decide)⟩

end Buffer

end StructuralEdit
