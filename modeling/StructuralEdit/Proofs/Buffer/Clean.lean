import StructuralEdit.Proofs.Buffer.History
import StructuralEdit.Workspace

/-! # What a clean buffer holds

A buffer is clean while the number of the newest command applied is the one it was
marked clean at. Numbers are positive and never come again, so along every history of
edits, undo, redo and rollback the number stands for one text only: that of the moment
the buffer was marked.
-/
namespace StructuralEdit.Buffer

/-- Something done to a buffer after it was made. -/
inductive Event
  | record (c : ChangeRequest)
  | commit (seq : Int)
  | undo
  | redo
  | rollback
  | markClean
  | markDirty
  | rename (name : Text)
  /-- The next commit is to leave the buffer clean. -/
  | expectClean
deriving DecidableEq

namespace Event

def apply : Event → Buffer → Except RangeFault Buffer
  | record c, b => .ok { b with log := (c.record b.log).1 }
  | commit seq, b =>
    match b.commit seq with
    | .ok _ c => .ok c
    | .error f _ => .error f
  | undo, b => .ok b.undoStep.2
  | redo, b => .ok b.redoStep.2
  | rollback, b => .ok b.rollback
  | markClean, b => .ok b.markClean
  | markDirty, b => .ok b.markDirty
  | rename name, b => .ok (b.rename name)
  | expectClean, b => .ok { b with editClean := true }

/-- The buffer is marked clean: on request, or by a commit that is to leave it so. -/
def marks (e : Event) (b : Buffer) : Bool :=
  match e with
  | markClean => true
  | commit _ => b.editClean && !b.log.isEmpty
  | _ => false

/-- A step along the timeline. -/
def IsStep (e : Event) : Prop := e = undo ∨ e = redo

/-- Changes are asked for at ranges in order, none of them before the text. -/
def Proper : Event → Prop
  | record c => c.Proper
  | _ => True

/-- The greatest number of a commit after an event. -/
def number (last : Int) : Event → Int
  | commit seq => seq
  | _ => last

/-- A commit has a greater number than those before it. -/
def Follows (last : Int) : Event → Prop
  | commit seq => last < seq
  | _ => True

end Event

/-- Commits come with increasing numbers, all of them greater than `last`. -/
def Numbered : Int → List Event → Prop
  | _, [] => True
  | last, e :: events => e.Follows last ∧ Numbered (e.number last) events

/-- Let events happen to a buffer; `saved` is the text it was last marked clean with. -/
def live : List Event → Buffer → (saved : Text) → Except RangeFault (Buffer × Text)
  | [], b, saved => .ok (b, saved)
  | e :: events, b, saved =>
    match e.apply b with
    | .ok c => live events c (if e.marks b then c.text else saved)
    | .error f => .error f

/-- A buffer to which nothing has happened yet. -/
structure Created (b : Buffer) : Prop where
  timeline : b.timeline = {}
  log : b.log = {}
  undoMark : b.undoMark = none
  cleanSeq : b.cleanSeq = 0 ∨ b.cleanSeq = -1

theorem created_ofText (text name : Text) (dirty : Bool) : (ofText text name dirty).Created := by
  refine ⟨rfl,rfl,rfl,?_⟩
  cases dirty
  · exact .inl rfl
  · exact .inr rfl

/-! ## What every event keeps -/

variable {b c : Buffer} {base saved : Text} {last : Int}

/-- The number at which a buffer is clean stands for the text `saved`, wherever it stands in the
timeline, and `0` for the text the timeline began with. -/
structure Recalls (base saved : Text) (b : Buffer) : Prop where
  entry : ∀ e ∈ b.timeline.entries, e.seq = b.cleanSeq → e.after = saved
  start : b.cleanSeq = 0 → saved = base

/-- The state of a buffer between events: its timeline and the one it would be rolled back to are
histories of its text, and the clean mark means the text it was made at. -/
structure Sane (base : Text) (last : Int) (saved : Text) (b : Buffer) : Prop where
  history : b.History base last
  rolled : b.rollback.History base last
  positive : ∀ e ∈ b.timeline.entries, 0 < e.seq
  sound : b.log.Sound
  recalls : b.Recalls base saved
  cleanSeq_le : b.cleanSeq ≤ last
  last_nonneg : 0 ≤ last

theorem Created.sane (hb : b.Created) : b.Sane b.text 0 b.text := by
  have hrollback : b.rollback.timeline = {} := by
    rw [rollback_of_unmarked hb.undoMark]
    exact hb.timeline
  have hentries : b.timeline.entries = [] := by rw [hb.timeline]; rfl
  constructor
  · exact .of_fresh hb.timeline 0
  · have htext : b.rollback.text = b.text := by rw [rollback_of_unmarked hb.undoMark]; rfl
    exact htext ▸ .of_fresh hrollback 0
  · rw [hentries]; intro e he; cases he
  · rw [hb.log]; exact EditLog.sound_of_isEmpty rfl
  · refine ⟨?_,fun _ => rfl⟩
    rw [hentries]
    intro e he
    cases he
  · rcases hb.cleanSeq with h | h <;> omega
  · exact Int.le_refl 0

/-- Nothing but text, timeline, mark, log and clean mark counts. -/
theorem Recalls.congr (h : b.Recalls base saved)
    (he : c.timeline.entries = b.timeline.entries) (hc : c.cleanSeq = b.cleanSeq) :
    c.Recalls base saved := ⟨by rw [he, hc]; exact h.entry,by rw [hc]; exact h.start⟩

/-- An event that keeps what rolling back leads to, the entries and the clean mark, and after
which the timeline is a history of the text. -/
theorem Sane.congr (h : b.Sane base last saved) (hh : c.History base last)
    (hsettled : c.settled = b.settled) (he : c.timeline.entries = b.timeline.entries)
    (hl : c.log.Sound) (hc : c.cleanSeq = b.cleanSeq) : c.Sane base last saved := by
  have htext : c.rollback.text = b.rollback.text := congrArg Prod.fst hsettled
  have htimeline : c.rollback.timeline = b.rollback.timeline := congrArg Prod.snd hsettled
  constructor
  · exact hh
  · exact h.rolled.congr htext htimeline
  · rw [he]; exact h.positive
  · exact hl
  · exact h.recalls.congr he hc
  · rw [hc]; exact h.cleanSeq_le
  · exact h.last_nonneg

/-- An event that leaves text, timeline, undo mark and log alone. -/
theorem Sane.mark (h : b.Sane base last saved) {saved' : Text} (ht : c.text = b.text)
    (hl : c.timeline = b.timeline) (hm : c.undoMark = b.undoMark) (hlog : c.log = b.log)
    (hr : c.Recalls base saved') (hle : c.cleanSeq ≤ last) : c.Sane base last saved' := by
  have hsettled : c.settled = b.settled := settled_congr hm ht hl
  constructor
  · exact h.history.congr ht hl
  · exact h.rolled.congr (congrArg Prod.fst hsettled) (congrArg Prod.snd hsettled)
  · rw [hl]; exact h.positive
  · rw [hlog]; exact h.sound
  · exact hr
  · exact hle
  · exact h.last_nonneg

/-- Two applied or undone commands of one number are the same. -/
theorem History.eq_of_seq (h : b.History base last) {d e : UndoEntry}
    (hd : d ∈ b.timeline.entries) (he : e ∈ b.timeline.entries) (hde : d.seq = e.seq) : d = e := by
  obtain ⟨i,hi,rfl⟩ := List.mem_iff_getElem.mp hd
  obtain ⟨j,hj,rfl⟩ := List.mem_iff_getElem.mp he
  have hincreasing := List.pairwise_iff_getElem.mp h.increasing
  rcases Nat.lt_trichotomy i j with hij | hij | hij
  · exact absurd hde (Int.ne_of_lt (hincreasing i j hi hj hij))
  · simp only [hij]
  · exact absurd hde.symm (Int.ne_of_lt (hincreasing j i hj hi hij))

/-- Marked clean, a buffer is clean with the text it has. -/
theorem Sane.markClean (h : b.Sane base last saved) : b.markClean.Sane base last b.text := by
  have hpresent := h.history.current
  refine h.mark rfl rfl rfl rfl ⟨?_,?_⟩ ?_
  · intro e he hseq
    simp only [Buffer.markClean] at he hseq
    cases hp : b.timeline.past with
    | nil =>
      simp only [Timeline.seq, hp] at hseq
      have := h.positive e he
      omega
    | cons d past =>
      have hd : d ∈ b.timeline.entries := by simp [Timeline.entries, hp]
      simp only [Timeline.seq, hp] at hseq
      rw [h.history.eq_of_seq he hd hseq, hpresent, Timeline.present, hp]
  · intro hseq
    simp only [Buffer.markClean, Timeline.seq] at hseq
    cases hp : b.timeline.past with
    | nil => rw [hpresent, Timeline.present, hp]
    | cons d past =>
      have hd : d ∈ b.timeline.entries := by simp [Timeline.entries, hp]
      have := h.positive d hd
      simp only [hp] at hseq
      omega
  · simp only [Buffer.markClean, Timeline.seq]
    cases hp : b.timeline.past with
    | nil => exact h.last_nonneg
    | cons d past => exact h.history.numbered d (by simp [Timeline.entries, hp])

/-- A buffer marked dirty is clean at no number. -/
theorem Sane.markDirty (h : b.Sane base last saved) : b.markDirty.Sane base last saved := by
  have hlast := h.last_nonneg
  refine h.mark rfl rfl rfl rfl ⟨?_,?_⟩ (by simp only [Buffer.markDirty]; omega)
  · intro e he hseq
    have := h.positive e he
    simp only [Buffer.markDirty] at hseq
    omega
  · intro hseq
    simp only [Buffer.markDirty] at hseq
    omega

theorem Sane.rename (h : b.Sane base last saved) (name : Text) :
    (b.rename name).Sane base last saved := by
  unfold Buffer.rename
  split
  · exact h.markDirty.mark rfl rfl rfl rfl (h.markDirty.recalls.congr rfl rfl) h.markDirty.cleanSeq_le
  · exact h.mark rfl rfl rfl rfl (h.recalls.congr rfl rfl) h.cleanSeq_le

theorem Sane.record (h : b.Sane base last saved) {r : ChangeRequest} (hr : r.Proper) :
    ({ b with log := (r.record b.log).1 } : Buffer).Sane base last saved :=
  h.congr (h.history.congr rfl rfl) (settled_congr rfl rfl rfl) rfl
    (ChangeRequest.sound_record hr h.sound) rfl

theorem Sane.undo (h : b.Sane base last saved) : b.undoStep.2.Sane base last saved := by
  have hkept : b.undoStep.2.log = b.log ∧ b.undoStep.2.cleanSeq = b.cleanSeq := by
    obtain ⟨m,hm⟩ := b.markUndo_eq
    rcases b.undoStep_cases with ⟨-,hb⟩ | ⟨e,past,-,hb⟩ <;> rw [hb, hm] <;> exact ⟨rfl,rfl⟩
  exact h.congr h.history.undoStep b.settled_undoStep b.entries_undoStep
    (hkept.1 ▸ h.sound) hkept.2

theorem Sane.redo (h : b.Sane base last saved) : b.redoStep.2.Sane base last saved := by
  have hkept : b.redoStep.2.log = b.log ∧ b.redoStep.2.cleanSeq = b.cleanSeq := by
    obtain ⟨m,hm⟩ := b.markUndo_eq
    rcases b.redoStep_cases with ⟨-,hb⟩ | ⟨e,future,-,hb⟩ <;> rw [hb, hm] <;> exact ⟨rfl,rfl⟩
  exact h.congr h.history.redoStep b.settled_redoStep b.entries_redoStep
    (hkept.1 ▸ h.sound) hkept.2

theorem Sane.rollback (h : b.Sane base last saved) : b.rollback.Sane base last saved := by
  have hkept : b.rollback.timeline.entries = b.timeline.entries ∧
      b.rollback.cleanSeq = b.cleanSeq := by
    cases hm : b.undoMark with
    | none => rw [rollback_of_unmarked hm]; exact ⟨rfl,rfl⟩
    | some m => rw [rollback_of_mark hm]; exact ⟨by simp,rfl⟩
  refine h.congr h.rolled ?_ hkept.1 ?_ hkept.2
  · rw [settled, rollback_rollback]
    rfl
  · rw [log_rollback]
    exact EditLog.sound_of_isEmpty rfl

/-- A commit is not refused, and its number is new to the timeline. -/
theorem Sane.commit (h : b.Sane base last saved) {seq : Int} (hseq : last < seq) :
    ∃ r c, Buffer.commit seq b = .ok r c ∧
      c.Sane base seq (if b.editClean && !b.log.isEmpty then c.text else saved) := by
  have hle := h.cleanSeq_le
  have hlast := h.last_nonneg
  cases hl : b.log.isEmpty with
  | true =>
    have hcommit := commit_of_isEmpty seq hl
    have hhistory := h.history.commit hseq hcommit
    refine ⟨_,_,hcommit,?_⟩
    simp only [Bool.not_true, Bool.and_false, Bool.false_eq_true, ↓reduceIte]
    refine ⟨hhistory,?_,h.positive,h.sound,h.recalls.congr rfl rfl,?_,by omega⟩
    · rw [rollback_of_unmarked rfl]
      exact hhistory.congr rfl rfl
    · simp only
      omega
  | false =>
    obtain ⟨v,hcommit⟩ := commit_of_sound seq hl h.sound
    have hhistory := h.history.commit hseq hcommit
    refine ⟨_,_,hcommit,?_⟩
    -- The entries left are those still applied, of older numbers, and the new one.
    have hentry {P : UndoEntry → Prop} (hold : ∀ e ∈ b.timeline.entries, P e)
        (hnew : P ⟨seq, b.text, b.text.replay b.log.changes, b.dot,
          b.text.replayDot b.dot b.log.changes⟩) :
        ∀ e ∈ (b.timeline.push ⟨seq, b.text, b.text.replay b.log.changes, b.dot,
          b.text.replayDot b.dot b.log.changes⟩).entries, P e := by
      intro e he
      rw [Timeline.entries_push] at he
      rcases List.mem_append.mp he with he | he
      · exact hold e (List.mem_append_left _ he)
      · obtain rfl := List.mem_singleton.mp he
        exact hnew
    refine ⟨hhistory,?_,?_,EditLog.sound_of_isEmpty rfl,?_,?_,by omega⟩
    · rw [rollback_of_unmarked rfl]
      exact hhistory.congr rfl rfl
    · exact hentry h.positive (by simp only; omega)
    · cases hclean : b.editClean with
      | true =>
        simp only [Bool.not_false, Bool.and_true, ↓reduceIte]
        refine ⟨hentry ?_ fun _ => rfl,fun hzero => ?_⟩
        · intro e he hnumber
          have := h.history.numbered e he
          simp only at hnumber
          omega
        · simp only at hzero
          omega
      | false =>
        simp only [Bool.not_false, Bool.and_true, Bool.false_eq_true, ↓reduceIte]
        refine ⟨hentry h.recalls.entry ?_,h.recalls.start⟩
        intro hnumber
        simp only at hnumber
        omega
    · simp only
      split <;> omega

/-! ## Runs of events -/

/-- What an event that may come next does. -/
theorem Sane.event (h : b.Sane base last saved) {e : Event} (hp : e.Proper) (hf : e.Follows last) :
    ∃ c, e.apply b = .ok c ∧
      c.Sane base (e.number last) (if e.marks b then c.text else saved) := by
  cases e with
  | record r => exact ⟨_,rfl,h.record hp⟩
  | commit seq =>
    obtain ⟨r,c,hcommit,hc⟩ := h.commit hf
    exact ⟨c,by simp only [Event.apply, hcommit],hc⟩
  | undo => exact ⟨_,rfl,h.undo⟩
  | redo => exact ⟨_,rfl,h.redo⟩
  | rollback => exact ⟨_,rfl,h.rollback⟩
  | markClean => exact ⟨_,rfl,h.markClean⟩
  | markDirty => exact ⟨_,rfl,h.markDirty⟩
  | rename name => exact ⟨_,rfl,h.rename name⟩
  | expectClean =>
    exact ⟨_,rfl,h.mark rfl rfl rfl rfl (h.recalls.congr rfl rfl) h.cleanSeq_le⟩

theorem Sane.live {events : List Event} (h : b.Sane base last saved)
    (hp : ∀ e ∈ events, e.Proper) (hn : Numbered last events) :
    ∃ c saved' last', live events b saved = .ok (c, saved') ∧ c.Sane base last' saved' := by
  induction events generalizing b saved last with
  | nil => exact ⟨b,saved,last,rfl,h⟩
  | cons e events ih =>
    obtain ⟨hf,hn⟩ := hn
    obtain ⟨c,hc,hsane⟩ := h.event (hp e List.mem_cons_self) hf
    obtain ⟨d,saved',last',hd,hsane'⟩ := ih hsane (fun e' he => hp e' (List.mem_cons_of_mem e he)) hn
    exact ⟨d,saved',last',by simp only [Buffer.live, hc, hd],hsane'⟩

/-- A buffer that is clean has the text it was last marked clean with. -/
theorem Sane.text_of_clean (h : b.Sane base last saved) (hclean : b.dirty = false) :
    b.text = saved := by
  have hseq : b.timeline.seq = b.cleanSeq := by simpa [dirty] using hclean
  rw [h.history.current]
  cases hp : b.timeline.past with
  | nil =>
    simp only [Timeline.seq, hp] at hseq
    rw [h.recalls.start hseq.symm, Timeline.present, hp]
  | cons e past =>
    simp only [Timeline.seq, hp] at hseq
    rw [Timeline.present, hp]
    exact h.recalls.entry e (by simp [Timeline.entries, hp]) hseq

/-- Steps along the timeline keep its entries and the clean mark. -/
theorem live_steps {walk : List Event} (hw : ∀ e ∈ walk, e.IsStep) (h : b.History base last)
    (saved : Text) : ∃ c, live walk b saved = .ok (c, saved) ∧ c.History base last ∧
      c.timeline.entries = b.timeline.entries ∧ c.cleanSeq = b.cleanSeq := by
  induction walk generalizing b with
  | nil => exact ⟨b,rfl,h,rfl,rfl⟩
  | cons e walk ih =>
    have hrest (e' : Event) (he : e' ∈ walk) : e'.IsStep := hw e' (List.mem_cons_of_mem e he)
    obtain ⟨m,hm⟩ := b.markUndo_eq
    rcases hw e List.mem_cons_self with rfl | rfl
    · have hmark : b.undoStep.2.cleanSeq = b.cleanSeq := by
        rcases b.undoStep_cases with ⟨-,hb⟩ | ⟨e,past,-,hb⟩
        · rw [hb, hm]
        · rw [hb, hm]
          rfl
      obtain ⟨c,hlive,hc,hentries,hseq⟩ := ih hrest h.undoStep
      exact ⟨c,hlive,hc,hentries.trans b.entries_undoStep,hseq.trans hmark⟩
    · have hmark : b.redoStep.2.cleanSeq = b.cleanSeq := by
        rcases b.redoStep_cases with ⟨-,hb⟩ | ⟨e,future,-,hb⟩
        · rw [hb, hm]
        · rw [hb, hm]
          rfl
      obtain ⟨c,hlive,hc,hentries,hseq⟩ := ih hrest h.redoStep
      exact ⟨c,hlive,hc,hentries.trans b.entries_redoStep,hseq.trans hmark⟩

/-- Undoing and redoing from a buffer just marked clean: where the position is the same again, so
is the text, and the buffer is clean. -/
theorem clean_of_position {walk : List Event} (hw : ∀ e ∈ walk, e.IsStep)
    (h : b.History base last) :
    ∃ c, live (.markClean :: walk) b saved = .ok (c, b.text) ∧
      (c.timeline.position = b.timeline.position → c.dirty = false ∧ c.text = b.text) := by
  have hmarked : b.markClean.History base last := h.congr rfl rfl
  obtain ⟨c,hlive,hc,hentries,hseq⟩ := live_steps hw hmarked b.text
  refine ⟨c,hlive,fun hposition => ?_⟩
  have htimeline : c.timeline = b.timeline := by
    rw [← Timeline.seek_position (t := c.timeline) hentries.symm, hposition]
    exact Timeline.seek_position rfl
  constructor
  · simp only [dirty, htimeline, hseq, Buffer.markClean, bne_self_eq_false]
  · rw [hc.current, h.current, htimeline]

/-- Whatever happens to a buffer: when it says that it is clean, it holds the text it was last
marked clean with, its first text if it never was. Marked clean it is clean again wherever
undoing and redoing leads back to the same position. -/
theorem clean_text (b : Buffer) (hb : b.Created) (events : List Event)
    (hp : ∀ e ∈ events, e.Proper) (hn : Numbered 0 events) :
    ∃ c saved, live events b b.text = .ok (c, saved) ∧ (c.dirty = false → c.text = saved) ∧
      ∀ walk : List Event, (∀ e ∈ walk, e.IsStep) →
        ∃ d, live (.markClean :: walk) c saved = .ok (d, c.text) ∧
          (d.timeline.position = c.timeline.position → d.dirty = false ∧ d.text = c.text) := by
  obtain ⟨c,saved,last,hlive,hc⟩ := hb.sane.live hp hn
  exact ⟨c,saved,hlive,hc.text_of_clean,fun walk hw => clean_of_position hw hc.history⟩

/-- An insertion marked clean, undone, written over by another and rolled back in vain. -/
theorem clean_text_cut :
    let b := ofText "ab".toList [] true
    let events : List Event :=
      [.record (.insert 0 "x".toList), .commit 1, .markClean, .undo, .record (.insert 2 "y".toList),
        .rename "f".toList, .commit 2, .undo, .rollback, .expectClean, .record (.delete 0 1), .commit 5]
    b.Created ∧ (∀ e ∈ events, e.Proper) ∧ Numbered 0 events ∧
      ∃ c saved, live events b b.text = .ok (c, saved) ∧ (c.dirty = false → c.text = saved) ∧
        ∃ d, live [.markClean, .undo, .redo] c saved = .ok (d, c.text) ∧
          (d.timeline.position = c.timeline.position → d.dirty = false ∧ d.text = c.text) := by
  intro b events
  have hb : b.Created := created_ofText _ _ _
  have hp : ∀ e ∈ events, e.Proper := by
    simp [events, Event.Proper, ChangeRequest.Proper, ChangeRequest.span, Span.point]
  have hn : Numbered 0 events := by simp [events, Numbered, Event.Follows, Event.number]
  obtain ⟨c,saved,hlive,hclean,hwalk⟩ := clean_text b hb events hp hn
  exact ⟨hb,hp,hn,c,saved,hlive,hclean,hwalk [.undo, .redo] (by simp [Event.IsStep])⟩

end StructuralEdit.Buffer
