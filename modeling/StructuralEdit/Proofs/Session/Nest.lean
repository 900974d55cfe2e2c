import StructuralEdit.Proofs.Session.Recording
import StructuralEdit.Session.Execute

/-! # Loops of single edits

In a nest of loops and guards around one edit the ranges that the edit is run on lie one
behind the other, so all that is recorded comes in sequence, and the commit edits each of
those ranges on its own. Every loop collects its ranges from the text as it was; since the
edits are deferred, it still is that text when the next loop does.
-/
namespace StructuralEdit
open Pattern

/-- A command that edits the range it is run on. -/
inductive SingleEdit
  | append (text : Text)
  | insert (text : Text)
  | change (text : Text)
  | delete

namespace SingleEdit

def action : SingleEdit → Action
  | append t => .append t
  | insert t => .insert t
  | change t => .change t
  | delete => .delete

def request (e : SingleEdit) (r : Span) : ChangeRequest :=
  match e with
  | append t => .insert r.q1 t
  | insert t => .insert r.q0 t
  | change t => .replace r.q0 r.q1 t
  | delete => .delete r.q0 r.q1

/-- The dot an edit leaves until it is committed. -/
def leaves (e : SingleEdit) (r : Span) : Span :=
  match e with
  | append _ => .point r.q1
  | insert _ | delete => .point r.q0
  | change _ => r

/-- Edit a range. -/
def perform (e : SingleEdit) (a : Target) : Run Unit :=
  match e with
  | append t => Run.insertAt a.buffer a.r.q1 t
  | insert t => Run.insertAt a.buffer a.r.q0 t
  | change t => Run.change a t
  | delete => Run.delete a

/-- A single edit looks its range up, and edits it. -/
theorem runAction_action (e : SingleEdit) (h : Option Handle) (addr : Option Addr) :
    Run.runAction h addr e.action = Run.withDefault false h addr >>= e.perform := by
  cases e <;> rfl

/-- What becomes of the text of a range. -/
def effect (e : SingleEdit) (piece : Text) : Text :=
  match e with
  | append t => piece ++ t
  | insert t => t ++ piece
  | change t => t
  | delete => []

/-- Edits of spans in sequence are requested in sequence. -/
theorem inSequence (e : SingleEdit) {start stop : Int} {rs : List Span} (h : Sequenced start stop rs) :
    InSequence start stop (rs.map e.request) := by
  rw [inSequence_iff, List.map_map]
  refine h.map_within fun r hr => ?_
  cases e with
  | append t => exact ⟨hr,Int.le_refl _,Int.le_refl _⟩
  | insert t => exact ⟨Int.le_refl _,Int.le_refl _,hr⟩
  | change | delete => exact ⟨Int.le_refl _,hr,Int.le_refl _⟩

end SingleEdit

/-- The text from `p` on, with what becomes of each span in its place. -/
def Text.mapSpans (f : Text → Text) (t : Text) (p : Int) : List Span → Text
  | [] => t.slice p t.length
  | r :: rs => t.slice p r.q0 ++ f (t.slice r.q0 r.q1) ++ t.mapSpans f r.q1 rs

/-- The requests of an edit for spans in sequence edit each span on its own. -/
theorem Text.simultaneous_requests (e : SingleEdit) {t : Text} {p : Int} {rs : List Span}
    (h : Sequenced p t.length rs) (h0 : 0 ≤ p) :
    t.simultaneous p (rs.map e.request) = t.mapSpans e.effect p rs := by
  induction rs generalizing p with
  | nil => rfl
  | cons r rs ih =>
    obtain ⟨hr0,hr1,hrs⟩ := h
    have hle := hrs.start_le_stop
    have hrest := ih hrs (by omega)
    rw [List.map_cons, simultaneous, mapSpans, ← hrest]
    cases e with
    | append t' =>
      simp only [SingleEdit.request, ChangeRequest.span, ChangeRequest.text, Span.point,
        SingleEdit.effect, ← List.append_assoc, slice_append_slice h0 hr0 hr1 hle]
    | insert t' =>
      have hbehind := simultaneous_from (by omega) hr1 ((SingleEdit.insert t').inSequence hrs)
      simp only [SingleEdit.request, ChangeRequest.span, ChangeRequest.text, Span.point,
        SingleEdit.effect, List.append_assoc] at hbehind ⊢
      rw [hbehind]
    | change | delete => rfl

/-- Loops over ranges and guards around an edit, none of them with an address. -/
inductive Nest
  | edit (e : SingleEdit)
  | loop (l : RangeLoop) (body : Nest)
  | guard (re : Text) (negated : Bool) (body : Nest)

/-! ## What a nest visits -/

/-- The matches of a pattern in a range. -/
def found (engine : Engine) (pattern text : Text) (r : Span) : List Match :=
  match Regex.compile engine pattern with
  | .ok re => (re.forward text r.q0 (some r.q1) none).toOption.getD []
  | .error _ => []

namespace RangeLoop

/-- The ranges a loop visits in a range of a text. -/
def ranges (engine : Engine) (text : Text) (r : Span) : RangeLoop → List Span
  | lines => Lines.ranges r.q0 (text.slice r.q0 r.q1)
  | matching re => (found engine re text r).map Match.span
  | between re => r.gaps ((found engine re text r).map Match.span)

def patterns : RangeLoop → List Text
  | lines => []
  | matching re | between re => [re]

end RangeLoop

namespace Nest

def cmd : Nest → Cmd
  | edit e => .act none e.action
  | loop l body => .extract none l body.cmd
  | guard re negated body => .guard none re negated body.cmd

def innermost : Nest → SingleEdit
  | edit e => e
  | loop _ body | guard _ _ body => body.innermost

def patterns : Nest → List Text
  | edit _ => []
  | loop l body => l.patterns ++ body.patterns
  | guard re _ body => re :: body.patterns

/-- The ranges the innermost command is run on. -/
def ranges (engine : Engine) (text : Text) : Nest → Span → List Span
  | edit _, r => [r]
  | loop l body, r => (l.ranges engine text r).flatMap (body.ranges engine text)
  | guard re negated body, r =>
    if (found engine re text r).isEmpty = negated then body.ranges engine text r else []

end Nest

/-- A pattern that compiles, and serves the text. -/
def Usable (engine : Engine) (text pattern : Text) : Prop :=
  ∃ re, Regex.compile engine pattern = .ok re ∧ re.Serves text.toArray

section
variable {engine : Engine} {text pattern : Text} {r : Span} (hr : r.Within text)
include hr

theorem Usable.forward (hp : Usable engine text pattern) :
    Sequenced r.q0 r.q1 ((found engine pattern text r).map Match.span) ∧
      ∃ re, Regex.compile engine pattern = .ok re ∧ ∀ budget,
        re.forward text r.q0 (some r.q1) budget = .ok (Regex.upTo budget (found engine pattern text r)) := by
  obtain ⟨re,hre,hs⟩ := hp
  obtain ⟨ms,-,hsequenced,hforward⟩ := Regex.exists_forward hs hr
  have hfound : found engine pattern text r = ms := by
    simp only [found, hre, hforward none]
    rfl
  rw [hfound]
  exact ⟨hsequenced,re,hre,hforward⟩

theorem RangeLoop.sequenced {l : RangeLoop} (hp : ∀ p ∈ l.patterns, Usable engine text p) :
    Sequenced r.q0 r.q1 (l.ranges engine text r) := by
  cases l with
  | lines => exact Sequenced.linesOf hr
  | matching re => exact ((hp re (by simp [patterns])).forward hr).1
  | between re => exact ((hp re (by simp [patterns])).forward hr).1.gaps

end

/-- The ranges that the innermost command of a nest is run on lie one behind the other. -/
theorem Nest.sequenced {engine : Engine} {text : Text} {n : Nest} {r : Span}
    (hp : ∀ p ∈ n.patterns, Usable engine text p) (hr : r.Within text) :
    Sequenced r.q0 r.q1 (n.ranges engine text r) := by
  induction n generalizing r with
  | edit e => exact ⟨Int.le_refl _,hr.ordered,Int.le_refl _⟩
  | loop l body ih =>
    have hloop : Sequenced r.q0 r.q1 (l.ranges engine text r) :=
      RangeLoop.sequenced hr fun p hpl => hp p (List.mem_append_left _ hpl)
    refine hloop.flatMap fun r' hr0 hr1 hr2 => ?_
    exact ih (fun p hpb => hp p (List.mem_append_right _ hpb)) (hr.inner hr0 hr1 hr2)
  | guard re negated body ih =>
    unfold ranges
    split
    · exact ih (fun p hpb => hp p (List.mem_cons_of_mem _ hpb)) hr
    · exact hr.ordered

/-! ## What a nest records -/

namespace Session
variable {h : Handle} {engine : Engine} {text : Text} {p stop : Int} {cs : List ChangeRequest} {s t : Session}

/-- A buffer is known to have a text, and all that its log holds lies in front of `p`; patterns are
compiled for a given engine. -/
structure Ready (h : Handle) (engine : Engine) (text : Text) (p : Int) (s : Session) : Prop where
  known : h < s.workspace.known.length
  text : (s.buffer h).text = text
  sound : (s.buffer h).log.Sound
  below : (s.buffer h).log.Below p
  engine : s.patterns.engine = engine

theorem Ready.mono {p' : Int} (hs : s.Ready h engine text p) (hle : p ≤ p') : s.Ready h engine text p' :=
  ⟨hs.known,hs.text,hs.sound,⟨Int.le_trans hs.below.1 hle,Int.le_trans hs.below.2 hle⟩,hs.engine⟩

theorem Ready.idle (hs : s.Ready h engine text p) (hr : s.Recorded h [] t) : t.Ready h engine text p :=
  ⟨hr.handles.length ▸ hs.known,hr.text.trans hs.text,hr.log ▸ hs.sound,hr.log ▸ hs.below,
    hr.patterns.engine.trans hs.engine⟩

/-- Recording in sequence from `p` on makes it ready for what lies behind. -/
theorem Ready.recorded (hs : s.Ready h engine text p) (h0 : 0 ≤ p) (hcs : InSequence p stop cs)
    (hr : s.Recorded h cs t) : t.Ready h engine text stop :=
  ⟨hr.handles.length ▸ hs.known,hr.text.trans hs.text,
    hr.log ▸ EditLog.sound_recordAll (hcs.proper h0) hs.sound,
    hr.log ▸ hcs.below_recordAll h0 hs.below hs.sound,hr.patterns.engine.trans hs.engine⟩

end Session

namespace Run
variable {h : Handle} {engine : Engine} {text : Text} {s : Session} {r : Span} {p : Int}

/-- From dot at a range, with all that was recorded in front of it, a run records these requests
and returns. -/
def RecordsOn (x : Run Unit) (h : Handle) (engine : Engine) (text : Text) (r : Span)
    (cs : List ChangeRequest) : Prop :=
  ∀ s : Session, s.Ready h engine text r.q0 → (s.buffer h).dot = r → ∃ t, x s = .ok () t ∧ s.Recorded h cs t

theorem eachRange_records {body : Run Unit} {f : Span → List ChangeRequest} {rs : List Span} {stop : Int}
    (hrs : Sequenced p stop rs) (h0 : 0 ≤ p)
    (hbody : ∀ r : Span, p ≤ r.q0 → r.q0 ≤ r.q1 → r.q1 ≤ stop →
      InSequence r.q0 r.q1 (f r) ∧ body.RecordsOn h engine text r (f r))
    (hs : s.Ready h engine text p) : ∃ t, eachRange h body rs s = .ok () t ∧ s.Recorded h (rs.flatMap f) t := by
  induction rs generalizing p s with
  | nil => exact ⟨s,rfl,.refl h s⟩
  | cons r rs ih =>
    obtain ⟨hr0,hr1,hrest⟩ := hrs
    obtain ⟨hsequence,hrecords⟩ := hbody r hr0 hr1 hrest.start_le_stop
    obtain ⟨t,ht,htr,hdot⟩ := setDot_recorded r hs.known
    have hready : t.Ready h engine text r.q0 := (hs.idle htr).mono hr0
    obtain ⟨u,hu,hur⟩ := hrecords t hready hdot
    obtain ⟨v,hv,hvr⟩ := ih hrest (by omega)
      (fun r' hr' => hbody r' (by omega)) (hready.recorded (by omega) hsequence hur)
    refine ⟨v,?_,(htr.trans hur).trans hvr⟩
    rw [eachRange, bind_of_ok ht, bind_of_ok hu, hv]

theorem recordThenDot_recorded {c : ChangeRequest} (hs : s.Ready h engine text p) (h0 : p ≤ c.span.q0)
    (h1 : c.span.q0 ≤ c.span.q1) (r : Span) : ∃ t, (do record h c.record; setDot h r : Run Unit) s = .ok () t ∧
      s.Recorded h [c] t ∧ (t.buffer h).dot = r := by
  obtain ⟨hquiet,-⟩ := ChangeRequest.record_below hs.below h0 h1 hs.sound
  obtain ⟨t,ht,htr,-⟩ := record_recorded hs.known hquiet
  obtain ⟨u,hu,hur,hdot⟩ := setDot_recorded r (htr.handles.length ▸ hs.known)
  exact ⟨u,by rw [bind_of_ok ht, hu],htr.trans hur,hdot⟩

/-- A single edit records its request for the range. An edit that would do nothing is not recorded,
which makes no difference. -/
theorem perform_recorded (e : SingleEdit) (h1 : r.q0 ≤ r.q1) (hs : s.Ready h engine text r.q0) :
    ∃ t, e.perform ⟨r, h⟩ s = .ok () t ∧ s.Recorded h [e.request r] t ∧ (t.buffer h).dot = e.leaves r := by
  have hidle {c : ChangeRequest} (hc : c.Idle) (r' : Span) :
      ∃ t, setDot h r' s = .ok () t ∧ s.Recorded h [c] t ∧ (t.buffer h).dot = r' := by
    obtain ⟨t,ht,htr,hdot⟩ := setDot_recorded r' hs.known
    exact ⟨t,ht,htr.of_idle hc,hdot⟩
  cases e with
  | append text' =>
    rw [SingleEdit.perform, insertAt]
    cases text' with
    | nil => exact hidle ⟨rfl,rfl⟩ _
    | cons c rest =>
      exact recordThenDot_recorded (c := .insert r.q1 (c :: rest)) hs h1 (Int.le_refl _) _
  | insert text' =>
    rw [SingleEdit.perform, insertAt]
    cases text' with
    | nil => exact hidle ⟨rfl,rfl⟩ _
    | cons c rest =>
      exact recordThenDot_recorded (c := .insert r.q0 (c :: rest)) hs (Int.le_refl _) (Int.le_refl _) _
  | change text' =>
    rw [SingleEdit.perform, change]
    exact recordThenDot_recorded (c := .replace r.q0 r.q1 text') hs (Int.le_refl _) h1 _
  | delete =>
    rw [SingleEdit.perform, delete]
    split
    · exact recordThenDot_recorded (c := .delete r.q0 r.q1) hs (Int.le_refl _) h1 _
    · exact hidle (c := .delete r.q0 r.q1) ⟨Int.le_antisymm h1 (Int.not_lt.mp ‹_›),rfl⟩ _

/-- Without an address the range is dot. -/
theorem action_records (e : SingleEdit) (h1 : r.q0 ≤ r.q1) :
    (runAction (some h) none e.action).RecordsOn h engine text r [e.request r] := by
  intro s hs hdot
  have hrun : runAction (some h) none e.action s = e.perform ⟨(s.buffer h).dot, h⟩ s := by
    cases e <;> rfl
  obtain ⟨t,ht,htr,-⟩ := perform_recorded e h1 hs
  exact ⟨t,by rw [hrun, hdot, ht],htr⟩

/-- The ranges a loop collects. -/
theorem loopRanges_recorded {l : RangeLoop} (hp : ∀ q ∈ l.patterns, Usable engine text q)
    (hr : r.Within text) (htext : (s.buffer h).text = text) (hengine : s.patterns.engine = engine) :
    ∃ t, loopRanges l ⟨r, h⟩ s = .ok (l.ranges engine text r) t ∧ s.Recorded h [] t := by
  subst htext hengine
  cases l with
  | lines => exact ⟨s,rfl,.refl h s⟩
  | matching re =>
    obtain ⟨-,_,hre,hforward⟩ := (hp re (by simp [RangeLoop.patterns])).forward hr
    exact collect_recorded h 'x' hre (hforward none)
  | between re =>
    obtain ⟨-,_,hre,hforward⟩ := (hp re (by simp [RangeLoop.patterns])).forward hr
    obtain ⟨t,ht,htr⟩ := collect_recorded (s := s) h 'y' hre (hforward none)
    refine ⟨t,?_,htr⟩
    exact bind_of_ok ht

/-- A loop whose body records requests in sequence for each range. -/
theorem loop_recorded {l : RangeLoop} {body : Cmd} {f : Span → List ChangeRequest}
    (hp : ∀ q ∈ l.patterns, Usable engine text q) (hr : r.Within text)
    (hbody : ∀ r' : Span, r.q0 ≤ r'.q0 → r'.q0 ≤ r'.q1 → r'.q1 ≤ r.q1 →
      InSequence r'.q0 r'.q1 (f r') ∧ (execute (some h) body).RecordsOn h engine text r' (f r')) :
    (execute (some h) (.extract none l body)).RecordsOn h engine text r ((l.ranges engine text r).flatMap f) := by
  intro s hs hdot
  let s' : Session := { s with nest := s.nest + 1 }
  have hrun : execute (some h) (.extract none l body) s =
      ensuring (do eachRange h (execute (some h) body) (← loopRanges l ⟨(s.buffer h).dot, h⟩))
        leaveLoop s' := rfl
  have hs' : s'.Ready h engine text r.q0 := ⟨hs.known,hs.text,hs.sound,hs.below,hs.engine⟩
  obtain ⟨t,ht,htr⟩ := loopRanges_recorded hp hr hs'.text hs'.engine
  obtain ⟨u,hu,hur⟩ := eachRange_records (RangeLoop.sequenced hr hp) hr.start hbody (hs'.idle htr)
  refine ⟨leaveLoop u,?_,?_⟩
  · rw [hrun, hdot, ensuring, bind_of_ok ht, hu]
  · have hall := htr.trans hur
    refine ⟨hall.handles,hall.others,hall.buffer,hall.quiet,hall.messages,hall.notices,?_,hall.patterns⟩
    have hnest : u.nest = s.nest + 1 := hall.nest
    simp only [leaveLoop, hnest, Nat.add_sub_cancel]

/-- A guard whose body records requests, where its pattern is found or not as it asks. -/
theorem guard_recorded {re : Text} {body : Cmd} {cs : List ChangeRequest} (negated : Bool)
    (hp : Usable engine text re) (hr : r.Within text)
    (hbody : (execute (some h) body).RecordsOn h engine text r cs) :
    (execute (some h) (.guard none re negated body)).RecordsOn h engine text r
      (if (found engine re text r).isEmpty = negated then cs else []) := by
  intro s hs hdot
  obtain ⟨-,pattern,hre,hforward⟩ := hp.forward hr
  obtain ⟨t,ht,htr,-⟩ := compile_recorded h ((if negated then 'v' else 'g') :: " command".toList)
    (hs.engine ▸ hre)
  have hread : buffer h t = .ok (t.buffer h) t := rfl
  have hsearch : searching (pattern.first? (t.buffer h).text r.q0 (some r.q1)) t =
      .ok (found engine re text r).head? t := by
    rw [htr.text, hs.text, Regex.first?, hforward (some 1)]
    simp only [Regex.upTo, bind, Except.bind, List.head?_take, if_neg Nat.one_ne_zero]
    rfl
  have hasks : ((found engine re text r).head?.isSome != negated) = true ↔
      (found engine re text r).isEmpty = negated := by
    cases found engine re text r <;> cases negated <;> simp
  have hrun : execute (some h) (.guard none re negated body) s =
      (if (found engine re text r).head?.isSome != negated then (do
        setDot h r
        execute (some h) body) else return : Run Unit) t := by
    have hopen : execute (some h) (.guard none re negated body) s = (do
        let pattern ← compile re ((if negated then 'v' else 'g') :: " command".toList)
        let found ← searching
          (pattern.first? (← buffer h).text (s.buffer h).dot.q0 (some (s.buffer h).dot.q1))
        if found.isSome != negated then (do
          setDot h (s.buffer h).dot
          execute (some h) body) else return : Run Unit) s := rfl
    rw [hopen, hdot, bind_of_ok ht, bind_of_ok hread, bind_of_ok hsearch]
  rw [hrun]
  by_cases hfound : (found engine re text r).isEmpty = negated
  · rw [if_pos (hasks.mpr hfound), if_pos hfound]
    obtain ⟨u,hu,hur,hdot'⟩ := setDot_recorded r (hs.idle htr).known
    obtain ⟨v,hv,hvr⟩ := hbody u ((hs.idle htr).idle hur) hdot'
    exact ⟨v,by rw [bind_of_ok hu, hv],(htr.trans hur).trans hvr⟩
  · rw [if_neg fun h => hfound (hasks.mp h), if_neg hfound]
    exact ⟨t,rfl,htr⟩

/-- What a nest records for dot: the request of its edit for each range it visits. -/
theorem nest_recorded (n : Nest) {r : Span} (hp : ∀ q ∈ n.patterns, Usable engine text q)
    (hr : r.Within text) :
    (execute (some h) n.cmd).RecordsOn h engine text r ((n.ranges engine text r).map n.innermost.request) := by
  induction n generalizing r with
  | edit e => exact action_records e hr.ordered
  | loop l body ih =>
    have hloop (q : Text) (hq : q ∈ l.patterns) : Usable engine text q := hp q (List.mem_append_left _ hq)
    have hinner (q : Text) (hq : q ∈ body.patterns) : Usable engine text q := hp q (List.mem_append_right _ hq)
    rw [Nest.ranges, List.map_flatMap]
    refine loop_recorded hloop hr fun r' hr0 hr1 hr2 => ⟨?_,?_⟩
    · exact body.innermost.inSequence (Nest.sequenced hinner (hr.inner hr0 hr1 hr2))
    · exact ih hinner (hr.inner hr0 hr1 hr2)
  | guard re negated body ih =>
    have hinner (q : Text) (hq : q ∈ body.patterns) : Usable engine text q := hp q (List.mem_cons_of_mem _ hq)
    have hguard := guard_recorded negated (hp re List.mem_cons_self) hr (ih hinner hr)
    rw [Nest.ranges, apply_ite (List.map _)]
    exact hguard

/-- A nest of loops and guards around one edit runs the edit on ranges in sequence. Nothing is
reported, and the commit leaves the text with each of those ranges edited on its own. -/
theorem nest_edits_apart (n : Nest) (hk : h < s.workspace.known.length)
    (hlog : (s.buffer h).log.isEmpty = true) (h0 : 0 ≤ (s.buffer h).dot.q0)
    (h1 : (s.buffer h).dot.q0 ≤ (s.buffer h).dot.q1) (h2 : (s.buffer h).dot.q1 ≤ (s.buffer h).size)
    (hp : ∀ p ∈ n.patterns, Usable s.patterns.engine (s.buffer h).text p) :
    let b := s.buffer h
    let rs := n.ranges s.patterns.engine b.text b.dot
    Sequenced b.dot.q0 b.dot.q1 rs ∧
      ∃ t, execute (some h) n.cmd s = .ok () t ∧ s.Recorded h (rs.map n.innermost.request) t ∧
        ∀ seq, ∃ r d, Buffer.commit seq (t.buffer h) = .ok r d ∧
          d.text = b.text.mapSpans n.innermost.effect 0 rs := by
  intro b rs
  have hrs : Sequenced b.dot.q0 b.dot.q1 rs := Nest.sequenced hp ⟨h0,h1,h2⟩
  have hbelow : b.log.Below b.dot.q0 := by
    obtain ⟨hstart,hstop⟩ := EditLog.below_of_isEmpty hlog
    exact ⟨Int.le_trans hstart h0,Int.le_trans hstop h0⟩
  obtain ⟨t,ht,htr⟩ := nest_recorded n hp ⟨h0,h1,h2⟩ s
    ⟨hk,rfl,EditLog.sound_of_isEmpty hlog,hbelow,rfl⟩ rfl
  refine ⟨hrs,t,ht,htr,fun seq => ?_⟩
  have hwhole : Sequenced 0 b.size rs := hrs.mono h0 h2
  obtain ⟨r,d,hd,htext⟩ := htr.commit hlog (n.innermost.inSequence hwhole) seq
  exact ⟨r,d,hd,by rw [htext, Text.simultaneous_requests _ hwhole (Int.le_refl 0)]⟩

/-- In the lines with a `c`, a mark behind each word. -/
theorem nest_edits_apart_words :
    let s : Session := {
      workspace := { known := [{ text := "ab cd\nxy\nc".toList, dot := ⟨0, 10⟩ }], listed := [0] } }
    let n : Nest := .loop .lines (.guard "c".toList false
      (.loop (.matching "[a-z]+".toList) (.edit (.append "!".toList))))
    let b := s.buffer 0
    let rs := n.ranges s.patterns.engine b.text b.dot
    0 < s.workspace.known.length ∧ b.log.isEmpty = true ∧ 0 ≤ b.dot.q0 ∧ b.dot.q0 ≤ b.dot.q1 ∧
      b.dot.q1 ≤ b.size ∧ "c".toList ∈ n.patterns ∧
      Usable s.patterns.engine b.text "c".toList ∧ rs = [⟨0, 2⟩, ⟨3, 5⟩, ⟨9, 10⟩] ∧ Sequenced b.dot.q0 b.dot.q1 rs ∧
      ∃ t, execute (some 0) n.cmd s = .ok () t ∧ s.Recorded 0 (rs.map n.innermost.request) t ∧
        ∀ seq, ∃ r d, Buffer.commit seq (t.buffer 0) = .ok r d ∧
          d.text = b.text.mapSpans n.innermost.effect 0 rs := by
  intro s n b rs
  have hletter : Usable s.patterns.engine b.text "c".toList := Regex.exists_compile (by decide +kernel)
  have hword : Usable s.patterns.engine b.text "[a-z]+".toList := Regex.exists_compile (by decide +kernel)
  have hp : ∀ p ∈ n.patterns, Usable s.patterns.engine b.text p := by
    intro p hp
    rcases List.mem_cons.mp hp with rfl | hp
    · exact hletter
    · obtain rfl := List.mem_singleton.mp hp
      exact hword
  exact ⟨by decide,by decide,by decide,by decide,by decide,by decide,hletter,by decide +kernel,
    nest_edits_apart n (by decide) (by decide) (by decide) (by decide) (by decide) hp⟩

end Run

end StructuralEdit
