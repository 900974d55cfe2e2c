import StructuralEdit.Proofs.Search.Within
import StructuralEdit.Proofs.Session.Keeping

/-! # Commands keep dots in their texts

Whatever an address leads to lies in its buffer, so a dot set to it does. Only a loop
sets dot to what was looked up before its body was run: its ranges still lie in the
text if the body undoes nothing. A group looks at its dot again before each command.
-/
namespace StructuralEdit
open Pattern

/-- What a pattern matches ends in the text searched, at or behind its start. -/
def MatchesForward (engine : Engine) (pattern : Text) : Prop :=
  ∀ re, Regex.compile engine pattern = .ok re → re.Forward

/-- The patterns searched for match forward. -/
def Step.Forward (engine : Engine) : Step → Prop
  | forward re | backward re => MatchesForward engine re
  | _ => True

def Addr.Forward (engine : Engine) : Addr → Prop
  | chain steps => ∀ s ∈ steps, s.Forward engine
  | toEnd left _ => ∀ steps ∈ left, ∀ s ∈ steps, s.Forward engine
  | compound left _ right => (∀ steps ∈ left, ∀ s ∈ steps, s.Forward engine) ∧ right.Forward engine

def RangeLoop.Forward (engine : Engine) : RangeLoop → Prop
  | lines => True
  | matching re | between re => MatchesForward engine re

mutual

/-- The patterns that lead to ranges match forward, and nothing is undone between the ranges of a
loop. -/
def Cmd.Steady (engine : Engine) : Cmd → Prop
  | .act addr _ => ∀ a ∈ addr, a.Forward engine
  | .guard addr _ _ body => (∀ a ∈ addr, a.Forward engine) ∧ body.Steady engine
  | .extract addr loop body =>
    (∀ a ∈ addr, a.Forward engine) ∧ loop.Forward engine ∧ body.undoes = false ∧ body.Steady engine
  | .buffers _ body => body.Steady engine
  | .group addr body => (∀ a ∈ addr, a.Forward engine) ∧ Cmd.AllSteady engine body

def Cmd.AllSteady (engine : Engine) : List Cmd → Prop
  | [] => True
  | c :: rest => c.Steady engine ∧ AllSteady engine rest

end

namespace Run
variable {k : Handle} {engine : Engine} {P : Text → Prop}

/-! ## Addresses -/

theorem keeps_dotOf (h : Handle) : (dotOf h).Keeps k engine P fun a t => P t ∧ a.buffer = h ∧ a.Fits k t := by
  refine keeps_bind (keeps_buffer h) fun b => keeps_pure ?_
  rintro t ⟨hp,hb⟩
  refine ⟨hp,rfl,fun hk => ?_⟩
  obtain ⟨rfl,hdots⟩ := hb hk
  exact hdots.dot

theorem keeps_wholeOf (h : Handle) : (wholeOf h).Keeps k engine P fun a t => P t ∧ a.Fits k t := by
  refine keeps_bind (keeps_buffer h) fun b => keeps_pure ?_
  rintro t ⟨hp,hb⟩
  refine ⟨hp,fun hk => ?_⟩
  obtain ⟨rfl,-⟩ := hb hk
  exact .whole b.text

theorem keeps_lineAddress (n : Int) (a : Target) (sign : Int) :
    (lineAddress n a sign).Keeps k engine P fun b t => P t ∧ b.buffer = a.buffer ∧
      (a.buffer = k → Lines.address t n a.r sign = .ok b.r) := by
  refine keeps_bind (keeps_buffer a.buffer) fun b => ?_
  split
  · rename_i r hr
    refine keeps_pure ?_
    rintro t ⟨hp,hb⟩
    refine ⟨hp,rfl,fun hk => ?_⟩
    obtain ⟨rfl,-⟩ := hb hk
    exact hr
  · exact keeps_fail _
  · exact keeps_throw _

theorem keeps_line (n : Int) (a : Target) (sign : Int) :
    (lineAddress n a sign).Keeps k engine (fun t => a.Fits k t) fun b t => b.Fits k t := by
  refine (keeps_lineAddress n a sign).post ?_
  rintro b t ⟨ha,hbuffer,haddress⟩ hk
  rw [hbuffer] at hk
  exact Lines.address_within (ha hk) (haddress hk)

theorem keeps_charAddress (n : Int) (a : Target) (sign : Int) :
    (charAddress n a sign).Keeps k engine P fun b t => b.Fits k t := by
  refine keeps_bind (keeps_buffer a.buffer) fun b => ?_
  split
  · rename_i r hr
    refine keeps_pure ?_
    rintro t ⟨-,hb⟩ hk
    obtain ⟨rfl,-⟩ := hb hk
    exact Lines.charAddress_within hr
  · exact keeps_fail _

theorem keeps_nextMatch {h : Handle} {pattern : Text} {p sign : Int} (hf : MatchesForward engine pattern) :
    (nextMatch h pattern p sign).Keeps k engine (fun _ => h = k → 0 ≤ p)
      fun m t => h = k → m.span.Within t := by
  refine keeps_bind (keeps_compile _ _) fun re => keeps_bind keeps_get fun s => ?_
  refine keeps_bind (keeps_buffer h) fun b => keeps_bind (keeps_searching _) fun found => ?_
  cases found with
  | error e => exact keeps_fail e
  | ok m =>
    refine keeps_pure ?_
    rintro t ⟨⟨⟨hp,hre⟩,hb⟩,hfound⟩ hk
    obtain ⟨rfl,-⟩ := hb hk
    split at hfound
    · exact matchForward_within (hf re hre) (hp hk) hfound
    · exact matchBackward_within (hf re hre) hfound

theorem keeps_step {s : Step} (hs : s.Forward engine) (rest : Chain) (a : Target) (sign : Int) :
    (step s rest a sign).Keeps k engine (fun t => a.Fits k t) fun b t => b.1.Fits k t := by
  have hmatch {re : Text} (hf : MatchesForward engine re) (a : Target) (p sign : Int)
      (hp : ∀ t : Text, a.r.Within t → 0 ≤ p) :
      (do return ((⟨(← nextMatch a.buffer re p sign).span, a.buffer⟩ : Target), sign) :
        Run (Target × Int)).Keeps k engine (fun t => a.Fits k t) fun b t => b.1.Fits k t := by
    refine keeps_bind ?_ fun m => keeps_pure fun t hm => hm
    exact (keeps_nextMatch hf).pre fun t ha hk => hp t (ha hk)
  cases s with
  | file re =>
    refine keeps_bind (keeps_quietly (follows_matchFile re)) fun h => ?_
    exact keeps_bind (keeps_dotOf h) fun _ => keeps_pure fun t ha => ha.2.2
  | mark => exact keeps_fail _
  | other => exact keeps_fail _
  | line n => exact keeps_bind (keeps_line n a sign) fun _ => keeps_pure fun t ha => ha
  | char n => exact keeps_bind (keeps_charAddress n a sign) fun _ => keeps_pure fun t ha => ha
  | dot => exact keeps_bind (keeps_dotOf a.buffer) fun _ => keeps_pure fun t ha => ha.2.2
  | last =>
    refine keeps_bind (keeps_buffer a.buffer) fun b => keeps_pure ?_
    rintro t ⟨-,hb⟩ hk
    obtain ⟨rfl,-⟩ := hb hk
    exact .point (Int.natCast_nonneg _) (Int.le_refl _)
  | forward re =>
    refine hmatch hs a _ _ fun t ha => ?_
    have := ha.start
    have := ha.ordered
    split <;> omega
  | backward re =>
    refine hmatch hs a _ _ fun t ha => ?_
    have := ha.start
    have := ha.ordered
    split <;> omega
  | plus | minus =>
    refine keeps_ite (fun _ => ?_) fun _ => ?_
    · exact keeps_bind (keeps_line _ _ _) fun _ => keeps_pure fun t ha => ha
    · exact keeps_bind (keeps_pure fun t ha => ha) fun _ => keeps_pure fun t ha => ha

theorem keeps_resolveChain {chain : Chain} (hs : ∀ s ∈ chain, s.Forward engine) (a : Target)
    (sign : Int) :
    (resolveChain chain a sign).Keeps k engine (fun t => a.Fits k t) fun b t => b.Fits k t := by
  induction chain generalizing a sign with
  | nil => exact keeps_pure fun t ha => ha
  | cons s rest ih =>
    refine keeps_bind (keeps_step (hs s List.mem_cons_self) rest a sign) fun b => ?_
    exact ih (fun s hs' => hs s (List.mem_cons_of_mem _ hs')) b.1 b.2

theorem keeps_join (a b : Target) :
    (join a b).Keeps k engine (fun t => a.Fits k t ∧ b.Fits k t) fun c t => c.Fits k t := by
  unfold join
  refine keeps_unless fun hbuffer => keeps_unless fun horder => keeps_pure ?_
  rintro t ⟨ha,hb⟩ hk
  have hsame : a.buffer = b.buffer := Decidable.not_not.mp hbuffer
  exact ⟨(ha hk).start,Int.not_lt.mp horder,(hb (hsame ▸ hk)).stop⟩

theorem keeps_resolveLeft {left : Option Chain} (hs : ∀ steps ∈ left, ∀ s ∈ steps, s.Forward engine)
    (a : Target) : (resolveLeft left a).Keeps k engine (fun t => a.Fits k t) fun b t => b.Fits k t := by
  cases left with
  | none => exact keeps_pure fun t _ _ => .point (Int.le_refl 0) (Int.natCast_nonneg _)
  | some chain => exact keeps_resolveChain (hs chain rfl) a 0

theorem keeps_startRight (sep : Separator) (a left : Target) :
    (startRight sep a left).Keeps k engine (fun t => left.Fits k t ∧ a.Fits k t)
      fun b t => b.Fits k t ∧ left.Fits k t := by
  cases sep with
  | comma => exact keeps_pure fun t h => h.symm
  | semicolon =>
    have hgrows : Text.Grows fun t => left.Fits k t ∧ a.Fits k t :=
      fun _ _ hle h => ⟨left.grows_fits k hle h.1,a.grows_fits k hle h.2⟩
    exact keeps_bind (keeps_setDot (fun t h => h.1) hgrows) fun _ => keeps_pure fun t h => ⟨h.1,h.1⟩

/-- The left side, and what the right side starts from. -/
theorem keeps_sides {left : Option Chain} (hs : ∀ steps ∈ left, ∀ s ∈ steps, s.Forward engine)
    (sep : Separator) (a : Target) {f : Target → Target → Run Target}
    (hf : ∀ l start : Target, (f l start).Keeps k engine (fun t => start.Fits k t ∧ l.Fits k t)
      fun b t => b.Fits k t) :
    (do
      let l ← resolveLeft left a
      let start ← startRight sep a l
      f l start : Run Target).Keeps k engine (fun t => a.Fits k t) fun b t => b.Fits k t := by
  have hleft := (keeps_resolveLeft (k := k) hs a).frame (follows_resolveLeft left a) (a.grows_fits k)
  refine keeps_bind (hleft.pre fun t ha => ⟨ha,ha⟩) fun l => ?_
  exact keeps_bind (keeps_startRight sep a l) fun start => hf l start

theorem keeps_resolve {addr : Addr} (ha : addr.Forward engine) (a : Target) (sign : Int) :
    (resolve addr a sign).Keeps k engine (fun t => a.Fits k t) fun b t => b.Fits k t := by
  induction addr generalizing a sign with
  | chain steps => exact keeps_resolveChain ha a sign
  | toEnd left sep =>
    refine keeps_sides ha sep a fun l start => ?_
    refine keeps_bind (keeps_wholeOf start.buffer) fun b => (keeps_join l b).pre ?_
    rintro t ⟨⟨-,hl⟩,hb⟩
    exact ⟨hl,hb⟩
  | compound left sep right ih =>
    refine keeps_sides ha.1 sep a fun l start => ?_
    have hright := (ih ha.2 start 0).frame (k := k) (follows_resolve right _ 0) (l.grows_fits k)
    exact keeps_bind hright fun b => (keeps_join l b).pre fun t h => h.symm

theorem keeps_resolveFrom (h : Option Handle) {addr : Addr} (ha : addr.Forward engine) :
    (resolveFrom h addr).Keeps k engine P fun a t => a.Fits k t := by
  unfold resolveFrom
  split
  · exact keeps_bind ((keeps_dotOf _).post fun a t ha => ha.2.2) fun a => keeps_resolve ha a 0
  · refine keeps_bind (keeps_quietly (follows_matchFile _)) fun h => ?_
    refine keeps_bind ((keeps_dotOf h).post fun a t ha => ha.2.2) fun a => ?_
    exact keeps_resolveChain (fun s hs => ha s (List.mem_cons_of_mem _ hs)) a 0
  · exact keeps_throw _

theorem keeps_withDefault (whole : Bool) (h : Option Handle) {addr : Option Addr}
    (ha : ∀ a ∈ addr, a.Forward engine) : (withDefault whole h addr).Keeps k engine P fun a t => a.Fits k t := by
  have hown (h : Handle) {P : Text → Prop} :
      (if whole then wholeOf h else dotOf h).Keeps k engine P fun a t => a.Fits k t :=
    keeps_ite (fun _ => (keeps_wholeOf h).post fun a t ha => ha.2) fun _ =>
      (keeps_dotOf h).post fun a t ha => ha.2.2
  unfold withDefault
  split
  · exact keeps_bind (keeps_quietly (follows_homeOf h)) fun h => hown h
  · exact keeps_bind (keeps_quietly (follows_matchFile _)) fun h => hown h
  · exact keeps_resolveFrom h (ha _ rfl)

/-! ## Actions -/

/-- Dot is set to a range that is known to lie in the text. -/
theorem keeps_setTarget (a : Target) : (setDot a.buffer a.r).Keeps k engine (fun t => a.Fits k t) fun _ _ => True :=
  (keeps_setDot (fun _ ha => ha) (a.grows_fits k)).post fun _ _ _ => trivial

theorem grows_point (h k : Handle) (q : Int) :
    Text.Grows fun t => h = k → (Span.point q).Within t := fun _ _ hle hq hk => (hq hk).grow hle

theorem keeps_setPoint (h : Handle) (q : Int) :
    (setDot h (.point q)).Keeps k engine (fun t => h = k → (Span.point q).Within t) fun _ _ => True :=
  (keeps_setDot (fun _ hq => hq) (grows_point h k q)).post fun _ _ _ => trivial

theorem keeps_insertAt (h : Handle) (q : Int) (text : Text) :
    (insertAt h q text).Keeps k engine (fun t => h = k → (Span.point q).Within t) fun _ _ => True :=
  keeps_when (fun _ => keeps_still (follows_record h (.insert q text)) (grows_point h k q)) fun _ =>
    keeps_setPoint h q

theorem keeps_change (a : Target) (text : Text) :
    (change a text).Keeps k engine (fun t => a.Fits k t) fun _ _ => True :=
  keeps_bind (keeps_still (follows_record _ (.replace a.r.q0 a.r.q1 text)) (a.grows_fits k)) fun _ =>
    keeps_setTarget a

theorem keeps_delete (a : Target) : (delete a).Keeps k engine (fun t => a.Fits k t) fun _ _ => True := by
  refine keeps_when (fun _ => ?_) fun _ => (keeps_setPoint _ _).pre fun t ha hk => ?_
  · exact keeps_still (follows_record _ (.delete a.r.q0 a.r.q1)) (a.grows_fits k)
  · obtain ⟨hstart,hordered,hstop⟩ := ha hk
    exact .point hstart (Int.le_trans hordered hstop)

theorem keeps_print (a : Target) : (print a).Keeps k engine (fun t => a.Fits k t) fun _ _ => True := by
  refine keeps_bind (keeps_still (follows_buffer _) (a.grows_fits k)) fun b => ?_
  exact keeps_when (fun _ => keeps_still (follows_warn _) (a.grows_fits k)) fun _ => keeps_setTarget a

theorem keeps_substitute (a : Target) (re : Text) (count : Int) (template : Text) (all : Bool) :
    (substitute a re count template all).Keeps k engine (fun t => a.Fits k t) fun _ _ => True := by
  have hgrows := a.grows_fits k
  refine keeps_bind (keeps_still (follows_compileFor _ _) hgrows) fun re => ?_
  refine keeps_bind (keeps_still (follows_buffer _) hgrows) fun b => ?_
  refine keeps_bind (keeps_still (follows_searching _) hgrows) fun selected => ?_
  refine keeps_bind (keeps_still (follows_forIn _ (fun m _ => ?_) _) hgrows) fun _ => ?_
  · exact follows_bind (follows_record a.buffer (.replace m.start m.stop _)) fun _ => follows_pure _
  · exact keeps_bind keeps_get fun s =>
      keeps_when (fun _ => keeps_fail _) fun _ => keeps_setTarget a

theorem keeps_pipeIn (letter : Char) (a : Target) (argument : Text) (reads : Bool) :
    (pipeIn letter a argument reads).Keeps k engine (fun t => a.Fits k t) fun _ _ => True := by
  refine keeps_bind (keeps_still (follows_pipeCommand _ _) (a.grows_fits k)) fun command => ?_
  refine keeps_bind (keeps_setTarget a) fun _ => keeps_quietly ?_
  refine follows_bind (follows_buffer _) fun b => follows_bind (follows_runCommand _ _ _) fun c => ?_
  exact follows_record a.buffer (.replace a.r.q0 a.r.q1 c.output)

theorem keeps_pipeOut (a : Target) (argument : Text) :
    (pipeOut a argument).Keeps k engine (fun t => a.Fits k t) fun _ _ => True := by
  refine keeps_bind (keeps_still (follows_pipeCommand _ _) (a.grows_fits k)) fun command => ?_
  refine keeps_bind (keeps_setTarget a) fun _ => keeps_quietly ?_
  refine follows_bind (follows_buffer _) fun b => follows_bind (follows_runCommand _ _ _) fun c => ?_
  exact follows_ite (follows_warn _) (follows_pure _)

/-- Dot grows to the lines it is in, or goes to the line behind it. -/
theorem keeps_nextLine (h : Handle) : (nextLine h).Keeps k engine P fun _ _ => True := by
  refine keeps_bind (keeps_dotOf h) fun dot => ?_
  refine keeps_bind (keeps_lineAddress 0 dot (-1)) fun first => ?_
  refine keeps_bind (keeps_lineAddress 0 dot 1) fun last => ?_
  have hset (r : Span) : (setDot h r).Keeps k engine (fun t => h = k → r.Within t) fun _ _ => True :=
    keeps_setTarget ⟨r,h⟩
  refine keeps_ite (fun _ => ?_) fun _ => ?_
  · refine keeps_bind (keeps_lineAddress 1 dot 1) fun next => ?_
    refine keeps_bind (Q := fun r t => h = k → r.Within t) (keeps_pure ?_) hset
    rintro t ⟨⟨⟨⟨-,hbuffer,hdot⟩,-⟩,-⟩,-,hnext⟩ hk
    rw [← hbuffer] at hk
    exact Lines.address_within (hdot hk) (hnext hk)
  · refine keeps_bind (Q := fun r t => h = k → r.Within t) (keeps_pure ?_) hset
    rintro t ⟨⟨⟨-,hbuffer,hdot⟩,-,hfirst⟩,-,hlast⟩ hk
    rw [← hbuffer] at hk
    have hstart := (Lines.address_within (hdot hk) (hfirst hk)).start
    have hstop := (Lines.address_within (hdot hk) (hlast hk)).stop
    have hfront := Lines.address_front (hfirst hk)
    have hrest := Lines.address_rest (hlast hk)
    have hfirstOrdered := (Lines.address_within (hdot hk) (hfirst hk)).ordered
    have hlastOrdered := (Lines.address_within (hdot hk) (hlast hk)).ordered
    have hordered := (hdot hk).ordered
    exact ⟨hstart,by simp only; omega,hstop⟩

theorem keeps_undo (h : Handle) (steps : Int) : (undo h steps).Keeps k engine P fun _ _ => True := by
  intro s hs _
  refine ⟨⟨?_,hs.engine⟩,fun _ _ => trivial⟩
  rcases s.workspace.buffer_update_cases h k (·.travel steps) with hb | hb
  · exact (congrArg Buffer.DotsWithin hb).mpr hs.dots
  · exact (congrArg Buffer.DotsWithin hb).mpr (hs.dots.travel steps)

theorem keeps_onRange (whole : Bool) (h : Option Handle) {addr : Option Addr}
    (ha : ∀ a ∈ addr, a.Forward engine) {f : Target → Run Unit}
    (hf : ∀ a, (f a).Keeps k engine (fun t => a.Fits k t) fun _ _ => True) :
    (onRange whole h addr f).Keeps k engine P fun _ _ => True :=
  keeps_bind (keeps_withDefault whole h ha) hf

theorem keeps_refuseLetter (h : Option Handle) {addr : Option Addr} (ha : ∀ a ∈ addr, a.Forward engine)
    (letter : Char) : (refuseLetter h addr letter).Keeps k engine P fun _ _ => True := by
  unfold refuseLetter
  split
  · refine keeps_ite (fun _ => ?_) fun _ => keeps_fail _
    refine keeps_bind (Q := fun _ _ => True) ?_ fun _ => keeps_fail _
    exact keeps_bind (keeps_withDefault _ h ha) fun _ => keeps_pure fun _ _ => trivial
  · exact keeps_fail _

theorem keeps_homeOf (h : Option Handle) : (homeOf h).Keeps k engine P fun _ t => P t := by
  cases h with
  | none => exact keeps_throw _
  | some h => exact keeps_pure fun t hp => hp

theorem keeps_onBuffer (h : Option Handle) {f : Handle → Run Unit}
    (hf : ∀ h, (f h).Keeps k engine P fun _ _ => True) : (onBuffer h f).Keeps k engine P fun _ _ => True :=
  keeps_bind (keeps_homeOf h) hf

theorem keeps_runAction (h : Option Handle) {addr : Option Addr} (ha : ∀ a ∈ addr, a.Forward engine)
    (action : Action) : (runAction h addr action).Keeps k engine P fun _ _ => True := by
  cases action with
  | newline =>
    cases addr with
    | none => exact keeps_onBuffer h keeps_nextLine
    | some addr => exact keeps_bind (keeps_resolveFrom h (ha addr rfl)) keeps_setTarget
  | append text =>
    refine keeps_onRange _ _ ha fun a => (keeps_insertAt _ _ _).pre fun t hfits hk => ?_
    obtain ⟨hstart,hordered,hstop⟩ := hfits hk
    exact .point (Int.le_trans hstart hordered) hstop
  | insert text =>
    refine keeps_onRange _ _ ha fun a => (keeps_insertAt _ _ _).pre fun t hfits hk => ?_
    obtain ⟨hstart,hordered,hstop⟩ := hfits hk
    exact .point hstart (Int.le_trans hordered hstop)
  | change text => exact keeps_onRange _ _ ha fun a => keeps_change a text
  | delete => exact keeps_onRange _ _ ha keeps_delete
  | move target =>
    refine keeps_onRange _ _ ha fun a => keeps_quietly (follows_bind (follows_dotOf _) fun t => ?_)
    exact follows_bind (follows_resolveChain _ _ _) fun dest => follows_moveTo a dest
  | copy target =>
    refine keeps_onRange _ _ ha fun a => keeps_quietly (follows_bind (follows_dotOf _) fun t => ?_)
    exact follows_bind (follows_resolveChain _ _ _) fun dest => follows_copyTo a dest
  | print => exact keeps_onRange _ _ ha keeps_print
  | substitute re count template all =>
    exact keeps_onRange _ _ ha fun a => keeps_substitute a re count template all
  | undo steps => exact keeps_onBuffer h fun h => keeps_undo h steps
  | position mode => exact keeps_onRange _ _ ha fun a => keeps_quietly (follows_showPosition a mode)
  | switch name => exact keeps_quietly (follows_switchTo name)
  | openFiles names => exact keeps_quietly (follows_openFiles h names)
  | closeFiles names => exact keeps_quietly (follows_closeFiles h names)
  | load name => exact keeps_onBuffer h fun h => keeps_quietly (follows_loadFile h name)
  | read name => exact keeps_onRange _ _ ha fun a => keeps_quietly (follows_insertFile _ _ _ _)
  | rename name => exact keeps_onBuffer h fun h => keeps_quietly (follows_nameBuffer h name)
  | write name => exact keeps_onRange _ _ ha fun a => keeps_quietly (follows_writeFile _ _ _)
  | fromPipe command => exact keeps_onRange _ _ ha fun a => keeps_pipeIn _ _ _ _
  | throughPipe command => exact keeps_onRange _ _ ha fun a => keeps_pipeIn _ _ _ _
  | toPipe command => exact keeps_onRange _ _ ha fun a => keeps_pipeOut _ _
  | other letter => exact keeps_refuseLetter h ha letter

/-! ## Loops -/

theorem keeps_loopRanges {loop : RangeLoop} (hl : loop.Forward engine) (a : Target) :
    (loopRanges loop a).Keeps k engine (fun t => a.Fits k t)
      fun rs t => ∀ r ∈ rs, a.buffer = k → r.Within t := by
  unfold loopRanges
  refine keeps_bind (keeps_buffer a.buffer) fun b => ?_
  extract_lets text found
  -- Every loop visits ranges that lie one behind the other in its own.
  have hwithin {t : Text} {rs : List Span} (ha : a.Fits k t)
      (hrs : a.buffer = k → Sequenced a.r.q0 a.r.q1 rs) : ∀ r ∈ rs, a.buffer = k → r.Within t :=
    fun r hr hk => (hrs hk).within (ha hk).start (ha hk).stop r hr
  have hfound {re : Text} (hf : MatchesForward engine re) : (found re).Keeps k engine
      (fun t => a.Fits k t ∧ (a.buffer = k → b.text = t ∧ b.DotsWithin))
      fun rs t => a.Fits k t ∧ (a.buffer = k → Sequenced a.r.q0 a.r.q1 rs) := by
    refine keeps_bind (keeps_compile _ _) fun re => keeps_bind (keeps_searching _) fun ms => ?_
    refine keeps_pure ?_
    rintro t ⟨⟨⟨ha,hb⟩,hre⟩,hms⟩
    refine ⟨ha,fun hk => ?_⟩
    obtain ⟨rfl,-⟩ := hb hk
    exact re.forward_sequenced (hf re hre) (ha hk) hms
  cases loop with
  | lines =>
    refine keeps_pure ?_
    rintro t ⟨ha,hb⟩
    refine hwithin ha fun hk => ?_
    obtain ⟨rfl,-⟩ := hb hk
    exact .linesOf (ha hk)
  | matching re => exact (hfound hl).post fun rs t h => hwithin h.1 h.2
  | between re =>
    exact keeps_bind (hfound hl) fun rs => keeps_pure fun t h => hwithin h.1 fun hk => (h.2 hk).gaps

/-- The ranges still to be visited lie in the text as long as the body undoes nothing. -/
theorem keeps_eachRange {body : Run Unit} (hbody : body.Keeps k engine (fun _ => True) fun _ _ => True)
    (hd : body.Defers) (h : Handle) (rs : List Span) :
    (eachRange h body rs).Keeps k engine (fun t => ∀ r ∈ rs, h = k → r.Within t) fun _ _ => True := by
  induction rs with
  | nil => exact keeps_pure fun _ _ => trivial
  | cons r rest ih =>
    have hgrows : Text.Grows fun t => ∀ r' ∈ r :: rest, h = k → r'.Within t :=
      fun _ _ hle hrs r' hr' hk => (hrs r' hr' hk).grow hle
    refine keeps_bind (keeps_setDot (fun t hrs => hrs r List.mem_cons_self) hgrows) fun _ => ?_
    refine keeps_bind ((hbody.frame hd hgrows).pre fun t hrs => ⟨trivial,hrs⟩) fun _ => ?_
    exact ih.pre fun t hrs r' hr' => hrs.2 r' (List.mem_cons_of_mem _ hr')

theorem keeps_eachBuffer {body : Handle → Run Unit}
    (hbody : ∀ h, (body h).Keeps k engine (fun _ => True) fun _ _ => True) (hs : List Handle) :
    (eachBuffer body hs).Keeps k engine (fun _ => True) fun _ _ => True := by
  induction hs with
  | nil => exact keeps_pure fun _ _ => trivial
  | cons h rest ih => exact keeps_bind (hbody h) fun _ => ih

theorem keeps_withPinned (hs : List Handle) {body : Run Unit}
    (hbody : body.Keeps k engine (fun _ => True) fun _ _ => True) :
    (withPinned hs body).Keeps k engine P fun _ _ => True := by
  refine keeps_bind (keeps_quietly (within_modifyWorkspace fun w => w.moves_hold hs)) fun _ => ?_
  exact keeps_ensuring hbody fun s => ⟨s.workspace.moves_release hs,rfl,.refl _⟩

/-! ## Commands -/

mutual

/-- A steady command keeps dots in their texts, whatever it is built of. -/
theorem keeps_execute (h : Option Handle) (c : Cmd) (hc : c.Steady engine) :
    (execute h c).Keeps k engine (fun _ => True) fun _ _ => True := by
  have hwindow : (requireWindow h c).Keeps k engine (fun _ => True) fun _ _ => True :=
    keeps_quietly (follows_requireWindow h c)
  cases c with
  | act addr action => exact keeps_bind hwindow fun _ => keeps_runAction h hc action
  | guard addr re negated body =>
    obtain ⟨ha,hbody⟩ := hc
    refine keeps_bind hwindow fun _ => keeps_bind (keeps_withDefault _ _ ha) fun a => ?_
    refine keeps_bind (keeps_still (follows_compileFor _ _) (a.grows_fits k)) fun pattern => ?_
    refine keeps_bind (keeps_still (follows_buffer _) (a.grows_fits k)) fun b => ?_
    refine keeps_bind (keeps_still (follows_searching _) (a.grows_fits k)) fun found => ?_
    refine keeps_ite (fun _ => ?_) fun _ => keeps_pure fun _ _ => trivial
    exact keeps_bind (keeps_setTarget a) fun _ => keeps_execute _ body hbody
  | extract addr loop body =>
    obtain ⟨ha,hloop,hundoes,hbody⟩ := hc
    refine keeps_bind hwindow fun _ => keeps_bind (keeps_withDefault _ _ ha) fun a => ?_
    refine keeps_bind (keeps_still (within_aside (fun _ => rfl) (fun _ => rfl) fun _ => rfl) (a.grows_fits k)) fun _ => ?_
    refine keeps_ensuring ?_ fun s => ⟨.refl,rfl,.refl _⟩
    refine keeps_bind (keeps_loopRanges hloop a) fun rs => ?_
    exact keeps_eachRange (keeps_execute _ body hbody) (defers_execute _ body hundoes) a.buffer rs
  | buffers loop body =>
    unfold execute
    refine keeps_bind (keeps_quietly ?_) fun _ => keeps_ensuring ?_ fun s => ⟨.refl,rfl,.refl _⟩
    · refine follows_bind follows_get fun s => follows_when (follows_fail _) fun _ => ?_
      exact within_aside (fun _ => rfl) (fun _ => rfl) fun _ => rfl
    · refine keeps_bind keeps_get fun s => ?_
      refine keeps_bind (keeps_quietly (follows_loopBuffers _ _)) fun hs => ?_
      exact keeps_withPinned hs (keeps_eachBuffer (fun h => keeps_execute _ body hc) hs)
  | group addr body =>
    obtain ⟨ha,hbody⟩ := hc
    unfold execute
    refine keeps_bind hwindow fun _ => ?_
    extract_lets run
    have hrun (a : Target) : (run a).Keeps k engine (fun t => a.Fits k t) fun _ _ => True := by
      intro s hs hfits
      refine keeps_executeGroup a body hbody (fun hk => ?_) s hs trivial
      exact ⟨(hfits hk).start,(hfits hk).ordered⟩
    cases addr with
    | none =>
      refine keeps_bind (keeps_homeOf h) fun h => keeps_bind ((keeps_dotOf h).post ?_) hrun
      exact fun a t ha => ha.2.2
    | some addr => exact keeps_bind (keeps_resolveFrom h (ha addr rfl)) hrun

/-- What is undone in a group may cut the text in front of the end of its dot; the group then
stops. -/
theorem keeps_executeGroup (a : Target) (cs : List Cmd) (hcs : Cmd.AllSteady engine cs)
    (ha : a.buffer = k → 0 ≤ a.r.q0 ∧ a.r.q0 ≤ a.r.q1) :
    (executeGroup a cs).Keeps k engine (fun _ => True) fun _ _ => True := by
  cases cs with
  | nil => exact keeps_pure fun _ _ => trivial
  | cons c rest =>
    obtain ⟨hc,hrest⟩ := hcs
    unfold executeGroup
    refine keeps_bind (keeps_buffer _) fun b => keeps_unless fun hstop => ?_
    refine keeps_bind ((keeps_setTarget a).pre ?_) fun _ => ?_
    · rintro t ⟨-,hb⟩ hk
      obtain ⟨rfl,-⟩ := hb hk
      exact ⟨(ha hk).1,(ha hk).2,Int.not_lt.mp hstop⟩
    · exact keeps_bind (keeps_execute _ c hc) fun _ => keeps_executeGroup a rest hrest ha

end

end Run

end StructuralEdit
