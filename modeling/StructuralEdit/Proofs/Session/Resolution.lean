import StructuralEdit.Proofs.Command.WellFormed
import StructuralEdit.Proofs.Search.Complete
import StructuralEdit.Proofs.Session.Dots

/-! # Addresses are resolved

Resolving an address is answered: with a target that lies in its buffer, or with one of a
few errors. All it does to the session is to set dots, and to what it has found. So what
holds of the session it starts in goes on to hold: dots lie in their texts, searches begin
in them, and every search comes to an end.
-/
namespace StructuralEdit
open Pattern

/-! ## What is asked of patterns -/

/-- A pattern compiles or is refused as bad; what it compiles to matches forward, and every attempt
in a piece of a text is answered. -/
structure Dependable (engine : Engine) (pattern : Text) : Prop where
  refused : ∀ {f}, Regex.compile engine pattern = .error f → ∃ problem offset, f = .bad problem offset
  forward : MatchesForward engine pattern
  answered : ∀ {re}, Regex.compile engine pattern = .ok re → ∀ {text : Array Char} {pos stop : Nat},
    pos ≤ stop → stop ≤ text.size → ∃ found, re.attempt text pos stop = .ok found

theorem Dependable.answers {engine : Engine} {pattern : Text} {re : Regex} (hd : Dependable engine pattern)
    (hre : Regex.compile engine pattern = .ok re) (text : Array Char) : re.Answers text :=
  ⟨hd.answered hre,fun hpos _ h => hd.forward re hre hpos h⟩

/-- The patterns of an address. -/
def Addr.patterns : Addr → List Text
  | chain steps => steps.filterMap Step.pattern?
  | toEnd left _ => (left.getD []).filterMap Step.pattern?
  | compound left _ right => (left.getD []).filterMap Step.pattern? ++ right.patterns

/-- The errors that resolving an address ends in. -/
def EditError.ofAddress : EditError → Bool
  | addressOutOfRange | markAddress | noMatch | noFurtherMatch | badPattern _
  | tooManyFilesMatch _ | noFileMatches _ | differentFiles | outOfOrder => true
  | _ => false

/-! ## Searches are answered -/

namespace Run
open Regex
variable {re : Regex} {text : Text} {p : Int}

theorem forward_answered {start : Int} (ha : re.Answers text.toArray)
    (hsize : text.length < 0x8000000000000000) (h0 : 0 ≤ start) (stop : Option Int)
    (budget : Option Nat) : ∃ ms, re.forward text start stop budget = .ok ms := by
  have hlength : text.toArray.size = text.length := List.size_toArray ..
  obtain ⟨ms,hms⟩ := (comesToEnd ha hsize (Int.le_refl 1)).scan stop budget h0
  refine ⟨ms,?_⟩
  rw [Regex.forward, matchesIn, hlength]
  exact hms _ (Nat.le_refl _)

theorem ofAddress_of_further {found : List Match} {e : EditError} (h : further found = .error e) :
    e.ofAddress := by
  cases found with
  | nil =>
    cases h
    rfl
  | cons m more => cases h

theorem matchForward_answered (ha : re.Answers text.toArray)
    (hsize : text.length < 0x8000000000000000) (h0 : 0 ≤ p) :
    ∃ o, matchForward re text p = .ok o ∧ ∀ e, o = .error e → e.ofAddress := by
  obtain ⟨ahead,hahead⟩ := forward_answered ha hsize h0 none (some 2)
  obtain ⟨before,hbefore⟩ := forward_answered ha hsize (Int.le_refl 0) (some p) (some 1)
  have hretry : 0 ≤ if p + 1 ≤ (text.length : Int) then p + 1 else 0 := by split <;> omega
  obtain ⟨again,hagain⟩ := forward_answered ha hsize hretry none (some 1)
  have hwrap : ∃ found, wrapForward re text p = .ok found := by
    rw [wrapForward, hahead]
    cases ahead with
    | nil => exact ⟨before,hbefore⟩
    | cons m more => exact ⟨_,rfl⟩
  obtain ⟨found,hwrap⟩ := hwrap
  rw [matchForward, hwrap]
  cases found with
  | nil =>
    refine ⟨_,rfl,?_⟩
    rintro e ⟨⟩
    rfl
  | cons m more =>
    simp only [bind, Except.bind, hagain]
    split
    · split <;> exact ⟨_,rfl,fun e => ofAddress_of_further⟩
    · refine ⟨_,rfl,?_⟩
      rintro e ⟨⟩

theorem matchBackward_answered {window : Int} (ha : re.Answers text.toArray)
    (hsize : text.length < 0x8000000000000000) (hwindow : 1 ≤ window) (h0 : 0 ≤ p)
    (hp : p ≤ text.length) :
    ∃ o, matchBackward re window text p = .ok o ∧ ∀ e, o = .error e → e.ofAddress := by
  obtain ⟨p,rfl⟩ := Int.eq_ofNat_of_zero_le h0
  have hends := matchBackward_ends ha hsize (Int.ofNat_le.mp hp) hwindow
  generalize matchBackward re window text p = sought at hends
  cases hends with
  | found m => exact ⟨_,rfl,nofun⟩
  | missed | stuck =>
    refine ⟨_,rfl,?_⟩
    rintro e ⟨⟩
    rfl

end Run

/-! ## Sessions as addresses see them -/

/-- A session in which the buffers in reach can be searched, each with its dot in its text. -/
structure Session.Searchable (s : Session) (reach : Handle → Prop) : Prop where
  listed : ∀ k ∈ s.workspace.listed, reach k
  dot : ∀ k, reach k → (s.buffer k).dot.Within (s.buffer k).text
  text : ∀ k, reach k → (s.buffer k).text.length < 0x8000000000000000
  line : ∀ k ∈ s.workspace.listed, (s.menuLine k).length < 0x8000000000000000
  window : 1 ≤ s.patterns.window

/-- One session shows addresses what another one does, but for dots, which lie in their texts. -/
structure Session.Shows (s : Session) (reach : Handle → Prop) (t : Session) : Prop where
  text : ∀ k, (t.buffer k).text = (s.buffer k).text
  listed : t.workspace.listed = s.workspace.listed
  line : ∀ k, t.menuLine k = s.menuLine k
  patterns : t.patterns.Alike s.patterns
  dot : ∀ k, reach k → (t.buffer k).dot.Within (s.buffer k).text

variable {s t : Session} {reach : Handle → Prop}

theorem Session.Searchable.shows (hs : s.Searchable reach) : s.Shows reach s :=
  ⟨fun _ => rfl,rfl,fun _ => rfl,.refl _,hs.dot⟩

/-- A target in reach lies in its buffer. -/
structure Target.In (s : Session) (reach : Handle → Prop) (a : Target) : Prop where
  reached : reach a.buffer
  within : a.r.Within (s.buffer a.buffer).text

namespace Run
variable {α β : Type} {x : Run α} {Q Q' : α → Prop} {R : β → Prop}

/-- From a session that shows what `s` does, a run returns something as `Q` says or ends in an error
of addresses, and the session goes on to show what `s` does. -/
def Resolves (s : Session) (reach : Handle → Prop) (x : Run α) (Q : α → Prop) : Prop :=
  ∀ t, s.Shows reach t → (∃ a u, x t = .ok a u ∧ s.Shows reach u ∧ Q a) ∨
    ∃ e u, x t = .error (.edit e) u ∧ s.Shows reach u ∧ e.ofAddress

/-! ## Composition -/

theorem Resolves.post (hx : x.Resolves s reach Q) (hQ : ∀ a, Q a → Q' a) : x.Resolves s reach Q' := by
  intro t ht
  rcases hx t ht with ⟨a,u,hrun,hu,ha⟩ | hfail
  · exact .inl ⟨a,u,hrun,hu,hQ a ha⟩
  · exact .inr hfail

theorem resolves_pure {a : α} (h : Q a) : (pure a : Run α).Resolves s reach Q :=
  fun t ht => .inl ⟨a,t,rfl,ht,h⟩

theorem resolves_fail {e : EditError} (he : e.ofAddress) : (fail e : Run α).Resolves s reach Q :=
  fun t ht => .inr ⟨e,t,rfl,ht,he⟩

theorem resolves_bind {f : α → Run β} (hx : x.Resolves s reach Q)
    (hf : ∀ a, Q a → (f a).Resolves s reach R) : (x >>= f).Resolves s reach R := by
  intro t ht
  rcases hx t ht with ⟨a,u,hrun,hu,ha⟩ | ⟨e,u,hrun,hu,he⟩
  · rw [bind_of_ok hrun]
    exact hf a ha u hu
  · exact .inr ⟨e,u,bind_of_error hrun,hu,he⟩

/-- A refusal rules its condition out from there on. -/
theorem resolves_unless {c : Prop} [Decidable c] {e : EditError} {f : Unit → Run α} (he : e.ofAddress)
    (hf : ¬ c → (f ()).Resolves s reach Q) :
    (if c then fail e >>= f else f ()).Resolves s reach Q := by
  split
  · exact resolves_bind (Q := fun _ => False) (resolves_fail he) fun _ hfalse => hfalse.elim
  · exact hf ‹_›

theorem resolves_get : (get : Run Session).Resolves s reach (s.Shows reach) :=
  fun t ht => .inl ⟨t,t,rfl,ht,ht⟩

theorem resolves_buffer (h : Handle) : (buffer h).Resolves s reach fun b =>
    b.text = (s.buffer h).text ∧ (reach h → b.dot.Within (s.buffer h).text) :=
  fun t ht => .inl ⟨t.buffer h,t,rfl,ht,ht.text h,ht.dot h⟩

theorem resolves_searching {r : Except SearchFault α} (hr : ∃ a, r = .ok a) :
    (searching r).Resolves s reach fun a => r = .ok a := by
  obtain ⟨a,rfl⟩ := hr
  exact resolves_pure rfl

theorem resolves_compile {pattern : Text} (hd : Dependable s.patterns.engine pattern) (place : Text) :
    (compile pattern place).Resolves s reach fun re => Regex.compile s.patterns.engine pattern = .ok re := by
  intro t ht
  let u : Session := { t with patterns := (t.patterns.compile pattern).2 }
  have hu : s.Shows reach u :=
    ⟨ht.text,ht.listed,ht.line,(t.patterns.alike_compile pattern).trans ht.patterns,ht.dot⟩
  rw [compile_eq, ht.patterns.engine]
  cases hre : Regex.compile s.patterns.engine pattern with
  | ok re => exact .inl ⟨re,u,rfl,hu,rfl⟩
  | error f =>
    obtain ⟨problem,offset,rfl⟩ := hd.refused hre
    exact .inr ⟨_,u,rfl,hu,rfl⟩

theorem resolves_setDot {a : Target} (ha : a.In s reach) :
    (setDot a.buffer a.r).Resolves s reach fun _ => True := by
  intro t ht
  let u : Session := { t with workspace := t.workspace.update a.buffer fun b => { b with dot := a.r } }
  have hmoved (k : Handle) : u.buffer k = t.buffer k ∨ u.buffer k = { t.buffer k with dot := a.r } :=
    t.workspace.buffer_update_cases a.buffer k _
  refine .inl ⟨(),u,rfl,⟨fun k => ?_,ht.listed,fun k => ?_,ht.patterns,fun k hk => ?_⟩,trivial⟩
  · rw [← ht.text k]
    rcases hmoved k with hb | hb
    · rw [hb]
    · rw [hb]
  · rw [← ht.line k]
    unfold Session.menuLine
    rcases hmoved k with hb | hb
    · rw [hb]
    · rw [hb]
      rfl
  · rcases hmoved k with hb | hb
    · rw [hb]
      exact ht.dot k hk
    · by_cases hat : k = a.buffer
      · rw [hb, hat]
        exact ha.within
      · have hb : u.buffer k = t.buffer k := t.workspace.buffer_update_of_ne _ hat
        rw [hb]
        exact ht.dot k hk

/-! ## Parts of an address -/

theorem resolves_dotOf {h : Handle} (hh : reach h) : (dotOf h).Resolves s reach (Target.In s reach) :=
  resolves_bind (resolves_buffer h) fun _ hb => resolves_pure ⟨hh,hb.2 hh⟩

theorem resolves_wholeOf {h : Handle} (hh : reach h) :
    (wholeOf h).Resolves s reach (Target.In s reach) := by
  refine resolves_bind (resolves_buffer h) fun b hb => resolves_pure ⟨hh,?_⟩
  rw [Buffer.size, hb.1]
  exact .whole _

theorem resolves_lineAddress {a : Target} (ha : a.In s reach) (n sign : Int) :
    (lineAddress n a sign).Resolves s reach (Target.In s reach) := by
  refine resolves_bind (resolves_buffer a.buffer) fun b hb => ?_
  rw [hb.1]
  rcases Lines.leads_address ha.within n sign with hout | ⟨r,hr,hwithin⟩
  · rw [hout]
    exact resolves_fail rfl
  · rw [hr]
    exact resolves_pure ⟨ha.reached,hwithin⟩

theorem resolves_charAddress {a : Target} (ha : a.In s reach) (n sign : Int) :
    (charAddress n a sign).Resolves s reach (Target.In s reach) := by
  refine resolves_bind (resolves_buffer a.buffer) fun b hb => ?_
  rw [hb.1]
  split
  · rename_i r hr
    exact resolves_pure ⟨ha.reached,Lines.charAddress_within hr⟩
  · exact resolves_fail rfl

theorem resolves_join {a b : Target} (ha : a.In s reach) (hb : b.In s reach) :
    (join a b).Resolves s reach (Target.In s reach) := by
  unfold join
  refine resolves_unless rfl fun hbuffer => resolves_unless rfl fun horder => resolves_pure ?_
  have hsame : a.buffer = b.buffer := Decidable.not_not.mp hbuffer
  -- The left end bounds the range below and the right one above, in what is one buffer.
  refine ⟨ha.reached,ha.within.start,Int.not_lt.mp horder,?_⟩
  rw [hsame]
  exact hb.within.stop

theorem resolves_startRight {a left : Target} (sep : Separator) (ha : a.In s reach)
    (hleft : left.In s reach) : (startRight sep a left).Resolves s reach (Target.In s reach) := by
  cases sep with
  | comma => exact resolves_pure ha
  | semicolon => exact resolves_bind (resolves_setDot hleft) fun _ _ => resolves_pure hleft

/-! ## Searches and steps -/

section
variable (hs : s.Searchable reach)
include hs

theorem resolves_fileMatches {pattern : Text} (hd : Dependable s.patterns.engine pattern) {h : Handle}
    (hh : h ∈ s.workspace.listed) : (fileMatches h pattern).Resolves s reach fun _ => True := by
  refine resolves_bind (resolves_compile hd _) fun re hre => resolves_bind resolves_get fun t ht => ?_
  refine resolves_bind (resolves_searching ?_) fun _ _ => resolves_pure trivial
  rw [ht.line h]
  obtain ⟨ms,hms⟩ := forward_answered (hd.answers hre (s.menuLine h).toArray) (hs.line h hh)
    (Int.le_refl 0) none (some 1)
  exact ⟨ms.head?,by rw [Regex.first?, hms]; rfl⟩

theorem resolves_matchFileFrom {pattern : Text} (hd : Dependable s.patterns.engine pattern) {found : Option Handle}
    (hfound : ∀ h ∈ found, h ∈ s.workspace.listed) {handles : List Handle}
    (hlisted : ∀ h ∈ handles, h ∈ s.workspace.listed) :
    (matchFileFrom pattern found handles).Resolves s reach (· ∈ s.workspace.listed) := by
  induction handles generalizing found with
  | nil =>
    cases found with
    | none => exact resolves_fail rfl
    | some h => exact resolves_pure (hfound h rfl)
  | cons h rest ih =>
    have hrest : ∀ h ∈ rest, h ∈ s.workspace.listed := fun k hk => hlisted k (List.mem_cons_of_mem _ hk)
    have hh := hlisted h List.mem_cons_self
    refine resolves_bind (resolves_fileMatches hs hd hh) fun b _ => ?_
    split
    · refine resolves_unless rfl fun _ => ih (fun k hk => ?_) hrest
      cases hk
      exact hh
    · exact ih hfound hrest

theorem resolves_matchFile {pattern : Text} (hd : Dependable s.patterns.engine pattern) :
    (matchFile pattern).Resolves s reach (· ∈ s.workspace.listed) := by
  refine resolves_bind resolves_get fun t ht => ?_
  rw [ht.listed]
  exact resolves_matchFileFrom hs hd (fun h hh => by cases hh) fun h hh => hh

theorem resolves_nextMatch {pattern : Text} (hd : Dependable s.patterns.engine pattern) {h : Handle} (hh : reach h)
    {p : Int} (h0 : 0 ≤ p) (hp : p ≤ (s.buffer h).text.length) (sign : Int) :
    (nextMatch h pattern p sign).Resolves s reach fun m => m.span.Within (s.buffer h).text := by
  refine resolves_bind (resolves_compile hd _) fun re hre => resolves_bind resolves_get fun t ht => ?_
  refine resolves_bind (resolves_buffer h) fun b hb => ?_
  rw [hb.1, ht.patterns.window]
  have ha := hd.answers hre (s.buffer h).text.toArray
  have hsize := hs.text h hh
  obtain ⟨o,ho,herror⟩ : ∃ o, (if 0 ≤ sign then matchForward re (s.buffer h).text p
      else matchBackward re s.patterns.window (s.buffer h).text p) = .ok o ∧
      ∀ e, o = .error e → e.ofAddress := by
    split
    · exact matchForward_answered ha hsize h0
    · exact matchBackward_answered ha hsize hs.window h0 hp
  refine resolves_bind (resolves_searching ⟨o,ho⟩) fun o' ho' => ?_
  rw [ho] at ho'
  cases ho'
  cases o with
  | error e => exact resolves_fail (herror e rfl)
  | ok m =>
    refine resolves_pure ?_
    split at ho
    · exact matchForward_within (hd.forward re hre) h0 ho
    · exact matchBackward_within (hd.forward re hre) ho

/-- A search begins at an end of the target it starts from, and leads to a target. -/
theorem resolves_search {pattern : Text} (hd : Dependable s.patterns.engine pattern) {a : Target} (ha : a.In s reach)
    (sign : Int) :
    (do
      let m ← nextMatch a.buffer pattern (if 0 ≤ sign then a.r.q1 else a.r.q0) sign
      return ((⟨m.span, a.buffer⟩ : Target), sign) : Run (Target × Int)).Resolves s reach
        fun b => b.1.In s reach := by
  obtain ⟨h0,h1,h2⟩ := ha.within
  exact resolves_bind (resolves_nextMatch hs hd ha.reached (by split <;> omega) (by split <;> omega) sign)
    fun m hm => resolves_pure ⟨ha.reached,hm⟩

theorem resolves_step {step : Step} (hsound : step.Sound)
    (hd : ∀ p ∈ step.pattern?, Dependable s.patterns.engine p) (rest : Chain) {a : Target}
    (ha : a.In s reach) (sign : Int) :
    (Run.step step rest a sign).Resolves s reach fun b => b.1.In s reach := by
  cases step with
  | file re =>
    refine resolves_bind (resolves_matchFile hs (hd re rfl)) fun h hh => ?_
    exact resolves_bind (resolves_dotOf (hs.listed h hh)) fun _ hb => resolves_pure hb
  | line n =>
    exact resolves_bind (resolves_lineAddress ha n sign) fun _ hb => resolves_pure hb
  | char n =>
    exact resolves_bind (resolves_charAddress ha n sign) fun _ hb => resolves_pure hb
  | dot =>
    exact resolves_bind (resolves_dotOf ha.reached) fun _ hb => resolves_pure hb
  | last =>
    refine resolves_bind (resolves_buffer _) fun b hb => ?_
    refine resolves_pure ⟨ha.reached,?_⟩
    rw [Buffer.size, hb.1]
    exact .point (Int.natCast_nonneg _) (Int.le_refl _)
  | mark => exact resolves_fail rfl
  | forward re => exact resolves_search hs (hd re rfl) ha sign
  | backward re => exact resolves_search hs (hd re rfl) ha _
  | other kind unknown => exact absurd hsound.type unknown
  | plus | minus =>
    dsimp only [Run.step]
    split
    · exact resolves_bind (resolves_lineAddress ha _ _) fun _ hb => resolves_pure hb
    · exact resolves_bind (resolves_pure ha) fun _ hb => resolves_pure hb

theorem resolves_resolveChain {chain : Chain} (hsound : ∀ step ∈ chain, step.Sound)
    (hd : ∀ p ∈ chain.filterMap Step.pattern?, Dependable s.patterns.engine p) {a : Target}
    (ha : a.In s reach) (sign : Int) :
    (resolveChain chain a sign).Resolves s reach (Target.In s reach) := by
  induction chain generalizing a sign with
  | nil => exact resolves_pure ha
  | cons step rest ih =>
    obtain ⟨hstepSound,hrestSound⟩ := List.forall_mem_cons.mp hsound
    have hstep : ∀ p ∈ step.pattern?, Dependable s.patterns.engine p := fun p hp =>
      hd p (List.mem_filterMap.mpr ⟨step,List.mem_cons_self,hp⟩)
    refine resolves_bind (resolves_step hs hstepSound hstep rest ha sign) fun b hb =>
      ih hrestSound (fun p hp => ?_) hb b.2
    obtain ⟨step',hmem,hp⟩ := List.mem_filterMap.mp hp
    exact hd p (List.mem_filterMap.mpr ⟨step',List.mem_cons_of_mem _ hmem,hp⟩)

theorem resolves_resolveLeft {left : Option Chain} (hleft : ∀ l ∈ left, Chain.WellFormed l)
    (hd : ∀ p ∈ (left.getD []).filterMap Step.pattern?, Dependable s.patterns.engine p) {a : Target}
    (ha : a.In s reach) :
    (resolveLeft left a).Resolves s reach (Target.In s reach) := by
  cases left with
  | none => exact resolves_pure ⟨ha.reached,.point (Int.le_refl 0) (Int.natCast_nonneg _)⟩
  | some chain => exact resolves_resolveChain hs (hleft chain rfl).sound hd ha 0

theorem resolves_resolve {addr : Addr} (haddr : addr.WellFormed)
    (hd : ∀ p ∈ addr.patterns, Dependable s.patterns.engine p) {a : Target} (ha : a.In s reach) (sign : Int) :
    (resolve addr a sign).Resolves s reach (Target.In s reach) := by
  induction addr generalizing a sign with
  | chain steps => exact resolves_resolveChain hs haddr.sound hd ha sign
  | toEnd left sep =>
    refine resolves_bind (resolves_resolveLeft hs haddr hd ha) fun l hl => ?_
    refine resolves_bind (resolves_startRight sep ha hl) fun start hstart => ?_
    exact resolves_bind (resolves_wholeOf hstart.reached) fun b hb => resolves_join hl hb
  | compound left sep right ih =>
    have hleft : ∀ p ∈ (left.getD []).filterMap Step.pattern?, Dependable s.patterns.engine p :=
      fun p hp => hd p (List.mem_append_left _ hp)
    have hright : ∀ p ∈ right.patterns, Dependable s.patterns.engine p :=
      fun p hp => hd p (List.mem_append_right _ hp)
    refine resolves_bind (resolves_resolveLeft hs haddr.1 hleft ha) fun l hl => ?_
    refine resolves_bind (resolves_startRight sep ha hl) fun start hstart => ?_
    -- The right side starts from what may be the new dot; it is joined to the left side all the same.
    exact resolves_bind (ih haddr.2.1 hright hstart 0) fun b hb => resolves_join hl hb

end

/-! ## Whole addresses -/

end Run

/-- An address stands in a command or in one below it: as its own, or as where it moves or copies to. -/
inductive Cmd.Holds : Cmd → Addr → Prop
  | addr {c : Cmd} {a : Addr} (h : a ∈ c.addr?) : c.Holds a
  | target {c : Cmd} {t : Chain} (h : t ∈ c.target?) : c.Holds (.chain t)
  | child {c b : Cmd} {a : Addr} (hb : b ∈ c.children) (h : b.Holds a) : c.Holds a

theorem Cmd.Holds.wellFormed {c : Cmd} {a : Addr} (hheld : c.Holds a) (hc : c.WellFormed) : a.WellFormed := by
  induction hheld with
  | addr h =>
    obtain ⟨here,-⟩ := hc
    exact here.addr _ h
  | target h =>
    obtain ⟨here,-⟩ := hc
    exact here.target _ h
  | child hb _ ih =>
    obtain ⟨-,below⟩ := hc
    exact ih (below _ hb)

namespace Run

/-- The buffers that an address can lead to: those listed, and the one it starts in. -/
def InReach (s : Session) (a : Target) (k : Handle) : Prop :=
  k ∈ s.workspace.listed ∨ k = a.buffer

/-- Resolving an address that stands in a command as it is read gives a target that lies in its buffer,
or ends in an error of addresses, and each search it makes comes to an end by itself. -/
theorem resolve_bounded {c d : Cursor} {cmd : Cmd} {addr : Addr} {a : Target} (sign : Int)
    (hread : Parser.command c = .ok (some cmd) d) (hheld : cmd.Holds addr) (hs : s.Searchable (InReach s a))
    (hstart : a.r.Within (s.buffer a.buffer).text)
    (hd : ∀ p ∈ addr.patterns, Dependable s.patterns.engine p) :
    ((∃ b t, resolve addr a sign s = .ok b t ∧ b.r.Within (t.buffer b.buffer).text) ∨
      ∃ e t, resolve addr a sign s = .error (.edit e) t ∧ e.ofAddress) ∧
    ∀ p ∈ addr.patterns, ∀ re, Regex.compile s.patterns.engine p = .ok re → ∀ text : Text,
      text.length < 0x8000000000000000 → re.ComesToEnd s.patterns.window text := by
  refine ⟨?_,fun p hp re hre text hsize => Regex.comesToEnd ((hd p hp).answers hre _) hsize hs.window⟩
  have haddr : addr.WellFormed :=
    hheld.wellFormed ((Parser.gives_commandAt 0 c).result hread cmd rfl)
  have ha : a.In s (InReach s a) := ⟨.inr rfl,hstart⟩
  rcases resolves_resolve hs haddr hd ha sign s hs.shows with ⟨b,t,hrun,ht,hb⟩ | ⟨e,t,hrun,-,he⟩
  · refine .inl ⟨b,t,hrun,?_⟩
    rw [ht.text]
    exact hb.within
  · exact .inr ⟨e,t,hrun,he⟩

/-- A pattern without groups, or one that is refused as bad. -/
def isPlain (engine : Engine) (p : Text) : Bool :=
  match Regex.compile engine p with
  | .ok re => re.groups == 0
  | .error (.bad ..) => true
  | .error _ => false

/-- Plain patterns are dependable as far as possessive repetitions are atomic. -/
theorem dependable_of_isPlain {engine : Engine} (hengine : engine.keepsFailedRounds = false) {p : Text}
    (hp : isPlain engine p = true) : Dependable engine p := by
  unfold isPlain at hp
  cases hre : Regex.compile engine p with
  | ok re =>
    simp only [hre, beq_iff_eq] at hp
    constructor
    case refused =>
      intro f hf
      rw [hre] at hf
      cases hf
    case forward => exact fun re' hre' => Regex.forward_of_compile hengine hre'
    case answered =>
      intro re' hre' text
      obtain rfl : re' = re := Except.ok.inj (hre'.symm.trans hre)
      exact (Regex.answers_of_compile hengine hre hp).answered
  | error f =>
    have hnone {re : Regex} : Regex.compile engine p ≠ .ok re := by
      rw [hre]
      nofun
    refine ⟨fun {f'} hf => ?_,fun re hre' => absurd hre' hnone,fun hre' => absurd hre' hnone⟩
    cases hre.symm.trans hf
    cases f with
    | bad problem offset => exact ⟨problem,offset,rfl⟩
    | _ =>
      rw [hre] at hp
      cases hp

theorem dependable_of_all {engine : Engine} (hengine : engine.keepsFailedRounds = false) {ps : List Text}
    (hps : ps.all (isPlain engine) = true) : ∀ p ∈ ps, Dependable engine p := fun p hp =>
  dependable_of_isPlain hengine (List.all_eq_true.mp hps p hp)

/-- A search forward in a buffer chosen by its name, and from there, as the new dot, a search
backward. -/
theorem resolve_bounded_rebased :
    let s : Session := {
      workspace := {
        known := [{ name := "f".toList, text := "one two\nthree".toList, dot := ⟨4, 7⟩ }], listed := [0] } }
    let a : Target := ⟨⟨0, 3⟩, 0⟩
    let addr : Addr := .compound (some [.file "f".toList, .plus, .forward "t".toList]) .semicolon
      (.chain [.minus, .backward "e|o".toList])
    (∃ d, Parser.command { rest := "\"f\"/t/;-?e|o?p\n".toList } = .ok (some (.act (some addr) .print)) d) ∧
      s.Searchable (InReach s a) ∧ a.r.Within (s.buffer a.buffer).text ∧
      (∀ p ∈ addr.patterns, Dependable s.patterns.engine p) ∧
      ((∃ b t, resolve addr a 0 s = .ok b t ∧ b.r.Within (t.buffer b.buffer).text) ∨
        ∃ e t, resolve addr a 0 s = .error (.edit e) t ∧ e.ofAddress) ∧
      ∀ p ∈ addr.patterns, ∀ re, Regex.compile s.patterns.engine p = .ok re → ∀ text : Text,
        text.length < 0x8000000000000000 → re.ComesToEnd s.patterns.window text := by
  intro s a addr
  have hread : Parser.command { rest := "\"f\"/t/;-?e|o?p\n".toList } = .ok
      (some (.act (some (.compound (some [.file "f".toList, .plus, .forward "t".toList]) .semicolon
        (.chain [.minus, .backward "e|o".toList]))) .print))
      { before := "\"f\"/t/;-?e|o?p\n".toList.reverse, rest := [], last := "e|o".toList } := by cbv
  have hreach : ∀ k, InReach s a k → k = 0 := by
    rintro k (hk | rfl)
    · exact List.mem_singleton.mp hk
    · rfl
  have hs : s.Searchable (InReach s a) := by
    refine ⟨fun k hk => .inl hk,fun k hk => ?_,fun k hk => ?_,fun k hk => ?_,by decide⟩
    · rw [hreach k hk]
      decide
    · rw [hreach k hk]
      decide
    · rw [hreach k (.inl hk)]
      decide
  have hstart : a.r.Within (s.buffer a.buffer).text := by decide
  have hd : ∀ p ∈ addr.patterns, Dependable s.patterns.engine p := dependable_of_all rfl (by decide +kernel)
  exact ⟨⟨_,hread⟩,hs,hstart,hd,resolve_bounded 0 hread (.addr rfl) hs hstart hd⟩

/-- With a window below one a search backward reads behind the end of the text. In a buffer that is
not listed, dot need not be in the text. -/
theorem resolve_unbounded :
    let s : Session := {
      workspace := { known := [{ text := "a".toList }], listed := [0] }, patterns := { window := -1 } }
    let t : Session := { workspace := { known := [{ dot := ⟨0, 1⟩ }] } }
    let start : Target := ⟨⟨0, 0⟩, 0⟩
    ((∃ d, Parser.command { rest := "?a?p\n".toList } =
        .ok (some (.act (some (.chain [.backward "a".toList])) .print)) d) ∧
      (∀ k ∈ s.workspace.listed, (s.buffer k).dot.Within (s.buffer k).text) ∧
      start.r.Within (s.buffer 0).text ∧ Dependable s.patterns.engine "a".toList ∧
      ∃ u, resolve (.chain [.backward "a".toList]) start 0 s = .error (.search (.offset .outside)) u) ∧
    (∃ d, Parser.command { rest := ".p\n".toList } = .ok (some (.act (some (.chain [.dot])) .print)) d) ∧
      (∀ k ∈ t.workspace.listed, (t.buffer k).dot.Within (t.buffer k).text) ∧
      start.r.Within (t.buffer 0).text ∧
      ∃ b u, resolve (.chain [.dot]) start 0 t = .ok b u ∧ ¬ b.r.Within (u.buffer b.buffer).text := by
  intro s t start
  have hbackward : Parser.command { rest := "?a?p\n".toList } =
      .ok (some (.act (some (.chain [.backward "a".toList])) .print))
      { before := "?a?p\n".toList.reverse, rest := [], last := "a".toList } := by cbv
  have hdot : Parser.command { rest := ".p\n".toList } =
      .ok (some (.act (some (.chain [.dot])) .print)) { before := ".p\n".toList.reverse, rest := [] } := by cbv
  have hoff : fault (resolve (.chain [.backward "a".toList]) start 0) s =
      some (.search (.offset .outside)) := by decide +kernel
  exact ⟨⟨⟨_,hbackward⟩,by decide,by decide,dependable_of_isPlain rfl (by decide +kernel),_,
    error_of_fault hoff⟩,⟨_,hdot⟩,by decide,by decide,_,_,rfl,by decide⟩

end Run

end StructuralEdit
