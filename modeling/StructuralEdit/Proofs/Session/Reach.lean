import StructuralEdit.Proofs.Session.Execution

/-! # What commands get at

A command changes the buffer it is run from. It gets at others only where an address chooses
files, where it switches to a buffer or goes through buffers; besides, closing files can close
any of them or take it for clean. So a relation that holds of the steps made in the buffers a
command can get at holds of all it does. Whatever it fails with, it is not for how it is written,
unless there is a letter or a type of a step in it that nothing is known about.
-/
namespace StructuralEdit
open Pattern

/-! ## Commands that leave their buffer -/

/-- Files are chosen somewhere in an address. -/
def Addr.choosesFile : Addr → Bool
  | chain steps => steps.any Step.isFile
  | toEnd left _ => left.any (·.any Step.isFile)
  | compound left _ right => left.any (·.any Step.isFile) || right.choosesFile

/-- An action that leads to other buffers, whatever its address. -/
def Action.roams : Action → Bool
  | move target | copy target => target.any Step.isFile
  | switch _ => true
  | _ => false

def Action.closes : Action → Bool
  | closeFiles _ => true
  | _ => false

mutual

/-- A command that gets at buffers besides the one it is run from, or has one in it that does. -/
def Cmd.roams : Cmd → Bool
  | .act addr action => addr.any Addr.choosesFile || action.roams
  | .guard addr _ _ body | .extract addr _ body => addr.any Addr.choosesFile || body.roams
  | .buffers .. => true
  | .group addr body => addr.any Addr.choosesFile || roamsAny body

def Cmd.roamsAny : List Cmd → Bool
  | [] => false
  | c :: rest => c.roams || roamsAny rest

end

mutual

/-- A command that closes files, or has one in it that does. -/
def Cmd.closes : Cmd → Bool
  | .act _ action => action.closes
  | .guard _ _ _ body | .extract _ _ body | .buffers _ body => body.closes
  | .group _ body => closesAny body

def Cmd.closesAny : List Cmd → Bool
  | [] => false
  | c :: rest => c.closes || closesAny rest

end

/-! ## Commands that nothing is known about -/

/-- A step of a type that nothing resolves. -/
def Step.unknown (s : Step) : Bool := !addressTypes.contains s.kind

/-- Somewhere in an address there is such a step. -/
def Addr.unknown : Addr → Bool
  | chain steps => steps.any Step.unknown
  | toEnd left _ => left.any (·.any Step.unknown)
  | compound left _ right => left.any (·.any Step.unknown) || right.unknown

/-- An action of a letter that nothing handles, or with such a step in its target. -/
def Action.unknown (action : Action) : Bool :=
  !handledLetters.contains action.letter || match action with
    | move target | copy target => target.any Step.unknown
    | _ => false

mutual

/-- A command with such a letter or such a step anywhere in it. -/
def Cmd.unknown : Cmd → Bool
  | .act addr action => addr.any Addr.unknown || action.unknown
  | .guard addr _ _ body | .extract addr _ body => addr.any Addr.unknown || body.unknown
  | .buffers _ body => body.unknown
  | .group addr body => addr.any Addr.unknown || unknownAny body

def Cmd.unknownAny : List Cmd → Bool
  | [] => false
  | c :: rest => c.unknown || unknownAny rest

end

/-- A fault that comes up for how a command is written: when it is read, or at a letter or a type of
a step that nothing is known about. -/
def Fault.ofWriting : Fault → Bool
  | edit (.parse _) | edit (.badAddressType _) => true
  | _ => false

namespace Session
variable (p : Handle → Prop) (R : Session → Session → Prop)

/-- What is done to no buffer that is there may be done: files change, a buffer is opened, and a
loop over ranges is gone through. -/
class Around : Prop extends Quiet R where
  store (s : Session) (store : FileStore) : R s { s with workspace := { s.workspace with store } }
  openFile (s : Session) (path : Text) : R s { s with workspace := (s.workspace.openFile path).2 }
  range {s t : Session} (h : R s.inLoop t) : R s (Run.leaveLoop t)

/-- Anything may be done to the buffers at some handles. A loop over buffers takes them all. -/
class Grants : Prop extends Around R where
  touch {h : Handle} (hh : p h) (s : Session) (t : Touch) : R s (s.touch h t)
  switch {h : Handle} (hh : p h) (s : Session) : R s { s with current := some h }
  buffers (hall : ∀ h, p h) {s t : Session} {hs : List Handle} (hloops : s.bufferLoops = 0)
    (h : R (s.inBufferLoop.holding hs) t) : R s (Run.leaveBufferLoop (t.releasing hs))

/-- The buffers at some handles may be closed, and taken for clean. -/
class Closing : Prop extends Quiet R where
  clean {h : Handle} (hh : p h) (s : Session) : R s (s.touch h .markClean)
  close {h : Handle} (hh : p h) (s : Session) : R s (s.closing h)

/-- Anything may be done to any buffer. -/
def Freely : Session → Session → Prop := fun _ _ => True

instance : Grants (fun _ => True) Freely where
  refl _ := trivial
  trans _ _ := trivial
  note _ _ _ _ _ _ := trivial
  store _ _ := trivial
  openFile _ _ := trivial
  range _ := trivial
  touch _ _ _ := trivial
  switch _ _ := trivial
  buffers _ _ _ _ _ _ := trivial

instance : Closing (fun _ => True) Freely where
  clean _ _ := trivial
  close _ _ := trivial

end Session

namespace Run
open Session
variable {U : Prop} {p q : Handle → Prop} {R : Session → Session → Prop} {α β : Type} {x : Run α}
  {Q Q' : α → Prop} {P : β → Prop}

/-- A run leads to sessions as `R` says and gives what `Q` says. It fails for how a command is
written only if `U` holds. -/
def Leads (U : Prop) (R : Session → Session → Prop) (x : Run α) (Q : α → Prop) : Prop :=
  ∀ s : Session, R s (x.final s) ∧ (∀ a, x.value s = some a → Q a) ∧
    ∀ f, x.fault s = some f → f.ofWriting = true → U

/-- The same of a run whose result does not matter. -/
abbrev Does (U : Prop) (R : Session → Session → Prop) (x : Run α) : Prop := x.Leads U R fun _ => True

/-! ## Composition -/

theorem leads_of_ok {s t : Session} {a : α} (h : x s = .ok a t) (hR : R s t) (hQ : Q a) :
    R s (x.final s) ∧ (∀ a, x.value s = some a → Q a) ∧ ∀ f, x.fault s = some f → f.ofWriting = true → U := by
  rw [final_of_ok h, value, fault, h]
  exact ⟨hR,fun b hb => Option.some.inj hb ▸ hQ,nofun⟩

theorem leads_of_error {s t : Session} {f : Fault} (h : x s = .error f t) (hR : R s t)
    (hf : f.ofWriting = true → U) :
    R s (x.final s) ∧ (∀ a, x.value s = some a → Q a) ∧ ∀ f, x.fault s = some f → f.ofWriting = true → U := by
  rw [final_of_error h, value, fault, h]
  exact ⟨hR,nofun,fun e he => Option.some.inj he ▸ hf⟩

theorem Leads.post (hx : x.Leads U R Q) (hQ : ∀ a, Q a → Q' a) : x.Leads U R Q' := fun s =>
  ⟨(hx s).1,fun a ha => hQ a ((hx s).2.1 a ha),(hx s).2.2⟩

section
variable [Quiet R]

theorem leads_pure {a : α} (h : Q a) : (pure a : Run α).Leads U R Q :=
  fun s => leads_of_ok rfl (Quiet.refl s) h

theorem does_pure (a : α) : (pure a : Run α).Does U R := leads_pure trivial

theorem leads_throw {f : Fault} (hf : f.ofWriting = false) : (throw f : Run α).Leads U R Q :=
  fun s => leads_of_error rfl (Quiet.refl s) fun h => nomatch hf.symm.trans h

theorem leads_fail {e : EditError} (he : (Fault.edit e).ofWriting = false) :
    (fail e : Run α).Leads U R Q := leads_throw he

theorem leads_refuse (hU : U) (e : EditError) : (fail e : Run α).Leads U R Q :=
  fun s => leads_of_error rfl (Quiet.refl s) fun _ => hU

theorem leads_bind {f : α → Run β} (hx : x.Leads U R Q) (hf : ∀ a, Q a → (f a).Leads U R P) :
    (x >>= f).Leads U R P := by
  intro s
  obtain ⟨hR,hvalue,hfault⟩ := hx s
  cases h : x s with
  | ok a t =>
    rw [final_of_ok h] at hR
    obtain ⟨hR',hrest⟩ := hf a (hvalue a (by rw [value, h])) t
    rw [final_bind_of_ok h, value, fault, bind_of_ok h]
    exact ⟨Quiet.trans hR hR',hrest⟩
  | error f t =>
    rw [final_of_error h] at hR
    exact leads_of_error (bind_of_error h) hR (hfault f (by rw [fault, h]))

omit [Quiet R] in
theorem leads_ite {c : Prop} [Decidable c] {y : Run α} (hx : x.Leads U R Q) (hy : y.Leads U R Q) :
    (if c then x else y).Leads U R Q := by
  split
  · exact hx
  · exact hy

/-- Something is done only on a condition, and what follows is done anyway. -/
theorem leads_when {c : Prop} [Decidable c] {y : Run Unit} {f : Unit → Run α} (hy : y.Does U R)
    (hf : ∀ u, (f u).Leads U R Q) : (if c then y >>= f else f ()).Leads U R Q :=
  leads_ite (leads_bind hy fun u _ => hf u) (hf ())

theorem does_forIn {γ : Type} (l : List β) {f : β → γ → Run (ForInStep γ)}
    (hf : ∀ b c, (f b c).Does U R) (init : γ) : (forIn l init f).Does U R := by
  induction l generalizing init with
  | nil => exact does_pure init
  | cons b rest ih =>
    rw [List.forIn_cons]
    refine leads_bind (hf b init) fun r _ => ?_
    cases r with
    | done c => exact does_pure c
    | yield c => exact ih c

theorem does_get : (get : Run Session).Does U R := fun s => leads_of_ok rfl (Quiet.refl s) trivial

omit [Quiet R] in
theorem does_modify {f : Session → Session} (hf : ∀ s, R s (f s)) : (modify f : Run Unit).Does U R :=
  fun s => leads_of_ok rfl (hf s) trivial

omit [Quiet R] in
/-- What looks at the session it begins in. -/
theorem leads_get_bind {f : Session → Run α} (hf : ∀ s, (f s).Leads U R Q) :
    ((get : Run Session) >>= f).Leads U R Q := fun s => hf s s

/-! ## What is looked up -/

theorem does_reading (r : Except OffsetFault α) : (reading r).Does U R := by
  cases r with
  | ok a => exact does_pure a
  | error f => exact leads_throw rfl

theorem leads_searching {r : Except SearchFault α} (hr : ∀ a, r = .ok a → Q a) :
    (searching r).Leads U R Q := by
  cases r with
  | ok a => exact leads_pure (hr a rfl)
  | error f => exact leads_throw rfl

theorem does_searching (r : Except SearchFault α) : (searching r).Does U R :=
  leads_searching fun _ _ => trivial

theorem does_warn (t : Text) : (warn t).Does U R := does_modify fun s => Quiet.note s _ _ _ _ (.refl _)

theorem does_buffer (h : Handle) : (buffer h).Does U R := leads_bind does_get fun _ _ => does_pure _

theorem does_compile (pattern place : Text) : (compile pattern place).Does U R := by
  intro s
  have hnote : R s { s with patterns := (s.patterns.compile pattern).2 } :=
    Quiet.note s s.messages s.notices s.invocations _ (s.patterns.alike_compile pattern)
  have hcompile := compile_eq pattern place s
  cases h : Regex.compile s.patterns.engine pattern with
  | ok re =>
    rw [h] at hcompile
    exact leads_of_ok hcompile hnote trivial
  | error f =>
    rw [h] at hcompile
    cases f <;> exact leads_of_error hcompile hnote nofun

theorem does_compileFor (letter : Char) (pattern : Text) : (compileFor letter pattern).Does U R :=
  does_compile _ _

theorem leads_dotOf {h : Handle} (hh : p h) : (dotOf h).Leads U R fun a => p a.buffer :=
  leads_bind (does_buffer h) fun _ _ => leads_pure hh

theorem leads_wholeOf {h : Handle} (hh : p h) : (wholeOf h).Leads U R fun a => p a.buffer :=
  leads_bind (does_buffer h) fun _ _ => leads_pure hh

theorem leads_homeOf {h : Option Handle} (hh : ∀ k ∈ h, p k) : (homeOf h).Leads U R p := by
  cases h with
  | none => exact leads_throw rfl
  | some h => exact leads_pure (hh h rfl)

theorem leads_lineAddress {a : Target} (ha : p a.buffer) (n sign : Int) :
    (lineAddress n a sign).Leads U R fun b => p b.buffer := by
  refine leads_bind (does_buffer _) fun b _ => ?_
  split
  · exact leads_pure ha
  · exact leads_fail rfl
  · exact leads_throw rfl

theorem leads_charAddress {a : Target} (ha : p a.buffer) (n sign : Int) :
    (charAddress n a sign).Leads U R fun b => p b.buffer := by
  refine leads_bind (does_buffer _) fun b _ => ?_
  split
  · exact leads_pure ha
  · exact leads_fail rfl

end

theorem ofWriting_of_further {found : List Match} {e : EditError} (h : further found = .error e) :
    (Fault.edit e).ofWriting = false := by
  cases found with
  | nil =>
    cases h
    rfl
  | cons m more => cases h

theorem ofWriting_of_matchForward {re : Regex} {text : Text} {n : Int} {e : EditError}
    (h : matchForward re text n = .ok (.error e)) : (Fault.edit e).ofWriting = false := by
  obtain ⟨found,-,h⟩ := result_of_bind h
  cases found with
  | nil =>
    cases h
    rfl
  | cons m more =>
    dsimp only at h
    split at h
    · split at h
      · exact ofWriting_of_further (Except.ok.inj h)
      · obtain ⟨again,-,h⟩ := result_of_bind h
        exact ofWriting_of_further (Except.ok.inj h)
    · cases h

theorem ofWriting_of_matchBackward {re : Regex} {window : Int} {text : Text} {n : Int} {e : EditError}
    (h : matchBackward re window text n = .ok (.error e)) : (Fault.edit e).ofWriting = false := by
  obtain ⟨found,-,h⟩ := result_of_bind h
  cases found with
  | nil =>
    cases h
    rfl
  | cons m more =>
    dsimp only at h
    split at h
    · obtain ⟨again,-,h⟩ := result_of_bind h
      exact ofWriting_of_further (Except.ok.inj h)
    · cases h

section
variable [Quiet R]

theorem does_nextMatch (h : Handle) (pattern : Text) (n sign : Int) :
    (nextMatch h pattern n sign).Does U R := by
  refine leads_bind (does_compile _ _) fun re _ => leads_get_bind fun s => ?_
  refine leads_bind (does_buffer h) fun b _ => ?_
  have hfound (found : Except EditError Match)
      (h : (if 0 ≤ sign then matchForward re b.text n
        else matchBackward re s.patterns.window b.text n) = .ok found) :
      ∀ e, found = .error e → (Fault.edit e).ofWriting = false := by
    rintro e rfl
    split at h
    · exact ofWriting_of_matchForward h
    · exact ofWriting_of_matchBackward h
  refine leads_bind (leads_searching hfound) fun found hfound => ?_
  cases found with
  | ok m => exact does_pure m
  | error e => exact leads_fail (hfound e rfl)

theorem does_fileMatches (h : Handle) (pattern : Text) : (fileMatches h pattern).Does U R := by
  refine leads_bind (does_compile _ _) fun re _ => leads_bind does_get fun s _ => ?_
  exact leads_bind (does_searching _) fun _ _ => does_pure _

theorem does_matchFileFrom (pattern : Text) (found : Option Handle) (hs : List Handle) :
    (matchFileFrom pattern found hs).Does U R := by
  induction hs generalizing found with
  | nil =>
    cases found with
    | none => exact leads_fail rfl
    | some h => exact does_pure h
  | cons h rest ih =>
    refine leads_bind (does_fileMatches h pattern) fun matched _ => leads_ite ?_ (ih found)
    exact leads_when (leads_fail rfl) fun _ => ih (some h)

theorem does_matchFile (pattern : Text) : (matchFile pattern).Does U R :=
  leads_bind does_get fun _ _ => does_matchFileFrom _ _ _

/-! ## Addresses -/

theorem leads_step {s : Step} (hs : s.isFile = true → ∀ h, p h) (hu : s.unknown = true → U) (rest : Chain)
    {a : Target} (ha : p a.buffer) (sign : Int) :
    (step s rest a sign).Leads U R fun b => p b.1.buffer := by
  cases s with
  | file re =>
    refine leads_bind (does_matchFile re) fun h _ => ?_
    exact leads_bind (leads_dotOf (hs rfl h)) fun _ hb => leads_pure hb
  | mark => exact leads_fail rfl
  | other kind unknown => exact leads_refuse (hu (by simp [Step.unknown, Step.kind, unknown])) _
  | line n => exact leads_bind (leads_lineAddress ha n sign) fun _ hb => leads_pure hb
  | char n => exact leads_bind (leads_charAddress ha n sign) fun _ hb => leads_pure hb
  | dot => exact leads_bind (leads_dotOf ha) fun _ hb => leads_pure hb
  | last => exact leads_bind (does_buffer a.buffer) fun _ _ => leads_pure ha
  | forward re | backward re => exact leads_bind (does_nextMatch _ _ _ _) fun _ _ => leads_pure ha
  | plus | minus =>
    refine leads_ite ?_ ?_
    · exact leads_bind (leads_lineAddress ha _ _) fun _ hb => leads_pure hb
    · exact leads_bind (leads_pure ha) fun _ hb => leads_pure hb

theorem leads_resolveChain {chain : Chain} (hc : chain.any Step.isFile = true → ∀ h, p h)
    (hu : chain.any Step.unknown = true → U) {a : Target} (ha : p a.buffer) (sign : Int) :
    (resolveChain chain a sign).Leads U R fun b => p b.buffer := by
  induction chain generalizing a sign with
  | nil => exact leads_pure ha
  | cons s rest ih =>
    rw [List.any_cons] at hc hu
    have hstep := leads_step (R := R) (fun hs => hc (by rw [hs, Bool.true_or]))
      (fun hs => hu (by rw [hs, Bool.true_or])) rest ha sign
    refine leads_bind hstep fun b hb => ih ?_ ?_ hb _
    · exact fun hs => hc (by rw [hs, Bool.or_true])
    · exact fun hs => hu (by rw [hs, Bool.or_true])

theorem leads_join {a b : Target} (ha : p a.buffer) : (join a b).Leads U R fun c => p c.buffer := by
  unfold join
  refine leads_when (leads_fail rfl) fun _ => ?_
  exact leads_when (leads_fail rfl) fun _ => leads_pure ha

theorem leads_resolveLeft {left : Option Chain} (hl : left.any (·.any Step.isFile) = true → ∀ h, p h)
    (hu : left.any (·.any Step.unknown) = true → U) {a : Target} (ha : p a.buffer) :
    (resolveLeft left a).Leads U R fun b => p b.buffer := by
  cases left with
  | none => exact leads_pure ha
  | some chain => exact leads_resolveChain hl hu ha 0

end

section
variable [Grants p R]

theorem does_setDot {h : Handle} (hh : p h) (r : Span) : (setDot h r).Does U R :=
  does_modify fun s => Grants.touch hh s (.dot r)

theorem leads_startRight (sep : Separator) {a left : Target} (ha : p a.buffer) (hl : p left.buffer) :
    (startRight sep a left).Leads U R fun b => p b.buffer := by
  cases sep with
  | comma => exact leads_pure ha
  | semicolon => exact leads_bind (does_setDot hl _) fun _ _ => leads_pure hl

theorem leads_resolve {addr : Addr} (haddr : addr.choosesFile = true → ∀ h, p h)
    (hu : addr.unknown = true → U) {a : Target} (ha : p a.buffer) (sign : Int) :
    (resolve addr a sign).Leads U R fun b => p b.buffer := by
  induction addr generalizing a sign with
  | chain steps => exact leads_resolveChain haddr hu ha sign
  | toEnd left sep =>
    refine leads_bind (leads_resolveLeft haddr hu ha) fun l hl => ?_
    refine leads_bind (leads_startRight sep ha hl) fun start hstart => ?_
    exact leads_bind (leads_wholeOf hstart) fun _ _ => leads_join hl
  | compound left sep right ih =>
    have hleft (h : left.any (·.any Step.isFile) = true) : ∀ h, p h := haddr (by
      rw [Addr.choosesFile, h, Bool.true_or])
    have hright (h : right.choosesFile = true) : ∀ h, p h := haddr (by
      rw [Addr.choosesFile, h, Bool.or_true])
    have huleft (h : left.any (·.any Step.unknown) = true) : U := hu (by
      rw [Addr.unknown, h, Bool.true_or])
    have huright (h : right.unknown = true) : U := hu (by rw [Addr.unknown, h, Bool.or_true])
    refine leads_bind (leads_resolveLeft hleft huleft ha) fun l hl => ?_
    refine leads_bind (leads_startRight sep ha hl) fun start hstart => ?_
    exact leads_bind (ih hright huright hstart 0) fun _ _ => leads_join hl

theorem leads_resolveFrom {h : Option Handle} {addr : Addr} (haddr : addr.choosesFile = true → ∀ h, p h)
    (hu : addr.unknown = true → U) (hh : ∀ k ∈ h, p k) :
    (resolveFrom h addr).Leads U R fun a => p a.buffer := by
  unfold resolveFrom
  split
  · rename_i k
    exact leads_bind (leads_dotOf (hh k rfl)) fun a ha => leads_resolve haddr hu ha 0
  · rename_i re rest
    refine leads_bind (does_matchFile re) fun h _ => leads_bind (leads_dotOf (haddr rfl h)) fun a ha => ?_
    refine leads_resolveChain (fun _ => haddr rfl) (fun h => hu ?_) ha 0
    rw [Addr.unknown, List.any_cons, h, Bool.or_true]
  · exact leads_throw rfl

theorem leads_withDefault (whole : Bool) {h : Option Handle} {addr : Option Addr}
    (haddr : addr.any Addr.choosesFile = true → ∀ h, p h) (hu : addr.any Addr.unknown = true → U)
    (hh : ∀ k ∈ h, p k) : (withDefault whole h addr).Leads U R fun a => p a.buffer := by
  have hown (h : Handle) (hh : p h) :
      (if whole then wholeOf h else dotOf h).Leads U R fun a => p a.buffer :=
    leads_ite (leads_wholeOf hh) (leads_dotOf hh)
  unfold withDefault
  split
  · exact leads_bind (leads_homeOf hh) hown
  · exact leads_bind (does_matchFile _) fun h _ => hown h (haddr rfl h)
  · exact leads_resolveFrom haddr hu hh

theorem does_onRange (whole : Bool) {h : Option Handle} {addr : Option Addr} {f : Target → Run Unit}
    (haddr : addr.any Addr.choosesFile = true → ∀ h, p h) (hu : addr.any Addr.unknown = true → U)
    (hh : ∀ k ∈ h, p k) (hf : ∀ a : Target, p a.buffer → (f a).Does U R) :
    (onRange whole h addr f).Does U R :=
  leads_bind (leads_withDefault whole haddr hu hh) hf

/-- A letter that nothing handles is refused, whatever becomes of its address. -/
theorem does_refuseLetter {h : Option Handle} {addr : Option Addr}
    (haddr : addr.any Addr.choosesFile = true → ∀ h, p h) (hh : ∀ k ∈ h, p k) (hU : U) (letter : Char) :
    (refuseLetter h addr letter).Does U R := by
  unfold refuseLetter
  split
  · refine leads_when ?_ fun _ => leads_refuse hU _
    exact leads_bind (leads_withDefault _ haddr (fun _ => hU) hh) fun _ _ => does_pure _
  · exact leads_refuse hU _

end

section
variable [Quiet R]

theorem does_onBuffer {h : Option Handle} {f : Handle → Run Unit} (hf : ∀ k ∈ h, (f k).Does U R) :
    (onBuffer h f).Does U R :=
  leads_bind (leads_homeOf (p := fun k => k ∈ h) fun _ hk => hk) hf

theorem does_requireWindow (h : Option Handle) (c : Cmd) : (requireWindow h c).Does U R :=
  leads_ite (leads_fail rfl) (does_pure _)

/-! ## Pipes -/

theorem does_pipeCommand (letter : Char) (argument : Text) : (pipeCommand letter argument).Does U R :=
  leads_when (leads_fail rfl) fun _ => does_pure _

theorem does_pathFrom (h : Option Handle) (name : Text) : (pathFrom h name).Does U R := by
  refine leads_ite (does_pure _) (leads_bind does_get fun s _ => ?_)
  split
  · exact does_pure _
  · exact does_pure _

theorem does_readFile (name : Text) : (readFile name).Does U R := by
  refine leads_bind does_get fun s _ => leads_when (leads_fail rfl) fun _ => ?_
  split
  · exact does_pure _
  · exact leads_throw rfl
  · exact leads_fail rfl

theorem does_showPosition (a : Target) (mode : Text) : (showPosition a mode).Does U R := by
  refine leads_when (leads_fail rfl) fun _ => leads_bind (does_buffer _) fun b _ => ?_
  exact leads_bind (does_reading _) fun _ _ => does_warn _

end

section
variable [Around R]

theorem does_runCommand (h : Option Handle) (command : Text) (input : Option Text) :
    (runCommand h command input).Does U R := by
  unfold runCommand
  refine leads_bind does_get fun s _ => ?_
  extract_lets request result invocation
  refine leads_bind (does_modify fun s => Around.store s result.store) fun _ _ => ?_
  refine leads_bind (does_modify fun s => Quiet.note s s.messages s.notices _ s.patterns (.refl _)) fun _ _ => ?_
  split
  · rename_i f _
    cases f <;> exact leads_throw rfl
  · exact leads_when (does_warn _) fun _ => does_pure _

theorem does_fileList (h : Option Handle) (argument : Text) : (fileList h argument).Does U R := by
  unfold fileList
  split
  · refine leads_when (leads_fail rfl) fun _ => ?_
    exact leads_bind (does_runCommand _ _ _) fun _ _ => does_pure _
  · exact does_pure _

theorem does_openPath (path : Text) : (openPath path).Does U R := by
  refine leads_bind does_get fun s _ => leads_when (leads_throw rfl) fun _ => ?_
  exact does_modify fun s => Around.openFile s path

theorem does_openFiles (h : Option Handle) (argument : Text) : (openFiles h argument).Does U R := by
  refine leads_bind (does_fileList h argument) fun names _ => leads_when (leads_fail rfl) fun _ => ?_
  refine leads_bind (does_forIn _ (fun name _ => ?_) _) fun _ _ => does_pure _
  refine leads_bind (does_pathFrom h name) fun path _ => ?_
  exact leads_bind (does_openPath path) fun _ _ => does_pure _

end

/-! ## Files and buffers -/

section
variable [Closing q R]

theorem does_closeBuffer {h : Handle} (hh : q h) : (closeBuffer h).Does U R := by
  refine leads_bind (does_buffer h) fun b _ => leads_ite ?_ fun s => ?_
  · exact leads_bind (does_warn _) fun _ _ => does_modify fun s => Closing.clean hh s
  · refine leads_of_ok (t := s.closing h) (a := ()) ?_ (Closing.close hh s) trivial
    rw [closing]
    change EStateM.Result.ok () (if s.current = some h then _ else _) = _
    split <;> rfl

theorem does_closeFiles [Around R] (hall : ∀ h, q h) (h : Option Handle) (argument : Text) :
    (closeFiles h argument).Does U R := by
  refine leads_bind (does_fileList h argument) fun names _ => ?_
  extract_lets closeAll
  have hcloseAll (u : Unit) : (closeAll u).Does U R := by
    refine leads_bind (does_forIn _ (fun name _ => ?_) _) fun _ _ => does_pure _
    refine leads_bind (does_pathFrom h name) fun path _ => leads_bind does_get fun s _ => ?_
    split
    · exact leads_bind (does_closeBuffer (hall _)) fun _ _ => does_pure _
    · exact leads_bind (leads_fail (Q := fun _ => True) rfl) fun _ _ => does_pure _
  refine leads_ite ?_ (hcloseAll ())
  split
  · exact leads_bind (does_closeBuffer (hall _)) fun u _ => hcloseAll u
  · exact does_pure _

end

section
variable [Grants p R] {h : Handle} (hh : p h)
include hh

theorem does_touch (t : Touch) : (updateBuffer h t.apply).Does U R :=
  does_modify fun s => Grants.touch hh s t

theorem does_record (c : ChangeRequest) : (record h c.record).Does U R := by
  intro s
  have hstep : (updateBuffer h (Touch.record c).apply).Does U R := does_touch hh _
  have hreport (w : Option OrderWarning) : (reportOrder w).Does U R := by
    cases w with
    | none => exact does_pure _
    | some w => exact does_warn _
  have hboth := leads_bind hstep fun _ _ => hreport (c.record (s.buffer h).log).2
  rw [final, value, fault, record_eq]
  exact hboth s

theorem does_commandName (argument : Text) (rename : Bool) :
    (commandName h argument rename).Does U R := by
  unfold commandName
  refine leads_bind (does_buffer h) fun b _ => leads_ite (does_pure _) ?_
  extract_lets stripped finish
  have hfinish (name : Text) : (finish name).Does U R := by
    have hrename : (updateBuffer h (·.rename name)).Does U R := does_touch hh (.rename name)
    refine leads_ite (leads_bind does_get fun s _ => ?_) ?_
    · refine leads_bind (does_forIn _ (fun other _ => ?_) _) fun _ _ => ?_
      · exact leads_ite (leads_bind (does_warn _) fun _ _ => does_pure _) (does_pure _)
      · exact leads_when hrename fun _ => does_pure _
    · exact leads_when hrename fun _ => does_pure _
  split
  · exact leads_bind (does_pure _) fun name _ => hfinish name
  · exact leads_bind (does_pathFrom _ _) fun name _ => hfinish name

theorem does_refuseIfDirty : (refuseIfDirty h).Does U R := by
  refine leads_bind (does_buffer h) fun b _ => leads_ite ?_ (does_pure _)
  exact leads_bind (does_touch hh .markClean) fun _ _ => leads_fail rfl

theorem does_insertFile (r : Span) (argument : Text) (rename : Bool) :
    (insertFile h r argument rename).Does U R := by
  refine leads_bind (does_buffer h) fun b _ => ?_
  refine leads_bind (does_commandName hh argument rename) fun name _ => ?_
  refine leads_when (leads_fail rfl) fun _ => leads_bind (does_buffer h) fun b' _ => ?_
  refine leads_bind (does_readFile name) fun text _ => ?_
  refine leads_bind (does_record hh (.replace r.q0 r.q1 _)) fun _ _ => ?_
  refine leads_ite (does_warn _) (leads_ite ?_ (does_pure _))
  exact leads_bind does_get fun s _ => does_touch hh (.read _)

theorem does_loadFile (argument : Text) : (loadFile h argument).Does U R := by
  refine leads_bind (does_refuseIfDirty hh) fun _ _ => ?_
  exact leads_bind (does_buffer h) fun _ _ => does_insertFile hh _ _ _

theorem does_nameBuffer (argument : Text) : (nameBuffer h argument).Does U R := by
  refine leads_bind (does_commandName hh argument true) fun _ _ => ?_
  exact leads_bind does_get fun _ _ => does_warn _

theorem does_putFile (r : Span) (name : Text) : (putFile h r name).Does U R := by
  unfold putFile
  refine leads_bind (does_buffer h) fun b _ => leads_bind does_get fun s _ => ?_
  extract_lets store save
  have hsave (u : Unit) : (save u).Does U R := by
    simp only [save]
    split
    · exact leads_throw rfl
    · exact does_warn _
    · refine leads_bind (does_modify fun s => Around.store s _) fun _ _ => ?_
      refine leads_ite (leads_ite ?_ (does_touch hh .markDirty)) (does_pure _)
      exact leads_bind (does_touch hh (.know _)) fun _ _ => does_touch hh .markClean
  split
  · split
    · split
      · refine leads_bind (does_touch hh (.know _)) fun _ _ => ?_
        exact leads_bind (does_warn _) fun _ _ => does_pure _
      · exact hsave ()
    · exact hsave ()
  · exact hsave ()

theorem does_writeFile (r : Span) (argument : Text) : (writeFile h r argument).Does U R := by
  refine leads_bind (does_buffer h) fun b _ => leads_when (leads_fail rfl) fun _ => ?_
  refine leads_bind (does_commandName hh argument false) fun name _ => ?_
  exact leads_when (leads_fail rfl) fun _ => does_putFile hh r name

/-! ## Actions on a range -/

theorem does_insertAt (n : Int) (text : Text) : (insertAt h n text).Does U R :=
  leads_when (does_record hh (.insert n text)) fun _ => does_setDot hh _

theorem does_nextLine : (nextLine h).Does U R := by
  refine leads_bind (leads_dotOf hh) fun dot hdot => ?_
  refine leads_bind (leads_lineAddress hdot _ _) fun first _ => ?_
  refine leads_bind (leads_lineAddress hdot _ _) fun last _ => ?_
  extract_lets extended move
  have hmove (r : Span) : (move r).Does U R := does_setDot hh r
  refine leads_ite ?_ (leads_bind (does_pure _) fun r _ => hmove r)
  refine leads_bind (leads_lineAddress hdot _ _) fun _ _ => ?_
  exact leads_bind (does_pure _) fun r _ => hmove r

theorem does_undo (steps : Int) : (undo h steps).Does U R := does_touch hh (.travel steps)

end

section
variable [Grants p R] {a dest : Target} (ha : p a.buffer)
include ha

theorem does_change (text : Text) : (change a text).Does U R :=
  leads_bind (does_record ha (.replace a.r.q0 a.r.q1 text)) fun _ _ => does_setDot ha _

theorem does_delete : (delete a).Does U R :=
  leads_when (does_record ha (.delete a.r.q0 a.r.q1)) fun _ => does_setDot ha _

theorem does_print : (print a).Does U R :=
  leads_bind (does_buffer _) fun _ _ => leads_when (does_warn _) fun _ => does_setDot ha _

theorem does_substitute (re : Text) (count : Int) (template : Text) (all : Bool) :
    (substitute a re count template all).Does U R := by
  refine leads_bind (does_compileFor _ _) fun re _ => leads_bind (does_buffer _) fun b _ => ?_
  refine leads_bind (does_searching _) fun selected _ => ?_
  refine leads_bind (does_forIn _ (fun m _ => ?_) _) fun _ _ => leads_bind does_get fun s _ => ?_
  · exact leads_bind (does_record ha (.replace m.start m.stop _)) fun _ _ => does_pure _
  · exact leads_when (leads_fail rfl) fun _ => does_setDot ha _

theorem does_pipeIn (letter : Char) (argument : Text) (reads : Bool) :
    (pipeIn letter a argument reads).Does U R := by
  refine leads_bind (does_pipeCommand _ _) fun command _ => leads_bind (does_setDot ha _) fun _ _ => ?_
  refine leads_bind (does_buffer _) fun b _ => leads_bind (does_runCommand _ _ _) fun c _ => ?_
  exact does_record ha (.replace a.r.q0 a.r.q1 c.output)

theorem does_pipeOut (argument : Text) : (pipeOut a argument).Does U R := by
  refine leads_bind (does_pipeCommand _ _) fun command _ => leads_bind (does_setDot ha _) fun _ _ => ?_
  refine leads_bind (does_buffer _) fun b _ => leads_bind (does_runCommand _ _ _) fun c _ => ?_
  exact leads_ite (does_warn _) (does_pure _)

omit ha in
theorem does_copyTo (hdest : p dest.buffer) : (copyTo a dest).Does U R :=
  leads_bind (does_buffer _) fun b _ => does_record hdest (.insert dest.r.q1 (b.slice a.r.q0 a.r.q1))

theorem does_moveTo (hdest : p dest.buffer) : (moveTo a dest).Does U R := by
  have hremove := does_record (R := R) (U := U) ha (.delete a.r.q0 a.r.q1)
  refine leads_ite ?_ (leads_ite ?_ (leads_ite (does_pure _) (leads_fail rfl)))
  · exact leads_bind hremove fun _ _ => does_copyTo hdest
  · exact leads_bind (does_copyTo hdest) fun _ _ => hremove

end

theorem does_switchTo [Grants p R] (hall : ∀ h, p h) (argument : Text) : (switchTo argument).Does U R := by
  refine leads_bind does_get fun s _ => ?_
  split
  · exact leads_fail rfl
  · exact leads_when (does_warn _) fun _ => does_modify fun s => Grants.switch (hall _) s

/-! ## Commands -/

/-- An action gets at the buffer it is run from; those that roam get at all of them. -/
theorem does_runAction [Grants p R] [Closing q R] {h : Option Handle} {addr : Option Addr}
    {action : Action} (hh : ∀ k ∈ h, p k)
    (hroams : (addr.any Addr.choosesFile || action.roams) = true → ∀ h, p h)
    (hcloses : action.closes = true → ∀ h, q h) (hu : (addr.any Addr.unknown || action.unknown) = true → U) :
    (runAction h addr action).Does U R := by
  have huaddr (h : addr.any Addr.unknown = true) : U := hu (by rw [h, Bool.true_or])
  have huaction (h : action.unknown = true) : U := hu (by rw [h, Bool.or_true])
  have haddr (h : addr.any Addr.choosesFile = true) : ∀ h, p h := hroams (by rw [h, Bool.true_or])
  have haction (h : action.roams = true) : ∀ h, p h := hroams (by rw [h, Bool.or_true])
  have hrange {whole : Bool} {f : Target → Run Unit} (hf : ∀ a : Target, p a.buffer → (f a).Does U R) :
      (onRange whole h addr f).Does U R := does_onRange whole haddr huaddr hh hf
  cases action with
  | newline =>
    cases addr with
    | none => exact does_onBuffer fun k hk => does_nextLine (hh k hk)
    | some addr => exact leads_bind (leads_resolveFrom haddr huaddr hh) fun t ht => does_setDot ht _
  | append text | insert text => exact hrange fun a ha => does_insertAt ha _ _
  | change text => exact hrange fun a ha => does_change ha text
  | delete => exact hrange fun a ha => does_delete ha
  | move target =>
    refine hrange fun a ha => leads_bind (leads_dotOf ha) fun t ht => ?_
    exact leads_bind (leads_resolveChain haction huaction ht 0) fun dest hdest => does_moveTo ha hdest
  | copy target =>
    refine hrange fun a ha => leads_bind (leads_dotOf ha) fun t ht => ?_
    exact leads_bind (leads_resolveChain haction huaction ht 0) fun dest hdest => does_copyTo hdest
  | print => exact hrange fun a ha => does_print ha
  | substitute re count template all => exact hrange fun a ha => does_substitute ha re count template all
  | undo steps => exact does_onBuffer fun k hk => does_undo (hh k hk) steps
  | position mode => exact hrange fun a _ => does_showPosition a mode
  | switch name => exact does_switchTo (haction rfl) name
  | openFiles names => exact does_openFiles h names
  | closeFiles names => exact does_closeFiles (hcloses rfl) h names
  | load name => exact does_onBuffer fun k hk => does_loadFile (hh k hk) name
  | read name => exact hrange fun a ha => does_insertFile ha _ _ _
  | rename name => exact does_onBuffer fun k hk => does_nameBuffer (hh k hk) name
  | write name => exact hrange fun a ha => does_writeFile ha _ _
  | fromPipe command | throughPipe command => exact hrange fun a ha => does_pipeIn ha _ _ _
  | toPipe command => exact hrange fun a ha => does_pipeOut ha _
  | other letter unhandled =>
    exact does_refuseLetter haddr hh (huaction (by simp [Action.unknown, Action.letter, unhandled])) letter

theorem does_loopRanges [Quiet R] (loop : RangeLoop) (a : Target) : (loopRanges loop a).Does U R := by
  unfold loopRanges
  refine leads_bind (does_buffer _) fun b _ => ?_
  extract_lets text found
  have hfound (re : Text) : (found re).Does U R :=
    leads_bind (does_compileFor _ _) fun _ _ => leads_bind (does_searching _) fun _ _ => does_pure _
  cases loop with
  | lines => exact does_pure _
  | matching re => exact hfound re
  | between re => exact leads_bind (hfound re) fun _ _ => does_pure _

theorem does_loopBuffers [Quiet R] (loop : BufferLoop) (hs : List Handle) :
    (loopBuffers loop hs).Does U R := by
  induction hs with
  | nil => exact does_pure _
  | cons h rest ih =>
    have hmore (visits : Bool) : (do
        let more ← loopBuffers loop rest
        return if visits then h :: more else more).Does U R := leads_bind ih fun _ _ => does_pure _
    cases loop with
    | named => exact leads_bind (does_buffer h) fun _ _ => hmore _
    | matching re => exact leads_bind (does_fileMatches h re) fun _ _ => hmore _
    | others re => exact leads_bind (does_fileMatches h re) fun _ _ => hmore _

theorem does_eachRange [Grants p R] {h : Handle} (hh : p h) {body : Run Unit} (hbody : body.Does U R)
    (rs : List Span) : (eachRange h body rs).Does U R := by
  induction rs with
  | nil => exact does_pure _
  | cons r rest ih =>
    exact leads_bind (does_setDot hh r) fun _ _ => leads_bind hbody fun _ _ => ih

theorem does_eachBuffer [Quiet R] {body : Handle → Run Unit} (hbody : ∀ h, (body h).Does U R)
    (hs : List Handle) : (eachBuffer body hs).Does U R := by
  induction hs with
  | nil => exact does_pure _
  | cons h rest ih => exact leads_bind (hbody h) fun _ _ => ih

/-! ## Loops -/

/-- What is done in the end changes neither what a run gives nor how it fails. -/
theorem fault_ensuring (x : Run α) (f : Session → Session) (s : Session) :
    (ensuring x f).fault s = x.fault s := by
  unfold fault ensuring
  cases x s <;> rfl

theorem freely_ensuring (hx : x.Does U Freely) (f : Session → Session) : (ensuring x f).Does U Freely := by
  intro s
  rw [fault_ensuring]
  exact ⟨trivial,fun _ _ => trivial,(hx s).2.2⟩

theorem does_inLoop [Around R] {body : Run Unit} (hbody : body.Does U R) :
    (do enterLoop; ensuring body leaveLoop : Run Unit).Does U R := by
  intro s
  have hbegin : enterLoop s = .ok () s.inLoop := rfl
  rw [final_bind_of_ok hbegin, final_ensuring, fault, bind_of_ok hbegin, ← fault, fault_ensuring]
  exact ⟨Around.range (hbody _).1,fun _ _ => trivial,(hbody _).2.2⟩

theorem freely_inBuffers (loop : BufferLoop) {body : Handle → Run Unit}
    (hbody : ∀ h, (body h).Does U Freely) :
    (do
      enterBufferLoop loop.letter
      ensuring (do
        let hs ← loopBuffers loop (← get).workspace.listed
        withPinned hs (eachBuffer body hs)) leaveBufferLoop : Run Unit).Does U Freely := by
  have henter : (enterBufferLoop loop.letter).Does U Freely :=
    leads_bind does_get fun s _ => leads_when (leads_fail rfl) fun _ => does_modify fun _ => trivial
  refine leads_bind henter fun _ _ => freely_ensuring (leads_bind does_get fun s _ => ?_) _
  refine leads_bind (does_loopBuffers _ _) fun hs _ => leads_bind (does_modify fun _ => trivial) fun _ _ => ?_
  exact freely_ensuring (does_eachBuffer hbody hs) _

/-- A loop over buffers gets at all of them. -/
theorem does_inBuffers [Grants p R] (hall : ∀ h, p h) (loop : BufferLoop) {body : Handle → Run Unit}
    (hbody : ∀ h, (body h).Does U R) :
    (do
      enterBufferLoop loop.letter
      ensuring (do
        let hs ← loopBuffers loop (← get).workspace.listed
        withPinned hs (eachBuffer body hs)) leaveBufferLoop : Run Unit).Does U R := by
  have : Loops R := ⟨Around.range,fun hloops _ h => Grants.buffers hall hloops h⟩
  intro s
  have hfree := freely_inBuffers loop (fun h t => ⟨trivial,(hbody h t).2⟩) s
  exact ⟨follows_inBuffers loop (fun h t => (hbody h t).1) s,hfree.2⟩

mutual

/-- A command does what `R` says, in the buffers it can get at. -/
theorem does_execute [Grants p R] [Closing q R] {h : Option Handle} (hh : ∀ k ∈ h, p k) (c : Cmd)
    (hroams : c.roams = true → ∀ h, p h) (hcloses : c.closes = true → ∀ h, q h)
    (hu : c.unknown = true → U) : (execute h c).Does U R := by
  have hwindow := does_requireWindow (R := R) (U := U) h c
  have hown {a : Target} (ha : p a.buffer) : ∀ k ∈ some a.buffer, p k := by
    rintro _ ⟨⟩
    exact ha
  cases c with
  | act addr action =>
    exact leads_bind hwindow fun _ _ => does_runAction hh hroams hcloses hu
  | guard addr re negated body =>
    have haddr (h : addr.any Addr.choosesFile = true) : ∀ h, p h := hroams (by
      rw [Cmd.roams, h, Bool.true_or])
    have hbody (h : body.roams = true) : ∀ h, p h := hroams (by rw [Cmd.roams, h, Bool.or_true])
    have huaddr (h : addr.any Addr.unknown = true) : U := hu (by rw [Cmd.unknown, h, Bool.true_or])
    have hubody (h : body.unknown = true) : U := hu (by rw [Cmd.unknown, h, Bool.or_true])
    refine leads_bind hwindow fun _ _ => leads_bind (leads_withDefault _ haddr huaddr hh) fun a ha => ?_
    refine leads_bind (does_compileFor _ _) fun pattern _ => leads_bind (does_buffer _) fun b _ => ?_
    refine leads_bind (does_searching _) fun found _ => leads_ite ?_ (does_pure _)
    exact leads_bind (does_setDot ha _) fun _ _ => does_execute (hown ha) body hbody hcloses hubody
  | extract addr loop body =>
    have haddr (h : addr.any Addr.choosesFile = true) : ∀ h, p h := hroams (by
      rw [Cmd.roams, h, Bool.true_or])
    have hbody (h : body.roams = true) : ∀ h, p h := hroams (by rw [Cmd.roams, h, Bool.or_true])
    have huaddr (h : addr.any Addr.unknown = true) : U := hu (by rw [Cmd.unknown, h, Bool.true_or])
    have hubody (h : body.unknown = true) : U := hu (by rw [Cmd.unknown, h, Bool.or_true])
    refine leads_bind hwindow fun _ _ => leads_bind (leads_withDefault _ haddr huaddr hh) fun a ha => ?_
    refine does_inLoop (leads_bind (does_loopRanges loop a) fun rs _ => ?_)
    exact does_eachRange ha (does_execute (hown ha) body hbody hcloses hubody) rs
  | buffers loop body =>
    have hall := hroams rfl
    refine does_inBuffers hall loop fun h => does_execute ?_ body (fun _ => hall) hcloses hu
    exact fun k _ => hall k
  | group addr body =>
    unfold execute
    refine leads_bind hwindow fun _ _ => ?_
    extract_lets run
    have hbody (h : Cmd.roamsAny body = true) : ∀ h, p h := hroams (by
      rw [Cmd.roams, h, Bool.or_true])
    have hubody (h : Cmd.unknownAny body = true) : U := hu (by rw [Cmd.unknown, h, Bool.or_true])
    have hrun (a : Target) (ha : p a.buffer) : (run a).Does U R :=
      does_executeGroup ha body hbody hcloses hubody
    cases addr with
    | none => exact leads_bind (leads_homeOf hh) fun h hh => leads_bind (leads_dotOf hh) hrun
    | some addr =>
      have haddr (h : addr.choosesFile = true) : ∀ h, p h := hroams (by
        rw [Cmd.roams, Option.any_some, h, Bool.true_or])
      have huaddr (h : addr.unknown = true) : U := hu (by
        rw [Cmd.unknown, Option.any_some, h, Bool.true_or])
      exact leads_bind (leads_resolveFrom haddr huaddr hh) hrun

theorem does_executeGroup [Grants p R] [Closing q R] {a : Target} (ha : p a.buffer) (cs : List Cmd)
    (hroams : Cmd.roamsAny cs = true → ∀ h, p h) (hcloses : Cmd.closesAny cs = true → ∀ h, q h)
    (hu : Cmd.unknownAny cs = true → U) : (executeGroup a cs).Does U R := by
  cases cs with
  | nil => exact does_pure _
  | cons c rest =>
    unfold executeGroup
    refine leads_bind (does_buffer _) fun b _ => leads_when (leads_fail rfl) fun _ => ?_
    refine leads_bind (does_setDot ha _) fun _ _ => leads_bind (does_execute ?_ c ?_ ?_ ?_) fun _ _ => ?_
    · rintro _ ⟨⟩
      exact ha
    · exact fun h => hroams (by rw [Cmd.roamsAny, h, Bool.true_or])
    · exact fun h => hcloses (by rw [Cmd.closesAny, h, Bool.true_or])
    · exact fun h => hu (by rw [Cmd.unknownAny, h, Bool.true_or])
    · exact does_executeGroup ha rest (fun h => hroams (by rw [Cmd.roamsAny, h, Bool.or_true]))
        (fun h => hcloses (by rw [Cmd.closesAny, h, Bool.or_true]))
        fun h => hu (by rw [Cmd.unknownAny, h, Bool.or_true])

end

end Run

end StructuralEdit
