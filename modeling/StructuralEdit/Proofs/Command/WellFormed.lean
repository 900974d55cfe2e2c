import Mathlib
import StructuralEdit.Proofs.Command.Grammar
import StructuralEdit.Proofs.Session.Reach

/-! # Commands that are read are well formed

In a well-formed chain each step follows one that it may follow, each is of a type that there is,
and no pattern is empty. In a well-formed command all chains are so, and at each place the tree
agrees with the command table: about the letter, the address, the body and the target. Whatever the
text, the reader takes in something and gives a well-formed command, or fails with an error of
reading. Each letter of the command table is handled, so a well-formed command is executed with no
letter that nothing handles and no step that nothing resolves.
-/
namespace StructuralEdit

/-- The pattern that a step searches for. -/
def Step.pattern? : Step → Option Text
  | forward re | backward re | file re => some re
  | _ => none

/-- Signs may follow anything, a count a sign or a file, a search a sign, and what is fixed a file.
A file follows nothing. -/
def Step.MayFollow (s : Step) : Step → Prop
  | plus | minus => True
  | line _ | char _ => s.isSign = true ∨ s.isFile = true
  | forward _ | backward _ => s.isSign = true
  | dot | last | mark => s.isFile = true
  | file _ | other .. => False

/-- A step is of a type that there is, and its pattern is not empty. -/
structure Step.Sound (s : Step) : Prop where
  type : s.kind ∈ addressTypes
  pattern : ∀ re ∈ s.pattern?, re ≠ []

/-- Each step is sound and may follow the one before it. -/
structure Chain.Linked (c : Chain) : Prop where
  steps : c.IsChain Step.MayFollow
  sound : ∀ s ∈ c, s.Sound

structure Chain.WellFormed (c : Chain) : Prop extends Chain.Linked c where
  ne_nil : c ≠ []

/-- A separator stands at the right of another one only if it has a left side of its own. -/
def Addr.WellFormed : Addr → Prop
  | chain steps => Chain.WellFormed steps
  | toEnd left _ => ∀ l ∈ left, Chain.WellFormed l
  | compound left _ right =>
    (∀ l ∈ left, Chain.WellFormed l) ∧ right.WellFormed ∧ right.startsWithSeparator = false

namespace Cmd

def children : Cmd → List Cmd
  | act .. => []
  | guard _ _ _ body | extract _ _ body | buffers _ body => [body]
  | group _ body => body

/-- Where a command moves or copies to. -/
def target? : Cmd → Option Chain
  | act _ (.move target) | act _ (.copy target) => some target
  | _ => none

def pattern? : Cmd → Option Text
  | act _ (.substitute re ..) | guard _ re .. => some re
  | extract _ (.matching re) _ | extract _ (.between re) _ => some re
  | buffers (.matching re) _ | buffers (.others re) _ => some re
  | _ => none

/-- A command says what the table says of its letter: whether it may have an address, whether it has
a body, and whether it has a target. -/
def Tabled (c : Cmd) (spec : CommandSpec) : Prop :=
  lookupCommand [c.letter] = some spec ∧ (spec.takesAddress = false → c.addr? = none) ∧
    spec.body.isEmpty = c.children.isEmpty ∧ spec.target = c.target?.isSome

/-- What is right about a command, those that stand in it apart. -/
structure Conforms (c : Cmd) : Prop where
  table : c.letter = '\x7b' ∨ ∃ spec, c.Tabled spec
  addr : ∀ a ∈ c.addr?, a.WellFormed
  target : ∀ t ∈ c.target?, Chain.WellFormed t
  pattern : ∀ re ∈ c.pattern?, re ≠ []

inductive WellFormed : Cmd → Prop
  | node {c : Cmd} (here : c.Conforms) (below : ∀ b ∈ c.children, b.WellFormed) : c.WellFormed

end Cmd

namespace Chain

theorem Linked.cons {s t : Step} {rest : Chain} (h : Linked (t :: rest)) (hs : s.Sound)
    (hst : s.MayFollow t) : WellFormed (s :: t :: rest) where
  steps := List.isChain_cons_cons.mpr ⟨hst,h.steps⟩
  sound := List.forall_mem_cons.mpr ⟨hs,h.sound⟩
  ne_nil := List.cons_ne_nil _ _

/-- A chain to which a step can be linked is linked again, if need be by a plus between. -/
theorem Linked.link {s : Step} {c d : Chain} (h : Linked c) (hs : s.Sound)
    (hlink : link? s c = some d) : WellFormed d := by
  cases c with
  | nil =>
    cases hlink
    exact ⟨⟨List.isChain_singleton s,List.forall_mem_singleton.mpr hs⟩,List.cons_ne_nil _ _⟩
  | cons t rest =>
    have hplus (ht : Step.plus.MayFollow t) : WellFormed (s :: .plus :: t :: rest) :=
      (h.cons (s := .plus) ⟨by decide,nofun⟩ ht).toLinked.cons hs trivial
    cases t with
    | plus | minus =>
      cases hlink
      exact h.cons hs trivial
    | dot | last | mark =>
      simp only [link?, Step.isFixed, if_true, Option.ite_none_right_eq_some] at hlink
      obtain ⟨hfile,hd⟩ := hlink
      cases hd
      exact h.cons hs hfile
    | file re => cases hlink
    | line n | char n =>
      change (if (s.isSign || s.isFile) = true then _ else _) = _ at hlink
      split at hlink
      · rename_i hbefore
        cases hlink
        exact h.cons hs (by simpa [Step.MayFollow] using hbefore)
      · cases hlink
        exact hplus (.inl rfl)
    | forward re | backward re =>
      change (if (s.isSign || false) = true then _ else _) = _ at hlink
      split at hlink
      · rename_i hbefore
        cases hlink
        exact h.cons hs (by simpa [Step.MayFollow] using hbefore)
      · cases hlink
        exact hplus rfl
    | other kind unknown => exact absurd (h.sound _ List.mem_cons_self).type unknown

end Chain

namespace Parser
variable {α β : Type} {S : Text → Text → Prop} {x : Parser α} {f : α → Parser β} {c d : Cursor}
  {P : α → Prop} {Q : β → Prop}

/-- A reader never goes back, and what it gives is as `P` says. -/
def Gives (P : α → Prop) (x : Parser α) (c : Cursor) : Prop :=
  ∀ a d, x c = .ok a d → (∃ w, c.Passes w d) ∧ P a

theorem Reads.gives (h : x.Reads S c) (hP : ∀ a d, x c = .ok a d → P a) : x.Gives P c :=
  fun a d hx => ⟨h.passes hx,hP a d hx⟩

theorem Reads.onward (h : x.Reads S c) : x.Gives (fun _ => True) c := h.gives fun _ _ _ => trivial

theorem Gives.length_le (h : x.Gives P c) {a : α} (hx : x c = .ok a d) : d.rest.length ≤ c.rest.length := by
  obtain ⟨⟨w,hw⟩,-⟩ := h a d hx
  rw [hw.length]
  exact Nat.le_add_left _ _

theorem Gives.result (h : x.Gives P c) {a : α} (hx : x c = .ok a d) : P a := (h a d hx).2

theorem gives_bind (hx : x.Gives P c) (hf : ∀ a d, x c = .ok a d → P a → (f a).Gives Q d) :
    (x >>= f).Gives Q c := by
  intro b e hrun
  obtain ⟨a,d,hxd,hfe⟩ := ok_of_bind hrun
  obtain ⟨⟨v,hv⟩,ha⟩ := hx a d hxd
  obtain ⟨⟨w,hw⟩,hb⟩ := hf a d hxd ha b e hfe
  exact ⟨⟨v ++ w,hv.trans hw⟩,hb⟩

theorem gives_pure {a : α} (ha : P a) (c : Cursor) : (pure a : Parser α).Gives P c := by
  rintro _ _ ⟨⟩
  exact ⟨⟨[],.refl c⟩,ha⟩

theorem gives_throw (e : ParseError) (c : Cursor) : (throw e : Parser α).Gives P c := nofun

theorem gives_throw_bind (e : ParseError) (f : β → Parser α) (c : Cursor) : (throw e >>= f).Gives P c :=
  gives_bind (P := fun _ => True) (gives_throw e c) nofun

theorem gives_ite {p : Prop} [Decidable p] {y : Parser α} (hx : p → x.Gives P c) (hy : ¬ p → y.Gives P c) :
    (if p then x else y).Gives P c := by
  split
  · exact hx ‹_›
  · exact hy ‹_›

/-! ## Addresses -/

theorem gives_pattern (delim : Delimiter) (c : Cursor) : (pattern delim).Gives (· ≠ []) c := by
  refine (local_pattern delim c).gives fun re d h => ?_
  have hlast {c : Cursor} (h : ((get : Parser Cursor) >>= fun d =>
      if d.last.isEmpty then throw .noPattern else pure d.last : Parser Text) c = .ok re d) : re ≠ [] := by
    obtain ⟨e,_,_,h⟩ := ok_of_bind h
    split at h
    · cases h
    · rename_i hne
      cases h
      simpa using hne
  obtain ⟨p,e,_,h⟩ := ok_of_bind h
  split at h
  · obtain ⟨_,k,_,h⟩ := ok_of_bind h
    exact hlast h
  · exact hlast h

theorem gives_step (c : Cursor) : step.Gives (fun o => ∀ s ∈ o, s.Sound) c := by
  have htype {s : Step} (h : addressTypes.contains s.kind = true) : s.kind ∈ addressTypes :=
    List.contains_iff_mem.mp h
  have hsome {s : Step} (hs : s.Sound) (c : Cursor) :
      (pure (some s) : Parser (Option Step)).Gives (fun o => ∀ s ∈ o, s.Sound) c := by
    refine gives_pure ?_ c
    rintro _ ⟨⟩
    exact hs
  have hnone (c : Cursor) : (pure none : Parser (Option Step)).Gives (fun o => ∀ s ∈ o, s.Sound) c :=
    gives_pure nofun c
  refine gives_bind (local_skipPads c).onward fun next d _ _ => ?_
  cases next with
  | none => exact hnone d
  | some a =>
    have hgo (e : Cursor) := (ends_getChar e).closed.onward
    refine gives_ite (fun _ => ?_) fun _ => gives_ite (fun _ => ?_) fun _ => gives_ite (fun _ => ?_) fun _ =>
      gives_ite (fun _ => ?_) fun _ => hnone d
    · exact gives_bind (local_unsigned d).onward fun n e _ _ => hsome (s := .line n) ⟨htype rfl,nofun⟩ e
    · refine gives_bind (hgo d) fun _ e _ _ => ?_
      exact gives_bind (local_unsigned e).onward fun n k _ _ => hsome (s := .char n) ⟨htype rfl,nofun⟩ k
    · refine gives_bind (hgo d) fun _ e _ _ => gives_bind (gives_pattern _ e) fun re k _ hre => hsome ?_ k
      repeat' split
      all_goals
        refine ⟨htype rfl,?_⟩
        rintro _ ⟨⟩
        exact hre
    · refine gives_bind (hgo d) fun _ e _ _ => hsome ?_ e
      repeat' split
      all_goals exact ⟨htype rfl,nofun⟩

theorem gives_chain (c : Cursor) : chain.Gives Chain.Linked c := by
  rw [chain_eq]
  intro l d h
  obtain ⟨s,e,hstep,h⟩ := ok_of_bind h
  obtain ⟨⟨v,hv⟩,hs⟩ := gives_step c s e hstep
  cases s with
  | none =>
    cases h
    exact ⟨⟨v,hv⟩,.nil,nofun⟩
  | some s =>
    have := step_shrinks hstep
    obtain ⟨rest,k,hmore,h⟩ := ok_of_bind h
    obtain ⟨⟨w,hw⟩,hrest⟩ := gives_chain e rest k hmore
    cases hlink : Chain.link? s rest with
    | none =>
      simp only [hlink] at h
      cases h
    | some linked =>
      simp only [hlink] at h
      cases h
      exact ⟨⟨v ++ w,hv.trans hw⟩,(hrest.link (hs s rfl) hlink).toLinked⟩
termination_by c.rest.length

theorem gives_address (c : Cursor) : address.Gives (fun o => ∀ a ∈ o, a.WellFormed) c := by
  rw [address_eq]
  refine gives_bind (gives_chain c) fun l d hchain hl => ?_
  have hleft : ∀ s ∈ optional l, Chain.WellFormed s := by
    unfold optional
    split
    · exact nofun
    · rename_i hne
      rintro _ ⟨⟩
      exact ⟨hl,by simpa using hne⟩
  refine gives_bind (local_skipPads d).onward fun next e hpads _ => gives_ite (fun _ => ?_) fun hsep => ?_
  · refine gives_pure ?_ e
    rintro _ ha
    obtain ⟨s,hs,rfl⟩ := Option.map_eq_some_iff.mp ha
    exact hleft s hs
  · refine gives_bind (ends_getChar e).closed.onward fun _ k hchar _ => ?_
    have := Nat.lt_of_lt_of_le (separator_shrinks hpads hsep hchar) ((local_chain c).length_le hchain)
    refine gives_bind (gives_address k) fun right m _ hright => ?_
    cases right with
    | none =>
      refine gives_pure ?_ m
      rintro _ ⟨⟩
      exact hleft
    | some right =>
      refine gives_ite (fun _ => gives_throw_bind _ _ m) fun hstart => gives_pure ?_ m
      rintro _ ⟨⟩
      exact ⟨hleft,hright right rfl,by simpa using hstart⟩
termination_by c.rest.length

/-! ## Commands -/

/-- What the arguments of a command are known to be. -/
structure Arguments.Fit (letter : Char) (spec : CommandSpec) (a : Arguments) : Prop where
  re : spec.regexp = true → a.re ≠ [] ∨ letter = 'x' ∨ letter = 'X'
  target : spec.target = true → Chain.WellFormed a.target

theorem gives_patternArguments (letter : Char) (args : Arguments) (c : Cursor) :
    (patternArguments letter args).Gives (fun a => a.re ≠ [] ∨ letter = 'x' ∨ letter = 'X') c := by
  refine gives_bind (local_peek c).onward fun next d _ _ => gives_ite (fun hout => ?_) fun _ => ?_
  · simp only [Bool.and_eq_true, Bool.or_eq_true, beq_iff_eq] at hout
    exact gives_pure (.inr hout.1) d
  refine gives_bind (local_skipPads d).onward fun _ e _ _ => ?_
  refine gives_bind (ends_getChar e).closed.onward fun delim k _ _ => ?_
  cases delim with
  | none => exact gives_throw _ k
  | some delim =>
    refine gives_ite (fun _ => gives_throw_bind _ _ k) fun _ => ?_
    refine gives_ite (fun _ => gives_throw_bind _ _ k) fun _ => ?_
    refine gives_bind (gives_pattern _ k) fun re m _ hre => gives_ite (fun _ => gives_pure (.inl hre) m) fun _ => ?_
    refine gives_bind (local_rightSide _ _ m).onward fun _ n _ _ => gives_bind (local_peek n).onward fun _ o _ _ => ?_
    refine gives_ite (fun _ => gives_pure (.inl hre) o) fun _ => ?_
    refine gives_bind (ends_getChar o).closed.onward fun _ p _ _ => gives_bind (local_peek p).onward fun _ q _ _ => ?_
    refine gives_ite (fun _ => gives_pure (.inl hre) q) fun _ => ?_
    exact gives_bind (ends_getChar q).closed.onward fun _ r _ _ => gives_pure (.inl hre) r

theorem gives_leadingArguments (letter : Char) (spec : CommandSpec) (c : Cursor) :
    (leadingArguments letter spec).Gives (Arguments.Fit letter spec) c := by
  refine gives_bind (local_countArgument _ c).onward fun count d _ _ => ?_
  have htarget {args : Arguments} (hre : spec.regexp = true → args.re ≠ [] ∨ letter = 'x' ∨ letter = 'X')
      (e : Cursor) : (if !spec.target then pure args else do
        let target ← chain
        if target.isEmpty then throw .badAddress
        return { args with target } : Parser Arguments).Gives (Arguments.Fit letter spec) e := by
    refine gives_ite (fun hnone => ?_) fun _ => ?_
    · exact gives_pure ⟨hre,fun htarget => absurd htarget (by simpa using hnone)⟩ e
    refine gives_bind (gives_chain e) fun target k _ hlinked => ?_
    refine gives_ite (fun _ => gives_throw_bind _ _ k) fun hne => ?_
    exact gives_pure ⟨hre,fun _ => ⟨hlinked,by simpa using hne⟩⟩ k
  refine gives_ite (fun _ => ?_) fun hnone => ?_
  · exact gives_bind (gives_patternArguments _ _ d) fun args e _ hre => htarget (fun _ => hre) e
  · refine gives_bind (gives_pure (P := fun _ => True) trivial d) fun args e _ _ => htarget (fun hre => ?_) e
    exact absurd hre hnone

theorem lookupCommand_some {name : Text} {spec : CommandSpec} (h : lookupCommand name = some spec) :
    spec ∈ commandTable ∧ spec.letter = name :=
  ⟨List.mem_of_find?_eq_some h,by simpa using List.find?_some h⟩

theorem lookupCommand_letter {name : Text} {spec : CommandSpec} (h : lookupCommand name = some spec) :
    spec ∈ commandTable ∧ spec.letter = [name.headD '\n'] ∧ lookupCommand [name.headD '\n'] = some spec := by
  obtain ⟨hmem,hname⟩ := lookupCommand_some h
  have hone : ∀ s ∈ commandTable, s.letter = [s.letter.headD '\n'] := by decide
  have hletter := hone spec hmem
  rw [hname] at hletter
  rw [← hletter]
  exact ⟨hmem,hname,h⟩

/-- The action that a letter without body makes is the one of that letter. -/
theorem actionOf_tabled (addr : Option Addr) (a : Arguments) : ∀ s ∈ commandTable, s.body.isEmpty = true →
    let c := Cmd.act addr (actionOf (s.letter.headD '\n') a)
    [c.letter] = s.letter ∧ c.target? = (if s.target then some a.target else none) ∧
      c.pattern? = if s.regexp then some a.re else none := by
  intro s hs hbody
  fin_cases hs
  all_goals first | exact ⟨rfl,rfl,rfl⟩ | cases hbody

/-- The loop or guard that a letter makes of a body is the one of that letter. Only `x` and `X` do
without a pattern. -/
theorem loopOf_tabled (addr : Option Addr) (args : Arguments) (body : Cmd) :
    ∀ s ∈ commandTable, s.body.isEmpty = false →
    (s.takesAddress = false → addr = none) → (args.re ≠ [] ∨ s.letter = ['x'] ∨ s.letter = ['X']) →
    let c := loopOf (s.letter.headD '\n') addr args body
    [c.letter] = s.letter ∧ c.addr? = addr ∧ c.children = [body] ∧ c.target? = none ∧ s.target = false ∧
      ∀ r ∈ c.pattern?, r ≠ [] := by
  obtain ⟨count,re,replacement,all,target,text⟩ := args
  intro s hs hbody haddr hre
  fin_cases hs
  -- Only the letters of loops and guards are left, and those of them that drop the address have none.
  all_goals try (cases hbody; done)
  all_goals try obtain rfl := haddr rfl
  all_goals
    first
    | (refine ⟨rfl,rfl,rfl,rfl,rfl,?_⟩
       rintro _ ⟨⟩
       exact hre.resolve_right (by decide))
    | (cases re with
       | nil => exact ⟨rfl,rfl,rfl,rfl,rfl,nofun⟩
       | cons a re =>
         refine ⟨rfl,rfl,rfl,rfl,rfl,?_⟩
         rintro _ ⟨⟩
         exact List.cons_ne_nil _ _)

/-! ## Commands -/

section
variable {letter : Char} {spec : CommandSpec} {addr : Option Addr} {args : Arguments}
  (hmem : spec ∈ commandTable) (hletter : spec.letter = [letter]) (hspec : lookupCommand [letter] = some spec)
  (haddr : ∀ a ∈ addr, a.WellFormed) (htakes : spec.takesAddress = false → addr = none)
  (hfit : Arguments.Fit letter spec args)
include hmem hletter hspec haddr htakes hfit

theorem wellFormed_act (hbody : spec.body.isEmpty = true) : (Cmd.act addr (actionOf letter args)).WellFormed := by
  obtain ⟨hl,htarget,hpattern⟩ := actionOf_tabled addr args spec hmem hbody
  rw [hletter, List.headD_cons] at hl htarget hpattern
  refine .node ⟨.inr ⟨spec,by rw [hl, hspec],htakes,hbody,?_⟩,haddr,fun t ht => ?_,fun re hre => ?_⟩ nofun
  · rw [htarget]
    cases spec.target <;> rfl
  · rw [htarget] at ht
    split at ht
    · rename_i hneeds
      cases ht
      exact hfit.target hneeds
    · cases ht
  · rw [hpattern] at hre
    split at hre
    · rename_i hneeds
      cases hre
      have hloop : ∀ s ∈ commandTable, s.body.isEmpty = true → s.letter ≠ ['x'] ∧ s.letter ≠ ['X'] := by
        decide
      obtain ⟨hx,hX⟩ := hloop spec hmem hbody
      refine (hfit.re hneeds).resolve_right ?_
      rintro (rfl | rfl)
      · exact hx hletter
      · exact hX hletter
    · cases hre

theorem wellFormed_loop (hbody : spec.body.isEmpty = false) {body : Cmd} (hb : body.WellFormed) :
    (loopOf letter addr args body).WellFormed := by
  have hneeds : ∀ s ∈ commandTable, s.body.isEmpty = false → s.regexp = true := by decide
  have hre := hfit.re (hneeds spec hmem hbody)
  obtain ⟨hl,hsame,hchildren,htarget,hnone,hpattern⟩ := loopOf_tabled addr args body spec hmem hbody htakes
    (by simpa [hletter] using hre)
  rw [hletter, List.headD_cons] at hl hsame hchildren htarget hpattern
  refine .node ⟨.inr ⟨spec,by rw [hl, hspec],?_,?_,?_⟩,?_,?_,hpattern⟩ ?_
  · rwa [hsame]
  · rw [hchildren, hbody]
    rfl
  · rw [htarget, hnone]
    rfl
  · rwa [hsame]
  · rw [htarget]
    exact nofun
  · rw [hchildren]
    exact List.forall_mem_singleton.mpr hb

end

/-- What stands for a body that is left out. -/
theorem wellFormed_default {spec : CommandSpec} (hmem : spec ∈ commandTable) (hbody : spec.body.isEmpty = false) :
    (Cmd.act none (actionOf (spec.body.headD '\n') {})).WellFormed := by
  have hall : ∀ s ∈ commandTable, s.body.isEmpty = false → s.body = ['p'] ∨ s.body = ['f'] := by decide
  have hact {letter : Char} (spec : CommandSpec) (hmem : spec ∈ commandTable) (hletter : spec.letter = [letter])
      (hspec : lookupCommand [letter] = some spec) (hplain : (spec.regexp || spec.target) = false)
      (hbody : spec.body.isEmpty = true) : (Cmd.act none (actionOf letter {})).WellFormed := by
    obtain ⟨hre,htarget⟩ := Bool.or_eq_false_iff.mp hplain
    refine wellFormed_act hmem hletter hspec nofun (fun _ => rfl) ⟨fun h => ?_,fun h => ?_⟩ hbody
    · cases hre.symm.trans h
    · cases htarget.symm.trans h
  rcases hall spec hmem hbody with h | h
  · rw [h]
    exact hact { letter := ['p'] } (by decide) rfl rfl rfl rfl
  · rw [h]
    exact hact { letter := ['f'], address := .none, token := wordToken } (by decide) rfl rfl rfl rfl

theorem wellFormed_group {addr : Option Addr} (haddr : ∀ a ∈ addr, a.WellFormed) {cs : List Cmd}
    (hcs : ∀ c ∈ cs, c.WellFormed) : (Cmd.group addr cs).WellFormed :=
  .node ⟨.inl rfl,haddr,nofun,nofun⟩ hcs

theorem wellFormed_newline {addr : Option Addr} (haddr : ∀ a ∈ addr, a.WellFormed) :
    (Cmd.act addr .newline).WellFormed :=
  .node ⟨.inr ⟨{ letter := ['\n'] },rfl,nofun,rfl,rfl⟩,haddr,nofun,nofun⟩ nofun

/-- A reader gives well-formed commands only. -/
abbrev GivesCommand : Parser (Option Cmd) → Cursor → Prop := Gives fun o => ∀ cmd ∈ o, cmd.WellFormed

abbrev GivesCommands : Parser (List Cmd) → Cursor → Prop := Gives fun cs => ∀ cmd ∈ cs, cmd.WellFormed

theorem givesCommand_pure {cmd : Cmd} (h : cmd.WellFormed) (c : Cursor) : GivesCommand (pure (some cmd)) c := by
  refine gives_pure ?_ c
  rintro _ ⟨⟩
  exact h

section
variable {nest : Int} {one : Parser (Option Cmd)} {many : Parser (List Cmd)} (hone : ∀ d, one.GivesCommand d)
  {addr : Option Addr} (haddr : ∀ a ∈ addr, a.WellFormed)
include hone haddr

theorem gives_behindKnown {name : Text} {spec : CommandSpec} (hspec : lookupCommand name = some spec) (c : Cursor) :
    (behindKnown one addr (name.headD '\n') spec).GivesCommand c := by
  obtain ⟨hmem,hletter,hspec⟩ := lookupCommand_letter hspec
  refine gives_ite (fun _ => givesCommand_pure (wellFormed_newline haddr) c) fun _ => ?_
  refine gives_ite (fun _ => gives_throw_bind _ _ c) fun htakes => ?_
  have htakes : spec.takesAddress = false → addr = none := by
    intro h
    simpa [h] using htakes
  refine gives_bind (gives_leadingArguments _ spec c) fun args d _ hfit => ?_
  refine gives_ite (fun hbody => ?_) fun hbody => ?_
  · refine gives_bind (ends_textArgument spec d).closed.onward fun t e _ _ => givesCommand_pure ?_ e
    have hfit' : Arguments.Fit (name.headD '\n') spec { args with text := t } := ⟨hfit.re,hfit.target⟩
    exact wellFormed_act hmem hletter hspec haddr htakes hfit' hbody
  have hbody : spec.body.isEmpty = false := by simpa using hbody
  have hloop {body : Cmd} (hb : body.WellFormed) (e : Cursor) :
      GivesCommand (pure (some (loopOf (name.headD '\n') addr args body))) e :=
    givesCommand_pure (wellFormed_loop hmem hletter hspec haddr htakes hfit hbody hb) e
  refine gives_bind (local_skipPads d).onward fun next e _ _ => gives_ite (fun _ => ?_) fun _ => ?_
  · exact gives_bind (ends_getChar e).closed.onward fun _ k _ _ => hloop (wellFormed_default hmem hbody) k
  · refine gives_bind (hone e) fun body k _ hb => ?_
    cases body with
    | none => exact gives_throw _ k
    | some body => exact hloop (hb body rfl) k

theorem gives_behindLetter (hmany : ∀ d, many.GivesCommands d) (name : Text) (c : Cursor) :
    (behindLetter nest one many addr name).GivesCommand c := by
  unfold behindLetter
  split
  · refine gives_ite (fun _ => ?_) fun _ => gives_ite (fun _ => ?_) fun _ => gives_throw _ c
    · exact gives_bind (hmany c) fun cs d _ hcs => givesCommand_pure (wellFormed_group haddr hcs) d
    · refine gives_bind (ends_endLine c).closed.onward fun _ d _ _ => ?_
      exact gives_ite (fun _ => gives_throw_bind _ _ d) fun _ => gives_pure nofun d
  · rename_i spec hspec
    exact gives_behindKnown hone haddr hspec c

end

section
variable {nest : Int} {one : Parser (Option Cmd)} {many : Parser (List Cmd)} (hone : ∀ d, one.GivesCommand d)
  (hmany : ∀ d, many.GivesCommands d)
include hone hmany

theorem gives_commandWith (c : Cursor) : (commandWith nest one many).GivesCommand c := by
  refine gives_bind (gives_address c) fun addr d _ haddr => gives_bind (local_skipPads d).onward fun _ e _ _ => ?_
  refine gives_ite (fun _ => gives_pure nofun e) fun _ => gives_bind (local_letter e).onward fun name k _ _ => ?_
  cases name with
  | none => exact gives_pure nofun k
  | some name => exact gives_behindLetter hone haddr hmany name k

theorem commandWith_shrinks {cmd : Cmd} (h : commandWith nest one many c = .ok (some cmd) d) :
    d.rest.length < c.rest.length := by
  obtain ⟨addr,e,haddr,h⟩ := ok_of_bind h
  obtain ⟨next,k,hpads,h⟩ := ok_of_bind h
  split at h
  · cases h
  obtain ⟨name,m,hname,h⟩ := ok_of_bind h
  cases name with
  | none => cases h
  | some name =>
    have hbehind : (behindLetter nest one many addr name).GivesCommand m :=
      gives_behindLetter hone ((gives_address c).result haddr) hmany name m
    have := (local_address c).length_le haddr
    have := (local_skipPads e).length_le hpads
    have := letter_shrinks hname
    have := hbehind.length_le h
    omega

theorem gives_childWith (c : Cursor) : (childWith one many).GivesCommands c := by
  refine gives_bind (hone c) fun child d _ hchild => ?_
  cases child with
  | none => exact gives_pure nofun d
  | some child =>
    exact gives_bind (hmany d) fun cs e _ hcs => gives_pure (List.forall_mem_cons.mpr ⟨hchild child rfl,hcs⟩) e

theorem gives_childrenWith (c : Cursor) : (childrenWith one many).GivesCommands c := by
  have hchild := gives_childWith hone hmany
  refine gives_bind (local_skipPads c).onward fun next d _ _ => gives_ite (fun _ => ?_) fun _ => hchild d
  exact gives_bind (ends_getChar d).closed.onward fun _ e _ _ => hchild e

end

/-- Whatever the bound, commands and groups that are read are well formed. -/
theorem gives_bounded (fuel : Nat) : (∀ nest c, (commandFrom fuel nest).GivesCommand c) ∧
    ∀ nest c, (childrenFrom fuel nest).GivesCommands c := by
  induction fuel with
  | zero => exact ⟨fun _ c => gives_pure nofun c,fun _ c => gives_pure nofun c⟩
  | succ fuel ih =>
    refine ⟨fun nest c => ?_,fun nest c => ?_⟩
    · rw [commandFrom_succ]
      exact gives_commandWith (ih.1 nest) (ih.2 nest) c
    · rw [childrenFrom_succ]
      exact gives_childrenWith (ih.1 (nest + 1)) (ih.2 nest) c

theorem gives_commandAt (nest : Int) (c : Cursor) : (commandAt nest).GivesCommand c :=
  (gives_bounded (2 * (c.rest.length + 1))).1 nest c

theorem commandFrom_shrinks {fuel : Nat} {nest : Int} {cmd : Cmd} (h : commandFrom fuel nest c = .ok (some cmd) d) :
    d.rest.length < c.rest.length := by
  cases fuel with
  | zero => cases h
  | succ fuel =>
    rw [commandFrom_succ] at h
    exact commandWith_shrinks ((gives_bounded fuel).1 nest) ((gives_bounded fuel).2 nest) h

end Parser

/-! ## Nothing in a well-formed command is unknown -/

theorem Step.Sound.known {s : Step} (h : s.Sound) : s.unknown = false := by
  simp [Step.unknown, h.type]

theorem Chain.Linked.known {c : Chain} (h : c.Linked) : c.any Step.unknown = false :=
  List.any_eq_false.mpr fun s hs => by simp [(h.sound s hs).known]

theorem Addr.WellFormed.known {a : Addr} (h : a.WellFormed) : a.unknown = false := by
  have hleft {left : Option Chain} (hl : ∀ l ∈ left, Chain.WellFormed l) :
      left.any (·.any Step.unknown) = false := by
    cases left with
    | none => rfl
    | some l => exact (hl l rfl).toLinked.known
  induction a with
  | chain steps => exact h.toLinked.known
  | toEnd left _ => exact hleft h
  | compound left _ right ih =>
    rw [Addr.unknown, hleft h.1, ih h.2.1]
    rfl

/-- The table of commands and that of handlers agree: each letter of a command is handled. -/
theorem lookupCommand_handled {letter : Char} {spec : CommandSpec}
    (h : lookupCommand [letter] = some spec) : letter ∈ handledLetters := by
  have hall : ∀ s ∈ commandTable, s.letter.all handledLetters.contains := by decide
  obtain ⟨hmem,hletter⟩ := Parser.lookupCommand_some h
  have hspec := hall spec hmem
  rw [hletter] at hspec
  exact List.contains_iff_mem.mp (List.all_eq_true.mp hspec letter (List.mem_singleton_self letter))

namespace Cmd

theorem Conforms.handled {c : Cmd} (h : c.Conforms) : c.letter ∈ handledLetters := by
  rcases h.table with hbrace | ⟨spec,hspec,-⟩
  · rw [hbrace]
    decide
  · exact lookupCommand_handled hspec

theorem Conforms.known_addr {c : Cmd} (h : c.Conforms) : c.addr?.any Addr.unknown = false := by
  cases hc : c.addr? with
  | none => rfl
  | some a => exact (h.addr a hc).known

theorem Conforms.known_action {addr : Option Addr} {action : Action} (h : (act addr action).Conforms) :
    action.unknown = false := by
  have hletter : action.letter ∈ handledLetters := h.handled
  unfold Action.unknown
  simp only [List.contains_eq_mem, hletter, decide_true, Bool.not_true, Bool.false_or]
  split
  · exact (h.target _ rfl).toLinked.known
  · exact (h.target _ rfl).toLinked.known
  · rfl

theorem unknownAny_of_known {cs : List Cmd} (h : ∀ c ∈ cs, c.unknown = false) : unknownAny cs = false := by
  induction cs with
  | nil => rfl
  | cons c rest ih =>
    rw [unknownAny, h c List.mem_cons_self, ih fun b hb => h b (List.mem_cons_of_mem _ hb)]
    rfl

theorem WellFormed.known {c : Cmd} (h : c.WellFormed) : c.unknown = false := by
  induction h with
  | @node c here _ ih =>
    have haddr := here.known_addr
    cases c with
    | act addr action =>
      rw [unknown, here.known_action, Bool.or_false]
      exact haddr
    | guard addr _ _ body | extract addr _ body =>
      rw [unknown, ih body List.mem_cons_self, Bool.or_false]
      exact haddr
    | buffers _ body => exact ih body List.mem_cons_self
    | group addr body =>
      have hbody : unknownAny body = false := unknownAny_of_known ih
      rw [unknown, hbody, Bool.or_false]
      exact haddr

end Cmd

namespace Run

/-- A command in which nothing is unknown is executed without a fault that comes of how it is written. -/
theorem execute_known {cmd : Cmd} (hknown : cmd.unknown = false) (h : Option Handle) (s : Session) {f : Fault}
    (hfault : (execute h cmd).fault s = some f) : f.ofWriting = false := by
  have hfree := does_execute (U := False) (R := Session.Freely) (p := fun _ => True) (q := fun _ => True) (h := h)
    (fun _ _ => trivial) cmd (fun _ _ => trivial) (fun _ _ => trivial) fun hunknown =>
      nomatch hknown.symm.trans hunknown
  exact Bool.eq_false_iff.mpr ((hfree s).2.2 f hfault)

/-- A command that cannot be read fails with an error of reading. -/
theorem nextCommand_faults (c : Cursor) (s : Session) {f : Fault} (hfault : (nextCommand c).fault s = some f) :
    ∃ e, f = .edit (.parse e) := by
  have herror := error_of_fault hfault
  generalize (nextCommand c).final s = t at herror
  unfold nextCommand at herror
  rw [bind_of_ok (get_eq s)] at herror
  dsimp only at herror
  cases hread : Parser.command { c with last := s.patterns.last } with
  | ok cmd d =>
    rw [hread] at herror
    cases herror
  | error e d =>
    rw [hread] at herror
    cases herror
    exact ⟨e,rfl⟩

/-- What the reader gives can be run: it takes in something, but nothing behind the end of the text, and
gives a well-formed command. Executing that ends neither in an error of reading, as for a letter that
nothing handles, nor in one for a type of address that there is not. Where the reader fails it is with
an error of reading. -/
theorem command_sound :
    (∀ c d cmd, Parser.command c = .ok (some cmd) d →
      c.offset < d.offset ∧ d.offset ≤ d.text.length ∧ d.text = c.text ∧ cmd.WellFormed ∧
      ∀ h s, (∀ e, (execute h cmd).fault s ≠ some (.edit (.parse e))) ∧
        ∀ kind, (execute h cmd).fault s ≠ some (.edit (.badAddressType kind))) ∧
    ∀ c s f, (nextCommand c).fault s = some f → ∃ e, f = .edit (.parse e) := by
  refine ⟨fun c d cmd h => ?_,fun c s f => nextCommand_faults c s⟩
  obtain ⟨⟨w,hw⟩,hcmd⟩ := Parser.gives_commandAt 0 c (some cmd) d h
  have hshrinks : d.rest.length < c.rest.length := Parser.commandFrom_shrinks h
  have hlength := hw.length
  have hknown := (hcmd cmd rfl).known
  refine ⟨?_,?_,hw.text_eq,hcmd cmd rfl,fun h s => ⟨fun e hfault => ?_,fun kind hfault => ?_⟩⟩
  · rw [hw.offset_eq]
    omega
  · rw [Cursor.text, List.length_append, List.length_reverse]
    exact Nat.le_add_right _ _
  · cases execute_known hknown h s hfault
  · cases execute_known hknown h s hfault

/-- A group behind a compound address; in it a loop without a pattern, and a command with a target. -/
theorem command_sound_nested :
    let addr : Addr := .compound (some [.line 2]) .semicolon (.chain [.forward "a".toList, .plus, .line 3])
    let cmd : Cmd := .group (some addr) [.extract none .lines (.act none (.move [.line 0]))]
    (∃ d, Parser.command { rest := "2;/a/3\x7b\nx m 0\n\x7d\n".toList } = .ok (some cmd) d) ∧ cmd.WellFormed ∧
      ∀ h s, (∀ e, (execute h cmd).fault s ≠ some (.edit (.parse e))) ∧
        ∀ kind, (execute h cmd).fault s ≠ some (.edit (.badAddressType kind)) := by
  have hread : Parser.command { rest := "2;/a/3\x7b\nx m 0\n\x7d\n".toList } = .ok
      (some (.group (some (.compound (some [.line 2]) .semicolon (.chain [.forward "a".toList, .plus, .line 3])))
        [.extract none .lines (.act none (.move [.line 0]))]))
      { before := "2;/a/3\x7b\nx m 0\n\x7d\n".toList.reverse, rest := [], last := "a".toList } := by cbv
  obtain ⟨-,-,-,hcmd,hfaults⟩ := command_sound.1 _ _ _ hread
  exact ⟨⟨_,hread⟩,hcmd,hfaults⟩

end Run

end StructuralEdit
