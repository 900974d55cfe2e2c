import StructuralEdit.Proofs.Address.Backward
import StructuralEdit.Proofs.Address.Evaluation
import StructuralEdit.Proofs.Session.Resolution

/-! # Evaluations stay in the text

Counted from a range whose ends lie in a text, lines and characters lead to another one or out of range,
and so does a search. Nothing is read outside the text. So an evaluation of address text returns, and the ends of
its range lie in the text whether it succeeded or stayed where it was.
-/
namespace StructuralEdit.RawAddress
open Pattern Lines
variable {t : Text} {r : Span} {q n : Nat}

/-- An offset lies in a text. -/
def Inside (t : Text) (q : Int) : Prop := 0 ≤ q ∧ q ≤ t.length

/-- What a span lies in has its ends in it. -/
theorem ends_of_within (h : r.Within t) : Ends (Inside t) r :=
  ⟨⟨h.start,Int.le_trans h.ordered h.stop⟩,⟨Int.le_trans h.start h.ordered,h.stop⟩⟩

/-- An outcome is a range whose ends are as `E` says, or one stays for a reason that is no fault. -/
inductive Settles (E : Int → Prop) : Outcome → Prop
  | led {r : Span} (h : Ends E r) : Settles E (.ok r)
  | quiet : Settles E (.error .quiet)
  | warned (w : Warning) : Settles E (.error (.warned w))

theorem Inside.ofNat (h : q ≤ t.length) : Inside t q := ⟨Int.natCast_nonneg q,Int.ofNat_le.mpr h⟩

theorem Inside.point {q : Int} (h : Inside t q) : Settles (Inside t) (.ok (.point q)) := .led ⟨h,h⟩

/-! ## Counting -/

theorem countBack_bounds (n : Nat) (before : Text) (q1 : Nat) : (countBack n before q1).2.1 ≤ before.length ∧
    (countBack n before q1).2.2 ≤ max q1 before.length := by
  fun_induction countBack n before q1 with
  | case1 => exact ⟨Nat.le_refl _,Nat.le_max_left ..⟩
  | case2 => exact ⟨Nat.zero_le _,Nat.le_max_left ..⟩
  | case3 q1 n c before hc ih =>
    rw [List.length_cons]
    omega
  | case4 q1 n c before hc ih =>
    rw [List.length_cons]
    omega

theorem settles_charNumber (r : Span) (count : Int) (d : Direction) :
    Settles (Inside t) (charNumber t r count d) := by
  unfold charNumber
  extract_lets q
  split
  · exact .warned _
  · exact Inside.point ⟨by omega,by omega⟩

theorem settles_linesFrom (hq : q ≤ t.length) (n : Nat) : Settles (Inside t) (linesFrom t q n) := by
  cases n with
  | zero =>
    have hnone : linesFrom t q (0 : Nat) = .ok (.point q) := by
      simp [linesFrom, countFore, Span.point, pure, Except.pure]
    rw [hnone]
    exact (Inside.ofNat hq).point
  | succ n =>
    rw [linesFrom_eq hq]
    cases hk : skip n (t.drop q) with
    | none => exact .warned _
    | some k =>
      have hle := skip_le hk
      have hlen := lineLength_le (t.drop (q + k))
      rw [List.length_drop] at hle hlen
      exact .led ⟨.ofNat (by omega),.ofNat (by omega)⟩

theorem exists_nextLineStart (hq : q ≤ t.length) : ∃ k : Nat, nextLineStart t q = k ∧ k ≤ t.length := by
  unfold nextLineStart
  split
  · exact ⟨q,rfl,hq⟩
  · have hlen := lineLength_le (t.drop q)
    rw [List.length_drop] at hlen
    rw [Text.readOn_of_nat]
    exact ⟨q + lineLength (t.drop q),rfl,by omega⟩

theorem settles_linesBack (hr : Inside t r.q0) (n : Nat) : Settles (Inside t) (linesBack t r n) := by
  obtain ⟨q,hq⟩ := Int.eq_ofNat_of_zero_le hr.1
  have hle : q ≤ t.length := by
    have h := hr.2
    omega
  unfold linesBack
  split
  · split
    · exact .warned _
    · exact hr.point
  · obtain ⟨start,hstart,hbehind,-⟩ := exists_origin hle
    have horigin : (if r.q0 < t.length then lineStart t r.q0 else .ok r.q0) = .ok start := by
      rw [← hstart, origin, hq]
      simp only [Int.ofNat_lt]
    rw [horigin]
    have hunread : ¬((t.length : Int) < start) := by omega
    simp only [reading, bind, Except.bind, hunread, if_false, Int.toNat_natCast, Text.readBack_of_nat t start hbehind]
    have hbounds := countBack_bounds n (t.take start).reverse start
    rw [List.length_reverse, List.length_take_of_le hbehind, Nat.max_self] at hbounds
    generalize countBack n (t.take start).reverse start = counted at hbounds
    obtain ⟨left,q0,q1⟩ := counted
    dsimp only at hbounds
    obtain ⟨first,hfirst,hpos,hend⟩ := exists_lineStart (t := t) (q := q0) (by omega) (by omega)
    simp only [hfirst]
    split
    · exact .warned _
    · exact .led ⟨⟨hpos,by dsimp only; omega⟩,.ofNat (by omega)⟩

theorem settles_number (hr : Ends (Inside t) r) (n : Nat) (d : Direction) (m : Measure) :
    Settles (Inside t) (number t r n d m) := by
  cases m with
  | char => exact settles_charNumber r n d
  | line =>
    cases d with
    | none => exact settles_linesFrom (Nat.zero_le _) n
    | back => exact settles_linesBack hr.1 n
    | fore =>
      obtain ⟨q,hq⟩ := Int.eq_ofNat_of_zero_le hr.2.1
      obtain ⟨k,hk,hle⟩ := exists_nextLineStart (t := t) (q := q) (by have h := hr.2.2; omega)
      simp only [number, lineNumber]
      rw [hq, hk]
      exact settles_linesFrom hle n

/-! ## Searching -/

/-- A state searches as some memory does, and its last pattern is dependable. -/
structure Ready (memory : PatternMemory) (s : State) : Prop where
  alike : s.patterns.Alike memory
  last : Dependable memory.engine s.patterns.last

section
variable {α : Type} {I : State → Prop} {E : Int → Prop} {ctx : Context} {memory : PatternMemory}

theorem returns_modify {f : State → State} (h : ∀ s, I s → I (f s)) :
    (modify f : Evaluation Unit).Returns I fun _ => True := fun s hs => ⟨(),f s,rfl,h s hs,trivial⟩

theorem returns_get : (get : Evaluation State).Returns I I := fun s hs => ⟨s,s,rfl,hs,hs⟩

theorem returns_settle (hr : Ends E r) {o : Outcome} (ho : Settles E o) :
    (settle ctx r o).Returns (Ready memory) fun a => Ends E a.1 := by
  cases ho with
  | led h => exact returns_pure h
  | quiet => exact returns_pure hr
  | warned w =>
    unfold settle
    dsimp only
    split
    · exact returns_bind (returns_modify fun s hs => ⟨hs.alike,hs.last⟩) fun _ _ => returns_pure hr
    · exact returns_pure hr

variable {pattern : Text}

theorem Ready.compiled {s : State} (hs : Ready memory s) (p : Text) :
    Ready memory { s with patterns := (s.patterns.compile p).2 } :=
  ⟨(s.patterns.alike_compile p).trans hs.alike,(s.patterns.last_compile p).symm ▸ hs.last⟩

theorem Ready.remembered {s : State} (hs : Ready memory s) (hd : Dependable memory.engine pattern) :
    Ready memory { s with patterns := s.patterns.remember pattern } := by
  refine ⟨?_,?_⟩
  · refine PatternMemory.Alike.trans ?_ hs.alike
    unfold PatternMemory.remember
    split
    · exact .refl _
    · exact ⟨rfl,rfl⟩
  · rw [PatternMemory.last_remember]
    split
    · exact hs.last
    · exact hd

/-- A search either way is answered, and what is found lies in the text. -/
theorem exists_found {engine : Engine} {re : Regex} (hre : Regex.compile engine pattern = .ok re)
    (hd : Dependable engine pattern) (hsize : t.length < 0x8000000000000000) {window : Int} (hwindow : 1 ≤ window)
    (hr : Ends (Inside t) r) (stop : Option Int) (d : Direction) :
    ∃ ms : List Match, (match d with
      | .back => re.backward window t r.q0 0 (some 1)
      | _ => re.forward t r.q1 stop (some 1)) = .ok ms ∧ ∀ m ∈ ms, m.span.Within t := by
  have ha := hd.answers hre t.toArray
  have hf : re.Forward := hd.forward re hre
  have hfore : ∃ ms, re.forward t r.q1 stop (some 1) = .ok ms ∧ ∀ m ∈ ms, m.span.Within t := by
    obtain ⟨ms,hms⟩ := Run.forward_answered ha hsize hr.2.1 stop (some 1)
    exact ⟨ms,hms,re.forward_within hf hr.2.1 hms⟩
  cases d with
  | none | fore => exact hfore
  | back =>
    obtain ⟨-,ms,hms,-⟩ := Regex.backward_recedes ha hsize hwindow (Nat.zero_le _) r.q0 (some 1)
    exact ⟨ms,hms,Regex.backward_within hf hms⟩

theorem returns_search (ht : ctx.source = some t) (hsize : t.length < 0x8000000000000000)
    (hwindow : 1 ≤ memory.window) (hr : Ends (Inside t) r) (hd : Dependable memory.engine pattern) (d : Direction) :
    (search ctx r pattern d).Returns (Ready memory) fun a => Ends (Inside t) a.1 := by
  unfold search
  refine returns_bind returns_get fun s hs => ?_
  have heffective : Dependable memory.engine (if pattern.isEmpty then s.patterns.last else pattern) := by
    split
    · exact hs.last
    · exact hd
  dsimp only
  generalize (if pattern.isEmpty then s.patterns.last else pattern) = effective at heffective
  split
  · exact returns_settle hr (.warned _)
  have hcompiled := hs.compiled effective
  have hresult := s.patterns.compile_result effective
  generalize s.patterns.compile effective = compiled at hcompiled hresult
  obtain ⟨result,patterns⟩ := compiled
  dsimp only at hcompiled hresult
  rw [hs.alike.engine] at hresult
  refine returns_bind (returns_modify fun u hu => ⟨hcompiled.alike,hcompiled.last⟩) fun _ _ => ?_
  cases result with
  | error f =>
    obtain ⟨problem,offset,rfl⟩ := heffective.refused hresult.symm
    exact returns_settle hr .quiet
  | ok re =>
    dsimp only
    refine returns_bind (returns_modify fun u hu => hu.remembered hd) fun _ _ => ?_
    rw [Context.text, ht]
    simp only [pure_bind]
    obtain ⟨ms,hms,hwithin⟩ := exists_found hresult.symm heffective hsize (hcompiled.alike.window ▸ hwindow) hr
      (if ctx.limits.q0 < 0 then none else some ctx.limits.q1) d
    cases d <;>
    · dsimp only at hms ⊢
      rw [hms]
      cases ms with
      | nil => exact returns_settle hr (.warned _)
      | cons m rest =>
        exact returns_pure (ends_of_within (hwithin m List.mem_cons_self))

/-- What an evaluation in a text keeps: its ranges in the text, and searches that are answered. -/
theorem keeps_inside (ht : ctx.source = some t) (hsize : t.length < 0x8000000000000000)
    (hwindow : 1 ≤ memory.window) :
    Keeps ctx True (Ready memory) (Inside t) (Dependable memory.engine) where
  start := ⟨Int.le_refl 0,Int.natCast_nonneg _⟩
  stop := by
    rw [ht]
    rintro t' ⟨⟩
    exact ⟨Int.natCast_nonneg _,Int.le_refl _⟩
  source := fun _ => by rw [ht]; rfl
  move := by
    intro _ r hr n d m
    rw [RawAddress.move, Context.text, ht]
    simp only [pure_bind]
    exact returns_settle hr (settles_number hr n d m)
  search := fun _ _ _ hr hd d => returns_search ht hsize hwindow hr hd d

end

/-- In a text with its dot, evaluating a slice of address text returns: both ends of the range lie in the text, whether
or not evaluation succeeded, and the slice has been read up to an offset in it. The evaluation ends by itself, and so
does each search it makes. -/
theorem address_inside {ctx : Context} {dot : Span} {text : Text} {q0 q1 : Int} {s : State} (evaluate : Bool)
    (ht : ctx.source = some t) (hsize : t.length < 0x8000000000000000) (hdot : dot.Within t)
    (h0 : 0 ≤ q0) (h1 : q0 ≤ q1) (h2 : q1 ≤ text.length) (hwindow : 1 ≤ s.patterns.window)
    (hd : ∀ p ∈ s.patterns.last :: patternsIn (text.slice q0 q1), Dependable s.patterns.engine p) :
    (∃ x u, address ctx dot text q0 q1 evaluate s = .ok x u ∧
      (∀ fuel, (text.readOn q0).length < fuel → addressFrom ctx fuel q0 ⟨text.readOn q0, q0, q1⟩
        { r := dot, ambient := dot, evaluating := evaluate } s = .ok x u) ∧
      (0 ≤ x.r.q0 ∧ x.r.q0 ≤ t.length) ∧ (0 ≤ x.r.q1 ∧ x.r.q1 ≤ t.length) ∧ q0 ≤ x.stop ∧ x.stop ≤ q1) ∧
    ∀ p ∈ s.patterns.last :: patternsIn (text.slice q0 q1), ∀ re, Regex.compile s.patterns.engine p = .ok re →
      re.ComesToEnd s.patterns.window t := by
  refine ⟨?_,fun p hp re hre => Regex.comesToEnd ((hd p hp).answers hre _) hsize hwindow⟩
  have hready : Ready s.patterns s := ⟨.refl _,hd _ List.mem_cons_self⟩
  obtain ⟨x,u,hends,hrun,-,hE,hstart,hstop,-⟩ := (keeps_inside ht hsize hwindow).exists_address
    dot evaluate h0 h1 h2 (ends_of_within hdot) (fun _ => trivial) (fun p hp => hd p (List.mem_cons_of_mem _ hp))
    hready
  exact ⟨x,u,hrun,hends,hE.1,hE.2,hstart,hstop⟩

/-- A search back from the second line and one that finds nothing, so that evaluation stays there. -/
theorem address_inside_unmatched :
    let t : Text := "one\ntwo\n".toList
    let text : Text := "f:2?n?;/u/,$".toList
    let s : State := { patterns := {} }
    let ctx : Context := { source := some t }
    (⟨4, 5⟩ : Span).Within t ∧
      (∀ p ∈ s.patterns.last :: patternsIn (text.slice 2 12), Dependable s.patterns.engine p) ∧
      ∃ x u, address ctx ⟨4, 5⟩ text 2 12 true s = .ok x u ∧ (0 ≤ x.r.q0 ∧ x.r.q0 ≤ t.length) ∧
        (0 ≤ x.r.q1 ∧ x.r.q1 ≤ t.length) ∧ 2 ≤ x.stop ∧ x.stop ≤ 12 := by
  intro t text s ctx
  have hdot : (⟨4, 5⟩ : Span).Within t := by decide
  have hd : ∀ p ∈ s.patterns.last :: patternsIn (text.slice 2 12), Dependable s.patterns.engine p :=
    Run.dependable_of_all rfl (by decide +kernel)
  have hsource : ctx.source = some t := rfl
  have hlength : (12 : Int) ≤ text.length := by decide
  obtain ⟨⟨x,u,hrun,-,hE0,hE1,hstart,hstop⟩,-⟩ :=
    address_inside true hsource (by decide) hdot (by decide) (by decide) hlength (by decide) hd
  exact ⟨hdot,hd,x,u,hrun,hE0,hE1,hstart,hstop⟩

/-- With a window below one a search backward reads behind the end of the text. -/
theorem address_outside :
    let t : Text := "a".toList
    let text : Text := "?a?".toList
    let s : State := { patterns := { window := -1 } }
    (⟨1, 1⟩ : Span).Within t ∧
      (∀ p ∈ s.patterns.last :: patternsIn (text.slice 0 3), Dependable s.patterns.engine p) ∧
      ∃ u, address { source := some t } ⟨1, 1⟩ text 0 3 true s = .error (.search (.offset .outside)) u := by
  intro t text s
  have hd : ∀ p ∈ s.patterns.last :: patternsIn (text.slice 0 3), Dependable s.patterns.engine p :=
    Run.dependable_of_all rfl (by decide +kernel)
  refine ⟨by decide,hd,?_⟩
  have hfault : (match address { source := some t } ⟨1, 1⟩ text 0 3 true s with
    | .ok .. => none
    | .error f _ => some f) = some (Fault.search (.offset .outside)) := by decide +kernel
  split at hfault
  · cases hfault
  · rename_i f u hrun
    exact ⟨u,by rw [hrun, Option.some.inj hfault]⟩

end StructuralEdit.RawAddress
