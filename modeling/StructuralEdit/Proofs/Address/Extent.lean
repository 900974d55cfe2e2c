import StructuralEdit.Proofs.Address.Inside

/-! # Where an address ends

How an evaluation reads on is told by the characters alone. Whatever it makes of them, and even if it is
off and has no text to work on, it goes on behind them or ends there. So all evaluations of a slice come
to one end.
-/
namespace StructuralEdit.RawAddress
variable {α β : Type} {P : α → Prop}

/-- Whatever an evaluation returns is as `P` says. -/
def Evaluation.Gives (x : Evaluation α) (P : α → Prop) : Prop := ∀ s a u, x s = .ok a u → P a

theorem gives_pure {a : α} (h : P a) : (pure a : Evaluation α).Gives P := by
  rintro s a' u ⟨⟩
  exact h

theorem gives_throw (f : Fault) : (throw f : Evaluation α).Gives P := by
  rintro s a u ⟨⟩

section
variable {x : Evaluation β} {f : β → Evaluation α} {Q : β → Prop}

theorem Evaluation.Gives.bind (hx : x.Gives Q) (hf : ∀ b, Q b → (f b).Gives P) : (x >>= f).Gives P := by
  intro s a u hrun
  obtain ⟨b,v,hfirst,hrun⟩ := ok_of_bind hrun
  exact hf b (hx s b v hfirst) v a u hrun

theorem gives_bind (hf : ∀ b, (f b).Gives P) : (x >>= f).Gives P := by
  have hx : x.Gives fun _ => True := fun _ _ _ _ => trivial
  exact hx.bind fun b _ => hf b

end

/-! ## Turns -/

/-- How an evaluation reads on, whatever it has made of what it read. -/
inductive Pace
  | ends (stop : Int)
  | goesOn (y : Reading)
  | separates (y : Reading)

def Turn.pace : Turn → Pace
  | ends a => .ends a.stop
  | goesOn y _ => .goesOn y
  -- an address of which nothing is left ends where it begins
  | separates _ y _ => if y.stop ≤ y.q then .ends y.q else .separates y

/-- All turns of a kind read on in one way. -/
def Paced (f : Context → Progress → Evaluation Turn) : Prop := ∃ pace, ∀ ctx p, (f ctx p).Gives (·.pace = pace)

theorem Paced.ite {b : Prop} [Decidable b] {f g : Context → Progress → Evaluation Turn} (hf : b → Paced f)
    (hg : ¬b → Paced g) : Paced fun ctx p => if b then f ctx p else g ctx p := by
  by_cases hb : b
  · simpa only [if_pos hb] using hf hb
  · simpa only [if_neg hb] using hg hb

section
variable (x : Reading) (c : Char)

theorem paced_ends (q : Int) : Paced fun _ p => pure (.ends (p.result q)) := ⟨.ends q,fun _ _ => gives_pure rfl⟩

theorem paced_throw (f : Fault) : Paced fun _ _ => throw f := ⟨.ends 0,fun _ _ => gives_throw f⟩

theorem gives_finish (ctx : Context) (p : Progress) :
    (finish ctx x p).Gives fun t => ∃ a, t = .ends a ∧ a.stop = x.q := by
  unfold finish
  split
  · exact gives_pure ⟨_,rfl,rfl⟩
  · exact gives_bind fun _ => gives_pure ⟨_,rfl,rfl⟩

theorem paced_finish : Paced fun ctx p => finish ctx x p := by
  refine ⟨.ends x.q,fun ctx p s t u hrun => ?_⟩
  obtain ⟨a,rfl,ha⟩ := gives_finish x ctx p s t u hrun
  rw [Turn.pace, ha]

/-- If nothing follows, the text at hand makes no difference either. -/
theorem paced_separatorAt : Paced fun ctx p => separatorAt ctx c x p := by
  refine ⟨if x.stop ≤ x.q then .ends x.q else .separates x,fun ctx p => ?_⟩
  unfold separatorAt
  dsimp only
  split
  · rename_i hend
    rw [if_pos hend.1]
    exact gives_bind fun _ => gives_pure rfl
  · exact gives_pure rfl

theorem paced_signAt : Paced fun ctx p => signAt ctx c x p := ⟨_,fun _ _ => gives_bind fun _ => gives_pure rfl⟩

theorem paced_fixedAt (q0 : Int) : Paced fun ctx p => fixedAt ctx q0 c x p := by
  refine .ite (fun _ => paced_ends x.q) fun _ => ⟨.goesOn (x.skip 1),fun ctx p => ?_⟩
  dsimp only
  split
  · exact gives_bind fun _ => gives_pure rfl
  · split
    · exact gives_bind fun _ => gives_pure rfl
    · exact gives_bind fun _ => gives_bind fun _ => gives_pure rfl

theorem paced_numberAt (m : Measure) : Paced fun ctx p => numberAt ctx m x p :=
  ⟨_,fun _ _ => gives_bind fun _ => gives_bind fun _ => gives_pure rfl⟩

theorem paced_sharpAt : Paced fun ctx p => sharpAt ctx x p := by
  refine .ite (fun _ => paced_ends x.q) fun _ => ?_
  cases (x.skip 1).rest with
  | nil => exact paced_throw _
  | cons first rest => exact .ite (fun _ => paced_ends _) fun _ => paced_numberAt _ .char

theorem paced_searchAt : Paced fun ctx p => searchAt ctx c x p :=
  ⟨_,fun _ _ => gives_bind fun _ => gives_bind fun _ => gives_pure rfl⟩

theorem paced_turn (q0 : Int) : Paced fun ctx p => turn ctx q0 x p := by
  refine .ite (fun _ => paced_finish x) fun _ => ?_
  cases x.rest with
  | nil => exact paced_throw _
  | cons c rest =>
    refine .ite (fun _ => paced_separatorAt _ c) fun _ => ?_
    refine .ite (fun _ => paced_signAt _ c) fun _ => ?_
    refine .ite (fun _ => paced_fixedAt x c q0) fun _ => ?_
    refine .ite (fun _ => paced_sharpAt x) fun _ => ?_
    refine .ite (fun _ => paced_numberAt x .line) fun _ => ?_
    exact .ite (fun _ => paced_searchAt _ c) fun _ => paced_ends x.q

end

/-! ## Evaluations -/

theorem gives_addressFrom_nothing {x : Reading} (hend : x.stop ≤ x.q) (ctx : Context) (fuel : Nat) (q0 : Int)
    (p : Progress) : (addressFrom ctx fuel q0 x p).Gives (·.stop = x.q) := by
  cases fuel with
  | zero => exact gives_pure rfl
  | succ fuel =>
    rw [addressFrom, turn, if_pos hend]
    refine (gives_finish x ctx p).bind ?_
    rintro t ⟨a,rfl,ha⟩
    exact gives_pure ha

/-- All evaluations of a piece of address text end at one offset. -/
theorem exists_stop (fuel : Nat) (q0 : Int) (x : Reading) :
    ∃ stop, ∀ ctx p, (addressFrom ctx fuel q0 x p).Gives (·.stop = stop) := by
  induction fuel generalizing q0 x with
  | zero => exact ⟨x.q,fun _ _ => gives_pure rfl⟩
  | succ fuel ih =>
    obtain ⟨pace,hturn⟩ := paced_turn x q0
    cases pace with
    | ends stop =>
      refine ⟨stop,fun ctx p => (hturn ctx p).bind fun t ht => ?_⟩
      cases t with
      | ends a =>
        cases ht
        exact gives_pure rfl
      | goesOn y p' => cases ht
      | separates start y p' =>
        rw [Turn.pace] at ht
        split at ht
        · cases ht
          exact (gives_addressFrom_nothing ‹_› ctx fuel y.q p').bind fun a ha => gives_pure ha
        · cases ht
    | goesOn y =>
      obtain ⟨stop,hrest⟩ := ih q0 y
      refine ⟨stop,fun ctx p => (hturn ctx p).bind fun t ht => ?_⟩
      cases t with
      | ends a => cases ht
      | goesOn y' p' =>
        cases ht
        exact hrest ctx p'
      | separates start y' p' =>
        rw [Turn.pace] at ht
        split at ht <;> cases ht
    | separates y =>
      obtain ⟨stop,hright⟩ := ih y.q y
      refine ⟨stop,fun ctx p => (hturn ctx p).bind fun t ht => ?_⟩
      cases t with
      | ends a => cases ht
      | goesOn y' p' => cases ht
      | separates start y' p' =>
        rw [Turn.pace] at ht
        split at ht
        · cases ht
        · cases ht
          exact (hright ctx p').bind fun a ha => gives_pure ha

/-- While evaluation is off nothing is asked of the context, and the state stays as it is. -/
theorem keeps_off (ctx : Context) (s : State) : Keeps ctx False (· = s) (fun _ => True) fun _ => True where
  start := trivial
  stop := fun _ _ => trivial
  source := False.elim
  move := False.elim
  search := False.elim

/-- A slice of address text has one end. To find it, it can be evaluated with evaluation off from the start, which
always returns, leaves it off, and needs no text. Every evaluation that returns ends there, with evaluation on only if it
was on, and in a text with its dot one that is on does return. -/
theorem exists_extent {text : Text} {q0 q1 : Int} (h0 : 0 ≤ q0) (h1 : q0 ≤ q1) (h2 : q1 ≤ text.length) :
    ∃ stop, q0 ≤ stop ∧ stop ≤ q1 ∧
      (∀ ctx dot s, ∃ x, address ctx dot text q0 q1 false s = .ok x s ∧ x.evaluated = false ∧ x.stop = stop) ∧
      (∀ ctx dot evaluate s x u, address ctx dot text q0 q1 evaluate s = .ok x u →
        x.stop = stop ∧ (x.evaluated = true → evaluate = true)) ∧
      ∀ (ctx : Context) t dot (s : State), ctx.source = some t → t.length < 0x8000000000000000 → dot.Within t →
        1 ≤ s.patterns.window →
        (∀ p ∈ s.patterns.last :: patternsIn (text.slice q0 q1), Dependable s.patterns.engine p) →
        ∃ x u, address ctx dot text q0 q1 true s = .ok x u ∧ x.stop = stop := by
  obtain ⟨stop,hstop⟩ := exists_stop ((text.readOn q0).length + 1) q0 ⟨text.readOn q0, q0, q1⟩
  have hsame {ctx dot evaluate s x u} (hrun : address ctx dot text q0 q1 evaluate s = .ok x u) : x.stop = stop :=
    hstop ctx _ s x u hrun
  have hoff (ctx : Context) (dot : Span) (s : State) : ∃ x, address ctx dot text q0 q1 false s = .ok x s ∧
      x.evaluated = false ∧ q0 ≤ x.stop ∧ x.stop ≤ q1 := by
    obtain ⟨x,_,-,hrun,rfl,-,hstart,hend,hflag⟩ := (keeps_off ctx s).exists_address dot false
      h0 h1 h2 ⟨trivial,trivial⟩ Bool.false_ne_true (fun _ _ => trivial) rfl
    exact ⟨x,hrun,Bool.eq_false_iff.mpr hflag,hstart,hend⟩
  refine ⟨stop,?_,?_,fun ctx dot s => ?_,fun ctx dot evaluate s x u hrun => ⟨hsame hrun,fun hflag => ?_⟩,?_⟩
  · obtain ⟨x,hrun,-,hstart,-⟩ := hoff { source := none } (.point 0) { patterns := {} }
    rwa [hsame hrun] at hstart
  · obtain ⟨x,hrun,-,-,hend⟩ := hoff { source := none } (.point 0) { patterns := {} }
    rwa [hsame hrun] at hend
  · obtain ⟨x,hrun,hflag,-⟩ := hoff ctx dot s
    exact ⟨x,hrun,hflag,hsame hrun⟩
  · cases evaluate with
    | true => rfl
    | false =>
      obtain ⟨x',hrun',hflag',-⟩ := hoff ctx dot s
      cases hrun.symm.trans hrun'
      rw [hflag'] at hflag
      cases hflag
  · intro ctx t dot s ht hsize hdot hwindow hd
    obtain ⟨x,u,-,hrun,-⟩ := (keeps_inside ht hsize hwindow).exists_address dot true h0 h1 h2
      (ends_of_within hdot) (fun _ => trivial) (fun p hp => hd p (List.mem_cons_of_mem _ hp))
      ⟨.refl _,hd _ List.mem_cons_self⟩
    exact ⟨x,u,hrun,hsame hrun⟩

/-- A search that fails in the text, and behind it a separator that nothing follows. -/
theorem exists_extent_unmatched :
    let text : Text := "f:2+/u/, g".toList
    let s : State := { patterns := {} }
    ∃ x y u, address { source := none } (.point 0) text 2 8 false s = .ok x s ∧
      address { source := some "one\ntwo".toList } (.point 3) text 2 8 true s = .ok y u ∧ x.stop = y.stop := by
  intro text s
  have hstart : (0 : Int) ≤ 2 := by decide
  have hend : (8 : Int) ≤ text.length := by decide
  obtain ⟨stop,-,-,hscan,-,hevaluate⟩ := exists_extent hstart (by decide) hend
  obtain ⟨x,hx,-,hxstop⟩ := hscan { source := none } (.point 0) s
  have hd : ∀ p ∈ s.patterns.last :: patternsIn (text.slice 2 8), Dependable s.patterns.engine p :=
    Run.dependable_of_all rfl (by decide +kernel)
  obtain ⟨y,u,hy,hystop⟩ := hevaluate { source := some "one\ntwo".toList } "one\ntwo".toList (.point 3) s rfl
    (by decide) (by decide) (by decide) hd
  exact ⟨x,y,u,hx,hy,hxstop.trans hystop.symm⟩

end StructuralEdit.RawAddress
