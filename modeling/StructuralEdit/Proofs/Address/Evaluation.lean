import StructuralEdit.Address.Raw
import StructuralEdit.Proofs.Address.Line
import StructuralEdit.Proofs.Outcome

/-! # Addresses are read on part by part

Each turn of an evaluation takes in a part of the address, or ends with a result. So an evaluation ends
by itself, and what every count and every search keeps, while it is on, is kept by all of it. An
evaluation that is off counts and searches nothing.
-/
namespace StructuralEdit.RawAddress
variable {α β : Type} {I : State → Prop} {x : Evaluation α} {Q Q' : α → Prop} {R : β → Prop}

/-- From a state that satisfies `I` an evaluation returns something as `Q` says, and goes on from a state
that satisfies `I` again. -/
def Evaluation.Returns (I : State → Prop) (x : Evaluation α) (Q : α → Prop) : Prop :=
  ∀ s, I s → ∃ a u, x s = .ok a u ∧ I u ∧ Q a

theorem returns_pure {a : α} (h : Q a) : (pure a : Evaluation α).Returns I Q := fun s hs => ⟨a,s,rfl,hs,h⟩

theorem returns_bind {f : α → Evaluation β} (hx : x.Returns I Q) (hf : ∀ a, Q a → (f a).Returns I R) :
    (x >>= f).Returns I R := by
  intro s hs
  obtain ⟨a,u,hrun,hu,ha⟩ := hx s hs
  rw [bind_of_ok hrun]
  exact hf a ha u hu

theorem Evaluation.Returns.post (hx : x.Returns I Q) (hQ : ∀ a, Q a → Q' a) : x.Returns I Q' := by
  intro s hs
  obtain ⟨a,u,hrun,hu,ha⟩ := hx s hs
  exact ⟨a,u,hrun,hu,hQ a ha⟩

/-! ## What is left to read -/

/-- What is left of an address is there to be read. -/
structure Reading.Fits (x : Reading) : Prop where
  ordered : x.q ≤ x.stop
  covered : x.stop - x.q ≤ x.rest.length

theorem fits_slice {text : Text} {q0 q1 : Int} (h0 : 0 ≤ q0) (h1 : q0 ≤ q1) (h2 : q1 ≤ text.length) :
    (Reading.mk (text.readOn q0) q0 q1).Fits ∧ (Reading.mk (text.readOn q0) q0 q1).piece = text.slice q0 q1 := by
  have hread : text.readOn q0 = text.drop q0.toNat := by rw [Text.readOn, if_pos h0]
  refine ⟨⟨h1,?_⟩,?_⟩
  · dsimp only
    rw [hread, List.length_drop]
    omega
  · have hlen : q1.toNat - q0.toNat = (q1 - q0).toNat := by omega
    rw [Text.slice_eq h0 (by omega) h2, List.drop_take, Reading.piece, hread, hlen]

/-- A part of the address is taken in. -/
def Reading.Before (x y : Reading) : Prop := ∃ n, 0 < n ∧ n ≤ x.piece.length ∧ y = x.skip n

section
variable {x y : Reading} {n : Nat}

theorem Reading.piece_skip (x : Reading) (n : Nat) : (x.skip n).piece = x.piece.drop n := by
  have hlen : (x.stop - (x.q + n)).toNat = (x.stop - x.q).toNat - n := by omega
  simp only [piece, skip, List.drop_take, hlen]

theorem Reading.piece_eq_cons {c : Char} {rest : Text} (hrest : x.rest = c :: rest) (hmore : x.q < x.stop) :
    x.piece = c :: (x.skip 1).piece := by
  obtain ⟨n,hn⟩ := Nat.exists_eq_add_of_le' (show 1 ≤ (x.stop - x.q).toNat by omega)
  rw [piece_skip, piece, hrest, hn, List.take_succ_cons, List.drop_succ_cons, List.drop_zero]

namespace Reading.Fits

theorem length_piece (hx : x.Fits) : (x.piece.length : Int) = x.stop - x.q := by
  obtain ⟨hordered,hcovered⟩ := hx
  rw [Reading.piece, List.length_take]
  omega

theorem skip (hx : x.Fits) (hn : n ≤ x.piece.length) : (x.skip n).Fits := by
  have hlen := hx.length_piece
  refine ⟨?_,?_⟩
  · simp only [Reading.skip]
    omega
  · have hcovered := hx.covered
    simp only [Reading.skip, List.length_drop]
    omega

theorem before (hx : x.Fits) (h : x.Before y) : y.Fits ∧ x.q < y.q ∧ y.stop = x.stop ∧
    y.rest.length < x.rest.length ∧ ∃ n, y.piece = x.piece.drop n := by
  obtain ⟨n,hpos,hn,rfl⟩ := h
  have hlen := hx.length_piece
  have hcovered := hx.covered
  refine ⟨hx.skip hn,?_,rfl,?_,n,x.piece_skip n⟩
  · simp only [Reading.skip]
    omega
  · simp only [Reading.skip, List.length_drop]
    omega

/-- What is looked at behind some characters is there, unless the address ends. -/
theorem returns_require (hx : x.Fits) (ended : Bool) (n : Nat) : (x.require ended n).Returns I fun _ => True := by
  have hlen := hx.length_piece
  unfold Reading.require
  split
  · rename_i h
    simp only [Bool.and_eq_true, decide_eq_true_eq] at h
    omega
  · exact returns_pure trivial

end Reading.Fits

theorem Reading.Before.skip (h : x.Before y) (hn : n ≤ y.piece.length) : x.Before (y.skip n) := by
  obtain ⟨m,hpos,hm,rfl⟩ := h
  rw [Reading.piece_skip, List.length_drop] at hn
  refine ⟨m + n,by omega,by omega,?_⟩
  simp only [Reading.skip, List.drop_drop, Int.natCast_add, Int.add_assoc]

end

/-- The patterns that the slashes and question marks of a text may begin. -/
def patternsIn : Text → List Text
  | [] => []
  | c :: rest => if c == '/' || c == '?' then (patternAt c rest).1 :: patternsIn rest else patternsIn rest

theorem patternsIn_drop (t : Text) (n : Nat) : patternsIn (t.drop n) ⊆ patternsIn t := by
  induction t generalizing n with
  | nil => simp
  | cons c t ih =>
    cases n with
    | zero => exact List.Subset.refl _
    | succ n =>
      rw [List.drop_succ_cons, patternsIn]
      split
      · exact List.subset_cons_of_subset _ (ih n)
      · exact ih n

theorem patternAt_used (delim : Char) (t : Text) : (patternAt delim t).2.1 ≤ t.length := by
  fun_induction patternAt delim t with
  | case1 => exact Nat.le_refl 0
  | case2 => exact Nat.zero_le _
  | case3 => exact Nat.le_refl 1
  | case4 _ _ _ e rest _ n _ heq ih =>
    rw [heq] at ih
    exact Nat.succ_le_succ (Nat.succ_le_succ ih)
  | case5 c rest => exact Nat.succ_le_succ (Nat.zero_le _)
  | case6 c rest _ _ _ _ n _ heq ih =>
    rw [heq] at ih
    exact Nat.succ_le_succ ih

/-! ## Turns -/

/-- Both ends of a range are as `E` says. -/
def Ends (E : Int → Prop) (r : Span) : Prop := E r.q0 ∧ E r.q1

/-- What is kept while an address is evaluated: `I` of states and `E` of the ends of ranges. Only if
evaluation is on there are counts, and searches for patterns that are as `D` says. -/
structure Keeps (ctx : Context) (on : Prop) (I : State → Prop) (E : Int → Prop) (D : Text → Prop) : Prop where
  start : E 0
  stop : ∀ t ∈ ctx.source, E t.length
  source : on → ctx.source.isSome
  move : on → ∀ {r}, Ends E r → ∀ (n : Nat) d m, (move ctx r n d m).Returns I fun a => Ends E a.1
  search : on → ∀ {r pattern}, Ends E r → D pattern → ∀ d, (search ctx r pattern d).Returns I fun a => Ends E a.1

/-- The ranges of an evaluation are as `E` says. -/
structure Progress.Keeps (on : Prop) (E : Int → Prop) (p : Progress) : Prop where
  range : Ends E p.r
  ambient : Ends E p.ambient
  evaluating : p.evaluating = true → on

/-- A turn ends in what was left of the address, or leaves less of it. -/
def Turn.Keeps (on : Prop) (E : Int → Prop) (x : Reading) : Turn → Prop
  | ends a => Ends E a.r ∧ x.q ≤ a.stop ∧ a.stop ≤ x.stop ∧ (a.evaluated = true → on)
  | goesOn y p => x.Before y ∧ p.Keeps on E
  | separates start y p => E start ∧ x.Before y ∧ p.Keeps on E

section
variable {ctx : Context} {on : Prop} {E : Int → Prop} {D : Text → Prop} {x : Reading} {p : Progress} {c : Char}

theorem Progress.Keeps.result (hp : p.Keeps on E) {q : Int} (h0 : x.q ≤ q) (hq : q ≤ x.stop) :
    (Turn.ends (p.result q)).Keeps on E x := ⟨hp.range,h0,hq,hp.evaluating⟩

theorem Progress.Keeps.returns_evaluate (hp : p.Keeps on E) {f : Evaluation (Span × Bool)}
    (hf : on → f.Returns I fun a => Ends E a.1) : (p.evaluate f).Returns I (Progress.Keeps on E) := by
  unfold Progress.evaluate
  cases hon : p.evaluating with
  | false => exact returns_pure hp
  | true =>
    have hon := hp.evaluating hon
    exact returns_bind (hf hon) fun a ha => returns_pure ⟨ha,hp.ambient,fun _ => hon⟩

section
variable (hk : Keeps ctx on I E D) (hp : p.Keeps on E)
include hk

theorem Keeps.returns_text (hon : on) (use : TextUse) : (ctx.text use).Returns I fun t => E t.length := by
  unfold Context.text
  obtain ⟨t,ht⟩ := Option.isSome_iff_exists.mp (hk.source hon)
  rw [ht]
  exact returns_pure (hk.stop t ht)

include hp

theorem Keeps.returns_move (n : Nat) (d : Direction) (m : Measure) :
    (p.evaluate (RawAddress.move ctx p.r n d m)).Returns I (Progress.Keeps on E) :=
  hp.returns_evaluate fun hon => hk.move hon hp.range n d m

theorem Keeps.returns_finish (hx : x.Fits) : (finish ctx x p).Returns I (Turn.Keeps on E x) := by
  unfold finish
  split
  · exact returns_pure (hp.result (Int.le_refl _) hx.ordered)
  · exact returns_bind (hk.returns_move hp 1 _ _) fun p' hp' => returns_pure (hp'.result (Int.le_refl _) hx.ordered)

theorem Keeps.returns_separatorAt {y : Reading} (hxy : x.Before y) (hx : x.Fits) :
    (separatorAt ctx c y p).Returns I (Turn.Keeps on E x) := by
  obtain ⟨hy,hlt,hstop,-⟩ := hx.before hxy
  have hstart : E (if p.previous.isNone then 0 else p.r.q0) := by
    split
    · exact hk.start
    · exact hp.range.1
  have hambient : Ends E (if c == ';' then p.r else p.ambient) := by
    split
    · exact hp.range
    · exact hp.ambient
  unfold separatorAt
  dsimp only
  split
  · rename_i hlast
    obtain ⟨t,ht⟩ := Option.isSome_iff_exists.mp hlast.2
    simp only [Context.text, ht, pure_bind]
    have hordered := hy.ordered
    exact returns_pure ⟨⟨hstart,hk.stop t ht⟩,by simp only; omega,by simp only; omega,hp.evaluating⟩
  · exact returns_pure ⟨hstart,hxy,hambient,hambient,hp.evaluating⟩

theorem Keeps.returns_signAfter (hx : x.Fits) : (signAfter ctx x p).Returns I (Progress.Keeps on E) := by
  unfold signAfter
  split
  · exact returns_pure hp
  · refine returns_bind (hx.returns_require false 0) fun _ _ => ?_
    split
    · exact returns_pure hp
    · exact hk.returns_move hp 1 _ _

theorem Keeps.returns_signAt {y : Reading} (hxy : x.Before y) (hx : x.Fits) :
    (signAt ctx c y p).Returns I (Turn.Keeps on E x) :=
  returns_bind (hk.returns_signAfter hp (hx.before hxy).1) fun _ hp' =>
    returns_pure ⟨hxy,hp'.range,hp'.ambient,hp'.evaluating⟩

theorem Keeps.returns_fixedAt (hx : x.Fits) (hxy : x.Before (x.skip 1)) (q0 : Int) :
    (fixedAt ctx q0 c x p).Returns I (Turn.Keeps on E x) := by
  unfold fixedAt
  split
  · exact returns_pure (hp.result (Int.le_refl _) hx.ordered)
  · dsimp only
    split
    · exact returns_pure ⟨hxy,hp.range,hp.ambient,hp.evaluating⟩
    · rename_i hon
      have hon := hp.evaluating (by simpa using hon)
      split
      · exact returns_pure ⟨hxy,hp.ambient,hp.ambient,hp.evaluating⟩
      · refine returns_bind (hk.returns_text hon _) fun t ht => ?_
        exact returns_pure ⟨hxy,⟨ht,ht⟩,hp.ambient,hp.evaluating⟩

theorem Keeps.returns_numberAt {y : Reading} (hy : y.Fits)
    (hxy : x.Before (y.skip (y.piece.takeWhile Text.isDigit).length)) (m : Measure) :
    (numberAt ctx m y p).Returns I (Turn.Keeps on E x) := by
  unfold numberAt
  refine returns_bind (hy.returns_require false _) fun _ _ => ?_
  refine returns_bind (hk.returns_move hp _ _ _) fun p' hp' => ?_
  exact returns_pure ⟨hxy,hp'.range,hp'.ambient,hp'.evaluating⟩

theorem Keeps.returns_sharpAt (hx : x.Fits) (hxy : x.Before (x.skip 1)) :
    (sharpAt ctx x p).Returns I (Turn.Keeps on E x) := by
  obtain ⟨hy,hlt,hstop,-⟩ := hx.before hxy
  have hordered := hy.ordered
  unfold sharpAt
  dsimp only
  split
  · exact returns_pure (hp.result (Int.le_refl _) hx.ordered)
  · rename_i hmore
    split
    · rename_i hrest
      have hcovered := hy.covered
      rw [hrest, List.length_nil] at hcovered
      omega
    · rename_i first rest hrest
      split
      · exact returns_pure (hp.result (by omega) (by omega))
      · rename_i hdigit
        exact hk.returns_numberAt hp hy (hxy.skip (List.takeWhile_prefix _).length_le) .char

theorem Keeps.returns_searchAt {y : Reading} (hy : y.Fits) (hxy : x.Before y)
    (hD : D (patternAt c y.piece).1) : (searchAt ctx c y p).Returns I (Turn.Keeps on E x) := by
  unfold searchAt
  refine returns_bind (hy.returns_require _ _) fun _ _ => ?_
  refine returns_bind (hp.returns_evaluate fun hon => hk.search hon hp.range hD _) fun p' hp' => ?_
  exact returns_pure ⟨hxy.skip (patternAt_used c y.piece),hp'.range,hp'.ambient,hp'.evaluating⟩

theorem Keeps.returns_turn (hx : x.Fits) (hD : ∀ d ∈ patternsIn x.piece, D d) (q0 : Int) :
    (turn ctx q0 x p).Returns I (Turn.Keeps on E x) := by
  have hlen := hx.length_piece
  unfold turn
  split
  · exact hk.returns_finish hp hx
  · rename_i hmore
    split
    · rename_i hrest
      have hcovered := hx.covered
      rw [hrest, List.length_nil] at hcovered
      omega
    · rename_i c rest hrest
      have hpiece := x.piece_eq_cons hrest (by omega)
      have hone : 1 ≤ x.piece.length := by omega
      have hxy : x.Before (x.skip 1) := ⟨1,Nat.one_pos,hone,rfl⟩
      split
      · exact hk.returns_separatorAt hp hxy hx
      split
      · exact hk.returns_signAt hp hxy hx
      split
      · exact hk.returns_fixedAt hp hx hxy q0
      split
      · exact hk.returns_sharpAt hp hx hxy
      split
      · rename_i hdigit
        refine hk.returns_numberAt hp hx ⟨_,?_,(List.takeWhile_prefix _).length_le,rfl⟩ .line
        rw [hpiece, List.takeWhile_cons_of_pos hdigit]
        exact Nat.succ_pos _
      split
      · rename_i hdelim
        refine hk.returns_searchAt hp (hx.skip hone) hxy (hD _ ?_)
        rw [hpiece, patternsIn, if_pos hdelim]
        exact List.mem_cons_self
      · exact returns_pure (hp.result (Int.le_refl _) hx.ordered)

end

/-! ## Evaluations -/

/-- An evaluation ends by itself, however many more turns it may take, and within the address. What its
parts keep holds of its result and of the state it ends in. -/
theorem Keeps.exists_addressFrom {x : Reading} {p : Progress} {s : State} (hk : Keeps ctx on I E D)
    (hp : p.Keeps on E) (hx : x.Fits) (hD : ∀ d ∈ patternsIn x.piece, D d) (hs : I s) (q0 : Int) :
    ∃ a u, (∀ fuel, x.rest.length < fuel → addressFrom ctx fuel q0 x p s = .ok a u) ∧ I u ∧
      Turn.Keeps on E x (.ends a) := by
  obtain ⟨next,u,hturn,hu,hnext⟩ := hk.returns_turn hp hx hD q0 s hs
  -- what a turn leaves is shorter, and is evaluated from the state that the turn ends in
  have hbehind {y : Reading} {p' : Progress} (q : Int) (hbefore : x.Before y) (hp' : p'.Keeps on E) :
      ∃ a v, (∀ fuel, x.rest.length ≤ fuel → addressFrom ctx fuel q y p' u = .ok a v) ∧ I v ∧
        Turn.Keeps on E x (.ends a) := by
    obtain ⟨hy,hlt,hstop,hless,n,hpiece⟩ := hx.before hbefore
    have hD' : ∀ d ∈ patternsIn y.piece, D d := fun d hd => hD d (patternsIn_drop _ n (hpiece ▸ hd))
    obtain ⟨a,v,hrun,hv,hE,hq,hend,hon⟩ := hk.exists_addressFrom hp' hy hD' hu q
    exact ⟨a,v,fun fuel hfuel => hrun fuel (by omega),hv,hE,by omega,by omega,hon⟩
  cases next with
  | ends a =>
    refine ⟨a,u,fun fuel hfuel => ?_,hu,hnext⟩
    obtain ⟨fuel,rfl⟩ := Nat.exists_eq_add_of_lt hfuel
    rw [addressFrom, bind_of_ok hturn]
    rfl
  | goesOn y p' =>
    obtain ⟨a,v,hrun,hv,ha⟩ := hbehind q0 hnext.1 hnext.2
    refine ⟨a,v,fun fuel hfuel => ?_,hv,ha⟩
    obtain ⟨fuel,rfl⟩ := Nat.exists_eq_add_of_lt hfuel
    rw [addressFrom, bind_of_ok hturn]
    exact hrun _ (Nat.le_add_right _ _)
  | separates start y p' =>
    obtain ⟨hstart,hbefore,hp'⟩ := hnext
    obtain ⟨a,v,hrun,hv,hE,hrest⟩ := hbehind y.q hbefore hp'
    refine ⟨{ a with r := ⟨start,a.r.q1⟩ },v,fun fuel hfuel => ?_,hv,⟨hstart,hE.2⟩,hrest⟩
    obtain ⟨fuel,rfl⟩ := Nat.exists_eq_add_of_lt hfuel
    rw [addressFrom, bind_of_ok hturn]
    exact bind_of_ok (hrun _ (Nat.le_add_right _ _))
termination_by x.rest.length

/-- So does the evaluation of a slice of address text. -/
theorem Keeps.exists_address {text : Text} {q0 q1 : Int} {s : State} (dot : Span) (evaluate : Bool)
    (hk : Keeps ctx on I E D) (h0 : 0 ≤ q0) (h1 : q0 ≤ q1) (h2 : q1 ≤ text.length) (hdot : Ends E dot)
    (hon : evaluate = true → on) (hD : ∀ d ∈ patternsIn (text.slice q0 q1), D d) (hs : I s) :
    ∃ a u, (∀ fuel, (text.readOn q0).length < fuel → addressFrom ctx fuel q0 ⟨text.readOn q0, q0, q1⟩
        { r := dot, ambient := dot, evaluating := evaluate } s = .ok a u) ∧
      address ctx dot text q0 q1 evaluate s = .ok a u ∧ I u ∧ Ends E a.r ∧ q0 ≤ a.stop ∧ a.stop ≤ q1 ∧
      (a.evaluated = true → on) := by
  obtain ⟨hx,hpiece⟩ := fits_slice h0 h1 h2
  obtain ⟨a,u,hrun,hu,hE,hstart,hstop,hflag⟩ :=
    hk.exists_addressFrom (p := { r := dot, ambient := dot, evaluating := evaluate }) ⟨hdot,hdot,hon⟩ hx
      (hpiece ▸ hD) hs q0
  exact ⟨a,u,hrun,hrun _ (Nat.lt_succ_self _),hu,hE,hstart,hstop,hflag⟩

end

end StructuralEdit.RawAddress
