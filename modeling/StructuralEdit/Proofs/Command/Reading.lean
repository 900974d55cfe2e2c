import StructuralEdit.Command.Cursor
import StructuralEdit.Proofs.Outcome

/-! # How far readers look

A reader passes over a piece of the text to come. What it does then depends on this piece, and
on the character behind it for readers that look ahead: with any other text from there on it does
the same. What is read up to the end of a line depends on nothing behind it, so a reader that looks
ahead and goes on to the end of a line depends on nothing behind that either.
-/
namespace StructuralEdit

namespace Cursor
variable {c d e : Cursor} {v w : Text}

/-- The same cursor before another text. -/
def onto (c : Cursor) (u : Text) : Cursor := { c with rest := u }

/-- One cursor comes from another by passing over a piece of text. -/
structure Passes (c : Cursor) (w : Text) (d : Cursor) : Prop where
  rest : c.rest = w ++ d.rest
  before : d.before = w.reverse ++ c.before

theorem Passes.refl (c : Cursor) : c.Passes [] c := ⟨rfl,rfl⟩

theorem Passes.trans (h : c.Passes v d) (h' : d.Passes w e) : c.Passes (v ++ w) e where
  rest := by rw [h.rest, h'.rest, List.append_assoc]
  before := by rw [h'.before, h.before, List.reverse_append, List.append_assoc]

theorem Passes.length (h : c.Passes w d) : c.rest.length = w.length + d.rest.length := by
  rw [h.rest, List.length_append]

theorem Passes.offset_eq (h : c.Passes w d) : d.offset = c.offset + w.length := by
  rw [offset, h.before, List.length_append, List.length_reverse, Nat.add_comm, offset]

theorem Passes.text_eq (h : c.Passes w d) : d.text = c.text := by
  rw [text, text, h.before, h.rest, List.reverse_append, List.reverse_reverse, List.append_assoc]

theorem Passes.take (h : c.Passes w d) : c.rest.take (d.offset - c.offset) = w := by
  rw [h.offset_eq, Nat.add_sub_cancel_left, h.rest, List.take_left]

theorem passes_advance (h : c.rest = v ++ w) : c.Passes v (c.advance v.length) where
  rest := by simp [advance, h]
  before := by simp [advance, h]

end Cursor

namespace Parser
variable {α β : Type} {S : Text → Text → Prop} {x : Parser α} {f : α → Parser β} {c d : Cursor}

/-- Texts that begin with the same character, if with any. -/
def SameNext (r u : Text) : Prop := u.head? = r.head?

/-- Texts that both go on, unless the second one ends where the first one goes on. -/
def GoesOn (r u : Text) : Prop := r = [] → u = []

/-- A reader passes over a piece of the text, and does the same if another text follows the piece
that stands in a relation to the one that is left. -/
def Reads (S : Text → Text → Prop) (x : Parser α) (c : Cursor) : Prop :=
  ∀ a d, x c = .ok a d → ∃ w, c.Passes w d ∧ ∀ u, S d.rest u → x (c.onto (w ++ u)) = .ok a (d.onto u)

/-- A reader that looks at the next character behind what it passes over, at most. -/
abbrev Local : Parser α → Cursor → Prop := Reads SameNext

/-- A reader that looks at nothing behind what it passes over, but may see that the text ends. -/
abbrev Closed : Parser α → Cursor → Prop := Reads GoesOn

/-- A reader that does not look ahead, and takes in something unless it comes to the end. -/
structure Ends (x : Parser α) (c : Cursor) : Prop where
  closed : x.Closed c
  takes : ∀ a d, x c = .ok a d → d.rest = [] ∨ d.rest.length < c.rest.length

/-! ## Composition -/

theorem SameNext.goesOn {r u : Text} (h : SameNext r u) : GoesOn r u := by
  rintro rfl
  exact List.head?_eq_none_iff.mp h

theorem SameNext.append {r u : Text} (h : SameNext r u) (w : Text) : SameNext (w ++ r) (w ++ u) := by
  cases w with
  | nil => exact h
  | cons a w => rfl

theorem GoesOn.append {r u : Text} (h : GoesOn r u) (w : Text) : GoesOn (w ++ r) (w ++ u) := by
  intro hr
  obtain ⟨rfl,hr⟩ := List.append_eq_nil_iff.mp hr
  exact h hr

/-- Behind a piece that is not empty anything may follow. -/
theorem GoesOn.sameNext {w r u : Text} (h : GoesOn r u) (hw : r = [] ∨ w ≠ []) :
    SameNext (w ++ r) (w ++ u) := by
  cases w with
  | nil =>
    obtain rfl := hw.resolve_right (fun hne => hne rfl)
    obtain rfl := h rfl
    rfl
  | cons a w => rfl

theorem Reads.passes (h : x.Reads S c) {a : α} (hx : x c = .ok a d) : ∃ w, c.Passes w d := by
  obtain ⟨w,hw,-⟩ := h a d hx
  exact ⟨w,hw⟩

theorem Reads.length_le (h : x.Reads S c) {a : α} (hx : x c = .ok a d) : d.rest.length ≤ c.rest.length := by
  obtain ⟨w,hw⟩ := h.passes hx
  rw [hw.length]
  exact Nat.le_add_left _ _

theorem Closed.local (h : x.Closed c) : x.Local c := by
  intro a d hx
  obtain ⟨w,hw,hagain⟩ := h a d hx
  exact ⟨w,hw,fun u hu => hagain u hu.goesOn⟩

/-- What the first reader leaves, and what may follow instead, go on from what the second passes. -/
theorem reads_bind {T : Text → Text → Prop} (hx : x.Reads S c)
    (hf : ∀ a d, x c = .ok a d → (f a).Reads T d)
    (hST : ∀ a d b e, x c = .ok a d → f a d = .ok b e →
      ∀ w u, d.Passes w e → T e.rest u → S d.rest (w ++ u)) :
    (x >>= f).Reads T c := by
  intro b e hrun
  obtain ⟨a,d,hxd,hfe⟩ := ok_of_bind hrun
  obtain ⟨v,hv,hfirst⟩ := hx a d hxd
  obtain ⟨w,hw,hsecond⟩ := hf a d hxd b e hfe
  refine ⟨v ++ w,hv.trans hw,fun u hu => ?_⟩
  rw [List.append_assoc, bind_of_ok (hfirst (w ++ u) (hST a d b e hxd hfe w u hw hu))]
  exact hsecond u hu

theorem Local.bind (hx : x.Local c) (hf : ∀ a d, x c = .ok a d → (f a).Local d) : (x >>= f).Local c := by
  refine reads_bind hx hf fun a d b e _ _ w u hw hu => ?_
  rw [hw.rest]
  exact hu.append w

theorem Closed.bind (hx : x.Closed c) (hf : ∀ a d, x c = .ok a d → (f a).Closed d) : (x >>= f).Closed c := by
  refine reads_bind hx hf fun a d b e _ _ w u hw hu => ?_
  rw [hw.rest]
  exact hu.append w

theorem Ends.bind (hx : x.Ends c) (hf : ∀ a d, x c = .ok a d → (f a).Closed d) : (x >>= f).Ends c where
  closed := hx.closed.bind hf
  takes b e hrun := by
    obtain ⟨a,d,hxd,hfe⟩ := ok_of_bind hrun
    have hle := (hf a d hxd).length_le hfe
    rcases hx.takes a d hxd with hd | hlt
    · rw [hd] at hle
      exact .inl (List.eq_nil_of_length_eq_zero (Nat.le_zero.mp hle))
    · exact .inr (Nat.lt_of_le_of_lt hle hlt)

/-- A reader may look ahead where another one goes on that takes in what it looked at. -/
theorem Local.ends_bind (hx : x.Local c) (hf : ∀ a d, x c = .ok a d → (f a).Ends d) : (x >>= f).Ends c where
  closed := by
    refine reads_bind hx (fun a d hxd => (hf a d hxd).closed) fun a d b e hxd hfe w u hw hu => ?_
    rw [hw.rest]
    -- The second reader takes in something, so the first one looked at nothing behind that.
    refine hu.sameNext (((hf a d hxd).takes b e hfe).imp_right ?_)
    rintro hlt rfl
    rw [hw.length] at hlt
    simp at hlt
  takes b e hrun := by
    obtain ⟨a,d,hxd,hfe⟩ := ok_of_bind hrun
    exact ((hf a d hxd).takes b e hfe).imp_right fun hlt => Nat.lt_of_lt_of_le hlt (hx.length_le hxd)

theorem closed_pure (a : α) (c : Cursor) : (pure a : Parser α).Closed c := by
  rintro _ _ ⟨⟩
  exact ⟨[],.refl c,fun u _ => rfl⟩

theorem ends_pure (a : α) (hc : c.rest = []) : (pure a : Parser α).Ends c where
  closed := closed_pure a c
  takes := by
    rintro _ _ ⟨⟩
    exact .inl hc

theorem ends_throw (e : ParseError) (c : Cursor) : (throw e : Parser α).Ends c := ⟨nofun,nofun⟩

theorem local_throw (e : ParseError) (c : Cursor) : (throw e : Parser α).Local c := nofun

theorem local_pure (a : α) (c : Cursor) : (pure a : Parser α).Local c := (closed_pure a c).local

theorem reads_ite {p : Prop} [Decidable p] {y : Parser α} (hx : x.Reads S c) (hy : y.Reads S c) :
    (if p then x else y).Reads S c := by
  split
  · exact hx
  · exact hy

theorem ends_ite {p : Prop} [Decidable p] {y : Parser α} (hx : x.Ends c) (hy : y.Ends c) :
    (if p then x else y).Ends c := by
  split
  · exact hx
  · exact hy

/-! ## Pieces -/

/-- A reader that goes through the text to come, as far as what it finds there stays the same. -/
theorem reads_scan {g : Text → α} {n : Text → Nat} (hx : ∀ c, x c = .ok (g c.rest) (c.advance (n c.rest)))
    (h : ∃ v r, c.rest = v ++ r ∧ n c.rest = v.length ∧
      ∀ u, S r u → g (v ++ u) = g c.rest ∧ n (v ++ u) = v.length) : x.Reads S c := by
  obtain ⟨v,r,hrest,hn,hagain⟩ := h
  intro a d hrun
  rw [hx, hn] at hrun
  cases hrun
  have hr : (c.advance v.length).rest = r := by simp [Cursor.advance, hrest]
  refine ⟨v,Cursor.passes_advance hrest,fun u hu => ?_⟩
  rw [hr] at hu
  obtain ⟨hg,hlength⟩ := hagain u hu
  rw [hx, Cursor.onto, hlength, hg]
  simp [Cursor.advance, Cursor.onto, hrest]

theorem local_peek (c : Cursor) : peek.Local c :=
  reads_scan (n := fun _ => 0) (fun _ => rfl) ⟨[],c.rest,rfl,rfl,fun _ hu => ⟨hu,rfl⟩⟩

theorem getChar_eq (c : Cursor) : getChar c = .ok c.rest.head? (c.advance (min 1 c.rest.length)) := by
  have hone : c.advance 1 = c.advance (min 1 c.rest.length) := by
    cases h : c.rest <;> simp [Cursor.advance, h]
  rw [← hone]
  rfl

theorem ends_getChar (c : Cursor) : getChar.Ends c where
  closed := by
    refine reads_scan (n := fun t => min 1 t.length) getChar_eq ?_
    cases h : c.rest with
    | nil =>
      refine ⟨[],[],rfl,rfl,fun u hu => ?_⟩
      obtain rfl := hu rfl
      exact ⟨rfl,rfl⟩
    | cons a r => exact ⟨[a],r,rfl,by simp,fun u _ => ⟨rfl,by simp⟩⟩
  takes a d hrun := by
    rw [getChar_eq] at hrun
    cases hrun
    cases h : c.rest <;> simp [Cursor.advance, h]

theorem local_takeWhile (p : Char → Bool) (c : Cursor) : (takeWhile p).Local c := by
  refine reads_scan (g := List.takeWhile p) (n := fun t => (t.takeWhile p).length) (fun _ => rfl) ?_
  refine ⟨c.rest.takeWhile p,c.rest.dropWhile p,List.takeWhile_append_dropWhile.symm,rfl,fun u hu => ?_⟩
  -- What ended the run is the character that the other text begins with, too.
  have hu' : u.takeWhile p = [] := by
    have hnot := List.head?_dropWhile_not p c.rest
    rw [← hu] at hnot
    cases u with
    | nil => rfl
    | cons a u => exact List.takeWhile_cons_of_neg (by simpa using hnot)
  have htake : (c.rest.takeWhile p ++ u).takeWhile p = c.rest.takeWhile p := by
    rw [List.takeWhile_append_of_pos (List.all_eq_true.mp List.all_takeWhile), hu', List.append_nil]
  exact ⟨htake,congrArg List.length htake⟩

/-- A piece of text is found by its beginning, whatever follows that stands in a relation to what
is left. -/
def Settles (S : Text → Text → Prop) (piece : Text → Piece) (t : Text) : Prop :=
  ∃ v r, t = v ++ r ∧ (piece t).used = v.length ∧ ∀ u, S r u → piece (v ++ u) = piece t

theorem reads_takePiece {piece : Text → Piece} (h : Settles S piece c.rest) : (takePiece piece).Reads S c := by
  obtain ⟨v,r,hrest,hused,hagain⟩ := h
  refine reads_scan (g := piece) (n := fun t => (piece t).used) (fun _ => rfl) ⟨v,r,hrest,hused,fun u hu => ?_⟩
  rw [hagain u hu]
  exact ⟨rfl,hused⟩

theorem Settles.cons {piece : Text → Piece} {w t s : Text} (h : Settles S piece t)
    (hpiece : ∀ t, piece (w ++ t) = (piece t).cons s w.length) : Settles S piece (w ++ t) := by
  obtain ⟨v,r,rfl,hused,hagain⟩ := h
  refine ⟨w ++ v,r,(List.append_assoc ..).symm,?_,fun u hu => ?_⟩
  · rw [hpiece, Piece.cons, hused, List.length_append]
  · rw [List.append_assoc, hpiece, hpiece, hagain u hu]

theorem settles_end {piece : Text → Piece} {v : Text} (hused : (piece v).used = v.length) :
    Settles SameNext piece v := by
  refine ⟨v,[],(List.append_nil v).symm,hused,fun u hu => ?_⟩
  rw [List.head?_eq_none_iff.mp hu, List.append_nil]

theorem settles_before {piece : Text → Piece} {v : Text} {a : Char} {r : Text}
    (hused : (piece (v ++ a :: r)).used = v.length) (h : ∀ u, piece (v ++ a :: u) = piece (v ++ a :: r)) :
    Settles SameNext piece (v ++ a :: r) := by
  refine ⟨v,a :: r,rfl,hused,fun u hu => ?_⟩
  obtain ⟨u,rfl⟩ := List.head?_eq_some_iff.mp hu
  exact h u

section
variable {delim : Delimiter} {replacement : Bool} {a : Char}

theorem rightSidePiece_stop (h : ([a] == delim || a == '\n') = true) (t : Text) :
    rightSidePiece delim replacement (a :: t) = {} := by
  unfold rightSidePiece
  rw [if_pos h]

theorem rightSidePiece_plain (h : ¬ ([a] == delim || a == '\n') = true) (hback : ¬ (a == '\\') = true) (t : Text) :
    rightSidePiece delim replacement (a :: t) = (rightSidePiece delim replacement t).cons [a] 1 := by
  conv => lhs; unfold rightSidePiece
  rw [if_neg h, if_neg hback]

/-- Without a backslash a character ends the pattern or is part of it. -/
theorem patternPiece_cons (hback : ¬ (a == '\\') = true) (t : Text) : patternPiece delim (a :: t) =
    if a == '\n' then {} else if [a] == delim then { used := 1 } else (patternPiece delim t).cons [a] 1 := by
  conv => lhs; unfold patternPiece
  rw [if_neg hback]

end

theorem settles_rightSidePiece (delim : Delimiter) (replacement : Bool) (t : Text) :
    Settles SameNext (rightSidePiece delim replacement) t := by
  fun_induction rightSidePiece delim replacement t with
  | case1 => exact settles_end rfl
  | case2 a r hstop =>
    refine settles_before (v := []) ?_ fun u => ?_ <;> simp only [List.nil_append, rightSidePiece_stop hstop]
    rfl
  | case3 a hgo hback => exact settles_end (by simp [rightSidePiece, hgo, hback])
  | case4 a hgo hback e r hline =>
    refine settles_before (v := [a]) ?_ fun u => ?_ <;> simp [rightSidePiece, hgo, hback, hline]
  | case5 a hgo hback e r hline hn ih =>
    exact ih.cons (w := [a, e]) (s := ['\n']) fun t => by simp [rightSidePiece, hgo, hback, hline, hn]
  | case6 a hgo hback e r hline hn hkept ih =>
    exact ih.cons (w := [a, e]) (s := ['\\', e]) fun t => by simp [rightSidePiece, hgo, hback, hline, hn, hkept]
  | case7 a hgo hback e r hline hn hkept ih =>
    exact ih.cons (w := [a, e]) (s := [e]) fun t => by simp [rightSidePiece, hgo, hback, hline, hn, hkept]
  | case8 a r hgo hback ih => exact ih.cons (w := [a]) (rightSidePiece_plain hgo hback)

theorem settles_patternPiece (delim : Delimiter) (t : Text) : Settles SameNext (patternPiece delim) t := by
  fun_induction patternPiece delim t with
  | case1 => exact settles_end rfl
  | case2 a hback => exact settles_end (by simp [patternPiece, hback])
  | case3 a hback e r hdelim ih =>
    exact ih.cons (w := [a, e]) (s := [e]) fun t => by simp [patternPiece, hback, hdelim]
  | case4 a hback e r hdelim hline =>
    refine settles_before (v := [a]) ?_ fun u => ?_ <;> simp [patternPiece, hback, hdelim, hline]
  | case5 a hback e r hdelim hline ih =>
    exact ih.cons (w := [a, e]) (s := ['\\', e]) fun t => by simp [patternPiece, hback, hdelim, hline]
  | case6 a r hback hline =>
    refine settles_before (v := []) ?_ fun u => ?_ <;> simp [patternPiece_cons hback, hline]
  | case7 a r hback hline hdelim =>
    refine ⟨[a],r,rfl,by simp [patternPiece_cons hback, hline, hdelim],fun u _ => ?_⟩
    simp [patternPiece_cons hback, hline, hdelim]
  | case8 a r hback hline hdelim ih =>
    exact ih.cons (w := [a]) (s := [a]) fun t => by simp [patternPiece_cons hback, hline, hdelim]

section
variable {line : Text} (hline : '\n' ∉ line)
include hline

theorem goesOn_line : ∀ a ∈ line, (a != '\n') = true := fun _ ha => bne_iff_ne.mpr (ne_of_mem_of_not_mem ha hline)

theorem takeWhile_line (rest : Text) : (line ++ '\n' :: rest).takeWhile (· != '\n') = line := by
  rw [List.takeWhile_append_of_pos (goesOn_line hline)]
  simp

theorem dropWhile_line (rest : Text) : (line ++ '\n' :: rest).dropWhile (· != '\n') = '\n' :: rest := by
  rw [List.dropWhile_append_of_pos (goesOn_line hline)]
  simp

/-- A line is taken in, unless it ends the text. -/
theorem linesPiece_line (rest : Text) : linesPiece (line ++ '\n' :: rest) =
    if line = ['.'] then { used := 2 } else (linesPiece rest).cons (line ++ ['\n']) (line.length + 1) := by
  conv => lhs; unfold linesPiece
  rw [takeWhile_line hline]
  split
  · rename_i h
    rw [dropWhile_line hline] at h
    cases h
  · rename_i h
    rw [dropWhile_line hline] at h
    cases h
    rfl

theorem linesPiece_last : linesPiece line = { text := line ++ ['\n'], used := line.length } := by
  have hall : (line ++ []).takeWhile (· != '\n') = line ++ [] := List.takeWhile_append_of_pos (goesOn_line hline)
  have hnone : (line ++ []).dropWhile (· != '\n') = [] := List.dropWhile_append_of_pos (goesOn_line hline)
  rw [List.append_nil] at hall hnone
  unfold linesPiece
  rw [hall]
  split
  · rfl
  · rename_i h
    rw [hnone] at h
    cases h

end

/-- Lines end with the line that says so, or with the text. -/
theorem settles_linesPiece (t : Text) : Settles GoesOn linesPiece t := by
  by_cases hmem : '\n' ∈ t
  · obtain ⟨line,rest,rfl,hline⟩ := List.eq_append_cons_of_mem hmem
    by_cases hdot : line = ['.']
    · refine ⟨line ++ ['\n'],rest,by simp,?_,fun u _ => ?_⟩
      · rw [linesPiece_line hline, if_pos hdot, hdot]
        rfl
      · rw [List.append_assoc, List.singleton_append, linesPiece_line hline, linesPiece_line hline, if_pos hdot,
          if_pos hdot]
    · have hrest := settles_linesPiece rest
      rw [← List.singleton_append, ← List.append_assoc]
      refine hrest.cons (s := line ++ ['\n']) fun u => ?_
      rw [List.append_assoc, List.singleton_append, linesPiece_line hline, if_neg hdot, List.length_append]
      rfl
  · refine ⟨t,[],(List.append_nil t).symm,by rw [linesPiece_last hmem],fun u hu => ?_⟩
    rw [hu rfl, List.append_nil]
termination_by t.length

/-! ## Arguments -/

theorem local_skipPads (c : Cursor) : skipPads.Local c :=
  (local_takeWhile _ c).bind fun _ d _ => local_peek d

theorem skipPads_next {o : Option Char} (h : skipPads c = .ok o d) : d.rest.head? = o := by
  obtain ⟨_,e,_,hpeek⟩ := ok_of_bind h
  cases hpeek
  rfl

theorem ends_endLine (c : Cursor) : endLine.Ends c := by
  refine (local_skipPads c).ends_bind fun _ d _ => (ends_getChar d).bind fun a e _ => ?_
  exact reads_ite (ends_throw _ e).closed (closed_pure _ e)

theorem local_unsigned (c : Cursor) : unsigned.Local c :=
  (local_takeWhile _ c).bind fun _ d _ => local_pure _ d

theorem local_signed (c : Cursor) : signed.Local c := by
  refine (local_peek c).bind fun _ d _ => reads_ite ?_ ?_
  · refine (ends_getChar d).closed.local.bind fun _ e _ => ?_
    exact (local_unsigned e).bind fun _ k _ => local_pure _ k
  · exact (local_unsigned d).bind fun _ e _ => local_pure _ e

theorem ends_tokenUntil (stop : Char → Bool) (c : Cursor) : (tokenUntil stop).Ends c := by
  refine (local_takeWhile _ c).ends_bind fun pads d _ => ?_
  refine (local_takeWhile _ d).ends_bind fun body e _ => (ends_getChar e).bind fun a k _ => ?_
  exact reads_ite ((ends_endLine k).closed.bind fun _ m _ => closed_pure _ m) (closed_pure _ k)

theorem local_rightSide (delim : Delimiter) (replacement : Bool) (c : Cursor) :
    (rightSide delim replacement).Local c := by
  refine Local.bind (reads_takePiece (settles_rightSidePiece delim replacement c.rest)) fun p d _ => ?_
  exact reads_ite (local_throw _ d) (local_pure _ d)

theorem reads_get_last {g : Text → Parser α} (h : (g c.last).Reads S c) :
    ((get : Parser Cursor) >>= fun d => g d.last).Reads S c := h

theorem local_modify_last (t : Text) (c : Cursor) :
    (modify fun d => { d with last := t } : Parser Unit).Local c := by
  rintro _ _ ⟨⟩
  exact ⟨[],⟨rfl,rfl⟩,fun u _ => rfl⟩

theorem local_pattern (delim : Delimiter) (c : Cursor) : (pattern delim).Local c := by
  refine Local.bind (reads_takePiece (settles_patternPiece delim c.rest)) fun p d _ => ?_
  have hlast (d : Cursor) : ((get : Parser Cursor) >>= fun d =>
      if d.last.isEmpty then throw .noPattern else pure d.last : Parser Text).Local d :=
    reads_get_last (g := fun t => if t.isEmpty then throw .noPattern else pure t)
      (reads_ite (local_throw _ d) (local_pure _ d))
  refine reads_ite ?_ (hlast d)
  exact (local_modify_last _ d).bind fun _ e _ => hlast e

theorem ends_insertedText (c : Cursor) : insertedText.Ends c := by
  refine (local_skipPads c).ends_bind fun next d _ => ends_ite ?_ ?_
  · refine (ends_getChar d).bind fun _ e _ => ?_
    exact Closed.bind (reads_takePiece (settles_linesPiece e.rest)) fun _ k _ => closed_pure _ k
  · refine (ends_getChar d).bind fun seen e _ => ?_
    cases seen with
    | none => exact (ends_throw _ e).closed
    | some delim =>
      have hend (t : Text) (k : Cursor) : (endLine >>= fun _ => pure t : Parser Text).Ends k :=
        (ends_endLine k).bind fun _ m _ => closed_pure t m
      refine reads_ite (Closed.bind (ends_throw _ e).closed nofun) ?_
      refine Ends.closed <| (local_rightSide _ _ e).ends_bind fun t k _ => ?_
      refine (local_peek k).ends_bind fun next m _ => ends_ite ?_ (hend t m)
      exact (ends_getChar m).bind fun _ n _ => (hend t n).closed

end Parser

end StructuralEdit
