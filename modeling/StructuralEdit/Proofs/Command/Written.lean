import StructuralEdit.Proofs.Command.Inserted
import StructuralEdit.Text.Numeral

/-! # Writing addresses

Counts of lines and characters are written as numbers, and two simple addresses with a comma between
make a range. What is written so is read back, up to the end of the line.
-/
namespace StructuralEdit

/-! ## Numbers -/

namespace Text
variable {c : Char}

theorem isDigit_of_mem_ofNat (h : c ∈ ofNat n) : isDigit c = true :=
  Nat.isDigit_of_mem_toDigits (by decide) (by decide) h

theorem natOfDigits_ofNat (n : Nat) : natOfDigits (ofNat n) = n :=
  Nat.ofDigitChars_eq_foldl.symm.trans Nat.ofDigitChars_ten_toDigits

theorem exists_ofNat (n : Nat) : ∃ c rest, ofNat n = c :: rest ∧ isDigit c = true := by
  obtain ⟨c,rest,heq⟩ := List.exists_cons_of_ne_nil (Nat.toDigits_ne_nil (n := n) (b := 10))
  exact ⟨c,rest,heq,isDigit_of_mem_ofNat (heq ▸ List.mem_cons_self)⟩

end Text

/-! ## Addresses that are written -/

namespace Parser
variable {α β : Type} {x : Parser α} {f : α → Parser β} {w v u : Text} {a : α} {b : β} {c : Char} {s : Step} {l : Chain}

/-- In front of `u`, a reader takes in `w` and gives `a`. -/
def Takes (x : Parser α) (w u : Text) (a : α) : Prop := ∀ before last,
  x { before, rest := w ++ u, last } = .ok a { before := w.reverse ++ before, rest := u, last }

theorem takes_pure (a : α) (u : Text) : (pure a : Parser α).Takes [] u a := fun _ _ => rfl

theorem Takes.bind (hx : x.Takes w (v ++ u) a) (hf : (f a).Takes v u b) : (x >>= f).Takes (w ++ v) u b := by
  intro before last
  rw [List.append_assoc, bind_of_ok (hx before last), hf, List.reverse_append, List.append_assoc]

/-- The result of what was taken in is made of what the reader gives. -/
theorem Takes.give (hx : x.Takes w u a) (hf : f a = pure b) : (x >>= f).Takes w u b := by
  intro before last
  rw [bind_of_ok (hx before last), hf]
  rfl

/-- What is only looked at is still to come. -/
theorem Takes.look (hx : x.Takes [] (w ++ u) a) (hf : (f a).Takes w u b) : (x >>= f).Takes w u b := hx.bind hf

theorem takes_skipPads (hc : Text.isPad c = false) (u : Text) : skipPads.Takes [] (c :: u) (some c) :=
  fun _ _ => skipPads_eq hc

theorem takes_getChar (c : Char) (u : Text) : getChar.Takes [c] u (some c) := fun _ _ => rfl

theorem isPad_of_digit (hc : Text.isDigit c = true) : Text.isPad c = false := by
  cases hpad : Text.isPad c with
  | false => rfl
  | true =>
    simp only [Text.isPad, Bool.or_eq_true, beq_iff_eq] at hpad
    rcases hpad with rfl | rfl <;> exact absurd hc (by decide)

theorem takes_unsigned (n : Nat) (hc : Text.isDigit c = false) (u : Text) :
    unsigned.Takes (Text.ofNat n) (c :: u) n := by
  intro before last
  have hdigits : (Text.ofNat n ++ c :: u).takeWhile Text.isDigit = Text.ofNat n := by
    rw [List.takeWhile_append_of_pos fun _ => Text.isDigit_of_mem_ofNat, List.takeWhile_cons_of_neg (by simp [hc]),
      List.append_nil]
  have htake : takeWhile Text.isDigit { before, rest := Text.ofNat n ++ c :: u, last } =
      .ok (Text.ofNat n) { before := (Text.ofNat n).reverse ++ before, rest := c :: u, last } := by
    change EStateM.Result.ok ((Text.ofNat n ++ c :: u).takeWhile Text.isDigit)
      (Cursor.advance _ ((Text.ofNat n ++ c :: u).takeWhile Text.isDigit).length) = _
    rw [hdigits, advance_append]
  have hempty : (Text.ofNat n).isEmpty = false := List.isEmpty_eq_false_iff.mpr Nat.toDigits_ne_nil
  rw [unsigned, bind_of_ok htake, hempty]
  change EStateM.Result.ok (Text.natOfDigits (Text.ofNat n)) _ = _
  rw [Text.natOfDigits_ofNat]

theorem takes_step_line (n : Nat) (hc : Text.isDigit c = false) (u : Text) :
    step.Takes (Text.ofNat n) (c :: u) (some (.line n)) := by
  obtain ⟨d,rest,heq,hd⟩ := Text.exists_ofNat n
  have hlook : skipPads.Takes [] (Text.ofNat n ++ c :: u) (some d) := by
    rw [heq]
    exact takes_skipPads (isPad_of_digit hd) _
  refine hlook.look ?_
  dsimp only
  rw [if_pos hd]
  exact (takes_unsigned n hc u).give rfl

theorem takes_step_char (n : Nat) (hc : Text.isDigit c = false) (u : Text) :
    step.Takes ('#' :: Text.ofNat n) (c :: u) (some (.char n)) := by
  refine (takes_skipPads rfl _).look ((takes_getChar '#' _).bind ?_)
  exact (takes_unsigned n hc u).give rfl

theorem takes_step_plus (u : Text) : step.Takes ['+'] u (some .plus) := by
  refine (takes_skipPads rfl _).look ?_
  exact (takes_getChar '+' u).give rfl

/-- No step begins with a comma or a newline. -/
theorem takes_step_none (hc : c = ',' ∨ c = '\n') (u : Text) : step.Takes [] (c :: u) none := by
  rcases hc with rfl | rfl
  · refine (takes_skipPads rfl u).look ?_
    exact takes_pure none _
  · refine (takes_skipPads rfl u).look ?_
    exact takes_pure none _

theorem takes_chain_nil (hc : c = ',' ∨ c = '\n') (u : Text) : chain.Takes [] (c :: u) [] := by
  rw [chain_eq]
  exact (takes_step_none hc u).look (takes_pure _ _)

theorem takes_chain_cons {l' : Chain} (hs : step.Takes w (v ++ u) (some s)) (hl : chain.Takes v u l)
    (hlink : Chain.link? s l = some l') : chain.Takes (w ++ v) u l' := by
  rw [chain_eq]
  refine hs.bind ?_
  exact hl.give (by rw [hlink])

/-- A chain of one step. -/
theorem takes_chain_single (hc : c = ',' ∨ c = '\n') (hs : step.Takes w (c :: u) (some s)) :
    chain.Takes w (c :: u) [s] := by
  rw [← List.append_nil w]
  exact takes_chain_cons hs (takes_chain_nil hc u) rfl

theorem takes_address_chain (hl : chain.Takes w ('\n' :: u) (s :: l)) :
    address.Takes w ('\n' :: u) (some (.chain (s :: l))) := by
  rw [address_eq, ← List.append_nil w]
  exact hl.bind ((takes_skipPads rfl u).look (takes_pure _ _))

theorem takes_address_compound {right : Addr} (hl : chain.Takes w (',' :: (v ++ u)) (s :: l))
    (hr : address.Takes v u (some right)) (hsep : right.startsWithSeparator = false) :
    address.Takes (w ++ ',' :: v) u (some (.compound (some (s :: l)) .comma right)) := by
  rw [address_eq]
  refine hl.bind ((takes_skipPads rfl _).look ?_)
  refine (takes_getChar ',' (v ++ u)).bind (hr.give ?_)
  dsimp only
  rw [hsep]
  rfl

/-- As the text of a command, some text is an address. -/
def Written (w : Text) (addr : Addr) : Prop := ∀ last,
  address (.ofCommand w last) = .ok (some addr) { before := w.reverse, rest := ['\n'], last }

theorem Takes.written {addr : Addr} (h : address.Takes w ['\n'] (some addr)) (hw : '\n' ∉ w) : Written w addr := by
  intro last
  have hrest : w.getLast? ≠ some '\n' := fun hlast => hw (List.mem_of_getLast? hlast)
  rw [Cursor.ofCommand, if_neg hrest, h, List.append_nil]

theorem Written.unique {addr addr' : Addr} (h : Written w addr) (h' : Written w addr') : addr = addr' := by
  have heq := (h []).symm.trans (h' [])
  injection heq with hsome
  exact Option.some.inj hsome

/-! ## Counts -/

/-- How a step is written, whatever follows it that is no digit. -/
structure Counted (w : Text) (s : Step) : Prop where
  takes : ∀ {c}, Text.isDigit c = false → ∀ u, step.Takes w (c :: u) (some s)
  line : '\n' ∉ w

theorem newline_notMem_ofNat (n : Nat) : '\n' ∉ Text.ofNat n :=
  fun hmem => absurd (Text.isDigit_of_mem_ofNat hmem) (by decide)

theorem counted_line (n : Nat) : Counted (Text.ofNat n) (.line n) :=
  ⟨fun hc u => takes_step_line n hc u,newline_notMem_ofNat n⟩

theorem counted_char (n : Nat) : Counted ('#' :: Text.ofNat n) (.char n) := by
  refine ⟨fun hc u => takes_step_char n hc u,?_⟩
  rw [List.mem_cons, not_or]
  exact ⟨by decide,newline_notMem_ofNat n⟩

theorem Counted.written (hs : Counted w s) : Written w (.chain [s]) :=
  (takes_address_chain (takes_chain_single (.inr rfl) (hs.takes rfl _))).written hs.line

/-- From one count to another. -/
theorem Counted.written_range {s' : Step} (hs : Counted w s) (hs' : Counted v s') :
    Written (w ++ ',' :: v) (.compound (some [s]) .comma (.chain [s'])) := by
  have hright := takes_address_chain (takes_chain_single (.inr rfl) (hs'.takes (c := '\n') rfl []))
  refine (takes_address_compound (takes_chain_single (.inl rfl) (hs.takes rfl _)) hright ?_).written ?_
  · rfl
  · simp [hs.line, hs'.line]

/-- A line and some characters behind it. -/
theorem written_line_char (n m : Nat) :
    Written (Text.ofNat n ++ "+#".toList ++ Text.ofNat m) (.chain [.line n, .plus, .char m]) := by
  have hchars := takes_chain_single (.inr rfl) (takes_step_char m (c := '\n') rfl [])
  have hplus : chain.Takes ('+' :: '#' :: Text.ofNat m) ['\n'] [.plus, .char m] :=
    takes_chain_cons (takes_step_plus _) hchars rfl
  have hstep := takes_step_line n (c := '+') rfl ('#' :: (Text.ofNat m ++ ['\n']))
  have hline : chain.Takes (Text.ofNat n ++ '+' :: '#' :: Text.ofNat m) ['\n'] [.line n, .plus, .char m] :=
    takes_chain_cons hstep hplus rfl
  have happend : Text.ofNat n ++ "+#".toList ++ Text.ofNat m = Text.ofNat n ++ '+' :: '#' :: Text.ofNat m := by
    simp
  rw [happend]
  refine (takes_address_chain hline).written ?_
  simp [newline_notMem_ofNat]

end Parser
end StructuralEdit
