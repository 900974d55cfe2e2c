import StructuralEdit.Address.Position
import StructuralEdit.Proofs.Address.Backward
import StructuralEdit.Proofs.Command.Written
import StructuralEdit.Proofs.Session.Steps

/-! # Positions are addresses

The position of a range, by lines or by characters, is an address that leads to it from anywhere. The one by a line
and characters is not: it gives the characters from the start of the line, and as an address counts them
from its end.
-/
namespace StructuralEdit
variable {t w : Text} {r line : Span} {q n k : Nat}

/-! ## The line of an offset -/

namespace Lines

/-- An offset stands in a line: at its start or behind it, with no newline between. -/
structure LineAt (t : Text) (q : Int) (line : Span) : Prop where
  isLine : ∃ n, IsLine t n line
  start : line.q0 ≤ q
  stop : q ≤ line.q1
  unbroken : '\n' ∉ t.slice line.q0 q

theorem IsLine.unique {r' : Span} (h : IsLine t n r) (h' : IsLine t n r') : r = r' := by
  obtain ⟨n,rfl⟩ := Nat.exists_eq_add_of_le' (show 1 ≤ n by rw [← h.number]; omega)
  obtain ⟨k,hk,rfl⟩ := isLine_iff.mp h
  obtain ⟨k',hk',rfl⟩ := isLine_iff.mp h'
  rw [hk, Option.some_inj] at hk'
  rw [hk']

/-- It is known by the newlines in front of the offset, and so is the only one. -/
theorem LineAt.number {q : Int} (h : LineAt t q line) : IsLine t ((t.slice 0 q).count '\n' + 1) line := by
  obtain ⟨n,hline⟩ := h.isLine
  have hstop := Int.le_trans h.stop hline.within.stop
  rw [← Text.slice_append_slice (Int.le_refl 0) hline.within.start h.start hstop, List.count_append,
    List.count_eq_zero.mpr h.unbroken, Nat.add_zero, hline.number]
  exact hline

theorem LineAt.unique {q : Int} {line' : Span} (h : LineAt t q line) (h' : LineAt t q line') : line = line' :=
  h.number.unique h'.number

/-- Every offset stands in a line, behind as many characters as follow the last newline in front of it. -/
theorem exists_lineAt (hq : q ≤ t.length) :
    ∃ line, LineAt t q line ∧ line.q0 + (count (t.take q)).2 = q := by
  obtain ⟨front,w,hsplit,hfront,hw,hlen⟩ := exists_last (t.take q)
  have ht : t = front ++ (w ++ t.drop q) := by rw [← List.append_assoc, ← hsplit, List.take_append_drop]
  have hfit : front.length + w.length = q := by rw [← List.length_append, ← hsplit, List.length_take_of_le hq]
  have htake : t.take front.length = front := by rw [ht, List.take_left]
  have hdrop : t.drop front.length = w ++ t.drop q := by
    conv_lhs => rw [ht]
    exact List.drop_left
  have hskip : skip (front.count '\n') t = some front.length := by
    rw [skip_eq_some_iff, htake]
    exact ⟨by omega,rfl,hfront⟩
  have hunbroken : t.slice front.length q = w := by
    rw [← hfit, Text.slice_add (by omega), hdrop, List.take_left]
  refine ⟨⟨front.length, (front.length + lineLength (t.drop front.length) : Nat)⟩,⟨?_,?_,?_,?_⟩,?_⟩
  · exact ⟨_,isLine_iff.mpr ⟨_,hskip,rfl⟩⟩
  · exact Int.ofNat_le.mpr (by omega)
  · rw [hdrop, lineLength_append hw]
    exact Int.ofNat_le.mpr (by omega)
  · rwa [hunbroken]
  · have hbehind := congrArg List.length (List.takeWhile_append_dropWhile (p := (· != '\n')) (l := (t.take q).reverse))
    rw [List.length_append, hlen, List.length_reverse, List.length_take_of_le hq] at hbehind
    rw [count]
    dsimp only
    omega

end Lines

/-! ## Where addresses lead -/

/-- From anywhere in a buffer with some text, an address leads to a range of it, and leaves all as it is. -/
def Addr.LeadsTo (addr : Addr) (t : Text) (r : Span) : Prop := ∀ (s : Session) (h : Handle) (dot : Span),
  (s.buffer h).text = t → Run.resolve addr ⟨dot, h⟩ 0 s = .ok ⟨r, h⟩ s

/-- Some text is an address that leads to a range. -/
def Denotes (t w : Text) (r : Span) : Prop := ∃ addr, Parser.Written w addr ∧ addr.LeadsTo t r

theorem Addr.LeadsTo.unique {addr : Addr} {r' : Span} (h : addr.LeadsTo t r) (h' : addr.LeadsTo t r') : r = r' := by
  let s : Session := { workspace := { known := [{ text := t }] } }
  have hsame := (h s 0 (.point 0) rfl).symm.trans (h' s 0 (.point 0) rfl)
  injection hsame with htarget
  exact congrArg Target.r htarget

theorem denotes_iff_of_written {addr : Addr} (hw : Parser.Written w addr) : Denotes t w r ↔ addr.LeadsTo t r := by
  constructor
  · rintro ⟨addr',hw',hlead⟩
    rwa [hw.unique hw']
  · exact fun hlead => ⟨addr,hw,hlead⟩

/-- No text is an address of two ranges. -/
theorem Denotes.unique {r' : Span} (h : Denotes t w r) (h' : Denotes t w r') : r = r' := by
  obtain ⟨addr,hw,hlead⟩ := h
  exact hlead.unique ((denotes_iff_of_written hw).mp h')

section
variable {s s' : Session} {a b : Target} {rest : Chain} {sign : Int}

theorem Run.step_line (h : lineAddress n a sign s = .ok b s') :
    step (.line n) rest a sign s = .ok (b, sign) s' := bind_of_ok h

theorem Run.step_char (h : charAddress n a sign s = .ok b s') :
    step (.char n) rest a sign s = .ok (b, sign) s' := bind_of_ok h

theorem Run.resolveChain_cons {step : Step} {sign' : Int}
    (h : Run.step step rest a sign s = .ok (b, sign') s') :
    resolveChain (step :: rest) a sign s = resolveChain rest b sign' s' := bind_of_ok h

theorem Run.lineAddress_eq (hline : Lines.IsLine (s.buffer a.buffer).text n line) :
    lineAddress n a 0 s = .ok ⟨line, a.buffer⟩ s := by
  have hpos : n ≠ 0 := by rw [← hline.number]; omega
  have hlead : Lines.address (s.buffer a.buffer).text n a.r 0 = .ok line := by
    change Lines.absolute _ _ = _
    rwa [Lines.absolute_ok_iff, if_neg hpos]
  rw [lineAddress, bind_of_ok (buffer_eq a.buffer s)]
  simp only [hlead]
  rfl

theorem Run.charAddress_eq {q : Int} (h0 : 0 ≤ q)
    (hq : (if sign = 0 then (n : Int) else if sign < 0 then a.r.q0 - n else a.r.q1 + n) = q) :
    charAddress n a sign s = if q ≤ (s.buffer a.buffer).text.length then .ok ⟨.point q, a.buffer⟩ s
      else .error (.edit .addressOutOfRange) s := by
  rw [charAddress, bind_of_ok (buffer_eq a.buffer s)]
  simp only [Lines.charAddress, hq]
  by_cases hle : q ≤ (s.buffer a.buffer).text.length
  · rw [if_neg (by omega), if_pos hle]
    rfl
  · rw [if_pos (by omega), if_neg hle]
    rfl

end

theorem leadsTo_line (hline : Lines.IsLine t n line) : (Addr.chain [.line n]).LeadsTo t line := by
  rintro s h dot rfl
  exact Run.resolveChain_cons (Run.step_line (Run.lineAddress_eq hline))

theorem leadsTo_char (hq : q ≤ t.length) : (Addr.chain [.char q]).LeadsTo t (.point q) := by
  rintro s h dot rfl
  have haddress : Run.charAddress q ⟨dot, h⟩ 0 s = .ok ⟨.point q, h⟩ s := by
    rw [Run.charAddress_eq (Int.natCast_nonneg q) (if_pos rfl), if_pos (Int.ofNat_le.mpr hq)]
  exact Run.resolveChain_cons (Run.step_char haddress)

theorem leadsTo_range {left : Chain} {right : Addr} {r' : Span} (hl : (Addr.chain left).LeadsTo t r)
    (hr : right.LeadsTo t r') (hle : r.q0 ≤ r'.q1) :
    (Addr.compound (some left) .comma right).LeadsTo t ⟨r.q0, r'.q1⟩ := by
  rintro s h dot ht
  have hleft : Run.resolveLeft (some left) ⟨dot, h⟩ s = .ok ⟨r, h⟩ s := hl s h dot ht
  refine (bind_of_ok hleft).trans ((bind_of_ok (hr s h dot ht)).trans ?_)
  rw [Run.join, if_neg (by simp), if_neg (by simpa using hle)]
  rfl

/-! ## Positions -/

/-- The position of a range in some text is shown as `w`, behind the name of its buffer. -/
structure Printed (t : Text) (r : Span) (mode w : Text) : Prop where
  rendered : Position.render t r mode = .ok w
  shown : ∀ (s : Session) (h : Handle), (s.buffer h).text = t → Run.showPosition ⟨r, h⟩ mode s =
    Run.warn ((if (s.buffer h).name.isEmpty then [] else (s.buffer h).name ++ [':']) ++ w ++ ['\n']) s

theorem printed_of_render {mode : Text} (hmode : mode.length ≤ 1) (hw : Position.render t r mode = .ok w) :
    Printed t r mode w := by
  refine ⟨hw,?_⟩
  rintro s h rfl
  have hread : Run.reading (Position.render (s.buffer h).text r mode) s = .ok w s := by
    rw [hw]
    rfl
  rw [Run.showPosition, if_neg (Nat.not_lt.mpr hmode)]
  exact (bind_of_ok (Run.buffer_eq h s)).trans (bind_of_ok hread)

/-- The last offset that a range covers, or the one where it is, if it is empty. -/
def Span.lastOffset (r : Span) : Int := if r.q0 < r.q1 then r.q1 - 1 else r.q0

theorem Span.Within.exists_nat (hr : r.Within t) : ∃ p q : Nat, r = ⟨p, q⟩ ∧ p ≤ q ∧ q ≤ t.length := by
  obtain ⟨p,q⟩ := r
  obtain ⟨h0,h1,h2⟩ := hr
  dsimp only at h0 h1 h2
  exact ⟨p.toNat,q.toNat,by rw [Int.toNat_of_nonneg h0, Int.toNat_of_nonneg (by omega)],by omega,by omega⟩

theorem denotes_byChars (hr : r.Within t) : Denotes t (Position.byChars r) r := by
  obtain ⟨p,q,rfl,hpq,hq⟩ := hr.exists_nat
  unfold Position.byChars
  dsimp only
  split
  · rename_i heq
    rw [heq, List.append_nil]
    exact ⟨_,(Parser.counted_char p).written,leadsTo_char (Nat.le_trans hpq hq)⟩
  · have hleft := leadsTo_char (Nat.le_trans hpq hq)
    exact ⟨_,(Parser.counted_char p).written_range (Parser.counted_char q),
      leadsTo_range hleft (leadsTo_char hq) (Int.ofNat_le.mpr hpq)⟩

theorem count_take_succ (hk : k < t.length) :
    (t.take (k + 1)).count '\n' = (t.take k).count '\n' + if t[k] = '\n' then 1 else 0 := by
  rw [← List.take_append_getElem hk, List.count_append, List.count_singleton]
  simp

theorem count_take_add_slice {p : Nat} (hpq : p ≤ q) (hq : q ≤ t.length) :
    (t.take p).count '\n' + (t.slice p q).count '\n' = (t.take q).count '\n' := by
  rw [← Text.slice_before (Nat.le_trans hpq hq), ← Text.slice_before hq, ← List.count_append,
    Text.slice_append_slice (Int.le_refl 0) (Int.natCast_nonneg p) (Int.ofNat_le.mpr hpq) (Int.ofNat_le.mpr hq)]

/-- A newline that ends a range is counted with the range, and is taken away again. -/
theorem reached_eq {p : Nat} (hpk : p ≤ k) (hk : k < t.length) :
    (if (t[k] == '\n') = true then ((t.take p).count '\n' : Int) + 1 + ((t.slice p (k + 1 : Nat)).count '\n' : Nat) - 1
      else (t.take p).count '\n' + 1 + ((t.slice p (k + 1 : Nat)).count '\n' : Nat)) = ((t.take k).count '\n' + 1 : Nat) := by
  have hcount := count_take_add_slice (Nat.le_succ_of_le hpk) hk
  rw [Nat.succ_eq_add_one, count_take_succ hk] at hcount
  simp only [beq_iff_eq]
  split at hcount
  · rename_i hc
    rw [if_pos hc]
    omega
  · rename_i hc
    rw [if_neg hc]
    omega

theorem shown_lines (first last : Nat) : Text.ofInt first ++ (if (last : Int) = first then [] else ',' :: Text.ofInt last) =
    Text.ofNat first ++ if last = first then [] else ',' :: Text.ofNat last := by
  simp only [Int.natCast_inj]
  rfl

theorem byLines_eq (hr : r.Within t) :
    let first := (t.slice 0 r.q0).count '\n' + 1
    let last := (t.slice 0 r.lastOffset).count '\n' + 1
    Position.byLines t r = .ok (Text.ofNat first ++ if last = first then [] else ',' :: Text.ofNat last) := by
  obtain ⟨p,q,rfl,hpq,hq⟩ := hr.exists_nat
  unfold Position.byLines Lines.count Span.lastOffset
  dsimp only
  rw [← shown_lines, Text.slice_before (Nat.le_trans hpq hq)]
  rcases Nat.eq_or_lt_of_le hpq with rfl | hlt
  · have hnone : ¬((p : Int) < p) := Int.lt_irrefl _
    rw [if_neg hnone, if_neg hnone, Text.slice_self, Text.slice_before hq]
    simp only [bind, Except.bind, pure, Except.pure, List.count_nil, Bool.false_eq_true, if_false, Int.natCast_zero,
      Int.add_zero]
    rfl
  · obtain ⟨k,rfl⟩ := Nat.exists_eq_add_of_le' (Nat.one_le_of_lt hlt)
    have hpred : ((k + 1 : Nat) : Int) - 1 = k := by omega
    have hchar : t.charAt k = .ok t[k] := by rw [Text.charAt, RawAddress.charAt?_of_lt hq]
    rw [if_pos (Int.ofNat_lt.mpr hlt), if_pos (Int.ofNat_lt.mpr hlt), hpred, hchar, Text.slice_before (Nat.le_of_lt hq)]
    simp only [bind, Except.bind, pure, Except.pure, reached_eq (Nat.lt_succ_iff.mp hlt) hq]
    rfl

theorem Span.lastOffset_bounds (hr : r.Within t) : r.q0 ≤ r.lastOffset ∧ r.lastOffset ≤ t.length := by
  obtain ⟨h0,h1,h2⟩ := hr
  unfold Span.lastOffset
  split <;> omega

theorem denotes_byLines {first last : Span} (hr : r.Within t) (hfirst : Lines.LineAt t r.q0 first)
    (hlast : Lines.LineAt t r.lastOffset last) :
    ∃ w, Position.byLines t r = .ok w ∧ Denotes t w ⟨first.q0, last.q1⟩ := by
  refine ⟨_,byLines_eq hr,?_⟩
  have hleft := hfirst.number
  have hright := hlast.number
  split
  · rename_i hsame
    rw [hsame] at hright
    rw [hright.unique hleft, List.append_nil]
    exact ⟨_,(Parser.counted_line _).written,leadsTo_line hleft⟩
  · have hstart := hfirst.start
    have hend := hlast.stop
    have hbetween := (r.lastOffset_bounds hr).1
    exact ⟨_,(Parser.counted_line _).written_range (Parser.counted_line _),
      leadsTo_range (leadsTo_line hleft) (leadsTo_line hright) (by omega)⟩

/-- What is shown of a range in the text is an address of it: by characters of the range itself, and by lines of
the lines from the one it begins in to the one its last character is in. -/
theorem position_denotes (hr : r.Within t) :
    (∃ w, Printed t r ['#'] w ∧ Denotes t w r) ∧
    ∃ w first last, Printed t r [] w ∧ Lines.LineAt t r.q0 first ∧ Lines.LineAt t r.lastOffset last ∧
      Denotes t w ⟨first.q0, last.q1⟩ := by
  constructor
  · exact ⟨_,printed_of_render (Nat.le_refl 1) (by rw [Position.render, if_pos rfl]),denotes_byChars hr⟩
  · have hstart := hr.start
    have hlast := r.lastOffset_bounds hr
    obtain ⟨first,hfirst,-⟩ := Lines.exists_lineAt (t := t) (q := r.q0.toNat) (by omega)
    obtain ⟨last,hlast,-⟩ := Lines.exists_lineAt (t := t) (q := r.lastOffset.toNat) (by omega)
    rw [Int.toNat_of_nonneg (by omega)] at hfirst hlast
    obtain ⟨w,hw,hdenotes⟩ := denotes_byLines hr hfirst hlast
    refine ⟨w,first,last,printed_of_render (Nat.zero_le 1) ?_,hfirst,hlast,hdenotes⟩
    rw [Position.render, if_neg (by decide), if_neg (by decide), hw]

/-- A range that ends with the newline of its line. -/
theorem position_denotes_to_newline : (⟨1, 4⟩ : Span).Within "one\ntwo\n".toList ∧
    Denotes "one\ntwo\n".toList "#1,#4".toList ⟨1, 4⟩ ∧ Denotes "one\ntwo\n".toList "1".toList ⟨0, 4⟩ := by
  have hr : (⟨1, 4⟩ : Span).Within "one\ntwo\n".toList := by decide
  have hline {q : Int} (h0 : 0 ≤ q) (hq : q ≤ 4) (hnone : '\n' ∉ Text.slice "one\ntwo\n".toList 0 q) :
      Lines.LineAt "one\ntwo\n".toList q ⟨0, 4⟩ :=
    ⟨⟨1,Lines.isLine_iff.mpr ⟨0,rfl,by decide⟩⟩,h0,hq,hnone⟩
  obtain ⟨⟨w,hw,hchars⟩,w',first,last,hw',hfirst,hlast,hlines⟩ := position_denotes hr
  obtain rfl := hfirst.unique (hline (by decide) (by decide) (by decide))
  obtain rfl := hlast.unique (hline (by decide) (by decide) (by decide))
  obtain rfl : "#1,#4".toList = w := Except.ok.inj hw.rendered
  obtain rfl : "1".toList = w' := Except.ok.inj hw'.rendered
  exact ⟨hr,hchars,hlines⟩

/-! ## Positions by line and characters -/

theorem resolve_line_char (hline : Lines.IsLine t n line) (m : Nat) {s : Session} {h : Handle} (dot : Span)
    (ht : (s.buffer h).text = t) : Run.resolve (.chain [.line n, .plus, .char m]) ⟨dot, h⟩ 0 s =
      if line.q1 + m ≤ t.length then .ok ⟨.point (line.q1 + m), h⟩ s else .error (.edit .addressOutOfRange) s := by
  subst ht
  have h0 : 0 ≤ line.q1 + m := by
    have hwithin := hline.within
    have hstart := hwithin.start
    have hordered := hwithin.ordered
    omega
  have hplus : Run.step .plus [.char m] ⟨line, h⟩ 0 s = .ok (⟨line, h⟩, 1) s := rfl
  refine (Run.resolveChain_cons (Run.step_line (Run.lineAddress_eq hline))).trans ?_
  refine (Run.resolveChain_cons hplus).trans ?_
  have haddress : Run.charAddress m ⟨line, h⟩ 1 s = _ := Run.charAddress_eq h0 rfl
  by_cases hle : line.q1 + m ≤ (s.buffer h).text.length
  · rw [if_pos hle] at haddress ⊢
    exact Run.resolveChain_cons (Run.step_char haddress)
  · rw [if_neg hle] at haddress ⊢
    have hchar : (do return (← Run.charAddress m ⟨line, h⟩ 1, 1) : Run (Target × Int)) s = _ := bind_of_error haddress
    exact bind_of_error hchar

/-- A line and characters are shown as an address that counts the characters from the end of the line. So of a
place in the text it is one only if the line there is empty; other places it misses by the length of their line. -/
theorem byLineAndChars_denotes_iff {q : Int} (h0 : 0 ≤ q) (hq : q ≤ t.length) :
    ∃ w line addr, Printed t (.point q) ['+'] w ∧ Lines.LineAt t q line ∧ Parser.Written w addr ∧
      (∀ (s : Session) h dot, (s.buffer h).text = t → Run.resolve addr ⟨dot, h⟩ 0 s =
        if q + (line.q1 - line.q0) ≤ t.length then .ok ⟨.point (q + (line.q1 - line.q0)), h⟩ s
        else .error (.edit .addressOutOfRange) s) ∧
      (Denotes t w (.point q) ↔ line.q0 = line.q1) := by
  obtain ⟨q,rfl⟩ := Int.eq_ofNat_of_zero_le h0
  obtain ⟨line,hline,hcolumn⟩ := Lines.exists_lineAt (Int.ofNat_le.mp hq)
  have hnumber := hline.number
  rw [Text.slice_before (Int.ofNat_le.mp hq)] at hnumber
  have hrender : Position.render t (.point q) ['+'] = .ok (Text.ofNat ((t.take q).count '\n' + 1) ++ "+#".toList ++
      Text.ofNat (Lines.count (t.take q)).2) := by
    rw [Position.render, if_neg (by decide), if_pos rfl, Position.byLineAndChars, Span.point,
      Text.slice_before (Int.ofNat_le.mp hq), Text.slice_self]
    exact congrArg Except.ok (List.append_nil _)
  have hwritten := Parser.written_line_char ((t.take q).count '\n' + 1) (Lines.count (t.take q)).2
  have hlead (s : Session) (h : Handle) (dot : Span) (ht : (s.buffer h).text = t) := resolve_line_char hnumber
    (Lines.count (t.take q)).2 dot ht
  have htarget : line.q1 + (Lines.count (t.take q)).2 = q + (line.q1 - line.q0) := by omega
  simp only [htarget] at hlead
  refine ⟨_,line,_,printed_of_render (Nat.le_refl 1) hrender,hline,hwritten,hlead,?_⟩
  rw [denotes_iff_of_written hwritten]
  constructor
  · intro hto
    let s : Session := { workspace := { known := [{ text := t }] } }
    have hpoint := (hlead s 0 (.point 0) rfl).symm.trans (hto s 0 (.point 0) rfl)
    split at hpoint
    · injection hpoint with hsame
      have hq0 : (q : Int) + (line.q1 - line.q0) = q := congrArg (fun a => a.r.q0) hsame
      omega
    · cases hpoint
  · intro hempty s h dot ht
    have hsame : (q : Int) + (line.q1 - line.q0) = q := by omega
    rw [hlead s h dot ht, hsame, if_pos hq]

/-- Behind the last newline. -/
theorem byLineAndChars_denotes_iff_end : (3 : Int) ≤ ("ab\n".toList : Text).length ∧
    Denotes "ab\n".toList "2+#0".toList (.point 3) := by
  have hend : (3 : Int) ≤ ("ab\n".toList : Text).length := by decide
  have hlast : Lines.LineAt "ab\n".toList 3 ⟨3, 3⟩ :=
    ⟨⟨2,Lines.isLine_iff.mpr ⟨3,rfl,by decide⟩⟩,by decide,by decide,by decide⟩
  obtain ⟨w,line,addr,hw,hline,-,-,hdenotes⟩ := byLineAndChars_denotes_iff (by decide) hend
  obtain rfl := hline.unique hlast
  obtain rfl : "2+#0".toList = w := Except.ok.inj hw.rendered
  exact ⟨hend,hdenotes.mpr rfl⟩

/-- The start of the text is shown as an address that leads to the start of the second line. -/
theorem byLineAndChars_misleads : Printed "ab\ncd\n".toList (.point 0) ['+'] "1+#0".toList ∧
    Denotes "ab\ncd\n".toList "1+#0".toList (.point 3) ∧ ¬Denotes "ab\ncd\n".toList "1+#0".toList (.point 0) := by
  have hline : Lines.IsLine "ab\ncd\n".toList 1 ⟨0, 3⟩ := Lines.isLine_iff.mpr ⟨0,rfl,by decide⟩
  have hlead : (Addr.chain [.line 1, .plus, .char 0]).LeadsTo "ab\ncd\n".toList (.point 3) := by
    intro s h dot ht
    exact (resolve_line_char hline 0 dot ht).trans (if_pos (by decide))
  have hdenotes : Denotes "ab\ncd\n".toList "1+#0".toList (.point 3) := ⟨_,Parser.written_line_char 1 0,hlead⟩
  refine ⟨printed_of_render (Nat.le_refl 1) (by decide),hdenotes,fun hstart => ?_⟩
  cases hstart.unique hdenotes

end StructuralEdit
