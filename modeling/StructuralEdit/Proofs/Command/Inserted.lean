import StructuralEdit.Proofs.Command.Lookahead

/-! # Writing the text of an insertion

Any text can be inserted. Between delimiters it is written with backslashes in front of backslashes
and delimiters, and with newlines spelled out. On lines of its own it stands as it is, if it consists
of whole lines and none of them is a single dot.
-/
namespace StructuralEdit.Parser
variable {a d : Char} {t u : Text}

/-! ## Between delimiters -/

/-- How a character is written between delimiters. -/
def escape (d a : Char) : Text :=
  if a = '\n' then ['\\', 'n'] else if a = '\\' ∨ a = d then ['\\', a] else [a]

def escaped (d : Char) (t : Text) : Text := t.flatMap (escape d)

theorem isDelimiter_ne (hd : isDelimiter d = true) : d ≠ '\\' ∧ d ≠ 'n' := by
  constructor <;> rintro rfl <;> revert hd <;> decide

/-- A character is read back from the way it is written. -/
theorem rightSidePiece_escape (hd : isDelimiter d = true) (a : Char) (t : Text) :
    rightSidePiece [d] false (escape d a ++ t) = (rightSidePiece [d] false t).cons [a] (escape d a).length := by
  obtain ⟨hback,hn⟩ := isDelimiter_ne hd
  unfold escape
  split
  · rename_i hline
    simp [rightSidePiece, hback.symm, hline]
  rename_i hline
  split
  · -- A backslash is read in front of a backslash or the delimiter, and is dropped.
    rename_i hkept
    rcases hkept with rfl | rfl
    · simp [rightSidePiece, hback.symm]
    · simp [rightSidePiece, hback.symm, hline, hn]
  · rename_i hplain
    rw [not_or] at hplain
    exact rightSidePiece_plain (by simp [hline, hplain.2]) (by simp [hplain.1]) t

theorem rightSidePiece_escaped (hd : isDelimiter d = true) (t u : Text) :
    rightSidePiece [d] false (escaped d t ++ d :: u) = { text := t, used := (escaped d t).length } := by
  induction t with
  | nil => exact rightSidePiece_stop (by simp) u
  | cons a t ih =>
    rw [escaped, List.flatMap_cons, List.append_assoc, rightSidePiece_escape hd, ← escaped, ih, List.length_append]
    rfl

section
variable {before last : Text}

theorem advance_append (before w t last : Text) : ({ before, rest := w ++ t, last } : Cursor).advance w.length =
    { before := w.reverse ++ before, rest := t, last } := by
  simp [Cursor.advance]

theorem takeWhile_none {p : Char → Bool} (ha : p a = false) :
    takeWhile p { before, rest := a :: t, last } = .ok [] { before, rest := a :: t, last } := by
  have hnone : (a :: t).takeWhile p = [] := List.takeWhile_cons_of_neg (by simp [ha])
  change EStateM.Result.ok ((a :: t).takeWhile p) (Cursor.advance _ ((a :: t).takeWhile p).length) = _
  rw [hnone]
  rfl

/-- What is at the cursor is shown, if it is no space or tab. -/
theorem skipPads_eq (ha : Text.isPad a = false) :
    skipPads { before, rest := a :: t, last } = .ok (some a) { before, rest := a :: t, last } := by
  rw [skipPads, bind_of_ok (takeWhile_none ha)]
  rfl

theorem getChar_cons :
    getChar { before, rest := a :: t, last } = .ok (some a) { before := a :: before, rest := t, last } := rfl

theorem peek_cons : peek { before, rest := a :: t, last } = .ok (some a) { before, rest := a :: t, last } := rfl

theorem endLine_eq :
    endLine { before, rest := '\n' :: t, last } = .ok () { before := '\n' :: before, rest := t, last } := by
  rw [endLine, bind_of_ok (skipPads_eq rfl), bind_of_ok getChar_cons]
  rfl

/-- A piece of the text to come is taken in as far as it was written. -/
theorem takePiece_eq {piece : Text → Piece} {p : Piece} {w : Text} (h : piece (w ++ u) = p)
    (hused : p.used = w.length) : takePiece piece { before, rest := w ++ u, last } =
      .ok p { before := w.reverse ++ before, rest := u, last } := by
  change EStateM.Result.ok (piece (w ++ u)) (Cursor.advance _ (piece (w ++ u)).used) = _
  rw [h, hused, advance_append]

theorem rightSide_eq {delim : Delimiter} {replacement : Bool} {w : Text}
    (h : rightSidePiece delim replacement (w ++ u) = { text := t, used := w.length }) :
    rightSide delim replacement { before, rest := w ++ u, last } =
      .ok t { before := w.reverse ++ before, rest := u, last } := by
  rw [rightSide, bind_of_ok (takePiece_eq h rfl)]
  rfl

theorem rightSide_escaped (hd : isDelimiter d = true) (t u : Text) :
    rightSide [d] false { before, rest := escaped d t ++ d :: u, last } =
      .ok t { before := (escaped d t).reverse ++ before, rest := d :: u, last } :=
  rightSide_eq (rightSidePiece_escaped hd t u)

/-- The text between delimiters is taken in with the rest of its line. -/
theorem insertedText_delimited (before last : Text) (hd : isDelimiter d = true) (hpad : Text.isPad d = false)
    (hline : d ≠ '\n') (t u : Text) : insertedText { before, rest := d :: (escaped d t ++ d :: '\n' :: u), last } =
      .ok t { before := '\n' :: d :: ((escaped d t).reverse ++ d :: before), rest := u, last } := by
  rw [insertedText, bind_of_ok (skipPads_eq hpad), if_neg (by simpa using hline), bind_of_ok getChar_cons]
  dsimp only
  rw [if_neg (by simp [hd]), bind_of_ok (rightSide_escaped hd t _), bind_of_ok peek_cons, if_pos (by simp),
    bind_of_ok getChar_cons, bind_of_ok endLine_eq]
  rfl

end

/-! ## On lines of its own -/

/-- Whole lines are taken in up to the one that is a single dot. -/
theorem linesPiece_lines (t u : Text) (hlast : t = [] ∨ t.getLast? = some '\n')
    (hdot : ['.'] ∉ t.splitOn '\n') : linesPiece (t ++ '.' :: '\n' :: u) = { text := t, used := t.length + 2 } := by
  by_cases hmem : '\n' ∈ t
  · -- The first line is not the dot, and what is left consists of the other lines.
    obtain ⟨line,rest,rfl,hline⟩ := List.eq_append_cons_of_mem hmem
    have hsplit : (line ++ '\n' :: rest).splitOn '\n' = line :: rest.splitOn '\n' := by
      refine List.splitOnP_append_cons_of_forall_mem (fun a ha => ?_) _ rfl _
      simpa using ne_of_mem_of_not_mem ha hline
    rw [hsplit, List.mem_cons, not_or] at hdot
    have hrest : rest = [] ∨ rest.getLast? = some '\n' := by
      cases rest with
      | nil => exact .inl rfl
      | cons a rest => exact .inr (by simpa using hlast)
    have ih := linesPiece_lines rest u hrest hdot.2
    rw [List.append_assoc, List.cons_append, linesPiece_line hline, if_neg fun h => hdot.1 h.symm, ih]
    simp [Piece.cons]
    omega
  · obtain rfl : t = [] := hlast.resolve_right fun h => hmem (List.mem_of_getLast? h)
    have hstop : '\n' ∉ ['.'] := by decide
    exact (linesPiece_line hstop u).trans (if_pos rfl)
termination_by t.length

theorem insertedText_lines (before last : Text) {t : Text} (hlast : t = [] ∨ t.getLast? = some '\n')
    (hdot : ['.'] ∉ t.splitOn '\n') (u : Text) :
    insertedText { before, rest := '\n' :: (t ++ '.' :: '\n' :: u), last } =
      .ok t { before := '\n' :: '.' :: (t.reverse ++ '\n' :: before), rest := u, last } := by
  have htake : takePiece linesPiece { before := '\n' :: before, rest := t ++ '.' :: '\n' :: u, last } =
      .ok { text := t, used := t.length + 2 }
        { before := '\n' :: '.' :: (t.reverse ++ '\n' :: before), rest := u, last } := by
    have hlines : linesPiece (t ++ ['.', '\n'] ++ u) = { text := t, used := t.length + 2 } := by
      simpa using linesPiece_lines t u hlast hdot
    simpa using takePiece_eq hlines (by simp)
  rw [insertedText, bind_of_ok (skipPads_eq rfl), if_pos (by simp), bind_of_ok getChar_cons, bind_of_ok htake]
  rfl

/-! ## The command -/

section
variable {before last : Text}

/-- Neither a step nor a separator begins with this character. -/
def NoAddress (a : Char) : Prop :=
  Text.isPad a = false ∧ Text.isDigit a = false ∧ a ∉ ['#', '/', '?', '"', '.', '$', '+', '-', '\'', ',', ';']

instance (a : Char) : Decidable (NoAddress a) := inferInstanceAs (Decidable (_ ∧ _))

theorem address_none (ha : NoAddress a) :
    address { before, rest := a :: t, last } = .ok none { before, rest := a :: t, last } := by
  obtain ⟨hpad,hdigit,ha⟩ := ha
  simp only [List.mem_cons, List.not_mem_nil, or_false, not_or] at ha
  obtain ⟨hchar,hforward,hbackward,hfile,hdot,hlast,hplus,hminus,hmark,hcomma,hsemicolon⟩ := ha
  have hstep : step { before, rest := a :: t, last } = .ok none { before, rest := a :: t, last } := by
    rw [step, bind_of_ok (skipPads_eq hpad)]
    simp only [hdigit, hchar, hforward, hbackward, hfile, hdot, hlast, hplus, hminus, hmark, beq_iff_eq,
      Bool.or_eq_true, Bool.false_eq_true, or_false, if_false]
    rfl
  have hchain : chain { before, rest := a :: t, last } = .ok [] { before, rest := a :: t, last } := by
    rw [chain_eq, chainWith, bind_of_ok hstep]
    rfl
  rw [address_eq, addressWith, bind_of_ok hchain, bind_of_ok (skipPads_eq hpad),
    if_pos (by simp [hcomma, hsemicolon])]
  rfl

/-- A command without an address is told by its letter, unless `cd` is read. -/
theorem command_letter (ha : NoAddress a) (hcd : a = 'c' → t.head? ≠ some 'd') :
    command { before, rest := a :: t, last } =
      behindLetter 0 (commandAt 0) (children 0) none [a] { before := a :: before, rest := t, last } := by
  have hletter : letter { before, rest := a :: t, last } = .ok (some [a]) { before := a :: before, rest := t, last } := by
    have hpeek : peek { before := a :: before, rest := t, last } = .ok t.head? { before := a :: before, rest := t, last } :=
      rfl
    rw [letter, bind_of_ok getChar_cons]
    dsimp only
    rw [bind_of_ok hpeek, if_neg (by simpa using hcd)]
    rfl
  refine (congrFun (commandAt_eq 0) _).trans ?_
  rw [commandWith, bind_of_ok (address_none ha), bind_of_ok (skipPads_eq ha.1), if_neg (by simp),
    bind_of_ok hletter]

/-- Behind the letter of an insertion its text is read. -/
theorem command_inserting {action : Text → Action} {e : Cursor}
    (ha : (a, action) ∈ [('a', Action.append), ('i', .insert), ('c', .change)]) (hd : d ≠ 'd')
    (htext : insertedText { before := a :: before, rest := d :: u, last } = .ok t e) :
    command { before, rest := a :: d :: u, last } = .ok (some (.act none (action t))) e := by
  simp only [List.mem_cons, Prod.mk.injEq, List.not_mem_nil, or_false] at ha
  have hletter : NoAddress a := by
    rcases ha with ⟨rfl,-⟩ | ⟨rfl,-⟩ | ⟨rfl,-⟩ <;> decide
  have hbehind : behindLetter 0 (commandAt 0) (children 0) none [a] =
      (do return some (.act none (action (← insertedText)))) := by
    rcases ha with ⟨rfl,rfl⟩ | ⟨rfl,rfl⟩ | ⟨rfl,rfl⟩ <;> rfl
  rw [command_letter hletter fun _ => by simpa using hd, hbehind]
  exact bind_of_ok htext

end

/-- Any text can be inserted, and is read back exactly: between delimiters, if it is written with
escapes, and on lines of its own as it is, if it consists of lines that are not a single dot. -/
theorem command_inserted (a : Char) (action : Text → Action) (before t u last : Text)
    (ha : (a, action) ∈ [('a', Action.append), ('i', .insert), ('c', .change)]) :
    (∀ d, isDelimiter d = true → d ∉ [' ', '\t', '\n'] →
      command { before, rest := a :: d :: escaped d t ++ [d, '\n'] ++ u, last } = .ok (some (.act none (action t)))
        { before := (a :: d :: escaped d t ++ [d, '\n']).reverse ++ before, rest := u, last }) ∧
    ((t = [] ∨ t.getLast? = some '\n') → ['.'] ∉ t.splitOn '\n' →
      command { before, rest := a :: '\n' :: t ++ ['.', '\n'] ++ u, last } = .ok (some (.act none (action t)))
        { before := (a :: '\n' :: t ++ ['.', '\n']).reverse ++ before, rest := u, last }) := by
  refine ⟨fun d hd hblank => ?_,fun hlast hdot => ?_⟩
  · simp only [List.mem_cons, List.not_mem_nil, or_false, not_or] at hblank
    obtain ⟨hspace,htab,hline⟩ := hblank
    have hpad : Text.isPad d = false := by simp [Text.isPad, hspace, htab]
    have hletter : d ≠ 'd' := by
      rintro rfl
      revert hd
      decide
    have htext := insertedText_delimited (a :: before) last hd hpad hline t u
    simpa using command_inserting ha hletter htext
  · have htext := insertedText_lines (a :: before) last hlast hdot u
    simpa using command_inserting ha (by decide) htext

/-- A newline, a backslash and the delimiter itself, and a line that only begins with a dot. -/
theorem command_inserted_dots :
    command { rest := "c/\\n\\\\\\//\nd\n".toList } =
      .ok (some (.act none (.change ['\n', '\\', '/'])))
        { before := "c/\\n\\\\\\//\n".toList.reverse, rest := ['d', '\n'] } ∧
    command { rest := "i\n..\n.\n".toList } =
      .ok (some (.act none (.insert "..\n".toList))) { before := "i\n..\n.\n".toList.reverse, rest := [] } := by
  constructor
  · exact (command_inserted 'c' .change [] ['\n', '\\', '/'] ['d', '\n'] [] (by simp)).1 '/' (by decide) (by decide)
  · exact (command_inserted 'i' .insert [] "..\n".toList [] [] (by simp)).2 (.inr (by decide)) (by decide)

end StructuralEdit.Parser
