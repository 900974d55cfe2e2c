import StructuralEdit.Proofs.Command.Inserted
import StructuralEdit.Search.Replacement

/-! # Writing patterns and replacements

Any pattern can stand between delimiters: those in it get a backslash, and all else is written as it
is. Any text can stand in a replacement and mean itself there, whatever is matched. Its backslashes
and ampersands are read twice, by the reader of the command, which keeps the backslash in front of
them, and where the replacement is filled in, which drops it.
-/
namespace StructuralEdit.Parser
variable {a d : Char} {t u before last : Text}

/-! ## Patterns -/

/-- A character of a pattern, or one with a backslash in front that is no delimiter. -/
inductive PatternUnit (d : Char)
  | plain (a : Char) (hback : a ≠ '\\') (hline : a ≠ '\n')
  | escape (a : Char) (hdelim : a ≠ d) (hline : a ≠ '\n')

namespace PatternUnit

def text : PatternUnit d → Text
  | plain a .. => [a]
  | escape a .. => ['\\', a]

/-- How a unit is written between delimiters. -/
def written : PatternUnit d → Text
  | plain a .. => if a = d then ['\\', a] else [a]
  | escape a .. => ['\\', a]

theorem text_ne_nil (x : PatternUnit d) : x.text ≠ [] := by
  cases x <;> exact List.cons_ne_nil _ _

end PatternUnit

/-- A unit is read back from the way it is written. -/
theorem patternPiece_unit (hd : isDelimiter d = true) (x : PatternUnit d) (t : Text) :
    patternPiece [d] (x.written ++ t) = (patternPiece [d] t).cons x.text x.written.length := by
  obtain ⟨hback,-⟩ := isDelimiter_ne hd
  cases x with
  | plain a ha hline =>
    unfold PatternUnit.text PatternUnit.written
    by_cases hdelim : a = d
    · simp [patternPiece, hdelim]
    · simp [patternPiece_cons, hdelim, ha, hline]
  | escape a hdelim hline => simp [patternPiece, PatternUnit.text, PatternUnit.written, hdelim, hline]

theorem patternPiece_units (hd : isDelimiter d = true) (hline : d ≠ '\n') (xs : List (PatternUnit d)) (u : Text) :
    patternPiece [d] (xs.flatMap PatternUnit.written ++ d :: u) =
      { text := xs.flatMap PatternUnit.text, used := (xs.flatMap PatternUnit.written).length + 1 } := by
  obtain ⟨hback,-⟩ := isDelimiter_ne hd
  induction xs with
  | nil => simp [patternPiece_cons, hback, hline]
  | cons x xs ih =>
    rw [List.flatMap_cons, List.append_assoc, patternPiece_unit hd, ih, List.flatMap_cons, List.length_append,
      Nat.add_assoc]
    rfl

/-- What is taken in is the pattern, and is remembered, if it is not empty. -/
theorem pattern_eq {delim : Delimiter} {w : Text} (h : patternPiece delim (w ++ u) = { text := t, used := w.length })
    (ht : t ≠ []) : pattern delim { before, rest := w ++ u, last } =
      .ok t { before := w.reverse ++ before, rest := u, last := t } := by
  obtain ⟨a,t,rfl⟩ := List.exists_cons_of_ne_nil ht
  rw [pattern, bind_of_ok (takePiece_eq h rfl)]
  rfl

theorem flatMap_text_ne_nil {xs : List (PatternUnit d)} (hxs : xs ≠ []) : xs.flatMap PatternUnit.text ≠ [] := by
  obtain ⟨x,xs,rfl⟩ := List.exists_cons_of_ne_nil hxs
  exact List.append_ne_nil_of_left_ne_nil x.text_ne_nil _

theorem pattern_units (hd : isDelimiter d = true) (hline : d ≠ '\n') {xs : List (PatternUnit d)} (hxs : xs ≠ [])
    (u : Text) : pattern [d] { before, rest := xs.flatMap PatternUnit.written ++ d :: u, last } =
      .ok (xs.flatMap PatternUnit.text)
        { before := d :: ((xs.flatMap PatternUnit.written).reverse ++ before), rest := u
          last := xs.flatMap PatternUnit.text } := by
  have hpiece : patternPiece [d] (xs.flatMap PatternUnit.written ++ [d] ++ u) =
      { text := xs.flatMap PatternUnit.text, used := (xs.flatMap PatternUnit.written ++ [d]).length } := by
    simpa using patternPiece_units hd hline xs u
  simpa using pattern_eq hpiece (flatMap_text_ne_nil hxs)

/-- Any pattern can be written between delimiters. It is read back exactly, up to the delimiter, and is
the one to remember; so in a step of an address. -/
theorem pattern_delimited (d : Char) (hd : isDelimiter d = true) (hline : d ≠ '\n') (xs : List (PatternUnit d))
    (hxs : xs ≠ []) (before last u : Text) :
    let re := xs.flatMap PatternUnit.text
    let written := xs.flatMap PatternUnit.written
    pattern [d] { before, rest := written ++ d :: u, last } =
        .ok re { before := d :: (written.reverse ++ before), rest := u, last := re } ∧
      ∀ make, (d, make) ∈ [('/', Step.forward), ('?', .backward), ('"', .file)] →
        step { before, rest := d :: (written ++ d :: u), last } =
          .ok (some (make re)) { before := d :: (written.reverse ++ d :: before), rest := u, last := re } := by
  intro re written
  refine ⟨pattern_units hd hline hxs u,fun make hmake => ?_⟩
  simp only [List.mem_cons, Prod.mk.injEq, List.not_mem_nil, or_false] at hmake
  rcases hmake with ⟨rfl,rfl⟩ | ⟨rfl,rfl⟩ | ⟨rfl,rfl⟩
  all_goals
    rw [step, bind_of_ok (skipPads_eq rfl)]
    exact (bind_of_ok getChar_cons).trans (bind_of_ok (pattern_units hd hline hxs u))

/-- A delimiter behind an escaped backslash is not escaped by it, so it gets a backslash of its own. -/
theorem pattern_delimited_slash :
    isDelimiter '/' = true ∧
    pattern ['/'] { rest := "\\\\\\/\\d/p".toList, last := ['x'] } =
      .ok "\\\\/\\d".toList { before := "\\\\\\/\\d/".toList.reverse, rest := ['p'], last := "\\\\/\\d".toList } ∧
    step { rest := "/\\\\\\/\\d/p".toList, last := ['x'] } =
      .ok (some (.forward "\\\\/\\d".toList))
        { before := "/\\\\\\/\\d/".toList.reverse, rest := ['p'], last := "\\\\/\\d".toList } := by
  obtain ⟨hpattern,hstep⟩ := pattern_delimited '/' (by decide) (by decide)
    [.escape '\\' (by decide) (by decide), .plain '/' (by decide) (by decide), .escape 'd' (by decide) (by decide)]
    (by simp) [] ['x'] ['p']
  exact ⟨by decide,hpattern,hstep .forward (by simp)⟩

/-! ## Replacements -/

/-- How a character that is to mean itself is written in a replacement. -/
def literal (d a : Char) : Text := if a = '&' then ['\\', '&'] else escape d a

/-- What the reader of the command makes of that. -/
def template (a : Char) : Text := if a = '\\' ∨ a = '&' then ['\\', a] else [a]

theorem rightSidePiece_literal (hd : isDelimiter d = true) (hamp : d ≠ '&') (a : Char) (t : Text) :
    rightSidePiece [d] true (literal d a ++ t) =
      (rightSidePiece [d] true t).cons (template a) (literal d a).length := by
  obtain ⟨hback,hn⟩ := isDelimiter_ne hd
  unfold literal escape template
  -- The ampersand, the newline, the backslash and the delimiter, and all others.
  split
  · rename_i h
    simp [rightSidePiece, hback.symm, hamp.symm, h]
  rename_i hplain
  split
  · rename_i hline
    simp [rightSidePiece, hback.symm, hline]
  rename_i hline
  split
  · rename_i hkept
    rcases hkept with rfl | rfl
    · simp [rightSidePiece, hback.symm]
    · simp [rightSidePiece, hback, hback.symm, hamp, hline, hn]
  · rename_i hkept
    rw [not_or] at hkept
    rw [if_neg (by simp [hkept.1, hplain])]
    exact rightSidePiece_plain (by simp [hline, hkept.2]) (by simp [hkept.1]) t

theorem rightSidePiece_literals (hd : isDelimiter d = true) (hamp : d ≠ '&') (t u : Text) :
    rightSidePiece [d] true (t.flatMap (literal d) ++ d :: u) =
      { text := t.flatMap template, used := (t.flatMap (literal d)).length } := by
  induction t with
  | nil => exact rightSidePiece_stop (by simp) u
  | cons a t ih =>
    rw [List.flatMap_cons, List.append_assoc, rightSidePiece_literal hd hamp, ih, List.flatMap_cons,
      List.length_append]
    rfl

theorem expand_plain (text : Text) (groups : List Span) (hback : a ≠ '\\') (hamp : a ≠ '&') (t : Text) :
    Replacement.expand text groups (a :: t) = a :: Replacement.expand text groups t := by
  conv => lhs; unfold Replacement.expand
  rw [if_neg (by simp [hback]), if_neg (by simp [hamp])]

/-- A character comes out of the replacement as it went in. -/
theorem expand_template (text : Text) (groups : List Span) (a : Char) (t : Text) :
    Replacement.expand text groups (template a ++ t) = a :: Replacement.expand text groups t := by
  unfold template
  split
  · rename_i h
    rcases h with rfl | rfl <;> simp [Replacement.expand, Text.isDigit]
  · rename_i h
    rw [not_or] at h
    exact expand_plain text groups h.1 h.2 t

theorem expand_templates (text : Text) (groups : List Span) (t : Text) :
    Replacement.expand text groups (t.flatMap template) = t := by
  induction t with
  | nil => rfl
  | cons a t ih => rw [List.flatMap_cons, expand_template, ih]

/-! ## Substitutions -/

theorem isDigit_of_delimiter (hd : isDelimiter d = true) : Text.isDigit d = false := by
  by_contra hdigit
  simp only [Text.isDigit, Bool.not_eq_false, Bool.and_eq_true, decide_eq_true_eq] at hdigit
  have h0 : '0'.toNat ≤ d.toNat := hdigit.1
  have h9 : d.toNat ≤ '9'.toNat := hdigit.2
  have hnumeric : Text.inRanges d.toNat Text.numericRanges = true := by
    rw [Text.numericRanges, Text.inRanges, if_neg (by simpa using h0), if_pos (by simpa using h9)]
  simp [isDelimiter, Text.isAlphanumeric, hnumeric] at hd

theorem unsigned_none (ha : Text.isDigit a = false) :
    unsigned { before, rest := a :: t, last } = .ok 1 { before, rest := a :: t, last } := by
  rw [unsigned, bind_of_ok (takeWhile_none ha)]
  rfl

/-- The flag of a substitution that replaces all matches. -/
def flag (all : Bool) : Text := if all then ['g'] else []

theorem patternArguments_substituting (hd : isDelimiter d = true) (hfree : d ∉ [' ', '\t', '\n', '&'])
    {xs : List (PatternUnit d)} (hxs : xs ≠ []) (t : Text) (all : Bool) (u : Text) :
    patternArguments 's' { count := 1 } { before, rest := d :: (xs.flatMap PatternUnit.written ++ d ::
        (t.flatMap (literal d) ++ d :: (flag all ++ '\n' :: u))), last } =
      .ok { count := 1, re := xs.flatMap PatternUnit.text, replacement := t.flatMap template, all }
        { before := (flag all).reverse ++ d :: ((t.flatMap (literal d)).reverse ++
            d :: ((xs.flatMap PatternUnit.written).reverse ++ d :: before))
          rest := '\n' :: u, last := xs.flatMap PatternUnit.text } := by
  simp only [List.mem_cons, List.not_mem_nil, or_false, not_or] at hfree
  obtain ⟨hspace,htab,hline,hamp⟩ := hfree
  have hpad : Text.isPad d = false := by simp [Text.isPad, hspace, htab]
  rw [patternArguments, bind_of_ok peek_cons, if_neg (by simp), bind_of_ok (skipPads_eq hpad),
    bind_of_ok getChar_cons]
  dsimp only
  rw [if_neg (by simp [hline]), if_neg (by simp [hd]), bind_of_ok (pattern_units hd hline hxs _)]
  rw [if_neg (by simp), bind_of_ok (rightSide_eq (rightSidePiece_literals hd hamp t _)), bind_of_ok peek_cons,
    if_neg (by simp), bind_of_ok getChar_cons]
  cases all
  · rw [flag, if_neg (by simp), List.nil_append, bind_of_ok peek_cons]
    rfl
  · rfl

/-- A substitution is read with its pattern and its replacement, and with the flag if it is there. -/
theorem command_substituting (hd : isDelimiter d = true) (hfree : d ∉ [' ', '\t', '\n', '&'])
    {xs : List (PatternUnit d)} (hxs : xs ≠ []) (t : Text) (all : Bool) (u : Text) :
    command { before, rest := 's' :: d :: (xs.flatMap PatternUnit.written ++ d ::
        (t.flatMap (literal d) ++ d :: (flag all ++ '\n' :: u))), last } =
      .ok (some (.act none (.substitute (xs.flatMap PatternUnit.text) 1 (t.flatMap template) all)))
        { before := '\n' :: ((flag all).reverse ++ d :: ((t.flatMap (literal d)).reverse ++
            d :: ((xs.flatMap PatternUnit.written).reverse ++ d :: 's' :: before)))
          rest := u, last := xs.flatMap PatternUnit.text } := by
  let spec : CommandSpec := { letter := ['s'], regexp := true, count := .unsigned }
  have hbehind : behindLetter 0 (commandAt 0) (children 0) none ['s'] = behindKnown (commandAt 0) none 's' spec := rfl
  have hcount {t : Text} : countArgument .unsigned { before := 's' :: before, rest := d :: t, last } =
      .ok 1 { before := 's' :: before, rest := d :: t, last } := bind_of_ok (unsigned_none (isDigit_of_delimiter hd))
  have hleading : leadingArguments 's' spec _ = .ok _ _ := (bind_of_ok hcount).trans
    (bind_of_ok (patternArguments_substituting hd hfree hxs t all u))
  have hend {before last : Text} : textArgument spec { before, rest := '\n' :: u, last } =
      .ok [] { before := '\n' :: before, rest := u, last } := bind_of_ok endLine_eq
  rw [command_letter (by decide) (by simp), hbehind]
  exact (bind_of_ok hleading).trans (bind_of_ok hend)

/-- Any text can be written as a replacement that means itself: what the reader of a substitution makes
of it comes to the text again, whatever is matched. -/
theorem replacement_literal (d : Char) (hd : isDelimiter d = true) (hfree : d ∉ [' ', '\t', '\n', '&']) (t : Text) :
    ∃ rhs,
      (∀ before last u, rightSide [d] true { before, rest := t.flatMap (literal d) ++ d :: u, last } =
        .ok rhs { before := (t.flatMap (literal d)).reverse ++ before, rest := d :: u, last }) ∧
      (∀ (xs : List (PatternUnit d)) all u, xs ≠ [] → ∃ e, e.rest = u ∧
        command { rest := 's' :: d :: (xs.flatMap PatternUnit.written ++ d ::
            (t.flatMap (literal d) ++ d :: (flag all ++ '\n' :: u))) } =
          .ok (some (.act none (.substitute (xs.flatMap PatternUnit.text) 1 rhs all))) e) ∧
      ∀ text groups, Replacement.expand text groups rhs = t := by
  have hamp : d ≠ '&' := by
    rintro rfl
    exact hfree (by decide)
  refine ⟨t.flatMap template,fun before last u => ?_,fun xs all u hxs => ?_,fun text groups => ?_⟩
  · exact rightSide_eq (rightSidePiece_literals hd hamp t u)
  · exact ⟨_,rfl,command_substituting hd hfree hxs t all u⟩
  · exact expand_templates text groups t

/-- Backslashes in front of a digit, of an ampersand, of the delimiter and of the letter of a newline. -/
theorem replacement_literal_backslashes :
    isDelimiter '/' = true ∧ '/' ∉ [' ', '\t', '\n', '&'] ∧
    ∃ rhs,
      rightSide ['/'] true { rest := "\\\\1\\\\\\&\\\\\\/\\\\n\\n/\n".toList } =
        .ok rhs { before := "\\\\1\\\\\\&\\\\\\/\\\\n\\n".toList.reverse, rest := ['/', '\n'] } ∧
      Replacement.expand "ab".toList [⟨0, 2⟩, ⟨0, 1⟩] rhs = "\\1\\&\\/\\n\n".toList := by
  obtain ⟨rhs,hread,-,hexpand⟩ := replacement_literal '/' (by decide) (by decide) "\\1\\&\\/\\n\n".toList
  exact ⟨by decide,by decide,rhs,hread [] [] ['\n'],hexpand _ _⟩

end StructuralEdit.Parser
