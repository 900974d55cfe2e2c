import StructuralEdit.Proofs.Command.WellFormed

/-! # What a command depends on

A command ends where it takes in the character that tells so, at the end of a line at the latest, or
where the text ends. So it depends on what it takes in and on nothing behind. The readers of commands
and of groups are those they would be without a bound, and by these equations this holds of the parts
and then, by induction on the text to come, of the whole.
-/
namespace StructuralEdit

namespace Parser
variable {α β : Type} {c d : Cursor}

/-! ## Parts of a command -/

/-- What goes on behind a letter takes in what was looked at to tell the letter; nothing was looked at
behind a newline. -/
theorem ends_letter_bind {b : β} {k : Text → Parser β}
    (hk : ∀ name d, d.rest.length < c.rest.length → name ≠ ['\n'] → (k name).Ends d)
    (hnewline : ∀ d, (k ['\n']).Closed d) :
    (do
      let some name ← letter | return b
      k name : Parser β).Ends c := by
  unfold letter
  rw [bind_assoc]
  refine (ends_getChar c).bind fun a d hchar => ?_
  cases a with
  | none => exact closed_pure b d
  | some a =>
    have hd := getChar_some hchar
    dsimp only
    rw [bind_assoc]
    by_cases ha : a = 'c'
    · refine Ends.closed <| (local_peek d).ends_bind fun next e hpeek => ?_
      have he := Nat.lt_of_le_of_lt ((local_peek d).length_le hpeek) hd
      split
      · rw [bind_assoc]
        refine (ends_getChar e).bind fun _ m hchar => (hk _ m ?_ (by decide)).closed
        exact Nat.lt_of_le_of_lt ((ends_getChar e).closed.length_le hchar) he
      · exact hk _ e he (by simp [ha])
    · -- Whatever comes next, the letter is this one.
      have hsame : (fun next : Option Char => (if (a == 'c' && next == some 'd') = true then do
          let _ ← getChar
          return some ['c', 'd']
        else return some [a] : Parser (Option Text))) = fun _ => pure (some [a]) := by
        funext next
        rw [if_neg (by simp [ha])]
      rw [← bind_assoc, hsame]
      change (k [a]).Closed d
      by_cases hline : a = '\n'
      · rw [hline]
        exact hnewline d
      · exact (hk [a] d hd (by simpa using hline)).closed

theorem headD_ne_of_lookup {name : Text} {spec : CommandSpec} (h : lookupCommand name = some spec)
    (hname : name ≠ ['\n']) : name.headD '\n' ≠ '\n' := by
  obtain ⟨hmem,rfl⟩ := lookupCommand_some h
  have hall : ∀ s ∈ commandTable, s.letter ≠ ['\n'] → s.letter.headD '\n' ≠ '\n' := by decide
  exact hall spec hmem hname

section
variable {nest : Int} {one : Parser (Option Cmd)} {many : Parser (List Cmd)}
  (hone : ∀ d : Cursor, d.rest.length ≤ c.rest.length → one.Ends d)
include hone

theorem ends_finished (addr : Option Addr) (letter : Char) (spec : CommandSpec) (args : Arguments) :
    (finished one addr letter spec args).Ends c := by
  refine ends_ite ((ends_textArgument spec c).bind fun _ d _ => closed_pure _ d) ?_
  refine (local_skipPads c).ends_bind fun next d hpads => ends_ite ?_ ?_
  · exact (ends_getChar d).bind fun _ e _ => closed_pure _ e
  · refine (hone d ((local_skipPads c).length_le hpads)).bind fun body e _ => ?_
    cases body with
    | none => exact (ends_throw _ e).closed
    | some body => exact closed_pure _ e

theorem ends_behindKnown (addr : Option Addr) {letter : Char} (hletter : letter ≠ '\n') (spec : CommandSpec) :
    (behindKnown one addr letter spec).Ends c := by
  unfold behindKnown
  rw [if_neg (by simpa using hletter)]
  refine ends_ite (Ends.bind (ends_throw _ c) nofun) ?_
  refine (local_leadingArguments letter spec c).ends_bind fun args d hargs => ?_
  refine ends_finished (fun e he => hone e ?_) addr letter spec args
  exact Nat.le_trans he ((local_leadingArguments letter spec c).length_le hargs)

/-- Where what stands in it is read without looking ahead, so is what follows a letter. -/
theorem ends_behindLetter (hmany : ∀ d : Cursor, d.rest.length ≤ c.rest.length → many.Ends d)
    (addr : Option Addr) {name : Text} (hname : name ≠ ['\n']) :
    (behindLetter nest one many addr name).Ends c := by
  unfold behindLetter
  split
  · refine ends_ite ((hmany c (Nat.le_refl _)).bind fun _ d _ => closed_pure _ d) (ends_ite ?_ (ends_throw _ c))
    refine (ends_endLine c).bind fun _ d _ => ?_
    exact reads_ite (Closed.bind (ends_throw _ d).closed nofun) (closed_pure _ d)
  · rename_i spec hspec
    exact ends_behindKnown hone addr (headD_ne_of_lookup hspec hname) spec

end

theorem closed_newline (nest : Int) (one : Parser (Option Cmd)) (many : Parser (List Cmd)) (addr : Option Addr)
    (c : Cursor) : (behindLetter nest one many addr ['\n']).Closed c := by
  have hnewline : behindLetter nest one many addr ['\n'] = pure (some (.act addr .newline)) := rfl
  rw [hnewline]
  exact closed_pure _ c

theorem ends_commandWith {nest : Int} {one : Parser (Option Cmd)} {many : Parser (List Cmd)}
    (hone : ∀ d : Cursor, d.rest.length < c.rest.length → one.Ends d)
    (hmany : ∀ d : Cursor, d.rest.length < c.rest.length → many.Ends d) : (commandWith nest one many).Ends c := by
  refine (local_address c).ends_bind fun addr d haddr => ?_
  have hd := (local_address c).length_le haddr
  refine (local_skipPads d).ends_bind fun next e hpads => ?_
  have he := Nat.le_trans ((local_skipPads d).length_le hpads) hd
  cases next with
  | none => exact ends_pure none (List.head?_eq_none_iff.mp (skipPads_next hpads))
  | some a =>
    refine ends_letter_bind (fun name k hk hname => ?_) (closed_newline nest one many addr)
    refine ends_behindLetter (fun m hm => hone m ?_) (fun m hm => hmany m ?_) addr hname <;> omega

theorem ends_childWith {one : Parser (Option Cmd)} {many : Parser (List Cmd)} (hone : one.Ends c)
    (hmany : ∀ d child, one c = .ok (some child) d → many.Closed d) : (childWith one many).Ends c := by
  refine hone.bind fun child d hchild => ?_
  cases child with
  | none => exact closed_pure _ d
  | some child => exact (hmany d child hchild).bind fun _ e _ => closed_pure _ e

theorem ends_childrenWith {one : Parser (Option Cmd)} {many : Parser (List Cmd)}
    (hchild : ∀ d : Cursor, d.rest.length ≤ c.rest.length → (childWith one many).Ends d) :
    (childrenWith one many).Ends c := by
  refine (local_skipPads c).ends_bind fun next d hpads => ends_ite ?_ ?_
  · refine (ends_getChar d).bind fun _ e hchar => (hchild e ?_).closed
    exact Nat.le_trans ((ends_getChar d).closed.length_le hchar) ((local_skipPads c).length_le hpads)
  · exact hchild d ((local_skipPads c).length_le hpads)

/-! ## Recursion -/

theorem behindKnown_congr {one one' : Parser (Option Cmd)}
    (hone : ∀ d : Cursor, d.rest.length ≤ c.rest.length → one d = one' d) (addr : Option Addr) (letter : Char)
    (spec : CommandSpec) : behindKnown one addr letter spec c = behindKnown one' addr letter spec c := by
  refine ite_congr_of_eq (fun _ => rfl) fun _ => ite_congr_of_eq (fun _ => rfl) fun _ => ?_
  refine bind_congr_of_ok fun args d hargs => ite_congr_of_eq (fun _ => rfl) fun _ => ?_
  refine bind_congr_of_ok fun next e hpads => ite_congr_of_eq (fun _ => rfl) fun _ => bind_congr_of_eq (hone e ?_)
  exact Nat.le_trans ((local_skipPads d).length_le hpads) ((local_leadingArguments letter spec c).length_le hargs)

theorem behindLetter_congr {nest : Int} {one one' : Parser (Option Cmd)} {many many' : Parser (List Cmd)}
    (hone : ∀ d : Cursor, d.rest.length ≤ c.rest.length → one d = one' d) (hmany : many c = many' c)
    (addr : Option Addr) (name : Text) :
    behindLetter nest one many addr name c = behindLetter nest one' many' addr name c := by
  unfold behindLetter
  cases lookupCommand name with
  | none => exact ite_congr_of_eq (fun _ => bind_congr_of_eq hmany) fun _ => rfl
  | some spec => exact behindKnown_congr hone addr _ spec

theorem commandWith_congr {nest : Int} {one one' : Parser (Option Cmd)} {many many' : Parser (List Cmd)}
    (hone : ∀ d : Cursor, d.rest.length < c.rest.length → one d = one' d)
    (hmany : ∀ d : Cursor, d.rest.length < c.rest.length → many d = many' d) :
    commandWith nest one many c = commandWith nest one' many' c := by
  refine bind_congr_of_ok fun addr d haddr => bind_congr_of_ok fun next e hpads => ?_
  have he := Nat.le_trans ((local_skipPads d).length_le hpads) ((local_address c).length_le haddr)
  refine ite_congr_of_eq (fun _ => rfl) fun _ => bind_congr_of_ok fun name k hname => ?_
  cases name with
  | none => rfl
  | some name =>
    have hk := Nat.lt_of_lt_of_le (letter_shrinks hname) he
    exact behindLetter_congr (fun m hm => hone m (Nat.lt_of_le_of_lt hm hk)) (hmany k hk) addr name

theorem childWith_congr {one one' : Parser (Option Cmd)} {many many' : Parser (List Cmd)} (hone : one c = one' c)
    (hmany : ∀ d child, one c = .ok (some child) d → many d = many' d) :
    childWith one many c = childWith one' many' c := by
  refine (bind_congr_of_ok fun child d hchild => ?_).trans (bind_congr_of_eq hone)
  cases child with
  | none => rfl
  | some child => exact bind_congr_of_eq (hmany d child hchild)

theorem childrenWith_congr {one one' : Parser (Option Cmd)} {many many' : Parser (List Cmd)}
    (hchild : ∀ d : Cursor, d.rest.length ≤ c.rest.length → childWith one many d = childWith one' many' d) :
    childrenWith one many c = childrenWith one' many' c := by
  refine bind_congr_of_ok fun next d hpads => ?_
  have hd := (local_skipPads c).length_le hpads
  refine ite_congr_of_eq (fun _ => bind_congr_of_ok fun _ e hchar => hchild e ?_) fun _ => hchild d hd
  exact Nat.le_trans ((ends_getChar d).closed.length_le hchar) hd

/-- Two bounds that are great enough come to the same. A body stands behind a letter, and a child behind
nothing, but the next child behind one that took in something; so the bound counts twice. -/
theorem commandFrom_congr (n : Nat) :
    (∀ nest m (c : Cursor), 2 * c.rest.length + 1 ≤ n → 2 * c.rest.length + 1 ≤ m →
      commandFrom n nest c = commandFrom m nest c) ∧
    ∀ nest m (c : Cursor), 2 * c.rest.length + 2 ≤ n → 2 * c.rest.length + 2 ≤ m →
      childrenFrom n nest c = childrenFrom m nest c := by
  induction n with
  | zero => exact ⟨fun _ _ _ hn => by omega,fun _ _ _ hn => by omega⟩
  | succ n ih =>
    refine ⟨fun nest m c hn hm => ?_,fun nest m c hn hm => ?_⟩
    all_goals obtain ⟨m,rfl⟩ := Nat.exists_eq_add_one_of_ne_zero (Nat.ne_of_gt (Nat.zero_lt_of_lt hm))
    · rw [commandFrom_succ, commandFrom_succ]
      exact commandWith_congr (fun d _ => ih.1 nest m d (by omega) (by omega))
        fun d _ => ih.2 nest m d (by omega) (by omega)
    · rw [childrenFrom_succ, childrenFrom_succ]
      refine childrenWith_congr fun d _ => childWith_congr (ih.1 (nest + 1) m d (by omega) (by omega)) ?_
      intro e child hchild
      have := commandFrom_shrinks hchild
      exact ih.2 nest m e (by omega) (by omega)

/-- Read the commands of a group that stands `nest` groups deep. -/
def children (nest : Int) : Parser (List Cmd) := do
  childrenFrom (2 * (← depth)) nest

theorem commandAt_shrinks {nest : Int} {cmd : Cmd} (h : commandAt nest c = .ok (some cmd) d) :
    d.rest.length < c.rest.length := commandFrom_shrinks h

theorem commandAt_eq (nest : Int) : commandAt nest = commandWith nest (commandAt nest) (children nest) := by
  funext c
  change commandFrom (2 * c.rest.length + 1 + 1) nest c = _
  rw [commandFrom_succ]
  exact commandWith_congr (fun d _ => (commandFrom_congr _).1 nest _ d (by omega) (by omega))
    fun d _ => (commandFrom_congr _).2 nest _ d (by omega) (by omega)

theorem children_eq (nest : Int) : children nest = childrenWith (commandAt (nest + 1)) (children nest) := by
  funext c
  change childrenFrom (2 * c.rest.length + 1 + 1) nest c = _
  rw [childrenFrom_succ]
  refine childrenWith_congr fun d _ => childWith_congr ?_ fun e child hchild => ?_
  · exact (commandFrom_congr _).1 (nest + 1) _ d (by omega) (by omega)
  · have := commandFrom_shrinks hchild
    exact (commandFrom_congr _).2 nest _ e (by omega) (by omega)

mutual

theorem ends_commandAt (nest : Int) (c : Cursor) : (commandAt nest).Ends c := by
  rw [commandAt_eq]
  exact ends_commandWith (fun d _ => ends_commandAt nest d) fun d _ => ends_children nest d
termination_by 2 * c.rest.length

theorem ends_children (nest : Int) (c : Cursor) : (children nest).Ends c := by
  rw [children_eq]
  refine ends_childrenWith fun d _ => ends_childWith (ends_commandAt (nest + 1) d) fun e child hchild => ?_
  have := commandAt_shrinks hchild
  exact (ends_children nest e).closed
termination_by 2 * c.rest.length + 1

end

/-! ## Scripts -/

/-- Commands that are read one after another. -/
inductive Script : Cursor → List Cmd → Cursor → Prop
  | done (c : Cursor) : Script c [] c
  | next {c d e : Cursor} {cmd : Cmd} {cmds : List Cmd} (first : command c = .ok (some cmd) d)
    (more : Script d cmds e) : Script c (cmd :: cmds) e

/-- The text that is read stands in front of what is left, and can be followed by anything if
something is left. -/
theorem Script.followed {cmds : List Cmd} (h : Script c cmds d) :
    ∃ w, c.Passes w d ∧ (d.rest ≠ [] → ∀ u, Script (c.onto (w ++ u)) cmds (d.onto u)) := by
  induction h with
  | done c => exact ⟨[],.refl c,fun _ u => .done _⟩
  | @next c d e cmd cmds first _ ih =>
    obtain ⟨v,hv,hagain⟩ := (ends_commandAt 0 c).closed _ _ first
    obtain ⟨w,hw,hmore⟩ := ih
    refine ⟨v ++ w,hv.trans hw,fun he u => .next ?_ (hmore he u)⟩
    rw [List.append_assoc]
    -- Something is left behind the last command, so behind this one, too.
    refine hagain (w ++ u) fun hd => absurd hd ?_
    rw [hw.rest]
    exact List.append_ne_nil_of_right_ne_nil w he

/-- A command depends on what it takes in only: if something is left behind it, the same is read with
anything else there. The commands of a script do not depend on what follows the last of them. -/
theorem command_followed :
    (∀ c d cmd, command c = .ok (some cmd) d → d.rest ≠ [] → ∀ u,
      command { c with rest := c.rest.take (d.offset - c.offset) ++ u } = .ok (some cmd) { d with rest := u }) ∧
    ∀ c d cmds, Script c cmds d → d.rest ≠ [] → ∀ u,
      Script { c with rest := c.rest.take (d.offset - c.offset) ++ u } cmds { d with rest := u } := by
  refine ⟨fun c d cmd h hrest u => ?_,fun c d cmds h hrest u => ?_⟩
  · obtain ⟨w,hw,hagain⟩ := (ends_commandAt 0 c).closed _ _ h
    rw [hw.take]
    exact hagain u fun hd => absurd hd hrest
  · obtain ⟨w,hw,hagain⟩ := h.followed
    rw [hw.take]
    exact hagain hrest u

/-- A substitution is told by its newline from one with a flag, whatever stands on the next line. -/
theorem command_followed_flag :
    let cmd : Cmd := .act none (.substitute ['a'] 1 ['b'] false)
    (∃ d, Script { rest := "s/a/b/\np\n".toList } [cmd] d ∧ d.rest = "p\n".toList) ∧
    ∃ d, Script { rest := "s/a/b/\ng".toList } [cmd] d ∧ d.rest = ['g'] := by
  have hread : command { rest := "s/a/b/\np\n".toList } = .ok (some (.act none (.substitute ['a'] 1 ['b'] false)))
      { before := "s/a/b/\n".toList.reverse, rest := "p\n".toList, last := ['a'] } := by cbv
  have hagain := command_followed.1 _ _ _ hread (by decide) ['g']
  exact ⟨⟨_,.next hread (.done _),rfl⟩,⟨_,.next hagain (.done _),rfl⟩⟩

end Parser

end StructuralEdit
