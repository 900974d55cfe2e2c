import StructuralEdit.Command.Parser
import StructuralEdit.Proofs.Command.Reading

/-! # Reading addresses and arguments

Chains and addresses are read by recursion on a bound that depends on the text to come. The bound
is never missed: each part takes in something before the next one is read. So the readers satisfy
the equations they would be written with if there were no bound, and by these they look at the next
character at most. The reader of commands is cut into the parts it consists of.
-/
namespace StructuralEdit.Parser
variable {α β : Type} {S : Text → Text → Prop} {x : Parser α} {f : α → Parser β} {c d : Cursor}

/-! ## Recursion on a bound -/

/-- What is read with another reader depends on it only where something has been taken in. -/
def Contracts (F : Parser α → Parser α) : Prop :=
  ∀ x y c, (∀ d : Cursor, d.rest.length < c.rest.length → x d = y d) → F x c = F y c

section
variable {F : Parser α → Parser α} {bounded : Nat → Parser α} (hsucc : ∀ n, bounded (n + 1) = F (bounded n))
  (hF : Contracts F)
include hsucc hF

theorem bounded_congr {n m : Nat} (hn : c.rest.length < n) (hm : c.rest.length < m) : bounded n c = bounded m c := by
  induction n generalizing c m with
  | zero => exact absurd hn (Nat.not_lt_zero _)
  | succ n ih =>
    obtain ⟨m,rfl⟩ := Nat.exists_eq_add_one_of_ne_zero (Nat.ne_of_gt (Nat.zero_lt_of_lt hm))
    rw [hsucc, hsucc]
    exact hF _ _ c fun d hd => ih (by omega) (by omega)

/-- With a bound that the text to come does not reach, the reader is the one without a bound. -/
theorem bounded_eq : (do bounded (← depth) : Parser α) = F (do bounded (← depth)) := by
  funext c
  change bounded (c.rest.length + 1) c = _
  rw [hsucc]
  exact hF _ _ c fun d hd => bounded_congr hsucc hF hd (Nat.lt_succ_self _)

end

/-! ## What readers take in -/

theorem getChar_shrinks {a : Char} {o : Option Char} (hnext : c.rest.head? = some a) (h : getChar c = .ok o d) :
    d.rest.length < c.rest.length := by
  obtain ⟨r,hr⟩ := List.head?_eq_some_iff.mp hnext
  rw [getChar_eq] at h
  cases h
  simp [Cursor.advance, hr]

theorem getChar_some {a : Char} (h : getChar c = .ok (some a) d) : d.rest.length < c.rest.length := by
  refine getChar_shrinks (a := a) ?_ h
  rw [getChar_eq] at h
  injection h

theorem unsigned_shrinks {a : Char} {n : Nat} (hnext : c.rest.head? = some a) (ha : Text.isDigit a = true)
    (h : unsigned c = .ok n d) : d.rest.length < c.rest.length := by
  obtain ⟨r,hr⟩ := List.head?_eq_some_iff.mp hnext
  obtain ⟨digits,e,htake,h⟩ := ok_of_bind h
  cases h
  cases htake
  have hpos : 0 < (c.rest.takeWhile Text.isDigit).length := by
    rw [hr, List.takeWhile_cons_of_pos ha]
    exact Nat.zero_lt_succ _
  simp only [Cursor.advance, List.length_drop]
  have hne : 0 < c.rest.length := by simp [hr]
  omega

/-! ## Chains -/

theorem local_step (c : Cursor) : step.Local c := by
  refine (local_skipPads c).bind fun next d _ => ?_
  have hgo {f : Option Char → Parser (Option Step)} (hf : ∀ a e, (f a).Local e) : (getChar >>= f).Local d :=
    (ends_getChar d).closed.local.bind fun a e _ => hf a e
  cases next with
  | none => exact local_pure _ d
  | some a =>
    refine reads_ite ((local_unsigned d).bind fun _ e _ => local_pure _ e) (reads_ite ?_ (reads_ite ?_ ?_))
    · exact hgo fun _ e => (local_unsigned e).bind fun _ k _ => local_pure _ k
    · exact hgo fun _ e => (local_pattern _ e).bind fun _ k _ => local_pure _ k
    · exact reads_ite (hgo fun _ e => local_pure _ e) (local_pure _ d)

theorem step_shrinks {s : Step} (h : step c = .ok (some s) d) : d.rest.length < c.rest.length := by
  obtain ⟨next,e,hpads,h⟩ := ok_of_bind h
  refine Nat.lt_of_lt_of_le ?_ ((local_skipPads c).length_le hpads)
  have hnext := skipPads_next hpads
  cases next with
  | none => cases h
  | some a =>
    have hgo {f : Option Char → Parser (Option Step)} (hf : ∀ a k, (f a).Local k)
        (h : (getChar >>= f) e = .ok (some s) d) : d.rest.length < e.rest.length := by
      obtain ⟨o,k,hchar,h⟩ := ok_of_bind h
      exact Nat.lt_of_le_of_lt ((hf o k).length_le h) (getChar_shrinks hnext hchar)
    dsimp only at h
    split at h
    · rename_i hdigit
      obtain ⟨n,k,hunsigned,h⟩ := ok_of_bind h
      cases h
      exact unsigned_shrinks hnext hdigit hunsigned
    split at h
    · exact hgo (fun _ k => (local_unsigned k).bind fun _ m _ => local_pure _ m) h
    split at h
    · exact hgo (fun _ k => (local_pattern _ k).bind fun _ m _ => local_pure _ m) h
    split at h
    · exact hgo (fun _ k => local_pure _ k) h
    · cases h

/-- A step, and what `more` reads behind it. -/
def chainWith (more : Parser Chain) : Parser Chain := do
  match ← step with
  | none => return []
  | some s =>
    match Chain.link? s (← more) with
    | some chain => return chain
    | none => throw .badAddressSyntax

theorem contracts_chainWith : Contracts chainWith := by
  refine fun x y c h => bind_congr_of_ok fun s d hstep => ?_
  cases s with
  | none => rfl
  | some s => exact bind_congr_of_eq (h d (step_shrinks hstep))

/-- A chain is a step with a chain behind it, or is empty. -/
theorem chain_eq : chain = chainWith chain := bounded_eq (fun _ => rfl) contracts_chainWith

theorem local_chain (c : Cursor) : chain.Local c := by
  rw [chain_eq]
  refine (local_step c).bind fun s d hstep => ?_
  cases s with
  | none => exact local_pure _ d
  | some s =>
    have := step_shrinks hstep
    refine (local_chain d).bind fun rest e _ => ?_
    split
    · exact local_pure _ e
    · exact local_throw _ e
termination_by c.rest.length

/-! ## Addresses -/

/-- A chain, and what `more` reads behind a separator. -/
def addressWith (more : Parser (Option Addr)) : Parser (Option Addr) := do
  let left := optional (← chain)
  let c ← skipPads
  if c != some ',' && c != some ';' then return left.map .chain
  let _ ← getChar
  let sep := if c == some ',' then Separator.comma else .semicolon
  match ← more with
  | none => return some (.toEnd left sep)
  | some right =>
    if right.startsWithSeparator then throw .badAddressSyntax
    return some (.compound left sep right)

theorem separator_shrinks {next o : Option Char} (hpads : skipPads c = .ok next d)
    (hsep : ¬ (next != some ',' && next != some ';') = true) {e : Cursor} (hchar : getChar d = .ok o e) :
    e.rest.length < c.rest.length := by
  refine Nat.lt_of_lt_of_le ?_ ((local_skipPads c).length_le hpads)
  cases next with
  | none => exact absurd rfl hsep
  | some a => exact getChar_shrinks (skipPads_next hpads) hchar

theorem contracts_addressWith : Contracts addressWith := by
  refine fun x y c h => bind_congr_of_ok fun left d hleft => bind_congr_of_ok fun next e hpads => ?_
  dsimp only
  split
  · rfl
  · rename_i hsep
    refine bind_congr_of_ok fun o k hchar => bind_congr_of_eq (h k ?_)
    exact Nat.lt_of_lt_of_le (separator_shrinks hpads hsep hchar) ((local_chain c).length_le hleft)

/-- An address is a chain, or a separator with a chain before it and an address behind, each of which
may be left out. -/
theorem address_eq : address = addressWith address := bounded_eq (fun _ => rfl) contracts_addressWith

theorem local_address (c : Cursor) : address.Local c := by
  rw [address_eq]
  refine (local_chain c).bind fun left d hleft => (local_skipPads d).bind fun next e hpads => ?_
  dsimp only
  split
  · exact local_pure _ e
  · rename_i hsep
    refine (ends_getChar e).closed.local.bind fun o k hchar => ?_
    have := Nat.lt_of_lt_of_le (separator_shrinks hpads hsep hchar) ((local_chain c).length_le hleft)
    refine (local_address k).bind fun right m _ => ?_
    cases right with
    | none => exact local_pure _ m
    | some right => exact reads_ite (local_throw _ m) (local_pure _ m)
termination_by c.rest.length

/-! ## Arguments -/

theorem local_patternArguments (letter : Char) (args : Arguments) (c : Cursor) :
    (patternArguments letter args).Local c := by
  refine (local_peek c).bind fun next d _ => reads_ite (local_pure _ d) ?_
  refine (local_skipPads d).bind fun _ e _ => (ends_getChar e).closed.local.bind fun delim k _ => ?_
  cases delim with
  | none => exact local_throw _ k
  | some delim =>
    refine reads_ite (Local.bind (local_throw _ k) nofun) (reads_ite (Local.bind (local_throw _ k) nofun) ?_)
    refine (local_pattern _ k).bind fun re m _ => reads_ite (local_pure _ m) ?_
    refine (local_rightSide _ _ m).bind fun _ n _ => (local_peek n).bind fun _ o _ => ?_
    refine reads_ite (local_pure _ o) ((ends_getChar o).closed.local.bind fun _ p _ => ?_)
    refine (local_peek p).bind fun _ q _ => reads_ite (local_pure _ q) ?_
    exact (ends_getChar q).closed.local.bind fun _ r _ => local_pure _ r

theorem local_countArgument (kind : CountKind) (c : Cursor) : (countArgument kind).Local c := by
  cases kind with
  | none => exact local_pure _ c
  | unsigned => exact (local_unsigned c).bind fun _ d _ => local_pure _ d
  | signed => exact local_signed c

theorem local_leadingArguments (letter : Char) (spec : CommandSpec) (c : Cursor) :
    (leadingArguments letter spec).Local c := by
  refine (local_countArgument _ c).bind fun count d _ => ?_
  have htarget (args : Arguments) (e : Cursor) : (if !spec.target then pure args else do
      let target ← chain
      if target.isEmpty then throw .badAddress
      return { args with target } : Parser Arguments).Local e := by
    refine reads_ite (local_pure _ e) ((local_chain e).bind fun target k _ => ?_)
    exact reads_ite (Local.bind (local_throw _ k) nofun) (local_pure _ k)
  refine reads_ite ((local_patternArguments _ _ d).bind fun args e _ => htarget args e) ?_
  exact (local_pure _ d).bind fun args e _ => htarget args e

theorem ends_textArgument (spec : CommandSpec) (c : Cursor) : (textArgument spec).Ends c := by
  refine ends_ite (ends_insertedText c) (ends_ite (ends_tokenUntil _ c) ?_)
  exact (ends_endLine c).bind fun _ d _ => closed_pure _ d

/-- A letter is told by the character behind it. -/
theorem local_letterFrom (a : Char) (c : Cursor) : (do
    if a == 'c' && (← peek) == some 'd' then
      let _ ← getChar
      return some ['c', 'd']
    return some [a] : Parser (Option Text)).Local c := by
  refine (local_peek c).bind fun next d _ => reads_ite ?_ (local_pure _ d)
  exact (ends_getChar d).closed.local.bind fun _ e _ => local_pure _ e

theorem local_letter (c : Cursor) : letter.Local c := by
  refine (ends_getChar c).closed.local.bind fun a d _ => ?_
  cases a with
  | none => exact local_pure _ d
  | some a => exact local_letterFrom a d

theorem letter_shrinks {name : Text} (h : letter c = .ok (some name) d) : d.rest.length < c.rest.length := by
  obtain ⟨a,e,hchar,h⟩ := ok_of_bind h
  cases a with
  | none => cases h
  | some a => exact Nat.lt_of_le_of_lt ((local_letterFrom a e).length_le h) (getChar_some hchar)

/-! ## The parts of a command -/

/-- What is read behind the arguments of a known letter; `one` reads a body. -/
def finished (one : Parser (Option Cmd)) (addr : Option Addr) (letter : Char) (spec : CommandSpec)
    (args : Arguments) : Parser (Option Cmd) := do
  if spec.body.isEmpty then
    let args := { args with text := ← textArgument spec }
    return some (.act addr (actionOf letter args))
  if (← skipPads) == some '\n' then
    let _ ← getChar
    return some (loopOf letter addr args (.act none (actionOf (spec.body.headD '\n') {})))
  match ← one with
  | some body => return some (loopOf letter addr args body)
  | none => throw .commandExpected

/-- What is read behind a letter that is in the table. -/
def behindKnown (one : Parser (Option Cmd)) (addr : Option Addr) (letter : Char) (spec : CommandSpec) :
    Parser (Option Cmd) := do
  if letter == '\n' then return some (.act addr .newline)
  if !spec.takesAddress && addr.isSome then throw .addressNotTaken
  finished one addr letter spec (← leadingArguments letter spec)

/-- What is read behind a letter; `one` reads a body and `many` those of a group. -/
def behindLetter (nest : Int) (one : Parser (Option Cmd)) (many : Parser (List Cmd)) (addr : Option Addr)
    (name : Text) : Parser (Option Cmd) :=
  match lookupCommand name with
  | none => do
    if name = ['{'] then return some (.group addr (← many))
    if name = ['}'] then
      endLine
      if nest == 0 then throw .noLeftBrace
      return none
    throw (.unknownCommand name)
  | some spec => behindKnown one addr (name.headD '\n') spec

/-- A command; `one` reads a body and `many` those of a group. -/
def commandWith (nest : Int) (one : Parser (Option Cmd)) (many : Parser (List Cmd)) : Parser (Option Cmd) := do
  let addr ← address
  if (← skipPads).isNone then return none
  let some name ← letter | return none
  behindLetter nest one many addr name

/-- Commands of a group; `one` reads the first of them and `many` those behind it. -/
def childWith (one : Parser (Option Cmd)) (many : Parser (List Cmd)) : Parser (List Cmd) := do
  match ← one with
  | none => return []
  | some child => return child :: (← many)

/-- The commands of a group, the first of which may stand behind a newline. -/
def childrenWith (one : Parser (Option Cmd)) (many : Parser (List Cmd)) : Parser (List Cmd) := do
  if (← skipPads) == some '\n' then
    let _ ← getChar
  childWith one many

theorem commandFrom_succ (fuel : Nat) (nest : Int) :
    commandFrom (fuel + 1) nest = commandWith nest (commandFrom fuel nest) (childrenFrom fuel nest) := by
  rfl

theorem childrenFrom_succ (fuel : Nat) (nest : Int) :
    childrenFrom (fuel + 1) nest = childrenWith (commandFrom fuel (nest + 1)) (childrenFrom fuel nest) := rfl

end StructuralEdit.Parser
