import StructuralEdit.Pattern.Escape
import StructuralEdit.Text.Identifier
import StructuralEdit.Text.Numeral

/-! # Openings of groups

What the characters behind an opening parenthesis announce, and the numbers and
names of the groups opened so far.
-/
namespace StructuralEdit.Pattern.Reader

/-- The mode a letter switches. -/
def modeOf : Char → Option Modes
  | 'i' => some { ignoreCase := true }
  | 'm' => some { multiline := true }
  | 's' => some { dotAll := true }
  | 'x' => some { verbose := true }
  | 'a' => some { ascii := true }
  | 'u' => some { unicode := true }
  | 't' => some { template := true }
  | 'L' => some {}
  | _ => none

def isModeLetter (c : Char) : Bool := (modeOf c).isSome

/-- Take a token that has to be a mode letter or one of some closing characters. -/
def takeMode (closing : List Char) (expected : Problem) : Reader Char := do
  match ← take with
  | none => fail expected
  | some (.plain c) =>
    if closing.contains c || isModeLetter c then return c
    fail (if Text.isLetter c then .unknownMode else expected) 1
  | some (.escaped _) => fail expected 2

/-- Modes that a group switches on; the character behind them is returned too. -/
def addedModes : (fuel : Nat) → Modes → Char → Reader (Modes × Char)
  | 0, modes, c => return (modes, c)
  | fuel + 1, modes, c => do
    if c == 'L' then fail .localeMode
    let mode := (modeOf c).getD {}
    let modes := modes.union mode
    if (mode.ascii || mode.unicode) && modes.ascii && modes.unicode then
      fail .clashingRepertoires
    let c ← takeMode [')', '-', ':'] .expectedModeEnd
    if c == ')' || c == '-' || c == ':' then return (modes, c)
    addedModes fuel modes c

/-- Modes that a group switches off, up to the colon. -/
def removedModes : (fuel : Nat) → Modes → Char → Reader Modes
  | 0, modes, _ => return modes
  | fuel + 1, modes, c => do
    let mode := (modeOf c).getD {}
    if mode.ascii || mode.unicode || c == 'L' then fail .repertoireOff
    let modes := modes.union mode
    let c ← takeMode [':'] .expectedColon
    if c == ':' then return modes
    removedModes fuel modes c

/-- What the characters behind an opening parenthesis announce. -/
inductive Opening
  | capture (name : Option Text)
  | withModes (added removed : Modes)
  | atomic
  | look (behind negated : Bool)
  | condition (group : Nat)
  | complete (e : Expr)
  | nothing
  | globalModes

/-- Mode letters, `c` being the first; for global modes they are put in force. -/
def modeOpening (c : Char) : Reader Opening := do
  let fuel := (← get).pattern.size + 1
  let (added, c) ← if c == '-' then pure (({} : Modes), c) else addedModes fuel {} c
  if c == ')' then
    modify fun r => { r with modes := r.modes.union added }
    return .globalModes
  if added.template then fail .globalModeOn 1
  let removed ←
    if c == '-' then do
      let c ← takeMode [] .expectedMode
      removedModes fuel {} c
    else pure {}
  if removed.template then fail .globalModeOff 1
  if added.meets removed then fail .modeOnAndOff 1
  return .withModes added removed

def checkGroupName (name : Text) : Reader Unit := do
  if !Text.isIdentifier name then fail (.badGroupName name) (name.length + 1)

def namedOpening : Reader Opening := do
  if ← accept '<' then
    let name ← takeName '>' "group name".toList
    checkGroupName name
    return .capture (some name)
  if ← accept '=' then
    let name ← takeName ')' "group name".toList
    checkGroupName name
    let r ← get
    match r.names.lookup name with
    | none => fail (.unknownGroupName name) (name.length + 1)
    | some group =>
      if !r.isClosed group then fail .openGroup (name.length + 1)
      checkBehind group
      return .complete (.backref group)
  match ← take with
  | none => fail .endOfPattern
  | some t => fail (.unknownExtension ('P' :: t.text)) (t.length + 2)

/-- The largest group number a condition may name, plus one. -/
def groupBound : Nat := 1073741823

/-- The group a condition depends on, by name or number. -/
def conditionOpening : Reader Opening := do
  let name ← takeName ')' "group name".toList
  let back := name.length + 1
  if Text.isIdentifier name then
    match (← get).names.lookup name with
    | none => fail (.unknownGroupName name) back
    | some group =>
      checkBehind group
      return .condition group
  match Text.readInt name with
  | some (.ofNat group) =>
    if group == 0 then fail .badGroupNumber back
    if groupBound ≤ group then fail (.noSuchGroup group) back
    modify fun r =>
      if (r.awaited.lookup group).isSome then r
      else { r with awaited := r.awaited ++ [(group, r.offset - back)] }
    checkBehind group
    return .condition group
  | _ => fail (.badGroupName name) back

def skipComment (start : Nat) : (fuel : Nat) → Reader Unit
  | 0 => return
  | fuel + 1 => do
    if (← next).isNone then failAt .unterminatedComment start
    if (← take) != some (.plain ')') then skipComment start fuel

/-- The opening of a group whose parenthesis at `start` is taken. -/
def opening (start : Nat) : Reader Opening := do
  if !(← accept '?') then return .capture none
  match ← take with
  | none => fail .endOfPattern
  | some (.plain 'P') => namedOpening
  | some (.plain ':') => return .withModes {} {}
  | some (.plain '#') =>
    skipComment start ((← get).pattern.size + 1)
    return .nothing
  | some (.plain '=') => return .look false false
  | some (.plain '!') => return .look false true
  | some (.plain '<') =>
    match ← take with
    | none => fail .endOfPattern
    | some (.plain '=') => return .look true false
    | some (.plain '!') => return .look true true
    | some t => fail (.unknownExtension ('<' :: t.text)) (t.length + 2)
  | some (.plain '(') => conditionOpening
  | some (.plain '>') => return .atomic
  | some t =>
    match t with
    | .plain c =>
      if isModeLetter c || c == '-' then modeOpening c
      else fail (.unknownExtension t.text) (t.length + 1)
    | .escaped _ => fail (.unknownExtension t.text) (t.length + 1)

/-- Open a capture group. -/
def openGroup (name : Option Text) : Reader Nat := do
  let r ← get
  let group := r.nextGroup
  set { r with groups := r.groups.push none }
  if let some n := name then
    if let some earlier := r.names.lookup n then
      fail (.groupRedefined n group earlier) (n.length + 1)
    modify fun r => { r with names := (n, group) :: r.names }
  return group

def closeGroup (group : Nat) (e : Expr) : Reader Unit :=
  modify fun r => { r with groups := r.groups.setIfInBounds (group - 1) (some (e.width r.groupWidth)) }

def close (start : Nat) : Reader Unit := do
  if !(← accept ')') then failAt .unterminatedGroup start

end StructuralEdit.Pattern.Reader
