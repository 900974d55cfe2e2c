import StructuralEdit.Command.Cursor
import StructuralEdit.Command.Handlers

/-! # Reading commands

Commands are read one at a time. Every command read consumes a character, so the
depth of nesting is bounded by the length of the text.
-/
namespace StructuralEdit.Parser

/-- The step at the cursor, if one begins there. -/
def step : Parser (Option Step) := do
  match ← skipPads with
  | none => return none
  | some c =>
    if Text.isDigit c then return some (.line (← unsigned))
    else if c == '#' then
      let _ ← getChar
      return some (.char (← unsigned))
    else if c == '/' || c == '?' || c == '"' then
      let _ ← getChar
      let re ← pattern [c]
      return some (if c == '/' then .forward re else if c == '?' then .backward re else .file re)
    else if c == '.' || c == '$' || c == '+' || c == '-' || c == '\'' then
      let _ ← getChar
      return some (if c == '.' then .dot else if c == '$' then .last else if c == '+' then .plus
        else if c == '-' then .minus else .mark)
    else return none

/-- A chain of steps, empty if none begins here. -/
def chainFrom : (fuel : Nat) → Parser Chain
  | 0 => return []
  | fuel + 1 => do
    match ← step with
    | none => return []
    | some s =>
      match Chain.link? s (← chainFrom fuel) with
      | some chain => return chain
      | none => throw .badAddressSyntax

/-- More steps than the text to come can hold. -/
def depth : Parser Nat := return (← get).rest.length + 1

def chain : Parser Chain := do chainFrom (← depth)

def optional (c : Chain) : Option Chain := if c.isEmpty then none else some c

def addressFrom : (fuel : Nat) → Parser (Option Addr)
  | 0 => return none
  | fuel + 1 => do
    let left := optional (← chain)
    let c ← skipPads
    if c != some ',' && c != some ';' then return left.map .chain
    let _ ← getChar
    let sep := if c == some ',' then Separator.comma else .semicolon
    match ← addressFrom fuel with
    | none => return some (.toEnd left sep)
    | some right =>
      if right.startsWithSeparator then throw .badAddressSyntax
      return some (.compound left sep right)

/-- A simple or compound address, if one begins here. -/
def address : Parser (Option Addr) := do addressFrom (← depth)

/-- The pattern of a command, and for a substitution its replacement and flag. -/
def patternArguments (letter : Char) (args : Arguments) : Parser Arguments := do
  let next ← peek
  if (letter == 'x' || letter == 'X') && (next == some ' ' || next == some '\t' || next == some '\n')
  then return args
  let _ ← skipPads
  match ← getChar with
  | none => throw .noAddress
  | some delim =>
    if delim == '\n' then throw .noAddress
    if !isDelimiter delim then throw (.badDelimiter (some delim))
    let args := { args with re := ← pattern [delim] }
    if letter != 's' then return args
    let args := { args with replacement := ← rightSide [delim] true }
    if (← peek) != some delim then return args
    let _ ← getChar
    if (← peek) != some 'g' then return args
    let _ ← getChar
    return { args with all := true }

def countArgument : CountKind → Parser Int
  | .none => return 0
  | .unsigned => return Int.ofNat (← unsigned)
  | .signed => signed

/-- The arguments in front of the body or text of a command. -/
def leadingArguments (letter : Char) (spec : CommandSpec) : Parser Arguments := do
  let count ← countArgument spec.count
  let args ← if spec.regexp then patternArguments letter { count } else pure { count }
  if !spec.target then return args
  let target ← chain
  if target.isEmpty then throw .badAddress
  return { args with target }

/-- The text argument of a command without body. -/
def textArgument (spec : CommandSpec) : Parser Text := do
  if spec.text then insertedText
  else if !spec.token.isEmpty then tokenUntil spec.token.contains
  else
    endLine
    return []

/-- A command letter; the letters `cd` are read together and name no command. -/
def letter : Parser (Option Text) := do
  match ← getChar with
  | none => return none
  | some c =>
    if c == 'c' && (← peek) == some 'd' then
      let _ ← getChar
      return some ['c', 'd']
    return some [c]

mutual

/-- The next command, or `none` at the end of the text or of a group `nest` levels deep. -/
def commandFrom : (fuel : Nat) → (nest : Int) → Parser (Option Cmd)
  | 0, _ => return none
  | fuel + 1, nest => do
    let addr ← address
    if (← skipPads).isNone then return none
    let some name ← letter | return none
    match lookupCommand name with
    | none =>
      if name = ['{'] then return some (.group addr (← childrenFrom fuel nest))
      if name = ['}'] then
        endLine
        if nest == 0 then throw .noLeftBrace
        return none
      throw (.unknownCommand name)
    | some spec =>
      let c := name.headD '\n'
      if c == '\n' then return some (.act addr .newline)
      if !spec.takesAddress && addr.isSome then throw .addressNotTaken
      let args ← leadingArguments c spec
      if spec.body.isEmpty then
        let args := { args with text := ← textArgument spec }
        return some (.act addr (actionOf c args))
      if (← skipPads) == some '\n' then
        let _ ← getChar
        return some (loopOf c addr args (.act none (actionOf (spec.body.headD '\n') {})))
      match ← commandFrom fuel nest with
      | some body => return some (loopOf c addr args body)
      | none => throw .commandExpected

/-- The commands of a group up to its right brace, or to the end of the text. -/
def childrenFrom : (fuel : Nat) → (nest : Int) → Parser (List Cmd)
  | 0, _ => return []
  | fuel + 1, nest => do
    if (← skipPads) == some '\n' then
      let _ ← getChar
    match ← commandFrom fuel (nest + 1) with
    | none => return []
    | some child => return child :: (← childrenFrom fuel nest)

end

/-- Read a command that stands `nest` groups deep. -/
def commandAt (nest : Int) : Parser (Option Cmd) := do
  commandFrom (2 * (← depth)) nest

/-- Read the next command, or `none` at the end of the text. -/
def command : Parser (Option Cmd) := commandAt 0

end StructuralEdit.Parser
