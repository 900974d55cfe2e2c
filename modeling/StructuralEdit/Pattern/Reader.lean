import StructuralEdit.Pattern.Alternation
import StructuralEdit.Pattern.Brackets
import StructuralEdit.Pattern.Opening
import StructuralEdit.Pattern.Repetition

/-! # Reading patterns

A recursive reader from tokens to expressions. Every item read takes a token, so the
depth of nesting is bounded by the length of the pattern.
-/
namespace StructuralEdit.Pattern.Reader

/-- In verbose mode white space and comments are passed over. -/
def isLayout (c : Char) : Bool :=
  c == ' ' || c == '\t' || c == '\n' || c == '\r' || c.toNat == 11 || c.toNat == 12

def skipLine : (fuel : Nat) → Reader Unit
  | 0 => return
  | fuel + 1 => do
    match ← take with
    | none => return
    | some t => if t != .plain '\n' then skipLine fuel

def isRepetition (c : Char) : Bool := c == '*' || c == '+' || c == '?' || c == '{'

/-- A sequence from its items, given last first. -/
def sequence (reversed : List Expr) : List Expr := reversed.reverse.flatMap Expr.spliced

mutual

/-- The sequences between bars; `outer` holds outside all groups. -/
def branches : (fuel : Nat) → (verbose outer first : Bool) → Reader (List (List Expr))
  | 0, _, _, _ => return []
  | fuel + 1, verbose, outer, first => do
    let branch ← items fuel verbose (outer && first) []
    if ← accept '|' then
      let modes := (← get).modes
      let verbose := if outer then modes.verbose else verbose
      return branch :: (← branches fuel verbose outer false)
    return [branch]

/-- What stands in parentheses. -/
def body : (fuel : Nat) → (verbose : Bool) → Reader Expr
  | 0, _ => return .empty
  | fuel + 1, verbose => return .ofItems (alternation (← branches fuel verbose false true))

/-- The items of a sequence, those read so far being given last first. Global modes may stand
only in front of everything else, where `front` holds. -/
def items : (fuel : Nat) → (verbose front : Bool) → List Expr → Reader (List Expr)
  | 0, _, _, done => return sequence done
  | fuel + 1, verbose, front, done => do
    match ← next with
    | none => return sequence done
    | some (.escaped c) =>
      let _ ← take
      items fuel verbose front ((← escape c) :: done)
    | some (.plain c) =>
      if c == '|' || c == ')' then return sequence done
      let start ← offset
      let _ ← take
      if verbose && isLayout c then items fuel verbose front done
      else if verbose && c == '#' then do
        skipLine ((← get).pattern.size + 1)
        items fuel verbose front done
      else if c == '[' then do items fuel verbose front ((← characterSet) :: done)
      else if isRepetition c then do
        match ← bounds c with
        | none => items fuel verbose front (.literal false c.toNat :: done)
        | some (min, max) => items fuel verbose front (← repetition start min max done)
      else if c == '.' then items fuel verbose front (.any :: done)
      else if c == '^' then items fuel verbose front (.anchor .lineStart :: done)
      else if c == '$' then items fuel verbose front (.anchor .lineEnd :: done)
      else if c == '(' then do
        match ← opening start with
        | .nothing => items fuel verbose front done
        | .complete e => items fuel verbose front (e :: done)
        | .globalModes =>
          if !front || !done.isEmpty then failAt .lateGlobalModes start
          items fuel (← get).modes.verbose front done
        | .capture name =>
          let group ← openGroup name
          let e ← body fuel verbose
          close start
          closeGroup group e
          items fuel verbose front (.capture group e :: done)
        | .withModes added removed =>
          let e ← body fuel ((verbose || added.verbose) && !removed.verbose)
          close start
          items fuel verbose front (.withModes added removed e :: done)
        | .atomic =>
          let e ← body fuel verbose
          close start
          items fuel verbose front (.atomic e :: done)
        | .look behind negated =>
          let outside := (← get).behindFrom
          if behind && outside.isNone then
            modify fun r => { r with behindFrom := some r.nextGroup }
          let e ← body fuel verbose
          if behind && outside.isNone then modify fun r => { r with behindFrom := none }
          close start
          items fuel verbose front (.look behind negated e :: done)
        | .condition group =>
          let yes ← items fuel verbose false []
          let no ←
            if ← accept '|' then do
              let no ← items fuel verbose false []
              if (← next) == some (.plain '|') then fail .thirdBranch
              pure no
            else pure []
          close start
          items fuel verbose front (.ifGroup group (.ofItems yes) (.ofItems no) :: done)
      else items fuel verbose front (.literal false c.toNat :: done)

end

/-- Read a whole pattern. -/
def whole : Reader Expr := do
  seek 0
  let r ← get
  let e := alternation (← branches (3 * r.pattern.size + 4) r.modes.verbose true true)
  let r ← get
  if r.modes.ascii && r.modes.unicode then throw .repertoiresClash
  if r.next.isSome then fail .unbalancedParenthesis
  match r.awaited.find? fun (group, _) => r.nextGroup ≤ group with
  | some (group, place) => failAt (.noSuchGroup group) place
  | none => return .ofItems e

end StructuralEdit.Pattern.Reader
