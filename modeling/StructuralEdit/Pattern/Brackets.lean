import StructuralEdit.Pattern.Escape

/-! # Sets in brackets

A set lists characters, ranges and categories. A bracket in first place and a
hyphen in last place are ordinary characters.
-/
namespace StructuralEdit.Pattern.Reader

/-- One end of a range, or a whole item of a set. -/
def setItem : Token → Reader SetItem
  | .plain c => return .one c.toNat
  | .escaped c => setEscape c

def rangeOf (first last : Token) : SetItem → SetItem → Reader SetItem
  | .one lo, .one hi => do
    if hi < lo then
      fail (.badRange first.text last.text) (first.length + 1 + last.length)
    return .range lo hi
  | _, _ => fail (.badRange first.text last.text) (first.length + 1 + last.length)

/-- The items of a set up to its closing bracket; a bracket in first place is an item. -/
def setItems (start : Nat) : (fuel : Nat) → (items : List SetItem) → Reader (List SetItem)
  | 0, items => return items
  | fuel + 1, items => do
    match ← take with
    | none => failAt .unterminatedSet start
    | some this =>
      if this == .plain ']' && !items.isEmpty then return items
      let item ← setItem this
      if ← accept '-' then
        match ← take with
        | none => failAt .unterminatedSet start
        | some that =>
          if that == .plain ']' then return items ++ [item, .one '-'.toNat]
          let last ← setItem that
          setItems start fuel (items ++ [← rangeOf this that item last])
      else setItems start fuel (items ++ [item])

/-- A set, its opening bracket being taken. -/
def characterSet : Reader Expr := do
  let start := (← offset) - 1
  let negated ← accept '^'
  let items ← setItems start ((← get).pattern.size + 1) []
  match items.eraseDups with
  | [.one code] => return .literal negated code
  | distinct => return .set negated distinct

end StructuralEdit.Pattern.Reader
