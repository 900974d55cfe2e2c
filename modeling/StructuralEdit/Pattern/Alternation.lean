import StructuralEdit.Pattern.Syntax

/-! # Alternatives

What all alternatives begin with stands in front of them. Alternatives that are
single characters, or sets that are not negated, make one set.
-/
namespace StructuralEdit.Pattern

/-- What a sequence leaves behind an item it begins with. -/
def dropAtom (e : Expr) : List Expr → Option (List Expr)
  | [] => none
  | f :: rest => if e.sameAtom f then some rest else none

/-- The items that a sequence and all others begin with, and what is left of each. -/
def commonStart : List Expr → List (List Expr) → List Expr × List (List Expr)
  | [], others => ([], [] :: others)
  | e :: rest, others =>
    match others.mapM (dropAtom e) with
    | none => ([], (e :: rest) :: others)
    | some others =>
      let (start, left) := commonStart rest others
      (e :: start, left)

/-- The set items that an alternative of one character stands for. -/
def setItems? : List Expr → Option (List SetItem)
  | [.literal false code] => some [.one code]
  | [.set false items] => some items
  | _ => none

/-- A choice between sequences, tried in order. -/
def choice : List (List Expr) → Expr
  | [] => .never
  | branch :: rest => .alt (.ofItems branch) (choice rest)

/-- The items that alternatives make. -/
def alternation : List (List Expr) → List Expr
  | [] => []
  | [branch] => branch
  | branch :: rest =>
    let (start, left) := commonStart branch rest
    match left.mapM setItems? with
    | some sets => start ++ [.set false sets.flatten.eraseDups]
    | none => start ++ [choice left]

end StructuralEdit.Pattern
