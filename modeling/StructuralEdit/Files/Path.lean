import StructuralEdit.Text.Basic

/-! # Path names

Arithmetic on path names, without regard to what files exist.
-/
namespace StructuralEdit.Path

def isAbsolute (p : Text) : Bool := p.head? == some '/'

/-- A name relative to a directory; an absolute name stands for itself. -/
def join (dir name : Text) : Text :=
  if isAbsolute name then name
  else if dir.isEmpty || dir.getLast? == some '/' then dir ++ name
  else dir ++ '/' :: name

/-- The parts between slashes. -/
def parts (p : Text) : List Text :=
  match p with
  | [] => [[]]
  | c :: rest =>
    if c == '/' then [] :: parts rest
    else match parts rest with
      | [] => [[c]]
      | part :: more => (c :: part) :: more

def dotPart : Text := ['.']

def parentPart : Text := ['.', '.']

/-- Add a part to those kept, given last first: a parent part takes back a name before it, and
at the root has no effect. -/
def addPart (rooted : Bool) (kept : List Text) (part : Text) : List Text :=
  if part.isEmpty || part == dotPart then kept
  else if part != parentPart then part :: kept
  else match kept with
    | [] => if rooted then [] else [part]
    | last :: before => if last == parentPart then part :: kept else before

/-- The slashes a name begins with; exactly two are kept as two. -/
def root (p : Text) : Text :=
  match p with
  | '/' :: '/' :: '/' :: _ => ['/']
  | '/' :: '/' :: _ => ['/', '/']
  | '/' :: _ => ['/']
  | _ => []

def joinParts : List Text → Text
  | [] => []
  | [part] => part
  | part :: rest => part ++ '/' :: joinParts rest

/-- A name without empty parts, dots and parent parts that can be taken back. -/
def normalize (p : Text) : Text :=
  let kept := (parts p).foldl (addPart (isAbsolute p)) []
  let path := root p ++ joinParts kept.reverse
  if path.isEmpty then dotPart else path

/-- What stands before the last part, without the slashes between. -/
def directory (p : Text) : Text :=
  let head := (p.reverse.dropWhile (· != '/')).reverse
  let trimmed := (head.reverse.dropWhile (· == '/')).reverse
  if trimmed.isEmpty then head else trimmed

end StructuralEdit.Path
