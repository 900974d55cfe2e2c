import StructuralEdit.Command.Syntax

/-! # Handlers of commands

What is done for a letter, given what stands behind it. The table of handlers is apart from
the table that commands are read by; a letter that only the latter has makes a command that
is refused when it is executed.
-/
namespace StructuralEdit

/-- What a command may be followed by, apart from its body. -/
structure Arguments where
  count : Int := 0
  re : Text := []
  replacement : Text := []
  all : Bool := false
  target : Chain := []
  text : Text := []

/-- The actions that letters and their arguments make. -/
def actionHandlers : List (Char × (Arguments → Action)) :=
  [('\n', fun _ => .newline),
   ('a', fun a => .append a.text),
   ('i', fun a => .insert a.text),
   ('c', fun a => .change a.text),
   ('d', fun _ => .delete),
   ('m', fun a => .move a.target),
   ('t', fun a => .copy a.target),
   ('p', fun _ => .print),
   ('s', fun a => .substitute a.re a.count a.replacement a.all),
   ('u', fun a => .undo a.count),
   ('=', fun a => .position a.text),
   ('b', fun a => .switch a.text),
   ('B', fun a => .openFiles a.text),
   ('D', fun a => .closeFiles a.text),
   ('e', fun a => .load a.text),
   ('r', fun a => .read a.text),
   ('f', fun a => .rename a.text),
   ('w', fun a => .write a.text),
   ('<', fun a => .fromPipe a.text),
   ('|', fun a => .throughPipe a.text),
   ('>', fun a => .toPipe a.text)]

/-- The guards and loops that letters make of a body. -/
def loopHandlers : List (Char × (Option Addr → Text → Cmd → Cmd)) :=
  [('g', fun addr re body => .guard addr re false body),
   ('v', fun addr re body => .guard addr re true body),
   ('x', fun addr re body => .extract addr (if re.isEmpty then .lines else .matching re) body),
   ('y', fun addr re body => .extract addr (.between re) body),
   ('X', fun _ re body => .buffers (if re.isEmpty then .named else .matching re) body),
   ('Y', fun _ re body => .buffers (.others re) body)]

/-- The action a letter and its arguments make. A letter of a loop makes none. -/
def actionOf (letter : Char) (a : Arguments) : Action :=
  match actionHandlers.lookup letter with
  | some make => make a
  | none => if h : letter ∈ handledLetters then .newline else .other letter h

/-- The command a letter makes of its body. One that is no loop has no use for it. -/
def loopOf (letter : Char) (addr : Option Addr) (a : Arguments) (body : Cmd) : Cmd :=
  match loopHandlers.lookup letter with
  | some make => make addr a.re body
  | none => .act addr (actionOf letter a)

end StructuralEdit
