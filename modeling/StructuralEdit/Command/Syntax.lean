import StructuralEdit.Address.Syntax
import StructuralEdit.Command.Table

/-! # Commands as written

A command is an action with an optional address, a guard, a loop over ranges or
over buffers, or a group in braces.
-/
namespace StructuralEdit

/-- The letters of the actions, each of which something is done for. -/
def actionLetters : List Char := "\naicdmtpsu=bBDerfw<|>".toList

/-- The letters of guards and loops. -/
def loopLetters : List Char := "gvxyXY".toList

/-- All letters that are handled, the brace of a group among them. -/
def handledLetters : List Char := '{' :: actionLetters ++ loopLetters

inductive Action
  | newline
  | append (text : Text)
  | insert (text : Text)
  | change (text : Text)
  | delete
  | move (target : Chain)
  | copy (target : Chain)
  | print
  | substitute (re : Text) (count : Int) (replacement : Text) (all : Bool)
  | undo (steps : Int)
  | position (mode : Text)
  | switch (name : Text)
  | openFiles (names : Text)
  | closeFiles (names : Text)
  | load (name : Text)
  | read (name : Text)
  | rename (name : Text)
  | write (name : Text)
  | fromPipe (command : Text)
  | throughPipe (command : Text)
  | toPipe (command : Text)
  /-- A letter that nothing handles. -/
  | other (letter : Char) (unhandled : letter ∉ handledLetters)
deriving DecidableEq

/-- What a loop over ranges visits. -/
inductive RangeLoop
  | lines
  | matching (re : Text)
  | between (re : Text)
deriving DecidableEq

/-- Which buffers a loop over buffers visits. -/
inductive BufferLoop
  | named
  | matching (re : Text)
  | others (re : Text)
deriving DecidableEq

inductive Cmd
  | act (addr : Option Addr) (action : Action)
  | guard (addr : Option Addr) (re : Text) (negated : Bool) (body : Cmd)
  | extract (addr : Option Addr) (loop : RangeLoop) (body : Cmd)
  | buffers (loop : BufferLoop) (body : Cmd)
  | group (addr : Option Addr) (body : List Cmd)

namespace Action

/-- The letter an action is written with. -/
def letter : Action → Char
  | newline => '\n'
  | append _ => 'a'
  | insert _ => 'i'
  | change _ => 'c'
  | delete => 'd'
  | move _ => 'm'
  | copy _ => 't'
  | print => 'p'
  | substitute .. => 's'
  | undo _ => 'u'
  | position _ => '='
  | switch _ => 'b'
  | openFiles _ => 'B'
  | closeFiles _ => 'D'
  | load _ => 'e'
  | read _ => 'r'
  | rename _ => 'f'
  | write _ => 'w'
  | fromPipe _ => '<'
  | throughPipe _ => '|'
  | toPipe _ => '>'
  | other letter _ => letter

/-- Actions that make sense without a current buffer; closing does when it names files. -/
def windowless : Action → Bool
  | switch _ | openFiles _ => true
  | closeFiles names => !names.isEmpty
  | _ => false

end Action

namespace RangeLoop

def letter : RangeLoop → Char
  | lines | matching _ => 'x'
  | between _ => 'y'

def pattern : RangeLoop → Text
  | lines => []
  | matching re | between re => re

end RangeLoop

namespace BufferLoop

def letter : BufferLoop → Char
  | named | matching _ => 'X'
  | others _ => 'Y'

def pattern : BufferLoop → Text
  | named => []
  | matching re | others re => re

end BufferLoop

namespace Cmd

def addr? : Cmd → Option Addr
  | act a _ | guard a .. | extract a .. | group a _ => a
  | buffers .. => none

def letter : Cmd → Char
  | act _ a => a.letter
  | guard _ _ negated _ => if negated then 'v' else 'g'
  | extract _ l _ => l.letter
  | buffers l _ => l.letter
  | group .. => '{'

def windowless : Cmd → Bool
  | act _ a => a.windowless
  | buffers .. => true
  | _ => false

end Cmd

end StructuralEdit
