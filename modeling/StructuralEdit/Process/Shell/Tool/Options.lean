import StructuralEdit.Process.Shell.Tool.Basic

/-! # Options of tools

Options are letters behind a dash or words behind two, which may be cut short as long as
they are told apart. Other arguments may stand between them, unless a tool wants all
options in front.
-/
namespace StructuralEdit.Shell.Tool
open Text (Bytes)

/-- Whether an option takes an argument. -/
inductive Need
  | nothing
  | required
  | optional
deriving DecidableEq

/-- A long option stands for the letter of a short one, or for a letter of its own. -/
structure LongOption where
  name : String
  letter : Char
  need : Need := .nothing
deriving DecidableEq

structure OptionTable where
  /-- Letters of short options. -/
  letters : String
  /-- Those of them that take an argument. -/
  withArgument : String := ""
  long : List LongOption
  /-- Options end with the first argument that is none. -/
  optionsFirst : Bool := false
  /-- Whether an argument that begins with a plus is an option, to which an argument that begins with
  a dash and a digit belongs. -/
  isPlus : Bytes → Bool := fun _ => false

/-- What is wrong with an option. -/
inductive OptionFault
  | unknownLetter (b : UInt8)
  | letterAlone (b : UInt8)
  | unknownWord (t : Bytes)
  | ambiguous (t : Bytes) (possible : List LongOption)
  | wordAlone (o : LongOption)
  | argumentRefused (o : LongOption)

def OptionFault.message : OptionFault → Bytes
  | unknownLetter b => bytes "invalid option -- '" ++ b :: bytes "'"
  | letterAlone b => bytes "option requires an argument -- '" ++ b :: bytes "'"
  | unknownWord t => bytes "unrecognized option '--" ++ t ++ bytes "'"
  | ambiguous t possible => bytes "option '--" ++ t ++ bytes "' is ambiguous; possibilities:"
      ++ possible.flatMap fun o => bytes " '--" ++ bytes o.name ++ bytes "'"
  | wordAlone o => bytes "option '--" ++ bytes o.name ++ bytes "' requires an argument"
  | argumentRefused o => bytes "option '--" ++ bytes o.name ++ bytes "' doesn't allow an argument"

/-- An option as given. -/
abbrev Given := Char × Option Bytes

/-- The options and the other arguments, up to the first fault. -/
structure Parsed where
  options : List Given := []
  operands : List Bytes := []
  fault : Option OptionFault := none

namespace Parsed

def addOption (o : Given) (p : Parsed) : Parsed := { p with options := o :: p.options }

def addOperand (t : Bytes) (p : Parsed) : Parsed := { p with operands := t :: p.operands }

def stop (f : OptionFault) : Parsed := { fault := some f }

end Parsed

/-- A dash with a digit behind it. -/
def isNegative (t : Bytes) : Bool :=
  match t with
  | dash :: b :: _ => dash == byte '-' && isDigitByte b
  | _ => false

namespace OptionTable

/-- The long option that a word stands for. -/
def find (t : OptionTable) (word : Bytes) : Except OptionFault LongOption :=
  match t.long.find? fun o => bytes o.name == word with
  | some o => .ok o
  | none =>
    let possible := t.long.filter fun o => word.isPrefixOf (bytes o.name)
    match possible with
    | [] => .error (.unknownWord word)
    | o :: rest =>
      if rest.all fun r => r.letter = o.letter && r.need = o.need then .ok o
      else .error (.ambiguous word possible)

mutual

/-- Take arguments for options and others. -/
def read (t : OptionTable) : List Bytes → Parsed
  | [] => {}
  | a :: rest =>
    match a with
    | dash :: c :: more =>
      if dash != byte '-' then other t a rest
      else if c == byte '-' then
        if more.isEmpty then { operands := rest }
        else
          let word := more.takeWhile (· != byte '=')
          let given := (more.drop word.length).tail?
          match t.find word with
          | .error (.unknownWord _) => .stop (.unknownWord more)
          | .error (.ambiguous _ possible) => .stop (.ambiguous more possible)
          | .error f => .stop f
          | .ok o =>
            if o.need = .nothing && given.isSome then .stop (.argumentRefused o)
            else if o.need = .required && given.isNone then readArgument t o.letter (.wordAlone o) rest
            else (read t rest).addOption (o.letter, given)
      else readLetters t (c :: more) rest
    | _ => other t a rest
  termination_by rest => (rest.length, 0, 0)

/-- Take the argument of an option, which is wrong without one. -/
def readArgument (t : OptionTable) (letter : Char) (fault : OptionFault) (rest : List Bytes) :
    Parsed :=
  match rest with
  | [] => .stop fault
  | next :: rest => (read t rest).addOption (letter, some next)
  termination_by (rest.length, 1, 0)

/-- Take an argument that is no option. -/
def other (t : OptionTable) (a : Bytes) (rest : List Bytes) : Parsed :=
  if t.isPlus a then
    match rest with
    | [] => (read t []).addOption ('+', some a)
    | b :: more =>
      if isNegative b then ((read t more).addOption ('-', some b)).addOption ('+', some a)
      else (read t (b :: more)).addOption ('+', some a)
  else if t.optionsFirst then { operands := a :: rest } else (read t rest).addOperand a
  termination_by (rest.length, 1, 0)

/-- Take letters behind one dash. -/
def readLetters (t : OptionTable) (letters : Bytes) (rest : List Bytes) : Parsed :=
  match letters with
  | [] => read t rest
  | b :: more =>
    let c := Char.ofNat b.toNat
    if t.withArgument.contains c then
      if more.isEmpty then readArgument t c (.letterAlone b) rest
      else (read t rest).addOption (c, some more)
    else if t.letters.contains c then (readLetters t more rest).addOption (c, none)
    else .stop (.unknownLetter b)
  termination_by (rest.length, 1, letters.length)

end

end OptionTable

/-! ## Words that options take -/

/-- What a word stands for, if it is one of those given or the beginning of only one. -/
def choose? {α : Type} (words : List (String × α)) (t : Bytes) : Option α :=
  match words.find? fun (s, _) => bytes s == t with
  | some (_, a) => some a
  | none =>
    match words.filter fun (s, _) => t.isPrefixOf (bytes s) with
    | [(_, a)] => some a
    | _ => none

/-- Complain of a word that an option does not take, and list those it does. -/
def Desk.badWord (d : Desk) (option : String) (t : Bytes) (listed : List String) : Outcome :=
  { prints := [d.complaint (bytes "invalid argument " ++ quote t ++ bytes " for '--" ++ bytes option
        ++ bytes "'"),
      .errors (line (bytes "Valid arguments are:")
        ++ listed.flatMap fun s => line (bytes "  - " ++ bytes s)),
      d.helpHint]
    status := 1 }

end StructuralEdit.Shell.Tool
