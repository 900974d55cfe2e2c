import StructuralEdit.Text.Casing
import StructuralEdit.Text.Numeral

/-! # Settings

Settings are read from named variables. A number that cannot be read counts as
not given, and a backward search reaches at least one character.
-/
namespace StructuralEdit

structure Settings where
  /-- The longest command text that is run. -/
  maxCommand : Int := 16384
  shell : List Char := "/bin/sh".toList
  backwardWindow : Int := 500
  trace : Bool := false

namespace Settings

def number (raw : Option (List Char)) (fallback : Int) : Int :=
  (raw.bind Text.readInt).getD fallback

/-- The words that switch a flag on, in any case and with blanks around. -/
def onWords : List (List Char) := ["1".toList, "true".toList, "yes".toList, "on".toList]

def flag (raw : Option (List Char)) : Bool :=
  match raw with
  | none => false
  | some t => onWords.contains ((Text.trim Text.isBlank t).map Text.lowerChar)

def nonempty (raw : Option (List Char)) : Option (List Char) := raw.filter (!·.isEmpty)

/-- The settings some variables give; the login shell stands in for one that is not set. -/
def ofVariables (value : String → Option (List Char)) (loginShell : Option (List Char)) :
    Settings :=
  let defaults : Settings := {}
  { maxCommand := number (value "MAX_COMMAND") defaults.maxCommand
    shell := ((nonempty (value "SHELL")).or (nonempty loginShell)).getD defaults.shell
    backwardWindow := max 1 (number (value "BACKWARD_WINDOW") defaults.backwardWindow)
    trace := flag (value "TRACE") }

end Settings

end StructuralEdit
