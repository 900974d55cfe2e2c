import StructuralEdit.Text.Basic
import StructuralEdit.Text.Numeral
import StructuralEdit.Text.Quoted

/-! # What can be wrong with a pattern

Each problem has one wording. Most are found at an offset of the pattern, which
the report names, with line and column if the pattern has more than one line. A search
that finds nothing is no fault; it breaks off where its window leaves the text, where no
offset can be its start, and at a match whose groups make no sense.
-/
namespace StructuralEdit.Pattern

inductive Problem
  | escapeAtEnd
  | badEscape (escape : Text)
  | incompleteEscape (escape : Text)
  | octalOutOfRange (escape : Text)
  | noNameOpening
  | unknownCharacterName (name : Text)
  | missingName (what : Text)
  | unterminatedName (terminator : Char)
  | badGroupName (name : Text)
  | unknownGroupName (name : Text)
  | groupRedefined (name : Text) (group earlier : Nat)
  | badGroupNumber
  | noSuchGroup (group : Nat)
  | openGroup
  | groupOfSameLookbehind
  | unterminatedSet
  | badRange (first last : Text)
  | repeatBounds
  | nothingToRepeat
  | multipleRepeat
  | endOfPattern
  | unknownExtension (text : Text)
  | unterminatedComment
  | unterminatedGroup
  | thirdBranch
  | lateGlobalModes
  | localeMode
  | clashingRepertoires
  | expectedModeEnd
  | unknownMode
  | expectedMode
  | expectedColon
  | globalModeOn
  | globalModeOff
  | repertoireOff
  | modeOnAndOff
  | unbalancedParenthesis
  | variableLookbehind
  | longLookbehind
  | templateRepeat (operator : Text)
deriving DecidableEq

open StructuralEdit.Text in
def Problem.message : Problem → Text
  | escapeAtEnd => "bad escape (end of pattern)".toList
  | badEscape e => "bad escape ".toList ++ e
  | incompleteEscape e => "incomplete escape ".toList ++ e
  | octalOutOfRange e => "octal escape value ".toList ++ e ++ " outside of range 0-0o377".toList
  | noNameOpening => "missing \x7b".toList
  | unknownCharacterName n => "undefined character name ".toList ++ quoted n
  | missingName w => "missing ".toList ++ w
  | unterminatedName t => "missing ".toList ++ t :: ", unterminated name".toList
  | badGroupName n => "bad character in group name ".toList ++ quoted n
  | unknownGroupName n => "unknown group name ".toList ++ quoted n
  | groupRedefined n g e =>
    "redefinition of group name ".toList ++ quoted n ++ " as group ".toList ++ ofNat g
      ++ "; was group ".toList ++ ofNat e
  | badGroupNumber => "bad group number".toList
  | noSuchGroup g => "invalid group reference ".toList ++ ofNat g
  | openGroup => "cannot refer to an open group".toList
  | groupOfSameLookbehind =>
    "cannot refer to group defined in the same lookbehind subpattern".toList
  | unterminatedSet => "unterminated character set".toList
  | badRange a b => "bad character range ".toList ++ a ++ '-' :: b
  | repeatBounds => "min repeat greater than max repeat".toList
  | nothingToRepeat => "nothing to repeat".toList
  | multipleRepeat => "multiple repeat".toList
  | endOfPattern => "unexpected end of pattern".toList
  | unknownExtension t => "unknown extension ?".toList ++ t
  | unterminatedComment => "missing ), unterminated comment".toList
  | unterminatedGroup => "missing ), unterminated subpattern".toList
  | thirdBranch => "conditional backref with more than two branches".toList
  | lateGlobalModes => "global flags not at the start of the expression".toList
  | localeMode => "bad inline flags: cannot use 'L' flag with a str pattern".toList
  | clashingRepertoires => "bad inline flags: flags 'a', 'u' and 'L' are incompatible".toList
  | expectedModeEnd => "missing -, : or )".toList
  | unknownMode => "unknown flag".toList
  | expectedMode => "missing flag".toList
  | expectedColon => "missing :".toList
  | globalModeOn => "bad inline flags: cannot turn on global flag".toList
  | globalModeOff => "bad inline flags: cannot turn off global flag".toList
  | repertoireOff => "bad inline flags: cannot turn off flags 'a', 'u' and 'L'".toList
  | modeOnAndOff => "bad inline flags: flag turned on and off".toList
  | unbalancedParenthesis => "unbalanced parenthesis".toList
  | variableLookbehind => "look-behind requires fixed-width pattern".toList
  | longLookbehind => "looks too much behind".toList
  | templateRepeat op => "internal: unsupported template operator ".toList ++ op

/-- Why a pattern could not be compiled. Only a `bad` pattern is a mistake the caller expects;
the other causes are limits of patterns as such. -/
inductive Failure
  | bad (problem : Problem) (offset : Option Nat)
  | repetitionTooLarge
  | repertoiresClash
  | tooManyDigits (count : Nat)
deriving DecidableEq

/-- The problem with the place where it was found. -/
def Problem.report (p : Problem) (pattern : Text) : Option Nat → Text
  | none => p.message
  | some offset =>
    let (line, column) := ((pattern.take offset).count '\n',
      ((pattern.take offset).reverse.takeWhile (· != '\n')).length)
    let place := p.message ++ " at position ".toList ++ Text.ofNat offset
    if pattern.contains '\n' then
      place ++ " (line ".toList ++ Text.ofNat (line + 1) ++ ", column ".toList
        ++ Text.ofNat (column + 1) ++ ")".toList
    else place

def Failure.message (pattern : Text) : Failure → Text
  | bad problem offset => "bad regexp: ".toList ++ problem.report pattern offset
  | repetitionTooLarge => "the repetition number is too large".toList
  | repertoiresClash => "ASCII and UNICODE flags are incompatible".toList
  | tooManyDigits count =>
    "Exceeds the limit (4300 digits) for integer string conversion: value has ".toList
      ++ Text.ofNat count
      ++ " digits; use sys.set_int_max_str_digits() to increase the limit".toList

end StructuralEdit.Pattern

namespace StructuralEdit

/-- Why a search breaks off. -/
inductive SearchFault
  | offset (f : OffsetFault)
  /-- The search would begin at an offset that no text can have. -/
  | unaddressableStart
  /-- A group of the match ends before it begins. -/
  | reversedGroup
deriving DecidableEq

namespace SearchFault

def message : SearchFault → Text
  | offset f => f.message
  | unaddressableStart => "Python int too large to convert to C ssize_t".toList
  | reversedGroup =>
    "The span of capturing group is wrong, please report a bug for the re module.".toList

/-- Carry a fault of reading over to the search that reads. -/
def reading {α : Type} : Except OffsetFault α → Except SearchFault α
  | .ok a => .ok a
  | .error f => .error (.offset f)

end SearchFault

end StructuralEdit
