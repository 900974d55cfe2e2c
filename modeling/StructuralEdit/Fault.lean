import StructuralEdit.Buffer.Basic
import StructuralEdit.Command.Cursor
import StructuralEdit.Files.Store
import StructuralEdit.Pattern.Problem
import StructuralEdit.Process.Runner
import StructuralEdit.Text.Decoding

/-! # Why a command fails

An edit error ends the command at work, whose pending changes are dropped. Any
other fault is a misuse of the layers below and leaves everything as it stands.
-/
namespace StructuralEdit

inductive EditError
  | parse (e : ParseError)
  | noCurrentWindow
  | addressOutOfRange
  | markAddress
  | noMatch
  | noFurtherMatch
  | badPattern (place : Text)
  | tooManyFilesMatch (re : Text)
  | noFileMatches (re : Text)
  | differentFiles
  | outOfOrder
  | moveOverlaps
  | noSubstitution
  | newlineExpected
  | noSuchFile (name : Text)
  | noFileName
  | noWriteName
  | modified (name : Text)
  | isDirectory (name : Text)
  | cannotOpen (name : Text) (fault : FileFault)
  | pendingChanges
  | noCommand (letter : Text)
  | processFailed (report : Text)
  | bufferNotOpen
  | nestedBufferLoop (letter : Char)
  | dotBeyondBuffer
  /-- No step of an address is of this type. -/
  | badAddressType (kind : Char)
deriving DecidableEq

open Text in
def EditError.message : EditError → Text
  | parse e => e.message
  | noCurrentWindow => "no current window".toList
  | addressOutOfRange => "address out of range".toList
  | markAddress => "can't handle '".toList
  | noMatch => "no match for regexp".toList
  | noFurtherMatch => "address".toList
  | badPattern place => "bad regexp in ".toList ++ place
  | tooManyFilesMatch re => "too many files match \"".toList ++ re ++ ['"']
  | noFileMatches re => "no file matches \"".toList ++ re ++ ['"']
  | differentFiles => "addresses in different files".toList
  | outOfOrder => "addresses out of order".toList
  | moveOverlaps => "move overlaps itself".toList
  | noSubstitution => "no substitution".toList
  | newlineExpected => "newline expected".toList
  | noSuchFile name => "no such file \"".toList ++ name ++ ['"']
  | noFileName => "no file name given".toList
  | noWriteName => "no name specified for 'w' command".toList
  | modified name => (if name.isEmpty then "unnamed file".toList else name) ++ " modified".toList
  | isDirectory name => name ++ " is a directory".toList
  | cannotOpen name f => "can't open ".toList ++ name ++ ": ".toList ++ f.message
  | pendingChanges => "can't write file with pending modifications".toList
  | noCommand letter => "no command specified for ".toList ++ letter
  | processFailed report => report
  | bufferNotOpen => "buffer is not open in this workspace".toList
  | nestedBufferLoop letter => "can't nest ".toList ++ letter :: " command".toList
  | dotBeyondBuffer => "dot extends past end of buffer during \x7b command".toList
  | badAddressType kind => "bad address type ".toList ++ Text.quoted [kind]

/-- What a text is needed for. -/
inductive TextUse
  | measuring
  | searching
deriving DecidableEq

inductive Fault
  | edit (e : EditError)
  /-- There is no buffer to start from. -/
  | noBuffer
  | offset (f : OffsetFault)
  | search (f : SearchFault)
  /-- There is no text to work on. -/
  | noText (use : TextUse)
  | embeddedNull
  | range (f : RangeFault)
  | pattern (f : Pattern.Failure)
  /-- A program has printed bytes that are no text. -/
  | encoding (f : Text.EncodingFault)
  /-- A file that is to be opened may not be read. -/
  | unreadable (name : Text)
deriving DecidableEq

/-- The fault of a command whose program gives no output. -/
def ProcessFault.fault : ProcessFault → Fault
  | refused report => .edit (.processFailed report)
  | embeddedNull => .embeddedNull
  | encoding f => .encoding f

end StructuralEdit
