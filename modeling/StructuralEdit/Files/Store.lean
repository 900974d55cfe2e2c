import StructuralEdit.Files.Path
import StructuralEdit.Text.Utf8

/-! # Stored files

Files and directories, each at a location below the root. A file keeps its bytes and the
time of its last write, in nanoseconds; every write is later than all before.
-/
namespace StructuralEdit
open Text (Bytes)

inductive FileFault
  | missing
  | notDirectory
  | isDirectory
  | nameTooLong
  | embeddedNull
  | denied
deriving DecidableEq

def FileFault.message : FileFault → Text
  | missing => "No such file or directory".toList
  | notDirectory => "Not a directory".toList
  | isDirectory => "Is a directory".toList
  | nameTooLong => "File name too long".toList
  | embeddedNull => "embedded null byte".toList
  | denied => "Permission denied".toList

/-- The parts of a name below the root. -/
abbrev Location := List Text

/-- What may be done with a file: nothing, reading, or reading and writing. -/
inductive Access
  | closed
  | readOnly
  | full
deriving DecidableEq

structure StoredFile where
  location : Location
  content : Bytes
  time : Int
  access : Access := .full
deriving DecidableEq

structure FileStore where
  files : List StoredFile := []
  directories : List Location := [[]]
  /-- The working directory. -/
  here : Location := []
  /-- Directories that may not be gone into. -/
  closed : List Location := []
  /-- Directories in which no file may be made. -/
  readOnly : List Location := []
  /-- The time of the last write. -/
  clock : Int := 1000000000000
  /-- How much longer than a nanosecond it takes from a time to the next write. -/
  delay : Int → Nat := fun _ => 999999999
deriving Inhabited

/-- What a name leads to. -/
inductive Place
  | file (f : StoredFile)
  | directory
  | vacant (l : Location)
  | nowhere (fault : FileFault)

namespace FileStore

/-- The time of every directory. -/
def directoryTime : Int := 500000000000

/-- The time of the next write. -/
def next (s : FileStore) : Int := s.clock + 1 + s.delay s.clock

def longestPart : Nat := 255

def longestName : Nat := 4095

def fileAt? (s : FileStore) (l : Location) : Option StoredFile :=
  s.files.find? (·.location == l)

def hasDirectory (s : FileStore) (l : Location) : Bool := s.directories.contains l

/-- Where names are followed from: an absolute one from the root, any other from the working
directory. -/
def base (s : FileStore) (name : Text) : Location := if Path.isAbsolute name then [] else s.here

/-- Follow the parts of a name from a directory. The root is its own parent. -/
def follow (s : FileStore) : Location → List Text → Place
  | _, [] => .directory
  | here, part :: rest =>
    if part.isEmpty then s.follow here rest
    else if s.closed.contains here then .nowhere .denied
    else if part == Path.dotPart then s.follow here rest
    else if part == Path.parentPart then s.follow here.dropLast rest
    else if longestPart < (Text.encode part).length then .nowhere .nameTooLong
    else
      let there := here ++ [part]
      if s.hasDirectory there then s.follow there rest
      else match s.fileAt? there, rest with
        | some f, [] => .file f
        | some _, _ :: _ => .nowhere .notDirectory
        | none, [] => .vacant there
        | none, _ :: _ => .nowhere .missing

def place (s : FileStore) (name : Text) : Place :=
  if name.contains (Char.ofNat 0) then .nowhere .embeddedNull
  else if name.isEmpty then .nowhere .missing
  else if longestName < (Text.encode name).length then .nowhere .nameTooLong
  else s.follow (s.base name) (Path.parts name)

def isFile (s : FileStore) (name : Text) : Bool :=
  match s.place name with
  | .file _ => true
  | _ => false

/-- There is a file of the name that may not be read. -/
def isSealed (s : FileStore) (name : Text) : Bool :=
  match s.place name with
  | .file f => f.access == .closed
  | _ => false

def isDirectory (s : FileStore) (name : Text) : Bool :=
  match s.place name with
  | .directory => true
  | _ => false

def time? (s : FileStore) (name : Text) : Option Int :=
  match s.place name with
  | .file f => some f.time
  | .directory => some directoryTime
  | _ => none

def read (s : FileStore) (name : Text) : Except FileFault Bytes :=
  match s.place name with
  | .file f => if f.access = .closed then .error .denied else .ok f.content
  | .directory => .error .isDirectory
  | .vacant _ => .error .missing
  | .nowhere e => .error e

/-- The directories above a location. -/
def ancestors : Location → List Location
  | [] => [[]]
  | part :: rest => [] :: (ancestors rest).map (part :: ·)

/-- Make a directory with all those above it. -/
def addDirectory (s : FileStore) (l : Location) : FileStore :=
  { s with directories := s.directories ++ (ancestors l).filter (!s.directories.contains ·) }

/-- The file that comes of content put at a location. What may be done with it stays as it was. -/
def written (s : FileStore) (l : Location) (content : Bytes) : StoredFile :=
  ⟨l, content, s.next, ((s.fileAt? l).map (·.access)).getD .full⟩

/-- Put content at a location and give it the next time. -/
def put (s : FileStore) (l : Location) (content : Bytes) : FileStore :=
  let file := s.written l content
  let files := if (s.fileAt? l).isSome
    then s.files.map fun f => if f.location == l then file else f
    else s.files ++ [file]
  { s with files, clock := s.next }

/-- Where a file of this name would be written. A name that ends in a slash can only be a
directory's. -/
def writePlace (s : FileStore) (name : Text) : Place :=
  if name.getLast? == some '/' then
    let bare := (name.reverse.dropWhile (· == '/')).reverse
    match s.place bare with
    | .nowhere e => if bare.isEmpty then .directory else .nowhere e
    | _ => .directory
  else s.place name

def write (s : FileStore) (name : Text) (content : Bytes) : Except FileFault FileStore :=
  match s.writePlace name with
  | .file f => if f.access = .full then .ok (s.put f.location content) else .error .denied
  | .vacant l => if s.readOnly.contains l.dropLast then .error .denied else .ok (s.put l content)
  | .directory => .error .isDirectory
  | .nowhere e => .error e

def touch (s : FileStore) (name : Text) (time : Int) : FileStore :=
  match s.place name with
  | .file f => { s with files := s.files.map fun g =>
      if g.location == f.location then { g with time } else g }
  | _ => s

def remove (s : FileStore) (name : Text) : FileStore :=
  match s.place name with
  | .file f => { s with files := s.files.filter (·.location != f.location) }
  | _ => s

/-- The location a plain name stands for. -/
def locationOf (s : FileStore) (name : Text) : Location :=
  s.base name ++ ((Path.parts name).foldl (Path.addPart false) []).reverse

/-- Put a file in place, making its directory first. -/
def supply (s : FileStore) (name : Text) (content : Bytes) : FileStore :=
  let l := s.locationOf name
  (s.addDirectory l.dropLast).put l content

end FileStore

end StructuralEdit
