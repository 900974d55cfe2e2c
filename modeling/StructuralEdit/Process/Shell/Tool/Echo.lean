import StructuralEdit.Process.Shell.Escape
import StructuralEdit.Process.Shell.Tool.Options

/-! # Echoing arguments

The program that prints its arguments; escapes in them count only if asked.
-/
namespace StructuralEdit.Shell.Tool.Echo
open Text (Bytes)

/-- The options in front of the arguments: whether the newline is left out, and whether escapes
count. -/
def options (bare escapes : Bool) : List Bytes → Bool × Bool × List Bytes
  | [] => (bare, escapes, [])
  | a :: rest =>
    match a with
    | dash :: b :: more =>
      if dash == byte '-' && (b :: more).all (bytes "neE").contains then
        options (bare || (b :: more).contains (byte 'n'))
          ((b :: more).foldl (fun e c => if c == byte 'e' then true
            else if c == byte 'E' then false else e) escapes) rest
      else (bare, escapes, a :: rest)
    | _ => (bare, escapes, a :: rest)

def run : Desk → Outcome := fun d =>
  let (bare, escapes, arguments) := options false false d.arguments
  let t := joinBytes [byte ' '] arguments
  let (t, ended) := if escapes then unescaped t else (t, false)
  { prints := [.output (if bare || ended then t else line t)] }

end StructuralEdit.Shell.Tool.Echo
