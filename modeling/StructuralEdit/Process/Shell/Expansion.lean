import StructuralEdit.Process.Shell.Arithmetic
import StructuralEdit.Process.Shell.Field
import StructuralEdit.Process.Shell.World

/-! # Expansion of words

The pieces of a word become marks, which are split into fields where a command takes
them, and matched with the names of files.
-/
namespace StructuralEdit.Shell
open Text (Bytes)

/-! ## Parameters -/

def isArguments (name : Bytes) : Bool := name == [byte '@'] || name == [byte '*']

/-- The value of a parameter that is not all arguments. -/
def World.parameter? (w : World) (name : Bytes) : Option Bytes :=
  match name with
  | [] => none
  | b :: _ =>
    if isDigitByte b then
      match valueIn 10 name with
      | 0 => some w.shellName
      | n + 1 => w.arguments[n]?
    else if b == byte '?' then some (decimal w.status)
    else if b == byte '#' then some (decimal w.arguments.length)
    else if b == byte '-' then some []
    else w.value? name

/-- What arguments are joined by. -/
def World.joint (w : World) : Bytes :=
  match w.value? separatorsName with
  | some ifs => ifs.take 1
  | none => bytes " "

/-- The text of a parameter. -/
def World.parameterText? (w : World) (name : Bytes) : Option Bytes :=
  if isArguments name then some (joinBytes w.joint w.arguments) else w.parameter? name

/-- All arguments as marks. In quotes and with `@`, each is a field where fields are wanted. -/
def World.argumentMarks (w : World) (quoted full : Bool) (name : Bytes) : List Mark :=
  let apart := fun (arguments : List (List Mark)) => arguments.intersperse [.border] |>.flatten
  if full && quoted && name == [byte '@'] then
    apart (w.arguments.map fun a => .edge :: Mark.ofValue true a ++ [.edge])
  else if full && !quoted && w.joint.isEmpty then
    apart ((w.arguments.filter (!·.isEmpty)).map (Mark.ofValue false))
  else Mark.ofValue quoted (joinBytes w.joint w.arguments)

def World.parameterMarks (w : World) (quoted full : Bool) (name : Bytes) : List Mark :=
  if isArguments name then w.argumentMarks quoted full name
  else Mark.ofValue quoted ((w.parameter? name).getD [])

/-- Complain of a parameter without a value. -/
def refuse {α : Type} (name : Bytes) (evenEmpty : Bool) (message : Option Bytes) : Eval α :=
  fail (name ++ bytes ": " ++ message.getD
    (bytes "parameter not set" ++ if evenEmpty then bytes " or null" else []))

/-- Work out a sum, and give names the values it sets. -/
def workOut (sum : Bytes) : Eval Int := do
  let w ← get
  match Arithmetic.evaluate (fun name => (w.value? name).getD []) sum with
  | .error f => fail (f.message sum)
  | .ok (n, settings) =>
    settings.forM fun (name, n) => assign name (signedDecimal n)
    return n

/-- What a command prints, as it is put into a word. -/
def outputText (t : Bytes) : Bytes :=
  ((t.filter (· != 0)).reverse.dropWhile (· == newlineByte)).reverse

/-! ## Pieces -/

mutual

/-- Expand pieces, given how to get the output of a command. Arguments are kept apart if the result
is `full`, to be split into fields; what stands `within` another expansion is split as well. -/
def expandPieces (capture : Command → Eval Bytes) (full within : Bool) :
    List Piece → Eval (List Mark)
  | [] => return []
  | p :: rest => do
    let ms ← expandPiece capture full within p
    return ms ++ (← expandPieces capture full within rest)

def expandPiece (capture : Command → Eval Bytes) (full within : Bool) : Piece → Eval (List Mark)
  | .literal quoted t =>
    return if t.isEmpty then [.edge] else Mark.ofBytes quoted (within && !quoted) t
  | .parameter quoted name use => expandUse capture full quoted name use
  | .outputOf quoted body => do return Mark.ofValue quoted (outputText (← capture body))
  | .sum quoted word => do
    let n ← workOut (Mark.text (← expandPieces capture false false word))
    return Mark.ofValue quoted (signedDecimal n)

def expandUse (capture : Command → Eval Bytes) (full quoted : Bool) (name : Bytes) :
    ParameterUse → Eval (List Mark)
  | .value => return (← get).parameterMarks quoted full name
  | .length => do
    let t := ((← get).parameterText? name).getD []
    return Mark.ofValue quoted (decimal t.length)
  | .fallback kind evenEmpty word => do
    let w ← get
    let isSet := match w.parameterText? name with
      | some t => !(evenEmpty && t.isEmpty)
      | none => false
    match kind, isSet with
    | .present, true => expandPieces capture full true word
    | .present, false => return []
    | _, true => return w.parameterMarks quoted full name
    | .replaced, false => expandPieces capture full true word
    | .assigned, false =>
      assign name (Mark.text (← expandPieces capture false false word))
      return (← get).parameterMarks quoted full name
    | .refused, false =>
      let t := Mark.text (← expandPieces capture false false word)
      refuse name evenEmpty (if word.isEmpty then none else some t)
  | .trimmed fromEnd longest pattern => do
    match (← get).parameterText? name with
    | none => return []
    | some t =>
      let atoms := Glob.compile (Mark.pattern (← expandPieces capture false false pattern))
      return Mark.ofValue quoted
        (if fromEnd then Glob.trimEnd longest atoms t else Glob.trimStart longest atoms t)
  | .malformed => fail (bytes "Bad substitution")

end

/-! ## Words -/

/-- How a shell sees the names of files. -/
def World.glob (w : World) : Glob.Directory where
  entries := w.entries
  present name := match w.store.place (w.path name) with
    | .file _ | .directory => true
    | _ => false
  isDirectory name := w.store.isDirectory (w.path name)

def World.separators (w : World) : Separators :=
  .ofBytes ((w.value? separatorsName).getD Separators.blanks)

/-- The fields of a word, names of files in place of the patterns that match them. -/
def expandWord (capture : Command → Eval Bytes) (word : Word) : Eval (List Bytes) := do
  let ms ← expandPieces capture true false word
  let w ← get
  return (fieldsOf w.separators ms).flatMap (Glob.expand w.glob)

def expandWords (capture : Command → Eval Bytes) : List Word → Eval (List Bytes)
  | [] => return []
  | word :: rest => do
    let fields ← expandWord capture word
    return fields ++ (← expandWords capture rest)

/-- A word as one text, which is not split. -/
def expandText (capture : Command → Eval Bytes) (word : Word) : Eval Bytes :=
  return Mark.text (← expandPieces capture false false word)

/-- A word as a pattern. -/
def expandPattern (capture : Command → Eval Bytes) (word : Word) : Eval (List Glob.Atom) :=
  return Glob.compile (Mark.pattern (← expandPieces capture false false word))

end StructuralEdit.Shell
