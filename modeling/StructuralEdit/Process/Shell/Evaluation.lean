import StructuralEdit.Process.Shell.Builtin
import StructuralEdit.Process.Shell.Reader
import StructuralEdit.Process.Shell.Redirect
import StructuralEdit.Process.Shell.Toolbox

/-! # Running commands

The parts of a command are expanded, then its redirections are carried out, then values
are given to names, and last the command itself is run. A budget bounds the steps.
-/
namespace StructuralEdit.Shell
open Text (Bytes)

/-! ## Lines -/

/-- Run the lines that are left of a text; whether one of them holds a command. -/
def runLines (run : Command → Eval Unit) : (fuel : Nat) → ReaderState → Eval Bool
  | 0, _ => return false
  | fuel + 1, s => do
    match Reader.nextLine s with
    | .error p _ => fail (bytes "Syntax error: " ++ p.message)
    | .ok none _ => return false
    | .ok (some .nothing) rest => runLines run fuel rest
    | .ok (some c) rest =>
      run c
      discard (runLines run fuel rest)
      return true

/-- Run a text line by line; whether it holds a command. -/
def runText (run : Command → Eval Unit) (t : Bytes) : Eval Bool :=
  runLines run (t.length + 1) { rest := t }

/-- The output of a command that stands in a word. -/
def outputOf (run : Command → Eval Unit) : Command → Eval Bytes
  | .nothing => return []
  | c => do
    let before ← get
    let t ← captured (run c)
    modify fun w => { w with status := before.status, wordStatus := w.status }
    return t

/-! ## What a name calls -/

/-- What a name stands for as the name of a command. -/
inductive Callee
  | function (body : Command)
  | builtin (b : Builtin)
  | tool (t : Tool)
  | absent (reason : Bytes) (status : Nat)

namespace Callee

/-- What goes wrong with these ends the shell, and values in front of them stay. -/
def isSpecial : Callee → Bool
  | builtin (.special _) | builtin .evaluate => true
  | _ => false

def unknown : Callee := absent (bytes "not found") 127

/-- A name that cannot be called, and why. -/
def refused : StartFault → Callee
  | .denied => absent StartFault.denied.message 126
  | .file .missing | .file .notDirectory => unknown
  | f => absent f.message 127

end Callee

namespace World

/-- Programs are looked for in the directories that a variable lists. -/
def findsPrograms (w : World) : Bool :=
  match w.value? (bytes "PATH") with
  | some t => (piecesOf (byte ':') t).any fun d => programDirectories.contains (d ++ [byte '/'])
  | none => true

def callee (w : World) (name : Bytes) : Callee :=
  if name.isEmpty then .absent StartFault.denied.message 127
  else if name.contains (byte '/') then
    match w.program name with
    | .ok (.tool t) => .tool t
    | .ok .shell => .unknown
    | .error f => .refused f
  else match w.functions.lookup name, builtins.lookup name, tools.lookup name with
    | some body, _, _ => .function body
    | none, some b, _ => .builtin b
    | none, none, some t => if w.findsPrograms then .tool t else .unknown
    | none, none, none => .unknown

/-- Put back the variables of some names. -/
def withVariablesOf (names : List Bytes) (before after : World) : World :=
  { after with
    bindings := before.bindings.filter (names.contains ·.name) ++
      after.bindings.filter (!names.contains ·.name) }

end World

/-- Run a command of the shell, which speaks in its own name. -/
def speaking (name : Bytes) (body : Eval Unit) : Eval Unit :=
  restoring (fun before after => { after with speaker := before.speaker }) do
    modify fun w => { w with speaker := some name }
    body

/-- So many functions can be at work. -/
def mostCalls : Nat := 1000

/-- Run the body of a function, whose arguments stand for those of the shell. -/
def runFunction (run : Command → Eval Unit) (body : Command) (arguments : List Bytes) :
    Eval Unit := do
  if mostCalls ≤ (← get).calls then
    fail (bytes "Maximum function recursion depth (" ++ decimal mostCalls ++ bytes ") reached")
  restoring (fun before after => { after with
      arguments := before.arguments, loops := before.loops, calls := before.calls }) do
    modify fun w => { w with arguments, loops := 0, calls := w.calls + 1 }
    try run body
    catch
      | .returned => return
      | stop => throw stop

def runBuiltin (run : Command → Eval Unit) (name : Bytes) (arguments : List Bytes) :
    Builtin → Eval Unit
  | .ordinary body => do
    try speaking name (body arguments)
    catch
      | .failed => return
      | stop => throw stop
  | .special body => speaking name (body arguments)
  | .evaluate => speaking name do
    if !(← runText run (joinBytes [byte ' '] arguments)) then setStatus 0

def runCallee (run : Command → Eval Unit) (name : Bytes) (arguments : List Bytes) :
    Callee → Eval Unit
  | .function body => runFunction run body arguments
  | .builtin b => runBuiltin run name arguments b
  | .tool t => runTool t name arguments
  | .absent reason status => do
    complain (name ++ bytes ": " ++ reason)
    setStatus status

/-! ## Simple commands -/

/-- The fields of words that may give values to names; such a word is one field. -/
def expandDeclarations (capture : Command → Eval Bytes) : List Word → Eval (List Bytes)
  | [] => return []
  | word :: rest => do
    let fields ← match Word.assignment? word with
      | some _ => do pure [← expandText capture word]
      | none => expandWord capture word
    return fields ++ (← expandDeclarations capture rest)

/-- The fields of a command, the first of which is its name. -/
def commandFields (capture : Command → Eval Bytes) : List Word → Eval (List Bytes)
  | [] => return []
  | word :: rest => do
    match ← expandWord capture word with
    | [] => commandFields capture rest
    | name :: more =>
      let arguments ←
        if declares name then expandDeclarations capture rest else expandWords capture rest
      return name :: more ++ arguments

def giveValues (capture : Command → Eval Bytes) : List Assignment → Eval Unit
  | [] => return
  | .of name value :: rest => do
    assign name (← expandText capture value)
    giveValues capture rest

def runSimple (run : Command → Eval Unit) (assignments : List Assignment) (words : List Word)
    (redirections : List Redirection) : Eval Unit := do
  let capture := outputOf run
  modify fun w => { w with wordStatus := 0 }
  let fields ← commandFields capture words
  let ready ← prepareAll capture redirections
  match fields with
  | [] =>
    discard <| redirected ready do
      giveValues capture assignments
      modify fun w => { w with status := w.wordStatus }
  | name :: arguments =>
    let callee := (← get).callee name
    let body := do
      giveValues capture assignments
      runCallee run name arguments callee
    let names := assignments.map fun | .of name _ => name
    let isOpen ← redirected ready
      (if callee.isSpecial then body else restoring (World.withVariablesOf names) body)
    if callee.isSpecial && !isOpen then throw .failed

/-! ## Compound commands -/

def negateStatus : Eval Unit :=
  modify fun w => { w with status := if w.status = 0 then 1 else 0 }

/-- Run a command and turn its status around, also if it ends loops or a function. -/
def runNegated (body : Eval Unit) : Eval Unit := do
  try
    body
    negateStatus
  catch
    | .loop count goesOn =>
      negateStatus
      throw (.loop count goesOn)
    | .returned =>
      negateStatus
      throw .returned
    | stop => throw stop

/-- Run something with another input. -/
def fed (input : Channel) (body : Eval Unit) : Eval Unit := do
  let before ← get
  set (before.openChannel 0 input)
  body
  modify fun w => { w with descriptors := before.descriptors }

/-- Run the stages of a pipeline, each apart and reading what the one before has printed. -/
def runStages (run : Command → Eval Unit) : List Command → Eval Unit
  | [] => return
  | [c] => apart (run c)
  | c :: rest => do
    let before ← get
    let t ← captured (run c)
    setStatus before.status
    fed (.source t .pipe) (runStages run rest)

/-- How a part of a loop ends. -/
inductive PartEnd
  | complete
  /-- The round is over. -/
  | skipped
  /-- The loop is over. -/
  | broken
deriving DecidableEq

/-- Run a part of a loop. -/
def runPart (body : Eval Unit) : Eval PartEnd := do
  try
    body
    return .complete
  catch
    | .loop count goesOn =>
      if 1 < count then throw (.loop (count - 1) goesOn)
      return if goesOn then .skipped else .broken
    | stop => throw stop

/-- Run the rounds of a loop, which knows that it is one. -/
def asLoop (rounds : Eval Unit) : Eval Unit :=
  restoring (fun before after => { after with loops := before.loops }) do
    modify fun w => { w with loops := w.loops + 1 }
    rounds

/-- Run a body as long as a test succeeds or fails, given the last status of the body. -/
def runRounds (whileFalse : Bool) (test body : Eval Unit) : (fuel status : Nat) → Eval Unit
  | 0, status => setStatus status
  | fuel + 1, status => do
    match ← runPart test with
    | .skipped => runRounds whileFalse test body fuel status
    | .broken => setStatus status
    | .complete =>
      if ((← get).status = 0) = whileFalse then setStatus status
      else
        let ended ← runPart body
        if ended = .broken then return
        runRounds whileFalse test body fuel (← get).status

/-- Run a body for each value of a variable. -/
def runItems (name : Bytes) (body : Eval Unit) : List Bytes → Eval Unit
  | [] => return
  | item :: rest => do
    assign name item
    let ended ← runPart body
    if ended = .broken then return
    runItems name body rest

/-- The body of the first branch with a pattern that fits. -/
def chosen (capture : Command → Eval Bytes) (subject : Bytes) : List Branch → Eval Command
  | [] => return .nothing
  | .of patterns body :: rest => do
    let fits ← patterns.anyM fun word => do
      return Glob.fits (← expandPattern capture word) subject
    if fits then return body
    chosen capture subject rest

/-- Run a command within a number of steps. -/
def run : (fuel : Nat) → Command → Eval Unit
  | 0, _ => return
  | fuel + 1, c => do
    let next := run fuel
    let capture := outputOf next
    match c with
    | .nothing => return
    | .simple assignments words redirections => runSimple next assignments words redirections
    | .pipeline stages => runStages next stages
    | .negated c => runNegated (next c)
    | .both first second =>
      next first
      if (← get).status = 0 then next second
    | .either first second =>
      next first
      if (← get).status ≠ 0 then next second
    | .sequence first second =>
      next first
      next second
    | .background c =>
      fed .nullDevice (apart (next c))
      setStatus 0
    | .redirected c redirections =>
      let ready ← prepareAll capture redirections
      discard (redirected ready (next c))
    | .subshell c redirections =>
      let ready ← prepareAll capture redirections
      apart (discard (redirected ready (next c)))
    | .conditional test yes no =>
      next test
      let branch := if (← get).status = 0 then yes else no
      setStatus 0
      next branch
    | .loop whileFalse test body => asLoop (runRounds whileFalse (next test) (next body) fuel 0)
    | .forEach name words body =>
      let items ← expandWords capture words
      setStatus 0
      asLoop (runItems name (next body) items)
    | .choice subject branches =>
      let t ← expandText capture subject
      let body ← chosen capture t branches
      if body matches .nothing then setStatus 0
      next body
    | .define name body =>
      modify fun w => { w with functions := (name, body) :: w.functions, status := 0 }

end StructuralEdit.Shell
