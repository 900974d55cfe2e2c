import StructuralEdit.Process.Shell.Token

/-! # Reading command lines

A recursive reader, which may look at one token before it takes it. Words are read along
with the command lines that stand in them.
-/
namespace StructuralEdit.Shell
open Text (Bytes)

structure ReaderState where
  rest : Bytes
  /-- The last token, which may have been put back. -/
  last : Token := .endOfInput
  putBack : Bool := false
  /-- The last word, which stays while other tokens are read. -/
  lastWord : Word := []
  /-- What is read marks the end of a document, and expands nothing. -/
  isMarker : Bool := false

/-- Reading takes bytes off the front of those that are left. -/
abbrev Reader := EStateM SyntaxProblem ReaderState

namespace Reader

/-! ## Bytes -/

def peek : Reader (Option UInt8) := return (← get).rest.head?

def skip : Reader Unit := modify fun s => { s with rest := s.rest.tail }

def take : Reader (Option UInt8) := do
  let b ← peek
  skip
  return b

/-- Take the bytes of a class. -/
def takeAll (p : UInt8 → Bool) : Reader Bytes := do
  let t := (← get).rest.takeWhile p
  modify fun s => { s with rest := s.rest.drop t.length }
  return t

/-- Take a byte if it is next. -/
def takeIf (c : Char) : Reader Bool := do
  if (← peek) == some (byte c) then
    skip
    return true
  return false

def backquote : UInt8 := 0x60

def isBlank (b : UInt8) : Bool := b == byte ' ' || b == byte '\t'

def endsWord (b : UInt8) : Bool := isBlank b || (bytes "\n|&;<>()").contains b

def isSpecialParameter (b : UInt8) : Bool := isDigitByte b || (bytes "!#$*-?@").contains b

/-! ## Tokens -/

/-- What is next is not what is due. -/
def unexpected {α : Type} (due : Option Token) : Reader α := do
  throw (.unexpected (← get).last due)

def found (t : Token) : Reader Token := do
  modify fun s => { s with last := t }
  return t

def foundWord (w : Word) : Reader Token := do
  modify fun s => { s with lastWord := w }
  found (.word w)

def putBack : Reader Unit := modify fun s => { s with putBack := true }

def operatorAt (b : UInt8) : Reader Operator := do
  match Char.ofNat b.toNat with
  | '|' => if ← takeIf '|' then return .orElse else return .pipe
  | '&' => if ← takeIf '&' then return .andThen else return .background
  | ';' => if ← takeIf ';' then return .doubleSemicolon else return .semicolon
  | '(' => return .leftParen
  | _ => return .rightParen

/-- What kind of redirection goes on behind `>`. -/
def outputKind : Reader RedirectionKind := do
  if ← takeIf '>' then return .opened .append
  if ← takeIf '|' then return .opened .output
  if ← takeIf '&' then return .copied
  return .opened .output

/-- What kind of redirection goes on behind `<`. -/
def inputKind : Reader RedirectionKind := do
  if ← takeIf '<' then
    discard (takeIf '-')
    return .document
  if ← takeIf '&' then return .copied
  if ← takeIf '>' then return .opened .update
  return .opened .input

/-- The redirection that an angle bracket begins, with a descriptor in front of it or not. -/
def redirectionAt (descriptor : Option Nat) : Reader Token := do
  if ← takeIf '>' then return .redirection (descriptor.getD 1) (← outputKind)
  skip
  return .redirection (descriptor.getD 0) (← inputKind)

/-- The descriptor that stands in front of a redirection. -/
def descriptor? : Word → Option (Option Nat)
  | [] => some none
  | [.literal false [b]] => if isDigitByte b then some (some (digitOf b)) else none
  | _ => none

/-! ## Words -/

/-- Where the pieces of a word stand. -/
inductive Place
  | bare
  /-- In the braces of a parameter. -/
  | braces
  /-- Between double quotes, which may stand in the braces of a parameter. -/
  | quotes (inBraces : Bool)
  /-- In the braces of a parameter between double quotes, behind an odd number of further ones. -/
  | quotedBraces (inner : Bool)
  /-- In a sum, within so many parentheses. -/
  | sum (depth : Nat)

namespace Place

def isQuoted : Place → Bool
  | bare | braces => false
  | _ => true

/-- The place of a word in the braces of a parameter that stands here. -/
def within : Place → Place
  | bare | braces => .braces
  | _ => .quotedBraces false

/-- What is wrong if there is nothing more here. -/
def problem? : Place → Option SyntaxProblem
  | bare => none
  | braces => some .openBraces
  | quotes _ | quotedBraces _ => some .unterminatedQuote
  | sum _ => some .openSum

/-- A backslash in front of this byte is taken away. -/
def escapes (p : Place) (b : UInt8) : Bool :=
  match p with
  | bare | braces => true
  | quotes false | sum _ => (bytes "\\$\"").contains b || b == backquote
  | quotes true | quotedBraces _ => (bytes "\\$\"\x7d").contains b || b == backquote

end Place

/-- The text up to a single quote. -/
def singleQuoted : Reader Bytes := do
  let t ← takeAll (· != byte '\'')
  match ← take with
  | some _ => return t
  | none => throw .unterminatedQuote

/-- The text up to a backquote, the escapes of backquotes resolved. -/
def backquoted (quoted : Bool) : Bytes → Except SyntaxProblem (Bytes × Bytes)
  | [] => .error .openBackquote
  | [b] => if b == backquote then .ok ([], []) else .error .openBackquote
  | b :: c :: rest =>
    if b == backquote then .ok ([], c :: rest)
    else if b == backslash then
      (backquoted quoted rest).map fun (t, more) =>
        if c == backslash || c == backquote || c == byte '$' || (quoted && c == byte '"')
        then (c :: t, more) else (b :: c :: t, more)
    else (backquoted quoted (c :: rest)).map fun (t, more) => (b :: t, more)

/-- A backslash and what it escapes. -/
def escaped (p : Place) : Reader Word := do
  match ← take with
  | none => return [.literal true [backslash]]
  | some b =>
    if b == newlineByte then return []
    return [.literal true (if p.escapes b then [b] else [backslash, b])]

/-- The name of a parameter behind its opening brace. -/
inductive BracedName
  | valueOf (name : Bytes)
  | lengthOf (name : Bytes)
  | malformed

def nameIn : Reader (Option Bytes) := do
  match ← peek with
  | none => return none
  | some b =>
    if beginsName b then return some (← takeAll isNameByte)
    else if isDigitByte b then return some (← takeAll isDigitByte)
    else return none

def bracedName : Reader BracedName := do
  match ← nameIn with
  | some name => return .valueOf name
  | none =>
    match ← peek with
    | none => return .malformed
    | some b =>
      if b == byte '\x7d' then return .malformed
      skip
      if b != byte '#' then return if isSpecialParameter b then .valueOf [b] else .malformed
      match ← nameIn with
      | some name => return .lengthOf name
      | none =>
        match (← get).rest with
        | c :: d :: _ =>
          if c != byte '\x7d' && d == byte '\x7d' then
            if isSpecialParameter c then
              skip
              return .lengthOf [c]
            else
              skip
              return .malformed
          return .valueOf [b]
        | _ => return .valueOf [b]

/-- What is done with the value of a parameter, up to the word that says more. -/
inductive BracedUse
  | value
  /-- The value, and the rest of the word is lost behind the brace. -/
  | valueAtEnd
  | length
  | fallback (kind : Fallback) (evenEmpty : Bool)
  | trimmed (fromEnd longest : Bool)
  | malformed

def fallbackOf? (b : UInt8) : Option Fallback :=
  [(byte '-', Fallback.replaced), (byte '=', .assigned), (byte '?', .refused),
    (byte '+', .present)].lookup b

def useAt (name : BracedName) : Reader BracedUse := do
  match name with
  | .malformed => return .malformed
  | .lengthOf _ => return if (← peek) == some (byte '\x7d') then .length else .malformed
  | .valueOf _ =>
    match ← take with
    | none => return .malformed
    | some b =>
      if b == byte '\x7d' then return .value
      else if b == byte '%' then return .trimmed true (← takeIf '%')
      else if b == byte '#' then return .trimmed false (← takeIf '#')
      else if b == byte ':' then
        match ← take with
        | none => return .malformed
        | some b =>
          if b == byte '\x7d' then return .valueAtEnd
          return (fallbackOf? b).elim .malformed (.fallback · true)
      else return (fallbackOf? b).elim .malformed (.fallback · false)

/-- The text begins with all arguments in quotes, behind the first of the quotes. -/
def quotedArguments? (t : Bytes) : Option Bytes :=
  let begins := fun (s : String) => (bytes s).isPrefixOf t
  if begins "$@\"" then some (t.drop 3)
  else if begins "$\x7b@\x7d\"" then some (t.drop 5)
  else none

/-- How newlines and words are taken where a token is read. -/
structure Expectation where
  skipsNewlines : Bool := false
  keywords : Bool := false

def plain : Expectation := {}

def keywords : Expectation := { keywords := true }

/-- A command may begin, after any number of newlines. -/
def start : Expectation := { skipsNewlines := true, keywords := true }

/-- Where a list of commands ends. -/
inductive Extent
  /-- At the end of the line. -/
  | line
  /-- In front of a closing token, with one command at least. -/
  | body
  | optionalBody
deriving DecidableEq

def afterCommand (done : Option Command) (c : Command) : Command :=
  match done with
  | some d => .sequence d c
  | none => c

def withRedirections (c : Command) (rs : List Redirection) : Command :=
  if rs.isEmpty then c
  else match c with
    | .subshell body _ => .subshell body rs
    | _ => .redirected c rs

/-- Names that a function cannot have. -/
def reservedNames : List Bytes :=
  ["break", ":", "continue", ".", "eval", "exec", "exit", "export", "readonly", "return", "set",
    "shift", "times", "trap", "unset"].map bytes

mutual

/-- The pieces of a word up to where they end. -/
def pieces : (fuel : Nat) → Place → Reader Word
  | 0, _ => throw .unterminatedQuote
  | fuel + 1, p => do
    let goOn := fun (w : Word) => return w ++ (← pieces fuel p)
    let literal := fun (b : UInt8) => return Piece.addLiteral p.isQuoted [b] (← pieces fuel p)
    match ← peek, p with
    | none, _ =>
      match p.problem? with
      | some e => throw e
      | none => return []
    | some b, .bare =>
      if endsWord b then return []
      else unquoted fuel p b
    | some b, .braces =>
      if b == byte '\x7d' then
        skip
        return []
      else unquoted fuel p b
    | some b, _ =>
      skip
      if b == backslash then goOn (← escaped p)
      else if b == byte '$' then goOn (← dollar fuel p)
      else if b == backquote then goOn (← outputInBackquotes fuel p)
      else if b == byte '"' then
        match p with
        | .quotes _ => return []
        | .quotedBraces inner => return .literal true [] :: (← pieces fuel (.quotedBraces !inner))
        | _ => literal b
      else if b == byte '\x7d' then
        match p with
        | .quotedBraces false => return []
        | _ => literal b
      else match p with
        | .sum depth =>
          if b == byte '(' then return Piece.addLiteral true [b] (← pieces fuel (.sum (depth + 1)))
          else if b == byte ')' then
            match depth with
            | depth + 1 => return Piece.addLiteral true [b] (← pieces fuel (.sum depth))
            | 0 => if ← takeIf ')' then return [] else literal b
          else literal b
        | _ => literal b

/-- A piece outside double quotes, and those behind it. -/
def unquoted : (fuel : Nat) → Place → (b : UInt8) → Reader Word
  | 0, _, _ => throw .unterminatedQuote
  | fuel + 1, p, b => do
    let goOn := fun (w : Word) => return w ++ (← pieces fuel p)
    skip
    if b == backslash then goOn (← escaped p)
    else if b == byte '\'' then
      let t ← singleQuoted
      goOn [.literal true t]
    else if b == byte '"' then
      match quotedArguments? (← get).rest with
      | some rest =>
        modify fun s => { s with rest }
        goOn Word.arguments
      | none =>
        let inner ← pieces fuel (.quotes (p matches .braces))
        goOn (.literal true [] :: inner ++ [.literal true []])
    else if b == byte '$' then goOn (← dollar fuel p)
    else if b == backquote then goOn (← outputInBackquotes fuel p)
    else return Piece.addLiteral false [b] (← pieces fuel p)

/-- What a dollar sign begins. -/
def dollar : (fuel : Nat) → Place → Reader Word
  | 0, _ => throw .unterminatedQuote
  | fuel + 1, p => do
    let s ← get
    let sign := [Piece.literal p.isQuoted [byte '$']]
    match if s.isMarker then none else s.rest.head? with
    | none => return sign
    | some b =>
      if b == byte '(' then
        skip
        if ← takeIf '(' then return [.sum p.isQuoted (← pieces fuel (.sum 0))]
        let body ← listAt fuel .optionalBody none
        if !(← next fuel plain).isOperator .rightParen then
          unexpected (some (.operator .rightParen))
        return [.outputOf p.isQuoted (body.getD .nothing)]
      else if b == byte '\x7b' then
        skip
        braced fuel p
      else if beginsName b then return [.parameter p.isQuoted (← takeAll isNameByte) .value]
      else if isSpecialParameter b then
        skip
        return [.parameter p.isQuoted [b] .value]
      else return sign

/-- A parameter behind its opening brace. -/
def braced : (fuel : Nat) → Place → Reader Word
  | 0, _ => throw .openBraces
  | fuel + 1, p => do
    let read ← bracedName
    let name := match read with
      | .valueOf n | .lengthOf n => n
      | .malformed => []
    let parameter := fun (use : ParameterUse) => [Piece.parameter p.isQuoted name use]
    match ← useAt read with
    | .value => return parameter .value
    | .valueAtEnd =>
      let w ← pieces fuel p.within
      discard (pieces fuel p)
      return parameter .value ++ w
    | .length =>
      discard (pieces fuel p.within)
      return parameter .length
    | .fallback kind evenEmpty => return parameter (.fallback kind evenEmpty (← pieces fuel p.within))
    | .trimmed fromEnd longest => return parameter (.trimmed fromEnd longest (← pieces fuel .braces))
    | .malformed =>
      discard (pieces fuel p.within)
      return parameter .malformed

/-- A command line between backquotes. What stands in it behind a closing token is left out. -/
def outputInBackquotes : (fuel : Nat) → Place → Reader Word
  | 0, _ => throw .openBackquote
  | fuel + 1, p => do
    let s ← get
    if s.isMarker then return [.literal true [backquote]]
    match backquoted p.isQuoted s.rest with
    | .error e => throw e
    | .ok (inner, rest) =>
      modify fun s => { s with rest := inner }
      let body ← listAt fuel .optionalBody none
      modify fun s => { s with rest, putBack := false }
      return [.outputOf p.isQuoted (body.getD .nothing)]

/-- Read a token from the text. A number sign where a word could begin opens a comment. -/
def scan : (fuel : Nat) → Reader Token
  | 0 => found .endOfInput
  | fuel + 1 => do
    match ← peek with
    | none => found .endOfInput
    | some b =>
      if isBlank b then
        skip
        scan fuel
      else if b == byte '#' then
        discard (takeAll (· != newlineByte))
        scan fuel
      else if b == newlineByte then
        skip
        found .newline
      else if b == backslash && (← get).rest[1]? == some newlineByte then
        skip
        skip
        scan fuel
      else if endsWord b && b != byte '<' && b != byte '>' then
        skip
        found (.operator (← operatorAt b))
      else
        let w ← pieces fuel .bare
        let next ← peek
        match descriptor? w with
        | some d =>
          if next == some (byte '<') || next == some (byte '>') then found (← redirectionAt d)
          else foundWord w
        | none => foundWord w

/-- The next token. -/
def next : (fuel : Nat) → Expectation → Reader Token
  | 0, _ => found .endOfInput
  | fuel + 1, e => do
    let s ← get
    let t ← if s.putBack then do
        set { s with putBack := false }
        pure s.last
      else scan fuel
    match t with
    | .newline => if e.skipsNewlines then next fuel e else return t
    | .word w =>
      match if e.keywords then Keyword.ofWord? w else none with
      | some k => found (.keyword k)
      | none => return t
    | _ => return t

def listAt : (fuel : Nat) → Extent → (done : Option Command) → Reader (Option Command)
  | 0, _, _ => unexpected none
  | fuel + 1, extent, done => do
    match ← next fuel { skipsNewlines := extent ≠ .line, keywords := true } with
    | .newline => return done
    | .endOfInput =>
      putBack
      return done
    | t =>
      putBack
      if t.closes && (extent = .optionalBody || (extent = .body && done.isSome)) then return done
      let c ← andOr fuel
      let t ← next fuel plain
      let isBackground := t.isOperator .background
      let done := some (afterCommand done (if isBackground then .background c else c))
      match t with
      | .endOfInput =>
        putBack
        return done
      | .newline =>
        putBack
        listAt fuel extent done
      | t =>
        if isBackground || t.isOperator .semicolon then listAt fuel extent done
        else if extent = .line then unexpected none
        else
          putBack
          return done

def andOr : (fuel : Nat) → Reader Command
  | 0 => unexpected none
  | fuel + 1 => do
    let first ← pipelineAt fuel plain
    andOrRest fuel first

def andOrRest : (fuel : Nat) → Command → Reader Command
  | 0, c => return c
  | fuel + 1, c => do
    match ← next fuel plain with
    | .operator .andThen =>
      let d ← pipelineAt fuel start
      andOrRest fuel (.both c d)
    | .operator .orElse =>
      let d ← pipelineAt fuel start
      andOrRest fuel (.either c d)
    | _ =>
      putBack
      return c

def pipelineAt : (fuel : Nat) → Expectation → Reader Command
  | 0, _ => unexpected none
  | fuel + 1, e => do
    let isNegated := (← next fuel e).isKeyword .negation
    if !isNegated then putBack
    let first ← commandAt fuel (if isNegated then keywords else plain)
    let stages ← stagesAfter fuel
    let c := if stages.isEmpty then first else .pipeline (first :: stages)
    return if isNegated then .negated c else c

def stagesAfter : (fuel : Nat) → Reader (List Command)
  | 0 => return []
  | fuel + 1 => do
    match ← next fuel plain with
    | .operator .pipe =>
      let c ← commandAt fuel start
      return c :: (← stagesAfter fuel)
    | _ =>
      putBack
      return []

/-- A list that must have a command. -/
def bodyAt : (fuel : Nat) → Reader Command
  | 0 => unexpected none
  | fuel + 1 => return (← listAt fuel .body none).getD .nothing

def expectKeyword : (fuel : Nat) → Expectation → Keyword → Reader Unit
  | 0, _, _ => unexpected none
  | fuel + 1, e, k => do
    if !(← next fuel e).isKeyword k then unexpected (some (.keyword k))

def commandAt : (fuel : Nat) → Expectation → Reader Command
  | 0, _ => unexpected none
  | fuel + 1, e => do
    let close := fun (c : Command) (k : Keyword) => do
      expectKeyword fuel plain k
      return withRedirections c (← redirectionsAt fuel keywords)
    match ← next fuel e with
    | .keyword .ifWord =>
      let c ← conditionalAt fuel
      close c .endIf
    | .keyword .whileWord =>
      let c ← loopAt fuel false
      close c .done
    | .keyword .untilWord =>
      let c ← loopAt fuel true
      close c .done
    | .keyword .forWord =>
      let c ← forEachAt fuel
      close c .done
    | .keyword .caseWord =>
      let c ← choiceAt fuel
      return withRedirections c (← redirectionsAt fuel keywords)
    | .keyword .opening =>
      let c ← bodyAt fuel
      close c .closing
    | .operator .leftParen =>
      let c ← bodyAt fuel
      if !(← next fuel plain).isOperator .rightParen then
        unexpected (some (.operator .rightParen))
      return withRedirections (.subshell c []) (← redirectionsAt fuel keywords)
    | .word _ | .redirection .. =>
      putBack
      simpleAt fuel [] [] []
    | _ => unexpected none

def conditionalAt : (fuel : Nat) → Reader Command
  | 0 => unexpected none
  | fuel + 1 => do
    let test ← bodyAt fuel
    expectKeyword fuel plain .thenWord
    let yes ← bodyAt fuel
    match ← next fuel plain with
    | .keyword .elseIf => return .conditional test yes (← conditionalAt fuel)
    | .keyword .elseWord => return .conditional test yes (← bodyAt fuel)
    | _ =>
      putBack
      return .conditional test yes .nothing

def loopAt : (fuel : Nat) → (whileFalse : Bool) → Reader Command
  | 0, _ => unexpected none
  | fuel + 1, whileFalse => do
    let test ← bodyAt fuel
    expectKeyword fuel plain .doWord
    return .loop whileFalse test (← bodyAt fuel)

def forEachAt : (fuel : Nat) → Reader Command
  | 0 => unexpected none
  | fuel + 1 => do
    let name ← match ← next fuel plain with
      | .word w => pure ((w.plain?.filter isName).getD [])
      | _ => pure []
    if name.isEmpty then throw .loopVariable
    let items ← match ← next fuel start with
      | .keyword .inWord => itemsAt fuel
      | t =>
        if !t.isOperator .semicolon then putBack
        pure [Word.arguments]
    expectKeyword fuel start .doWord
    return .forEach name items (← bodyAt fuel)

/-- The words that a loop goes through, up to the end of their line. -/
def itemsAt : (fuel : Nat) → Reader (List Word)
  | 0 => unexpected none
  | fuel + 1 => do
    match ← next fuel plain with
    | .word w => return w :: (← itemsAt fuel)
    | .newline | .operator .semicolon => return []
    | _ => unexpected none

def choiceAt : (fuel : Nat) → Reader Command
  | 0 => unexpected none
  | fuel + 1 => do
    match ← next fuel plain with
    | .word subject =>
      expectKeyword fuel start .inWord
      return .choice subject (← branchesAt fuel)
    | _ => unexpected (some (.word []))

def branchesAt : (fuel : Nat) → Reader (List Branch)
  | 0 => unexpected none
  | fuel + 1 => do
    match ← next fuel start with
    | .keyword .endCase => return []
    | t =>
      if t.isOperator .leftParen then discard (next fuel plain)
      let patterns ← patternsAt fuel
      let body ← listAt fuel .optionalBody none
      let branch := Branch.of patterns (body.getD .nothing)
      match ← next fuel start with
      | .keyword .endCase => return [branch]
      | .operator .doubleSemicolon => return branch :: (← branchesAt fuel)
      | _ => unexpected (some (.operator .doubleSemicolon))

/-- The patterns of a branch, the first of which has been taken. Any token stands for the last
word. -/
def patternsAt : (fuel : Nat) → Reader (List Word)
  | 0 => unexpected none
  | fuel + 1 => do
    let w := (← get).lastWord
    match ← next fuel plain with
    | .operator .pipe =>
      discard (next fuel plain)
      return w :: (← patternsAt fuel)
    | .operator .rightParen => return [w]
    | _ => unexpected (some (.operator .rightParen))

/-- The redirections behind a compound command. -/
def redirectionsAt : (fuel : Nat) → Expectation → Reader (List Redirection)
  | 0, _ => return []
  | fuel + 1, e => do
    match ← next fuel e with
    | .redirection d kind =>
      let r ← targetAt fuel d kind
      return r :: (← redirectionsAt fuel plain)
    | _ =>
      putBack
      return []

/-- What a redirection leads to. -/
def targetAt : (fuel : Nat) → (descriptor : Nat) → RedirectionKind → Reader Redirection
  | 0, _, _ => unexpected none
  | fuel + 1, d, kind => do
    modify fun s => { s with isMarker := kind = .document }
    let t ← next fuel plain
    modify fun s => { s with isMarker := false }
    match t, kind with
    | .word w, .opened mode => return .opened d mode w
    | .word w, .copied =>
      match w.plain? with
      | some [b] =>
        if isDigitByte b then return .copied d (some (digitOf b))
        else if b == byte '-' then return .copied d none
        else return .copiedFrom d w
      | _ => return .copiedFrom d w
    | .word _, .document => return .document d
    | _, _ => unexpected none

/-- A command of words and redirections, in front of which values are given to names, or the
definition of a function. -/
def simpleAt : (fuel : Nat) → List Assignment → List Word → List Redirection → Reader Command
  | 0, _, _, _ => unexpected none
  | fuel + 1, assignments, words, redirections => do
    match ← next fuel plain with
    | .word w =>
      match if words.isEmpty then w.assignment? else none with
      | some a => simpleAt fuel (assignments ++ [a]) words redirections
      | none => simpleAt fuel assignments (words ++ [w]) redirections
    | .redirection d kind =>
      let r ← targetAt fuel d kind
      simpleAt fuel assignments words (redirections ++ [r])
    | t =>
      match words with
      | [w] =>
        if t.isOperator .leftParen && assignments.isEmpty && redirections.isEmpty then
          if !(← next fuel plain).isOperator .rightParen then
            unexpected (some (.operator .rightParen))
          match w.plain?.filter fun name => isName name && !reservedNames.contains name with
          | some name => return .define name (← commandAt fuel start)
          | none => throw .functionName
        putBack
        return .simple assignments words redirections
      | _ =>
        putBack
        return .simple assignments words redirections

end

/-- The commands of the next line; `none` at the end. -/
def nextLine : Reader (Option Command) := do
  let done ← listAt (16 * ((← get).rest.length + 4)) .line none
  match done, (← get).last with
  | none, .endOfInput => return none
  | _, _ => return some (done.getD .nothing)

end Reader

end StructuralEdit.Shell
