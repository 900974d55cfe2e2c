import StructuralEdit.Process.Shell.Tool.Amount
import StructuralEdit.Process.Shell.Tool.Options
import StructuralEdit.Process.Shell.Tool.Order

/-! # What to sort by

The options of sorting: keys, how they are taken, and what is to be done. A key may also
be written as it once was, with a plus and a dash.
-/
namespace StructuralEdit.Shell.Tool.Sort
open Text (Bytes)

/-- What is wrong with the options. -/
inductive SortFault
  | field (problem : String) (spec : Bytes)
  | count (place : String) (t : Bytes)
  | incompatible (letters : List Char)
  | emptyTab
  | longTab (t : Bytes)
  | otherTab
  | secondOutput
  | secondProgram
  | secondSource
  | noParallel
  | amount (option : String) (t : Bytes) (f : AmountFault)
  | extraOperand (t : Bytes) (letter : Char)

def SortFault.message : SortFault → Bytes
  | field problem spec => bytes problem ++ bytes ": invalid field specification " ++ quote spec
  | count place t => bytes "invalid number " ++ bytes place ++ bytes ": invalid count at start of "
      ++ quote t
  | incompatible letters =>
    bytes "options '-" ++ letters.map byte ++ bytes "' are incompatible"
  | emptyTab => bytes "empty tab"
  | longTab t => bytes "multi-character tab " ++ quote t
  | otherTab => bytes "incompatible tabs"
  | secondOutput => bytes "multiple output files specified"
  | secondProgram => bytes "multiple compress programs specified"
  | secondSource => bytes "multiple random sources specified"
  | noParallel => bytes "number in parallel must be nonzero"
  | amount option t f => f.message option t
  | extraOperand t letter =>
    bytes "extra operand " ++ quotedName t ++ bytes " not allowed with -" ++ [byte letter]

/-! ## Keys -/

/-- Set what a letter says of a key, of both its ends unless told of which. -/
def KeyOrder.add? (o : KeyOrder) (atStart atEnd : Bool) (b : UInt8) : Option KeyOrder :=
  match Char.ofNat b.toNat with
  | 'b' => some { o with skipsStart := o.skipsStart || atStart, skipsEnd := o.skipsEnd || atEnd }
  | 'd' => some { o with ignored := .outsideWords }
  | 'f' => some { o with folds := true }
  | 'g' => some { o with general := true }
  | 'h' => some { o with human := true }
  | 'i' => some { o with ignored := if o.ignored = .nothing then .unprinted else o.ignored }
  | 'M' => some { o with month := true }
  | 'n' => some { o with numeric := true }
  | 'R' => some { o with shuffled := true }
  | 'r' => some { o with reverse := true }
  | 'V' => some { o with version := true }
  | _ => none

/-- The letters of an order, and the bytes left. -/
def orderLetters (o : KeyOrder) (atStart atEnd : Bool) : Bytes → KeyOrder × Bytes
  | [] => (o, [])
  | b :: rest =>
    match KeyOrder.add? o atStart atEnd b with
    | some o => orderLetters o atStart atEnd rest
    | none => (o, b :: rest)

/-- A count at the beginning of a text. -/
def countAt (place : String) (t : Bytes) : Except SortFault (Nat × Bytes) :=
  let digits := t.takeWhile isDigitByte
  if digits.isEmpty then .error (.count place t)
  else .ok (valueIn 10 digits, t.drop digits.length)

/-- A field, and perhaps a point with a count of bytes. -/
def placeAt (place : String) (spec t : Bytes) : Except SortFault (Place × Bool × Bytes) := do
  let (field, rest) ← countAt place t
  if field = 0 then throw (.field "field number is zero" spec)
  match rest with
  | p :: more =>
    if p == byte '.' then
      let (offset, rest) ← countAt "after '.'" more
      return (⟨field - 1, offset⟩, true, rest)
    else return (⟨field - 1, 0⟩, false, rest)
  | [] => return (⟨field - 1, 0⟩, false, [])

/-- Read a key. -/
def keyOf (spec : Bytes) : Except SortFault Key := do
  let (start, hasOffset, rest) ← placeAt "at field start" spec spec
  if hasOffset && start.offset = 0 then throw (.field "character offset is zero" spec)
  let start := { start with offset := start.offset - 1 }
  let (order, rest) := orderLetters {} true false rest
  let start := if start.field = 0 && start.offset = 0 then none else some start
  match rest with
  | [] => return { start, order }
  | c :: more =>
    if c != byte ',' then throw (.field "stray character in field spec" spec)
    let (stop, _, rest) ← placeAt "after ','" spec more
    let (order, rest) := orderLetters order false true rest
    if !rest.isEmpty then throw (.field "stray character in field spec" spec)
    return { start, stop := some stop, order }

/-! ## Keys as they were once written -/

/-- The beginning of a key behind a plus, counted from zero; `none` if it is something else. -/
def oldStart? (t : Bytes) : Option Key :=
  match t with
  | plus :: spec =>
    if plus != byte '+' then none
    else
      let place : Except SortFault (Place × Bytes) := do
        let (field, rest) ← countAt "" spec
        match rest with
        | p :: more =>
          if p != byte '.' then return (⟨field, 0⟩, rest)
          let (offset, rest) ← countAt "" more
          return (⟨field, offset⟩, rest)
        | [] => return (⟨field, 0⟩, [])
      match place with
      | .error _ => none
      | .ok (start, rest) =>
        let (order, rest) := orderLetters {} true false rest
        if !rest.isEmpty then none
        else some { start := if start.field = 0 && start.offset = 0 then none else some start, order }
  | [] => none

/-- A key with an end behind a dash, counted from zero. -/
def withOldStop (k : Key) (t : Bytes) : Except SortFault Key := do
  let (field, rest) ← countAt "after '-'" t.tail
  let (offset, rest) ← match rest with
    | p :: more => if p == byte '.' then countAt "after '.'" more else pure (0, rest)
    | [] => pure (0, [])
  let (order, rest) := orderLetters k.order false true rest
  if !rest.isEmpty then throw (.field "stray character in field spec" t)
  return { k with stop := some ⟨if offset = 0 then field - 1 else field, offset⟩, order }

/-! ## Options -/

inductive Task
  | sort
  | merge
  /-- See whether all is in order, and say what is not unless `quiet`. -/
  | check (quiet : Bool)
deriving DecidableEq

structure Choice where
  order : KeyOrder := {}
  keys : List Key := []
  task : Task := .sort
  output : Option Bytes := none
  stable : Bool := false
  unique : Bool := false
  separator : Option UInt8 := none
  terminator : UInt8 := newlineByte
  /-- Where the files are listed. -/
  list : Option Bytes := none
  program : Option Bytes := none
  source : Option Bytes := none

def orderNames : List (String × Char) :=
  [("general-numeric", 'g'), ("human-numeric", 'h'), ("month", 'M'), ("numeric", 'n'),
    ("random", 'R'), ("version", 'V')]

def checkNames : List (String × Bool) :=
  [("quiet", true), ("silent", true), ("diagnose-first", false)]

/-- The letters of long options that have no short form. -/
def table : OptionTable where
  letters := "bcCdfghimMnrRsuVz"
  withArgument := "koStTy"
  long := [⟨"ignore-leading-blanks", 'b', .nothing⟩, ⟨"check", '1', .optional⟩,
    ⟨"compress-program", '2', .required⟩, ⟨"debug", '3', .nothing⟩,
    ⟨"dictionary-order", 'd', .nothing⟩, ⟨"ignore-case", 'f', .nothing⟩,
    ⟨"files0-from", '4', .required⟩, ⟨"general-numeric-sort", 'g', .nothing⟩,
    ⟨"ignore-nonprinting", 'i', .nothing⟩, ⟨"key", 'k', .required⟩, ⟨"merge", 'm', .nothing⟩,
    ⟨"month-sort", 'M', .nothing⟩, ⟨"numeric-sort", 'n', .nothing⟩,
    ⟨"human-numeric-sort", 'h', .nothing⟩, ⟨"version-sort", 'V', .nothing⟩,
    ⟨"random-sort", 'R', .nothing⟩, ⟨"random-source", '5', .required⟩, ⟨"sort", '6', .required⟩,
    ⟨"output", 'o', .required⟩, ⟨"reverse", 'r', .nothing⟩, ⟨"stable", 's', .nothing⟩,
    ⟨"batch-size", '7', .required⟩, ⟨"buffer-size", '9', .required⟩,
    ⟨"field-separator", 't', .required⟩, ⟨"temporary-directory", 'T', .required⟩,
    ⟨"unique", 'u', .nothing⟩, ⟨"zero-terminated", 'z', .nothing⟩, ⟨"parallel", '8', .required⟩]
  isPlus t := (oldStart? t).isSome

/-- What ends the reading of options. -/
inductive ChoiceEnd
  | fault (f : SortFault)
  | badWord (option : String) (t : Bytes) (listed : List String)
  /-- Fewer than two files are to be merged at once. -/
  | batchOfFew (t : Bytes)

/-- Set what may be said once, or again alike. -/
def once (before : Option Bytes) (t : Bytes) (f : SortFault) : Except ChoiceEnd (Option Bytes) :=
  if (before.map (· == t)).getD true then .ok (some t) else .error (.fault f)

def withCheck (c : Choice) (quiet : Bool) : Except ChoiceEnd Choice :=
  match c.task with
  | .check q => if q = quiet then .ok c else .error (.fault (.incompatible ['c', 'C']))
  | _ => .ok { c with task := .check quiet }

def withSeparator (c : Choice) (t : Bytes) : Except ChoiceEnd Choice := do
  let b ← match t with
    | [] => throw (.fault .emptyTab)
    | [b] => pure b
    | _ => if t == bytes "\\0" then pure 0 else throw (.fault (.longTab t))
  match c.separator with
  | some s => if s = b then return c else throw (.fault .otherTab)
  | none => return { c with separator := some b }

def withMemory (c : Choice) (option : String) (t : Bytes) : Except ChoiceEnd Choice :=
  match memoryFault? t with
  | some f => .error (.fault (.amount option t f))
  | none => .ok c

def withOption (c : Choice) : Given → Except ChoiceEnd Choice
  | ('k', some t) =>
    match keyOf t with
    | .ok k => .ok { c with keys := c.keys ++ [k] }
    | .error f => .error (.fault f)
  | ('t', some t) => withSeparator c t
  | ('+', some t) => .ok { c with keys := c.keys ++ (oldStart? t).toList }
  | ('-', some t) =>
    match withOldStop (c.keys.getLast?.getD {}) t with
    | .ok k => .ok { c with keys := c.keys.dropLast ++ [k] }
    | .error f => .error (.fault f)
  | ('o', some t) => do return { c with output := ← once c.output t .secondOutput }
  | ('2', some t) => do return { c with program := ← once c.program t .secondProgram }
  | ('5', some t) => do return { c with source := ← once c.source t .secondSource }
  | ('4', some t) => .ok { c with list := some t }
  | ('1', some t) =>
    match choose? checkNames t with
    | some quiet => withCheck c quiet
    | none => .error (.badWord "check" t ["'quiet', 'silent'", "'diagnose-first'"])
  | ('6', some t) =>
    match choose? orderNames t with
    | some letter => .ok { c with order := (orderLetters c.order true true [byte letter]).1 }
    | none => .error (.badWord "sort" t (orderNames.map fun (s, _) => "'" ++ s ++ "'"))
  | ('7', some t) =>
    match plainAmount t with
    | .ok n => if n < 2 then .error (.batchOfFew t) else .ok c
    | .error f => .error (.fault (.amount "--batch-size" t f))
  | ('8', some t) =>
    match plainAmount t with
    | .ok 0 => .error (.fault .noParallel)
    | .ok _ | .error .tooLarge => .ok c
    | .error f => .error (.fault (.amount "--parallel" t f))
  | ('S', some t) => withMemory c "-S" t
  | ('9', some t) => withMemory c "--buffer-size" t
  | ('1', none) | ('c', _) => withCheck c false
  | ('C', _) => withCheck c true
  | ('m', _) => .ok (if c.task = .sort then { c with task := .merge } else c)
  | ('s', _) => .ok { c with stable := true }
  | ('u', _) => .ok { c with unique := true }
  | ('z', _) => .ok { c with terminator := 0 }
  | (letter, none) => .ok { c with order := (orderLetters c.order true true [byte letter]).1 }
  | _ => .ok c

/-- The keys with what is said of all of them where nothing is said of one. -/
def Choice.allKeys (c : Choice) : List Key :=
  if c.keys.isEmpty then (if c.order.isPlain then [] else [{ order := c.order }])
  else c.keys.map fun k =>
    if k.order.isPlain && !k.order.reverse then { k with order := c.order } else k

/-- The letters of an order that cannot go together. -/
def clash? (o : KeyOrder) : Option (List Char) :=
  let kinds := [o.numeric, o.general, o.human, o.month,
    o.version || o.shuffled || o.ignored != .nothing]
  if (kinds.filter id).length ≤ 1 then none
  else some ([('d', o.ignored == .outsideWords), ('f', o.folds), ('g', o.general), ('h', o.human),
    ('i', o.ignored == .unprinted), ('M', o.month), ('n', o.numeric), ('R', o.shuffled),
    ('V', o.version)].filterMap fun (letter, isSet) => if isSet then some letter else none)

def Choice.fault? (c : Choice) (operands : List Bytes) : Option SortFault :=
  match c.allKeys.findSome? fun k => clash? k.order with
  | some letters => some (.incompatible letters)
  | none =>
    match c.task, operands[1]?, c.output with
    | .check quiet, some t, _ => some (.extraOperand t (if quiet then 'C' else 'c'))
    | .check quiet, none, some _ => some (.incompatible [if quiet then 'C' else 'c', 'o'])
    | _, _, _ => none

end StructuralEdit.Shell.Tool.Sort
