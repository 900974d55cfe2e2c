import StructuralEdit.Pattern.CharTest
import StructuralEdit.Pattern.Problem

/-! # Programs

A program is a pattern with its modes resolved: each character test is fixed,
each look-behind knows how far to step back, and a repeated test knows the
character that must follow it, if it is known.
-/
namespace StructuralEdit.Pattern

/-- A condition on a position. -/
inductive Assertion
  | textStart
  | textEnd
  | lineStart
  | lineEnd
  | lastLineEnd
  | wordEdge (ascii negated : Bool)
deriving DecidableEq

inductive Program
  | empty
  | never
  | test (t : CharTest)
  | assertion (a : Assertion)
  | cat (first second : Program)
  /-- Two alternatives, the first of which is not entered where its guard fails. -/
  | alt (guard : Option CharTest) (first second : Program)
  | capture (group : Nat) (body : Program)
  | atomic (body : Program)
  | rep (greed : Greed) (min : Nat) (max : Option Nat) (body : Program)
  /-- Repeat a test; `ahead` is the code point that has to follow. -/
  | repeatTest (greed : Greed) (min : Nat) (max : Option Nat) (t : CharTest) (ahead : Option Nat)
  /-- Match `body` from `back` characters before the position, without moving. -/
  | look (back : Nat) (negated : Bool) (body : Program)
  | backref (group : Nat) (fold : Option Fold)
  | ifGroup (group : Nat) (yes no : Program)
deriving Inhabited

namespace Program

/-- The test that a program begins with, given the one that follows it. -/
def leading (following : Option CharTest) : Program → Option CharTest
  | empty => following
  | test t => some t
  | cat p q => p.leading (q.leading following)
  | _ => none

end Program

namespace CharTest

/-- The code point that a test asks for exactly. -/
def code? : CharTest → Option Nat
  | code false n => some n
  | _ => none

/-- The test of a first character that is made before anything else is tried. -/
def guard? : CharTest → Option CharTest
  | code false n => some (code false n)
  | set negated ascii items => some (set negated ascii items)
  | _ => none

end CharTest

def Modes.fold (m : Modes) : Option Fold :=
  if m.ignoreCase then some (if m.ascii then .ascii else .full) else none

def Anchor.resolve (m : Modes) : Anchor → Assertion
  | textStart => .textStart
  | textEnd => .textEnd
  | lineStart => if m.multiline then .lineStart else .textStart
  | lineEnd => if m.multiline then .lineEnd else .lastLineEnd
  | wordEdge => .wordEdge m.ascii false
  | noWordEdge => .wordEdge m.ascii true

def Greed.operator : Greed → Text
  | greedy => "MAX_REPEAT".toList
  | lazy => "MIN_REPEAT".toList
  | possessive => "POSSESSIVE_REPEAT".toList

/-- The farthest a look-behind may step back. -/
def lookbehindBound : Nat := 4294967295

/-- A look-behind must have one width that is not too great. -/
def lookbehindProblem? (w : Width) : Option Problem :=
  if lookbehindBound < w.min then some .longLookbehind
  else if w.min != w.max then some .variableLookbehind
  else none

/-- The first part of an expression that no program can stand for. -/
def Expr.problem? (groups : Nat → Width) : Modes → Expr → Option Problem
  | m, cat a b | m, alt a b | m, ifGroup _ a b => (a.problem? groups m).or (b.problem? groups m)
  | m, capture _ e | m, atomic e => e.problem? groups m
  | m, withModes added removed e => e.problem? groups (m.within added removed)
  | m, rep greed _ _ e =>
    if m.template then some (.templateRepeat greed.operator) else e.problem? groups m
  | m, look behind _ e =>
    (if behind then lookbehindProblem? (e.width groups) else none).or (e.problem? groups m)
  | _, _ => none

/-- The test that an expression consists of, if it is nothing else. -/
def Expr.test? : Modes → Expr → Option CharTest
  | m, literal negated n => some (.ofCode m.fold negated n)
  | m, any => some (if m.dotAll then .any else .notNewline)
  | m, set negated items => some (.ofSet m.fold m.ascii negated items)
  | m, withModes added removed e => e.test? (m.within added removed)
  | _, _ => none

/-- The program of a repetition of a part. -/
def Engine.repetition (engine : Engine) (greed : Greed) (min : Nat) (max : Option Nat)
    (body : Program) : Program :=
  match greed with
  | .possessive =>
    if engine.keepsFailedRounds then .rep .possessive min max body
    else .atomic (.rep .greedy min max body)
  | greed => .rep greed min max body

/-- The program of an expression, given the test that follows it at once. -/
def Expr.program (engine : Engine) (groups : Nat → Width) : Modes → Option CharTest → Expr → Program
  | _, _, empty => .empty
  | _, _, never => .never
  | m, _, literal negated n => .test (.ofCode m.fold negated n)
  | m, _, any => .test (if m.dotAll then .any else .notNewline)
  | m, _, set negated items => .test (.ofSet m.fold m.ascii negated items)
  | m, _, anchor a => .assertion (a.resolve m)
  | m, following, cat a b =>
    let second := b.program engine groups m following
    .cat (a.program engine groups m (second.leading following)) second
  | m, _, alt a b =>
    let first := a.program engine groups m none
    .alt ((first.leading none).bind CharTest.guard?) first (b.program engine groups m none)
  | m, _, capture g e => .capture g (e.program engine groups m none)
  | m, following, withModes added removed e => e.program engine groups (m.within added removed) following
  | m, _, atomic e => .atomic (e.program engine groups m none)
  | m, following, rep greed min max e =>
    match e.test? m with
    | some t => .repeatTest greed min max t (following.bind CharTest.code?)
    | none => engine.repetition greed min max (e.program engine groups m none)
  | m, _, look behind negated e =>
    .look (if behind then (e.width groups).min else 0) negated (e.program engine groups m none)
  | m, _, backref g => .backref g m.fold
  | m, following, ifGroup g yes no =>
    let followsYes := match no with
      | empty => following
      | _ => none
    .ifGroup g (yes.program engine groups m followsYes) (no.program engine groups m following)

end StructuralEdit.Pattern
