import StructuralEdit.Process.Shell.Syntax

/-! # Tokens of a command line

Operators, words, and the words that are keywords where a command may begin.
-/
namespace StructuralEdit.Shell
open Text (Bytes)

inductive Operator
  | pipe
  | orElse
  | andThen
  | semicolon
  | doubleSemicolon
  | background
  | leftParen
  | rightParen
deriving DecidableEq

def Operator.spelling : Operator → String
  | pipe => "|"
  | orElse => "||"
  | andThen => "&&"
  | semicolon => ";"
  | doubleSemicolon => ";;"
  | background => "&"
  | leftParen => "("
  | rightParen => ")"

inductive Keyword
  | negation
  | caseWord
  | doWord
  | done
  | elseIf
  | elseWord
  | endCase
  | endIf
  | forWord
  | ifWord
  | inWord
  | thenWord
  | untilWord
  | whileWord
  | opening
  | closing
deriving DecidableEq

namespace Keyword

def spelling : Keyword → String
  | negation => "!"
  | caseWord => "case"
  | doWord => "do"
  | done => "done"
  | elseIf => "elif"
  | elseWord => "else"
  | endCase => "esac"
  | endIf => "fi"
  | forWord => "for"
  | ifWord => "if"
  | inWord => "in"
  | thenWord => "then"
  | untilWord => "until"
  | whileWord => "while"
  | opening => "\x7b"
  | closing => "\x7d"

def all : List Keyword :=
  [negation, caseWord, doWord, done, elseIf, elseWord, endCase, endIf, forWord, ifWord, inWord,
    thenWord, untilWord, whileWord, opening, closing]

def ofWord? (w : Word) : Option Keyword :=
  w.plain?.bind fun t => all.find? fun k => bytes k.spelling == t

/-- A list of commands ends in front of these. -/
def closes : Keyword → Bool
  | doWord | done | elseIf | elseWord | endCase | endIf | thenWord | closing => true
  | _ => false

end Keyword

inductive RedirectionKind
  | opened (mode : OpenMode)
  | copied
  | document
deriving DecidableEq

inductive Token
  | operator (o : Operator)
  | keyword (k : Keyword)
  | word (w : Word)
  | redirection (descriptor : Nat) (kind : RedirectionKind)
  | newline
  | endOfInput

namespace Token

def description : Token → Bytes
  | operator o => bytes "\"" ++ bytes o.spelling ++ bytes "\""
  | keyword k => bytes "\"" ++ bytes k.spelling ++ bytes "\""
  | word _ => bytes "word"
  | redirection .. => bytes "redirection"
  | newline => bytes "newline"
  | endOfInput => bytes "end of file"

def isOperator (o : Operator) : Token → Bool
  | operator o' => o = o'
  | _ => false

def isKeyword (k : Keyword) : Token → Bool
  | keyword k' => k = k'
  | _ => false

/-- A list of commands ends in front of these. -/
def closes : Token → Bool
  | keyword k => k.closes
  | operator o => o = .rightParen || o = .doubleSemicolon
  | endOfInput => true
  | _ => false

end Token

/-- What is wrong with a command line. -/
inductive SyntaxProblem
  | unexpected (found : Token) (due : Option Token)
  | unterminatedQuote
  | openBackquote
  | openBraces
  | openSum
  | loopVariable
  | functionName
  | descriptor

def SyntaxProblem.message : SyntaxProblem → Bytes
  | unexpected t none => t.description ++ bytes " unexpected"
  | unexpected t (some d) =>
    t.description ++ bytes " unexpected (expecting " ++ d.description ++ bytes ")"
  | unterminatedQuote => bytes "Unterminated quoted string"
  | openBackquote => bytes "EOF in backquote substitution"
  | openBraces => bytes "Missing '\x7d'"
  | openSum => bytes "Missing '))'"
  | loopVariable => bytes "Bad for loop variable"
  | functionName => bytes "Bad function name"
  | descriptor => bytes "Bad fd number"

end StructuralEdit.Shell
