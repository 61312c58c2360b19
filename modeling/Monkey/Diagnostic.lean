import Monkey.Token

/-!
# Diagnostics

What can be wrong with a source text, each fault as a cause with the position it is blamed on. The
wording of every fault is in this module.
-/

set_option autoImplicit false

namespace Monkey

/-- Why a text cannot be divided into tokens. -/
inductive LexicalFault
  | illegalCharacter (c : Char)
  | unknownEscape (c : Char)
  | unterminatedString
  deriving DecidableEq, Repr

/-- What the grammar asks for at a place where another token stands. -/
inductive Expectation
  | token (kind : TokenKind)
  | blockOrIf
  deriving DecidableEq, Repr

/-- Why a token list is not a program. -/
inductive SyntaxFault
  | expected (wanted : Expectation) (found : Token)
  | noExpression (found : Token)
  | integerOutOfRange (digits : String)
  | nestedTooDeeply
  deriving DecidableEq, Repr

inductive Fault
  | lexical (fault : LexicalFault)
  | syntactic (fault : SyntaxFault)
  deriving DecidableEq, Repr

def LexicalFault.message : LexicalFault → String
  | illegalCharacter c => "illegal character " ++ Text.quote (String.singleton c)
  | unknownEscape c => "unknown escape sequence '\\" ++ String.singleton c ++ "'"
  | unterminatedString => "unterminated string"

def Expectation.message : Expectation → String
  | token kind => kind.wanted
  | blockOrIf => "'\x7b' or 'if'"

def SyntaxFault.message : SyntaxFault → String
  | expected wanted found => "expected " ++ wanted.message ++ ", found " ++ found.describe
  | noExpression found => "unexpected " ++ found.describe ++ " in expression"
  | integerOutOfRange digits => "integer literal " ++ digits ++ " out of range"
  | nestedTooDeeply => "expression nested too deeply"

def Fault.message : Fault → String
  | lexical fault => fault.message
  | syntactic fault => fault.message

structure Diagnostic where
  fault : Fault
  position : Position
  deriving DecidableEq, Repr

namespace Diagnostic

def message (diagnostic : Diagnostic) : String := diagnostic.fault.message

/-- The column that is shown. How deep a text may nest is up to the interpreter that reads it, and
with it the token at which the reader gives up. The position of that token is kept, but its column
is left out of what is shown. -/
def column? (diagnostic : Diagnostic) : Option Nat :=
  match diagnostic.fault with
  | .syntactic .nestedTooDeeply => none
  | _ => some diagnostic.position.column

def text (diagnostic : Diagnostic) : String :=
  if diagnostic.position.IsKnown then
    diagnostic.message ++ " (line " ++ toString diagnostic.position.line ++ ", col "
      ++ (diagnostic.column?.map toString).getD "?" ++ ")"
  else diagnostic.message

end Diagnostic

end Monkey
