import Monkey.Diagnostic
import Monkey.Text.Numeral

/-!
# Reading a token list

The state of a reader of tokens and its primitive steps. The end of the input is an end-of-input
token, or the end of a list that has none; no step goes past it.
-/

set_option autoImplicit false

namespace Monkey

/-- How many braces are open after a token, if so many were open before it. -/
def TokenKind.depthAfter : TokenKind → Nat → Nat
  | leftBrace, depth | hashBrace, depth => depth + 1
  | rightBrace, depth => depth - 1
  | _, depth => depth

structure Reading where
  tokens : List Token
  depth : Nat
  diagnostics : List Diagnostic
  deriving Repr

inductive ReadFailure
  /-- The tokens do not follow the grammar. Reading goes on at a later statement. -/
  | fault (fault : SyntaxFault) (position : Position)
  /-- The phrase nests deeper than the reader follows. -/
  | tooDeep
  /-- The text of an integer is not read as a number at all. Reading ends here. -/
  | numeral (fault : Text.NumeralFault)
  deriving DecidableEq, Repr

/-- A reader of one kind of phrase. A failure leaves the reader where it arose. -/
abbrev Read := EStateM ReadFailure Reading

namespace Reading

def current (reading : Reading) : Token :=
  reading.tokens.headD (.endOfInput .unknown)

def advance (reading : Reading) : Reading :=
  match reading.tokens with
  | [] => reading
  | token :: rest => { reading with tokens := rest, depth := token.kind.depthAfter reading.depth }

def record (reading : Reading) (diagnostic : Diagnostic) : Reading :=
  { reading with diagnostics := reading.diagnostics ++ [diagnostic] }

end Reading

namespace Read

def current : Read Token := fun reading => .ok reading.current reading

def advance : Read Token := fun reading => .ok reading.current reading.advance

/-- How many steps a loop that takes a token in each can make. -/
def remaining : Read Nat := fun reading => .ok reading.tokens.length reading

def depth : Read Nat := fun reading => .ok reading.depth reading

def fail {α : Type} (fault : SyntaxFault) (position : Position) : Read α :=
  throw (.fault fault position)

/-- Reports that the grammar asks for something else than the next token. -/
def failExpecting {α : Type} (wanted : Expectation) : Read α := do
  let found ← current
  fail (.expected wanted found) found.position

/-- Takes the next token if it is of a kind, and tells whether it was. -/
def accept (kind : TokenKind) : Read Bool := fun reading =>
  if reading.current.kind = kind then .ok true reading.advance else .ok false reading

/-- Takes the next token, which has to be of a kind. -/
def expect (kind : TokenKind) : Read Token := fun reading =>
  if reading.current.kind = kind then .ok reading.current reading.advance
  else failExpecting (.token kind) reading

/-- Runs a reader and hands on how it ended. -/
def attempt {α : Type} (read : Read α) : Read (Except ReadFailure α) := fun reading =>
  match read reading with
  | .ok result rest => .ok (.ok result) rest
  | .error failure rest => .ok (.error failure) rest

def record (fault : SyntaxFault) (position : Position) : Read Unit := fun reading =>
  .ok () (reading.record ⟨.syntactic fault, position⟩)

end Read

end Monkey
