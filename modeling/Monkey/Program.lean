import Monkey.Grammar.Phrases
import Monkey.Token.Scanner

/-!
# Programs from source text

A program is read from a token list, statement by statement. A statement that cannot be read is
reported and skipped, so every token list gives a program and a list of diagnostics; the program is
fit to be run only if there are none.
-/

set_option autoImplicit false

namespace Monkey

/-- How deep the phrases of a text nest at most, unless another limit is given. -/
def nestingLimit : Nat := 2000

namespace Read

/-- The statements of a program, each failure recorded and skipped; `done` holds those read, the
last one first. -/
def programStatements (statement : Read Stmt) : Nat → List Stmt → Read (List Stmt)
  | 0, done => pure done.reverse
  | budget + 1, done => do
      let next ← current
      if next.kind = .endOfInput then pure done.reverse
      else
        match ← attempt statement with
        | .ok stmt => programStatements statement budget (stmt :: done)
        | .error (.fault fault position) => do
            record fault position
            resumeProgram
            programStatements statement budget done
        | .error .tooDeep => do
            let reached ← current
            record .nestedTooDeeply reached.position
            resumeProgram
            programStatements statement budget done
        | .error failure => throw failure

def program (limit : Nat) : Read Program := do
  let start ← current
  let budget ← remaining
  let statements ← programStatements (phrases limit).statement (budget + 1) []
  pure ⟨start.position, statements⟩

end Read

/-- A program and what is wrong with the text it was read from. -/
structure Parsed where
  program : Program
  diagnostics : List Diagnostic

/-- The program that a token list holds. There is none if the text of an integer is not read as a
number. -/
def Program.ofTokens (tokens : List Token) (limit : Nat := nestingLimit) :
    Except Text.NumeralFault Parsed :=
  match Read.program limit ⟨tokens, 0, []⟩ with
  | .ok program reading => .ok ⟨program, reading.diagnostics⟩
  | .error (.numeral numeral) _ => .error numeral
  | .error _ reading => .ok ⟨⟨.unknown, []⟩, reading.diagnostics⟩

/-- The program that a source text holds. A text that cannot be divided into tokens gives the one
diagnostic that says why, and an empty program. -/
def Program.ofSource (source : String) (limit : Nat := nestingLimit) :
    Except Text.NumeralFault Parsed :=
  match tokenize source with
  | .error (fault, position) => .ok ⟨⟨.unknown, []⟩, [⟨.lexical fault, position⟩]⟩
  | .ok tokens => Program.ofTokens tokens limit

end Monkey
