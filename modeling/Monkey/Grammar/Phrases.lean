import Monkey.Ast.Basic
import Monkey.Grammar.Recovery
import Monkey.Integer
import Monkey.Text.Numeral

/-!
# The grammar

Readers for the phrases of the language. Each is written in terms of the readers for the phrases
nested in it, and `phrases` ties the knot up to a nesting limit. Operators bind by a numeric power:
an operand extends over every following operator that binds tighter than the one before it.
-/

set_option autoImplicit false

namespace Monkey

/-- How tightly a token binds the operand before it; zero for a token that ends an expression. -/
def TokenKind.power : TokenKind → Nat
  | equal | notEqual => 1
  | less | greater | lessEqual | greaterEqual => 2
  | plus | minus => 3
  | star | slash | percent => 4
  | caret => 5
  | leftParen => 7
  | leftBracket => 8
  | _ => 0

def unaryPower : Nat := 6

/-- The power that the right operand of an operator has to exceed. Only `^` lets another of its own
power in, so it alone groups to the right. -/
def TokenKind.rightPower (kind : TokenKind) : Nat :=
  if kind = .caret then kind.power - 1 else kind.power

/-- The readers for the phrases that others nest. -/
structure Phrases where
  /-- An expression, up to the first operator that does not bind tighter than the given power. -/
  expr : Nat → Read Expr
  statement : Read Stmt
  conditional : Read Expr

namespace Read

/-- The items after the first of a list separated by commas; `done` holds those read, the last one
first. -/
def moreItems {α : Type} (item : Read α) : Nat → List α → Read (List α)
  | 0, done => pure done.reverse
  | budget + 1, done => do
      if ← accept .comma then
        let next ← item
        moreItems item budget (next :: done)
      else pure done.reverse

def items {α : Type} (item : Read α) : Read (List α) := do
  let first ← item
  let budget ← remaining
  moreItems item budget [first]

/-- A list closed by a token of a kind: nothing, or items separated by commas. -/
def closedList {α : Type} (item : Read α) (closing : TokenKind) : Read (List α) := do
  let next ← current
  let list ← if next.kind = closing then pure [] else items item
  let _ ← expect closing
  pure list

/-- The statements of a block up to its closing brace. A statement that cannot be read is recorded
and skipped, unless the input ends before the block does. -/
def blockStatements (statement : Read Stmt) (blockDepth : Nat) :
    Nat → List Stmt → Read (List Stmt)
  | 0, done => pure done.reverse
  | budget + 1, done => do
      let next ← current
      if next.kind = .rightBrace then pure done.reverse
      else if next.kind = .endOfInput then failExpecting (.token .rightBrace)
      else
        match ← attempt statement with
        | .ok stmt => blockStatements statement blockDepth budget (stmt :: done)
        | .error (.fault fault position) => do
            resumeBlock blockDepth
            let after ← current
            if after.kind = .endOfInput then fail fault position
            else
              record fault position
              blockStatements statement blockDepth budget done
        | .error failure => throw failure

def block (statement : Read Stmt) : Read Block := do
  let opening ← expect .leftBrace
  let blockDepth ← depth
  let budget ← remaining
  let statements ← blockStatements statement blockDepth (budget + 1) []
  let _ ← advance
  pure (.mk opening.position statements)

def integer : Read Expr := do
  let token ← advance
  match Text.readInteger token.text with
  | .error numeral => throw (.numeral numeral)
  | .ok value =>
      if Integer.largest < value then fail (.integerOutOfRange token.text) token.position
      else pure (.leaf token)

def leaf : Read Expr := do
  let token ← advance
  pure (.leaf token)

def unary (inner : Phrases) : Read Expr := do
  let operator ← advance
  let operand ← inner.expr unaryPower
  pure (.unary operator operand)

def grouped (inner : Phrases) : Read Expr := do
  let _ ← advance
  let value ← inner.expr 0
  let _ ← expect .rightParen
  pure value

def array (inner : Phrases) : Read Expr := do
  let opening ← advance
  let items ← closedList (inner.expr 0) .rightBracket
  pure (.array opening.position items)

def pair (inner : Phrases) : Read Pair := do
  let start ← current
  let key ← inner.expr 0
  let _ ← expect .colon
  let value ← inner.expr 0
  pure (.mk start.position key value)

def hash (inner : Phrases) : Read Expr := do
  let opening ← advance
  let pairs ← closedList (pair inner) .rightBrace
  pure (.hash opening.position pairs)

/-- The block after `else`, in which an `if` may stand without braces. -/
def alternative (inner : Phrases) : Read Block := do
  let next ← current
  match next.kind with
  | .kwIf => do
      let nested ← inner.conditional
      pure (.mk next.position [.expr next.position nested])
  | .leftBrace => block inner.statement
  | _ => failExpecting .blockOrIf

def conditional (inner : Phrases) : Read Expr := do
  let keyword ← advance
  let condition ← inner.expr 0
  let consequence ← block inner.statement
  if ← accept .kwElse then
    let otherwise ← alternative inner
    pure (.ifElse keyword.position condition consequence otherwise)
  else pure (.ifThen keyword.position condition consequence)

def function (inner : Phrases) : Read Expr := do
  let keyword ← advance
  let opening ← expect .leftParen
  let parameters ← closedList (expect .identifier) .rightParen
  let body ← block inner.statement
  pure (.function keyword.position opening.position parameters body)

/-- An expression before any operator that follows it. -/
def operand (inner : Phrases) : Read Expr := do
  let next ← current
  match next.kind with
  | .identifier | .string | .kwTrue | .kwFalse | .kwNil => leaf
  | .integer => integer
  | .minus | .bang => unary inner
  | .leftParen => grouped inner
  | .leftBracket => array inner
  | .hashBrace => hash inner
  | .leftBrace => do
      let body ← block inner.statement
      pure (.block body)
  | .kwIf => conditional inner
  | .kwFn => function inner
  | _ => fail (.noExpression next) next.position

def call (inner : Phrases) (callee : Expr) : Read Expr := do
  let opening ← advance
  let arguments ← closedList (inner.expr 0) .rightParen
  pure (.call callee opening.position arguments)

def index (inner : Phrases) (target : Expr) : Read Expr := do
  let opening ← advance
  let index ← inner.expr 0
  let _ ← expect .rightBracket
  pure (.index target opening.position index)

def binary (inner : Phrases) (left : Expr) : Read Expr := do
  let operator ← advance
  let right ← inner.expr operator.kind.rightPower
  pure (.binary left operator right)

/-- An expression and the operator after it, with the operands of that operator. -/
def extend (inner : Phrases) (left : Expr) : Read Expr := do
  let next ← current
  match next.kind with
  | .leftParen => call inner left
  | .leftBracket => index inner left
  | _ => binary inner left

/-- Extends an expression over the operators after it that bind tighter than a power. -/
def operators (inner : Phrases) (power : Nat) : Nat → Expr → Read Expr
  | 0, left => pure left
  | budget + 1, left => do
      let next ← current
      if power < next.kind.power then
        let extended ← extend inner left
        operators inner power budget extended
      else pure left

def expr (inner : Phrases) (power : Nat) : Read Expr := do
  let left ← operand inner
  let budget ← remaining
  operators inner power budget left

def binding (inner : Phrases) : Read Stmt := do
  let keyword ← advance
  let name ← expect .identifier
  let _ ← expect .assign
  let value ← inner.expr 0
  let _ ← expect .semicolon
  pure (.binding keyword.position name value)

def returning (inner : Phrases) : Read Stmt := do
  let keyword ← advance
  if ← accept .semicolon then pure (.returnNil keyword.position)
  else
    let value ← inner.expr 0
    let _ ← expect .semicolon
    pure (.returnValue keyword.position value)

def blockStmt (inner : Phrases) : Read Stmt := do
  let body ← block inner.statement
  let _ ← accept .semicolon
  pure (.block body)

/-- Ends an expression statement. A semicolon may be left out after a closing brace of the
expression and before the end of the block or of the input. -/
def endExprStmt (value : Expr) : Read Unit := do
  let next ← current
  if value.endsStatement then
    let _ ← accept .semicolon
  else if next.kind = .rightBrace ∨ next.kind = .endOfInput then pure ()
  else
    let _ ← expect .semicolon

def exprStmt (inner : Phrases) : Read Stmt := do
  let start ← current
  let value ← inner.expr 0
  endExprStmt value
  pure (.expr start.position value)

def statement (inner : Phrases) : Read Stmt := do
  let next ← current
  match next.kind with
  | .kwLet => binding inner
  | .kwReturn => returning inner
  | .leftBrace => blockStmt inner
  | _ => exprStmt inner

end Read

/-- The readers that follow phrases to a depth of nesting. -/
def phrases : Nat → Phrases
  | 0 => ⟨fun _ => throw .tooDeep, throw .tooDeep, throw .tooDeep⟩
  | depth + 1 =>
      let inner := phrases depth
      ⟨Read.expr inner, Read.statement inner, Read.conditional inner⟩

end Monkey
