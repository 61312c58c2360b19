import Monkey.Ast.Basic

/-!
# Labelled trees

A uniform view of programs: every node is a label over its children, every leaf a token. It is what
is shown of a program, in full or as an s-expression without positions.
-/

set_option autoImplicit false

namespace Monkey

inductive Label
  | program | binding | returning | exprStmt | block
  | array | hash | pair | unary | binary | conditional | function | parameters | call | arguments
  | index | blockExpr
  deriving DecidableEq, Repr

def Label.name : Label → String
  | program => "program"
  | binding => "let"
  | returning => "return"
  | exprStmt => "exprstmt"
  | block => "block"
  | array => "array"
  | hash => "hash"
  | pair => "pair"
  | unary => "prefix"
  | binary => "infix"
  | conditional => "if"
  | function => "fn"
  | parameters => "params"
  | call => "call"
  | arguments => "args"
  | index => "index"
  | blockExpr => "blockexpr"

/-- A tree with labelled nodes and tokens for leaves. -/
inductive Tree where
  | leaf (token : Token)
  | node (label : Label) (position : Position) (children : List Tree)

mutual

def Expr.tree : Expr → Tree
  | .leaf token => .leaf token
  | .unary operator operand => .node .unary operator.position [.leaf operator, operand.tree]
  | .binary left operator right =>
      .node .binary operator.position [left.tree, .leaf operator, right.tree]
  | .array position items => .node .array position (Expr.trees items)
  | .hash position pairs => .node .hash position (Pair.trees pairs)
  | .block body => body.tree .blockExpr
  | .ifThen position condition consequence =>
      .node .conditional position [condition.tree, consequence.tree .block]
  | .ifElse position condition consequence alternative =>
      .node .conditional position [condition.tree, consequence.tree .block, alternative.tree .block]
  | .function position parametersPosition parameters body =>
      .node .function position
        [.node .parameters parametersPosition (parameters.map .leaf), body.tree .block]
  | .call callee position arguments =>
      .node .call position [callee.tree, .node .arguments position (Expr.trees arguments)]
  | .index target position index => .node .index position [target.tree, index.tree]

def Expr.trees : List Expr → List Tree
  | [] => []
  | expr :: rest => expr.tree :: Expr.trees rest

def Pair.tree : Pair → Tree
  | .mk position key value => .node .pair position [key.tree, value.tree]

def Pair.trees : List Pair → List Tree
  | [] => []
  | pair :: rest => pair.tree :: Pair.trees rest

/-- A block under the label of the place it stands in. -/
def Block.tree : Label → Block → Tree
  | label, .mk position statements => .node label position (Stmt.trees statements)

def Stmt.tree : Stmt → Tree
  | .binding position name value => .node .binding position [.leaf name, value.tree]
  | .returnNil position => .node .returning position []
  | .returnValue position value => .node .returning position [value.tree]
  | .block body => body.tree .block
  | .expr position value => .node .exprStmt position [value.tree]

def Stmt.trees : List Stmt → List Tree
  | [] => []
  | stmt :: rest => stmt.tree :: Stmt.trees rest

end

def Program.tree (program : Program) : Tree :=
  .node .program program.position (Stmt.trees program.statements)

mutual

/-- The tree as an s-expression: strings are quoted, all other leaves stand as they are. -/
def Tree.render : Tree → String
  | .leaf token => if token.kind = .string then Text.quote token.text else token.text
  | .node label _ children => "(" ++ label.name ++ Tree.renderAll children ++ ")"

def Tree.renderAll : List Tree → String
  | [] => ""
  | tree :: rest => " " ++ tree.render ++ Tree.renderAll rest

end

mutual

def Tree.leaves : Tree → List Token
  | .leaf token => [token]
  | .node _ _ children => Tree.leavesAll children

def Tree.leavesAll : List Tree → List Token
  | [] => []
  | tree :: rest => tree.leaves ++ Tree.leavesAll rest

end

end Monkey
