import Monkey.Token

/-!
# Programs as trees

Expressions, statements and blocks. Names, literals and operators stay the tokens they were read
from, so a tree still holds the text and the position of each; every other node holds the position
of the token that introduces it. Parentheses leave no trace, and `else if` is an `else` block that
holds one `if`.
-/

set_option autoImplicit false

namespace Monkey

mutual

inductive Expr where
  | leaf (token : Token)
  | unary (operator : Token) (operand : Expr)
  | binary (left : Expr) (operator : Token) (right : Expr)
  | array (position : Position) (items : List Expr)
  | hash (position : Position) (pairs : List Pair)
  | block (body : Block)
  | ifThen (position : Position) (condition : Expr) (consequence : Block)
  | ifElse (position : Position) (condition : Expr) (consequence alternative : Block)
  | function (position parametersPosition : Position) (parameters : List Token) (body : Block)
  | call (callee : Expr) (position : Position) (arguments : List Expr)
  | index (target : Expr) (position : Position) (index : Expr)

/-- A key of a hash literal with its value. -/
inductive Pair where
  | mk (position : Position) (key value : Expr)

inductive Stmt where
  | binding (position : Position) (name : Token) (value : Expr)
  | returnNil (position : Position)
  | returnValue (position : Position) (value : Expr)
  | block (body : Block)
  | expr (position : Position) (value : Expr)

inductive Block where
  | mk (position : Position) (statements : List Stmt)

end

instance : Inhabited Expr := ⟨.leaf default⟩
instance : Inhabited Block := ⟨.mk default []⟩
instance : Inhabited Stmt := ⟨.returnNil default⟩
instance : Inhabited Pair := ⟨.mk default default default⟩

namespace Block

def position : Block → Position
  | mk position _ => position

def statements : Block → List Stmt
  | mk _ statements => statements

end Block

namespace Expr

/-- Where the expression is blamed: its token, operator, opening bracket or keyword. -/
def position : Expr → Position
  | leaf token => token.position
  | unary operator _ => operator.position
  | binary _ operator _ => operator.position
  | array position _ => position
  | hash position _ => position
  | block body => body.position
  | ifThen position _ _ => position
  | ifElse position _ _ _ => position
  | function position _ _ _ => position
  | call _ position _ => position
  | index _ position _ => position

/-- Whether the expression ends in a closing brace that ends its statement too. -/
def endsStatement : Expr → Bool
  | block _ | ifThen .. | ifElse .. | function .. => true
  | _ => false

end Expr

namespace Stmt

/-- Where the statement begins, or its keyword stands. -/
def position : Stmt → Position
  | binding position _ _ => position
  | returnNil position => position
  | returnValue position _ => position
  | block body => body.position
  | expr position _ => position

end Stmt

/-- A source text as a tree. -/
structure Program where
  position : Position
  statements : List Stmt
  deriving Inhabited

end Monkey
