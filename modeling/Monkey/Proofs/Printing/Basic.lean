import Monkey.Program

/-!
# Programs as token lists

How a program is written with as few parentheses as the binding of its operators allows, and what is
left of a program without its positions. The printed tokens hold no positions of their own: they
stand for any tokens that differ from them in nothing else.
-/

set_option autoImplicit false

namespace Monkey

/-! ## Trees without positions -/

def Token.unplaced (token : Token) : Token := { token with position := .unknown }

mutual

def Expr.unplaced : Expr → Expr
  | .leaf token => .leaf token.unplaced
  | .unary operator operand => .unary operator.unplaced operand.unplaced
  | .binary left operator right => .binary left.unplaced operator.unplaced right.unplaced
  | .array _ items => .array .unknown (Expr.unplacedAll items)
  | .hash _ pairs => .hash .unknown (Pair.unplacedAll pairs)
  | .block body => .block body.unplaced
  | .ifThen _ condition consequence => .ifThen .unknown condition.unplaced consequence.unplaced
  | .ifElse _ condition consequence alternative =>
      .ifElse .unknown condition.unplaced consequence.unplaced alternative.unplaced
  | .function _ _ parameters body =>
      .function .unknown .unknown (parameters.map Token.unplaced) body.unplaced
  | .call callee _ arguments => .call callee.unplaced .unknown (Expr.unplacedAll arguments)
  | .index target _ index => .index target.unplaced .unknown index.unplaced

def Expr.unplacedAll : List Expr → List Expr
  | [] => []
  | expr :: rest => expr.unplaced :: Expr.unplacedAll rest

def Pair.unplaced : Pair → Pair
  | .mk _ key value => .mk .unknown key.unplaced value.unplaced

def Pair.unplacedAll : List Pair → List Pair
  | [] => []
  | pair :: rest => pair.unplaced :: Pair.unplacedAll rest

def Stmt.unplaced : Stmt → Stmt
  | .binding _ name value => .binding .unknown name.unplaced value.unplaced
  | .returnNil _ => .returnNil .unknown
  | .returnValue _ value => .returnValue .unknown value.unplaced
  | .block body => .block body.unplaced
  | .expr _ value => .expr .unknown value.unplaced

def Stmt.unplacedAll : List Stmt → List Stmt
  | [] => []
  | stmt :: rest => stmt.unplaced :: Stmt.unplacedAll rest

def Block.unplaced : Block → Block
  | .mk _ statements => .mk .unknown (Stmt.unplacedAll statements)

end

theorem Expr.unplacedAll_eq (items : List Expr) :
    Expr.unplacedAll items = items.map Expr.unplaced := by
  induction items with
  | nil => rfl
  | cons item rest ih => rw [Expr.unplacedAll, ih, List.map_cons]

theorem Pair.unplacedAll_eq (pairs : List Pair) :
    Pair.unplacedAll pairs = pairs.map Pair.unplaced := by
  induction pairs with
  | nil => rfl
  | cons pair rest ih => rw [Pair.unplacedAll, ih, List.map_cons]

theorem Stmt.unplacedAll_eq (statements : List Stmt) :
    Stmt.unplacedAll statements = statements.map Stmt.unplaced := by
  induction statements with
  | nil => rfl
  | cons stmt rest ih => rw [Stmt.unplacedAll, ih, List.map_cons]

def Program.unplaced (program : Program) : Program :=
  ⟨.unknown, program.statements.map Stmt.unplaced⟩

/-! ## Programs that the reader can give -/

/-- Whether a token stands for itself as an expression: a name or a literal, where an integer has to
be in range. -/
def Token.IsOperand (token : Token) : Prop :=
  match token.kind with
  | .identifier | .string | .kwTrue | .kwFalse | .kwNil => True
  | .integer => ∃ value, Text.readInteger token.text = .ok value ∧ value ≤ Integer.largest
  | _ => False

def TokenKind.IsUnary (kind : TokenKind) : Prop := kind = .minus ∨ kind = .bang

def TokenKind.IsBinary (kind : TokenKind) : Prop := 0 < kind.power ∧ kind.power < unaryPower

instance (kind : TokenKind) : Decidable kind.IsUnary :=
  inferInstanceAs (Decidable (kind = .minus ∨ kind = .bang))

instance (kind : TokenKind) : Decidable kind.IsBinary :=
  inferInstanceAs (Decidable (0 < kind.power ∧ kind.power < unaryPower))

mutual

/-- Every token of the expression is of a kind that can stand in its place. -/
def Expr.WellFormed : Expr → Prop
  | .leaf token => token.IsOperand
  | .unary operator operand => operator.kind.IsUnary ∧ operand.WellFormed
  | .binary left operator right => operator.kind.IsBinary ∧ left.WellFormed ∧ right.WellFormed
  | .array _ items => Expr.AllWellFormed items
  | .hash _ pairs => Pair.AllWellFormed pairs
  | .block body => body.WellFormed
  | .ifThen _ condition consequence => condition.WellFormed ∧ consequence.WellFormed
  | .ifElse _ condition consequence alternative =>
      condition.WellFormed ∧ consequence.WellFormed ∧ alternative.WellFormed
  | .function _ _ parameters body =>
      (∀ parameter ∈ parameters, parameter.kind = .identifier) ∧ body.WellFormed
  | .call callee _ arguments => callee.WellFormed ∧ Expr.AllWellFormed arguments
  | .index target _ index => target.WellFormed ∧ index.WellFormed

def Expr.AllWellFormed : List Expr → Prop
  | [] => True
  | expr :: rest => expr.WellFormed ∧ Expr.AllWellFormed rest

def Pair.WellFormed : Pair → Prop
  | .mk _ key value => key.WellFormed ∧ value.WellFormed

def Pair.AllWellFormed : List Pair → Prop
  | [] => True
  | pair :: rest => pair.WellFormed ∧ Pair.AllWellFormed rest

def Stmt.WellFormed : Stmt → Prop
  | .binding _ name value => name.kind = .identifier ∧ value.WellFormed
  | .returnNil _ => True
  | .returnValue _ value => value.WellFormed
  | .block body => body.WellFormed
  | .expr _ value => value.WellFormed

def Stmt.AllWellFormed : List Stmt → Prop
  | [] => True
  | stmt :: rest => stmt.WellFormed ∧ Stmt.AllWellFormed rest

def Block.WellFormed : Block → Prop
  | .mk _ statements => Stmt.AllWellFormed statements

end

theorem Expr.allWellFormed_iff (items : List Expr) :
    Expr.AllWellFormed items ↔ ∀ item ∈ items, item.WellFormed := by
  induction items with
  | nil => simp [Expr.AllWellFormed]
  | cons item rest ih => simp [Expr.AllWellFormed, ih]

theorem Pair.allWellFormed_iff (pairs : List Pair) :
    Pair.AllWellFormed pairs ↔ ∀ pair ∈ pairs, pair.WellFormed := by
  induction pairs with
  | nil => simp [Pair.AllWellFormed]
  | cons pair rest ih => simp [Pair.AllWellFormed, ih]

theorem Stmt.allWellFormed_iff (statements : List Stmt) :
    Stmt.AllWellFormed statements ↔ ∀ stmt ∈ statements, stmt.WellFormed := by
  induction statements with
  | nil => simp [Stmt.AllWellFormed]
  | cons stmt rest ih => simp [Stmt.AllWellFormed, ih]

def Program.WellFormed (program : Program) : Prop :=
  ∀ stmt ∈ program.statements, stmt.WellFormed

/-! ## Parentheses -/

/-- How tightly the outermost operator of an expression binds; without one, it binds tightest. -/
def Expr.level : Expr → Nat
  | .unary .. => unaryPower
  | .binary _ operator _ => operator.kind.power
  | .call .. => TokenKind.leftParen.power
  | .index .. => TokenKind.leftBracket.power
  | _ => TokenKind.leftBracket.power + 1

/-- The level that an expression needs to the left of an operator: that of the operator, and a
higher one where the operator groups to the right. -/
def TokenKind.leftContext (kind : TokenKind) : Nat :=
  if kind = .caret then kind.power + 1 else kind.power

/-- The level that an expression needs to the right of an operator: a higher one than that of the
operator, except where the operator groups to the right. -/
def TokenKind.rightContext (kind : TokenKind) : Nat :=
  if kind = .caret then kind.power else kind.power + 1

namespace Expr

def isBlock : Expr → Bool
  | .block _ => true
  | _ => false

def isConditional : Expr → Bool
  | .ifThen .. | .ifElse .. => true
  | _ => false

end Expr

def TokenKind.mark (kind : TokenKind) : Token := ⟨kind, kind.spelling, .unknown⟩

def parenthesized (tokens : List Token) : List Token :=
  TokenKind.leftParen.mark :: tokens ++ [TokenKind.rightParen.mark]

/-- What printing leaves open. -/
structure Style where
  /-- Whether an alternative that holds just an `if` is written as `else if`. -/
  chains : Block → Bool
  /-- Whether an expression has parentheses that it does not need. -/
  groups : Expr → Bool

/-- No parentheses but those needed. -/
def Style.plain (chains : Block → Bool) : Style := ⟨chains, fun _ => false⟩

namespace Style

/-- Whether an expression is written in parentheses where one of some level is needed. A block
always is, as it would begin a block statement. -/
def encloses (style : Style) (context : Nat) (expr : Expr) : Bool :=
  expr.level < context || expr.isBlock || style.groups expr

def enclose (style : Style) (context : Nat) (expr : Expr) (tokens : List Token) : List Token :=
  if style.encloses context expr then parenthesized tokens else tokens

end Style

/-! ## Printing -/

def commaSeparated : List (List Token) → List Token
  | [] => []
  | first :: rest => first ++ rest.flatMap (TokenKind.comma.mark :: ·)

mutual

/-- The tokens of an expression, without parentheses around it. -/
def Expr.print (style : Style) : Expr → List Token
  | .leaf token => [token.unplaced]
  | .unary operator operand =>
      operator.unplaced :: style.enclose unaryPower operand (operand.print style)
  | .binary left operator right =>
      style.enclose operator.kind.leftContext left (left.print style) ++
        operator.unplaced :: style.enclose operator.kind.rightContext right (right.print style)
  | .array _ items =>
      TokenKind.leftBracket.mark :: commaSeparated (Expr.printAll style items) ++
        [TokenKind.rightBracket.mark]
  | .hash _ pairs =>
      TokenKind.hashBrace.mark :: commaSeparated (Pair.printAll style pairs) ++
        [TokenKind.rightBrace.mark]
  | .block body => body.print style
  | .ifThen _ condition consequence =>
      TokenKind.kwIf.mark :: style.enclose 0 condition (condition.print style) ++
        consequence.print style
  | .ifElse _ condition consequence alternative =>
      TokenKind.kwIf.mark :: style.enclose 0 condition (condition.print style) ++
        consequence.print style ++ TokenKind.kwElse.mark :: alternative.printElse style
  | .function _ _ parameters body =>
      TokenKind.kwFn.mark :: TokenKind.leftParen.mark ::
        commaSeparated (parameters.map fun parameter => [parameter.unplaced]) ++
        TokenKind.rightParen.mark :: body.print style
  | .call callee _ arguments =>
      style.enclose TokenKind.leftParen.power callee (callee.print style) ++
        TokenKind.leftParen.mark :: commaSeparated (Expr.printAll style arguments) ++
        [TokenKind.rightParen.mark]
  | .index target _ index =>
      style.enclose TokenKind.leftBracket.power target (target.print style) ++
        TokenKind.leftBracket.mark :: style.enclose 0 index (index.print style) ++
        [TokenKind.rightBracket.mark]

def Expr.printAll (style : Style) : List Expr → List (List Token)
  | [] => []
  | expr :: rest => style.enclose 0 expr (expr.print style) :: Expr.printAll style rest

def Pair.print (style : Style) : Pair → List Token
  | .mk _ key value =>
      style.enclose 0 key (key.print style) ++
        TokenKind.colon.mark :: style.enclose 0 value (value.print style)

def Pair.printAll (style : Style) : List Pair → List (List Token)
  | [] => []
  | pair :: rest => pair.print style :: Pair.printAll style rest

def Stmt.print (style : Style) : Stmt → List Token
  | .binding _ name value =>
      TokenKind.kwLet.mark :: name.unplaced :: TokenKind.assign.mark ::
        style.enclose 0 value (value.print style) ++ [TokenKind.semicolon.mark]
  | .returnNil _ => [TokenKind.kwReturn.mark, TokenKind.semicolon.mark]
  | .returnValue _ value =>
      TokenKind.kwReturn.mark :: style.enclose 0 value (value.print style) ++
        [TokenKind.semicolon.mark]
  | .block body => body.print style
  | .expr _ value => style.enclose 0 value (value.print style) ++ [TokenKind.semicolon.mark]

def Stmt.printAll (style : Style) : List Stmt → List Token
  | [] => []
  | stmt :: rest => stmt.print style ++ Stmt.printAll style rest

def Block.print (style : Style) : Block → List Token
  | .mk _ statements =>
      TokenKind.leftBrace.mark :: Stmt.printAll style statements ++ [TokenKind.rightBrace.mark]

/-- The block after an `else`, or the `if` that is all it holds. -/
def Block.printElse (style : Style) : Block → List Token
  | .mk position [.expr start value] =>
      if value.isConditional && style.chains (.mk position [.expr start value]) then
        value.print style
      else
        TokenKind.leftBrace.mark ::
          (style.enclose 0 value (value.print style) ++ [TokenKind.semicolon.mark]) ++
          [TokenKind.rightBrace.mark]
  | .mk _ statements =>
      TokenKind.leftBrace.mark :: Stmt.printAll style statements ++ [TokenKind.rightBrace.mark]

end

def Program.print (style : Style) (program : Program) : List Token :=
  Stmt.printAll style program.statements

/-! ## Depth of nesting -/

/-- How deep phrases nest where an expression is written in which they nest so deep. -/
def Style.nestingIn (style : Style) (context : Nat) (expr : Expr) (nesting : Nat) : Nat :=
  if style.encloses context expr then nesting + 1 else nesting

mutual

/-- How deep phrases nest in the printed expression: those that are read as its parts are one level
further in, except for the operands that operators are found after. -/
def Expr.nesting (style : Style) : Expr → Nat
  | .leaf _ => 0
  | .unary _ operand => style.nestingIn unaryPower operand (operand.nesting style) + 1
  | .binary left operator right =>
      max (style.nestingIn operator.kind.leftContext left (left.nesting style))
        (style.nestingIn operator.kind.rightContext right (right.nesting style) + 1)
  | .array _ items => Expr.nestingAll style items
  | .hash _ pairs => Pair.nestingAll style pairs
  | .block body => body.nesting style
  | .ifThen _ condition consequence =>
      max (style.nestingIn 0 condition (condition.nesting style) + 1) (consequence.nesting style)
  | .ifElse _ condition consequence alternative =>
      max (max (style.nestingIn 0 condition (condition.nesting style) + 1)
        (consequence.nesting style)) (alternative.nestingElse style)
  | .function _ _ _ body => body.nesting style
  | .call callee _ arguments =>
      max (style.nestingIn TokenKind.leftParen.power callee (callee.nesting style))
        (Expr.nestingAll style arguments)
  | .index target _ index =>
      max (style.nestingIn TokenKind.leftBracket.power target (target.nesting style))
        (style.nestingIn 0 index (index.nesting style) + 1)

def Expr.nestingAll (style : Style) : List Expr → Nat
  | [] => 0
  | expr :: rest =>
      max (style.nestingIn 0 expr (expr.nesting style) + 1) (Expr.nestingAll style rest)

def Pair.nesting (style : Style) : Pair → Nat
  | .mk _ key value =>
      max (style.nestingIn 0 key (key.nesting style))
        (style.nestingIn 0 value (value.nesting style))

def Pair.nestingAll (style : Style) : List Pair → Nat
  | [] => 0
  | pair :: rest => max (pair.nesting style + 1) (Pair.nestingAll style rest)

def Stmt.nesting (style : Style) : Stmt → Nat
  | .binding _ _ value | .returnValue _ value | .expr _ value =>
      style.nestingIn 0 value (value.nesting style) + 1
  | .returnNil _ => 0
  | .block body => body.nesting style

def Stmt.nestingAll (style : Style) : List Stmt → Nat
  | [] => 0
  | stmt :: rest => max (stmt.nesting style + 1) (Stmt.nestingAll style rest)

def Block.nesting (style : Style) : Block → Nat
  | .mk _ statements => Stmt.nestingAll style statements

def Block.nestingElse (style : Style) : Block → Nat
  | .mk position [.expr start value] =>
      if value.isConditional && style.chains (.mk position [.expr start value]) then
        value.nesting style + 1
      else style.nestingIn 0 value (value.nesting style) + 2
  | .mk _ statements => Stmt.nestingAll style statements

end

def Program.nesting (style : Style) (program : Program) : Nat :=
  Stmt.nestingAll style program.statements

end Monkey
