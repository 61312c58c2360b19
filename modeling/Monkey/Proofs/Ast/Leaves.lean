import Monkey.Ast.Tree
import Monkey.Proofs.Printing.Basic

/-!
# The leaves of a program

The leaves of a tree, read from left to right, are tokens of the text it was read from: its names,
literals and operators. All other tokens only show how these belong together.
-/

set_option autoImplicit false

namespace Monkey

/-- Whether trees keep a token of the kind: names, literals and the operators before and between
operands. -/
def TokenKind.isKept : TokenKind → Bool
  | identifier | integer | string | kwTrue | kwFalse | kwNil => true
  | plus | minus | star | slash | percent | caret => true
  | equal | notEqual | less | lessEqual | greater | greaterEqual | bang => true
  | _ => false

/-- The tokens that a tree of them would keep. -/
def keptTokens (tokens : List Token) : List Token := tokens.filter (·.kind.isKept)

@[simp] theorem keptTokens_nil : keptTokens [] = [] := rfl

@[simp] theorem keptTokens_append (leading trailing : List Token) :
    keptTokens (leading ++ trailing) = keptTokens leading ++ keptTokens trailing :=
  List.filter_append _ _

/-! ## Leaves by construction -/

def Expr.leaves (expr : Expr) : List Token := expr.tree.leaves

def Pair.leaves (pair : Pair) : List Token := pair.tree.leaves

def Stmt.leaves (stmt : Stmt) : List Token := stmt.tree.leaves

def Block.leaves (block : Block) : List Token := block.statements.flatMap Stmt.leaves

section Trees

@[simp] theorem Tree.leaves_leaf (token : Token) : (Tree.leaf token).leaves = [token] := rfl

@[simp] theorem Tree.leavesAll_nil : Tree.leavesAll [] = [] := rfl

@[simp] theorem Tree.leavesAll_cons (tree : Tree) (rest : List Tree) :
    Tree.leavesAll (tree :: rest) = tree.leaves ++ Tree.leavesAll rest := rfl

@[simp] theorem Tree.leavesAll_leaves (tokens : List Token) :
    Tree.leavesAll (tokens.map .leaf) = tokens := by
  induction tokens with
  | nil => rfl
  | cons token rest ih => simp [ih]

@[simp] theorem Expr.tree_leaves (expr : Expr) : expr.tree.leaves = expr.leaves := rfl

@[simp] theorem Pair.tree_leaves (pair : Pair) : pair.tree.leaves = pair.leaves := rfl

@[simp] theorem Stmt.tree_leaves (stmt : Stmt) : stmt.tree.leaves = stmt.leaves := rfl

@[simp] theorem Expr.trees_leaves (items : List Expr) :
    Tree.leavesAll (Expr.trees items) = items.flatMap Expr.leaves := by
  induction items with
  | nil => rfl
  | cons item rest ih => exact congrArg (item.leaves ++ ·) ih

@[simp] theorem Pair.trees_leaves (pairs : List Pair) :
    Tree.leavesAll (Pair.trees pairs) = pairs.flatMap Pair.leaves := by
  induction pairs with
  | nil => rfl
  | cons pair rest ih => exact congrArg (pair.leaves ++ ·) ih

@[simp] theorem Stmt.trees_leaves (statements : List Stmt) :
    Tree.leavesAll (Stmt.trees statements) = statements.flatMap Stmt.leaves := by
  induction statements with
  | nil => rfl
  | cons stmt rest ih => exact congrArg (stmt.leaves ++ ·) ih

/-- The place that a block stands in does not matter to its leaves. -/
@[simp] theorem Block.tree_leaves (label : Label) (block : Block) :
    (block.tree label).leaves = block.leaves := by
  cases block with
  | mk position statements => exact Stmt.trees_leaves statements

end Trees

theorem Program.tree_leaves (program : Program) :
    program.tree.leaves = program.statements.flatMap Stmt.leaves :=
  Stmt.trees_leaves program.statements

section Constructors

variable (position other : Position) (token : Token)

@[simp] theorem Block.leaves_mk (statements : List Stmt) :
    (Block.mk position statements).leaves = statements.flatMap Stmt.leaves := rfl

@[simp] theorem Pair.leaves_mk (key value : Expr) :
    (Pair.mk position key value).leaves = key.leaves ++ value.leaves := by
  show Tree.leavesAll [key.tree, value.tree] = _
  simp

namespace Expr

@[simp] theorem leaves_leaf : (leaf token).leaves = [token] := rfl

@[simp] theorem leaves_unary (operand : Expr) :
    (unary token operand).leaves = token :: operand.leaves := by
  show Tree.leavesAll [.leaf token, operand.tree] = _
  simp

@[simp] theorem leaves_binary (left right : Expr) :
    (binary left token right).leaves = left.leaves ++ token :: right.leaves := by
  show Tree.leavesAll [left.tree, .leaf token, right.tree] = _
  simp

@[simp] theorem leaves_array (items : List Expr) :
    (array position items).leaves = items.flatMap Expr.leaves :=
  trees_leaves items

@[simp] theorem leaves_hash (pairs : List Pair) :
    (hash position pairs).leaves = pairs.flatMap Pair.leaves :=
  Pair.trees_leaves pairs

@[simp] theorem leaves_block (body : Block) : (block body).leaves = body.leaves :=
  body.tree_leaves .blockExpr

@[simp] theorem leaves_ifThen (condition : Expr) (consequence : Block) :
    (ifThen position condition consequence).leaves =
      condition.leaves ++ consequence.leaves := by
  show Tree.leavesAll [condition.tree, consequence.tree .block] = _
  simp

@[simp] theorem leaves_ifElse (condition : Expr) (consequence alternative : Block) :
    (ifElse position condition consequence alternative).leaves =
      condition.leaves ++ consequence.leaves ++ alternative.leaves := by
  show Tree.leavesAll [condition.tree, consequence.tree .block, alternative.tree .block] = _
  simp

@[simp] theorem leaves_function (parameters : List Token) (body : Block) :
    (function position other parameters body).leaves = parameters ++ body.leaves := by
  show Tree.leavesAll (parameters.map .leaf) ++ Tree.leavesAll [body.tree .block] = _
  simp

@[simp] theorem leaves_call (callee : Expr) (arguments : List Expr) :
    (call callee position arguments).leaves =
      callee.leaves ++ arguments.flatMap Expr.leaves := by
  show callee.leaves ++ (Tree.leavesAll (trees arguments) ++ []) = _
  simp

@[simp] theorem leaves_index (target place : Expr) :
    (index target position place).leaves = target.leaves ++ place.leaves := by
  show Tree.leavesAll [target.tree, place.tree] = _
  simp

end Expr

namespace Stmt

@[simp] theorem leaves_binding (value : Expr) :
    (binding position token value).leaves = token :: value.leaves := by
  show Tree.leavesAll [.leaf token, value.tree] = _
  simp

@[simp] theorem leaves_returnNil : (returnNil position).leaves = [] := rfl

@[simp] theorem leaves_returnValue (value : Expr) :
    (returnValue position value).leaves = value.leaves :=
  List.append_nil value.leaves

@[simp] theorem leaves_block (body : Block) : (block body).leaves = body.leaves :=
  body.tree_leaves .block

@[simp] theorem leaves_expr (value : Expr) : (expr position value).leaves = value.leaves :=
  List.append_nil value.leaves

end Stmt

end Constructors

/-! ## Which tokens are leaves -/

/-- The leaf of a well-formed tree can be the token: it is an operand, or an operator before or
between operands. -/
inductive Token.IsLeaf (token : Token) : Prop
  | operand (isOperand : token.IsOperand)
  | unary (isUnary : token.kind.IsUnary)
  | binary (isBinary : token.kind.IsBinary)

theorem Token.IsLeaf.name {token : Token} (isName : token.kind = .identifier) : token.IsLeaf :=
  .operand (by simp only [Token.IsOperand, isName])

theorem Token.IsLeaf.isKept {token : Token} (isLeaf : token.IsLeaf) :
    token.kind.isKept = true := by
  cases isLeaf with
  | operand isOperand =>
      rw [Token.IsOperand] at isOperand
      split at isOperand <;> simp_all [TokenKind.isKept]
  | unary isUnary => rcases isUnary with isMinus | isBang <;> simp [*, TokenKind.isKept]
  | binary isBinary =>
      revert isBinary
      cases token.kind <;> decide

/-- The tokens before and those after may be leaves. -/
theorem leaves_isLeaf_append {leading trailing : List Token}
    (first : ∀ token ∈ leading, token.IsLeaf) (second : ∀ token ∈ trailing, token.IsLeaf) :
    ∀ token ∈ leading ++ trailing, token.IsLeaf :=
  List.forall_mem_append.mpr ⟨first, second⟩

mutual

theorem Expr.leaves_isLeaf :
    ∀ (expr : Expr), expr.WellFormed → ∀ token ∈ expr.leaves, token.IsLeaf
  | .leaf token, formed => by
      simpa using Token.IsLeaf.operand formed
  | .unary operator operand, formed => by
      simpa using ⟨.unary formed.1, operand.leaves_isLeaf formed.2⟩
  | .binary left operator right, formed => by
      have rights := right.leaves_isLeaf formed.2.2
      simpa [or_imp, forall_and] using
        ⟨left.leaves_isLeaf formed.2.1, .binary formed.1, rights⟩
  | .array _ items, formed => by
      rw [Expr.leaves_array]
      exact Expr.all_leaves_isLeaf items formed
  | .hash _ pairs, formed => by
      rw [Expr.leaves_hash]
      exact Pair.all_leaves_isLeaf pairs formed
  | .block (.mk _ statements), formed => by
      rw [Expr.leaves_block]
      exact Stmt.all_leaves_isLeaf statements formed
  | .ifThen _ condition (.mk _ statements), formed => by
      rw [Expr.leaves_ifThen]
      exact leaves_isLeaf_append (condition.leaves_isLeaf formed.1)
        (Stmt.all_leaves_isLeaf statements formed.2)
  | .ifElse _ condition (.mk _ statements) (.mk _ others), formed => by
      rw [Expr.leaves_ifElse]
      exact leaves_isLeaf_append
        (leaves_isLeaf_append (condition.leaves_isLeaf formed.1)
          (Stmt.all_leaves_isLeaf statements formed.2.1))
        (Stmt.all_leaves_isLeaf others formed.2.2)
  | .function _ _ parameters (.mk _ statements), formed => by
      have names : ∀ token ∈ parameters, token.IsLeaf := fun token member =>
        .name (formed.1 token member)
      rw [Expr.leaves_function]
      exact leaves_isLeaf_append names (Stmt.all_leaves_isLeaf statements formed.2)
  | .call callee _ arguments, formed => by
      rw [Expr.leaves_call]
      exact leaves_isLeaf_append (callee.leaves_isLeaf formed.1)
        (Expr.all_leaves_isLeaf arguments formed.2)
  | .index target _ place, formed => by
      rw [Expr.leaves_index]
      exact leaves_isLeaf_append (target.leaves_isLeaf formed.1) (place.leaves_isLeaf formed.2)

theorem Expr.all_leaves_isLeaf : ∀ (items : List Expr), Expr.AllWellFormed items →
    ∀ token ∈ items.flatMap Expr.leaves, token.IsLeaf
  | [], _ => fun _ member => absurd member List.not_mem_nil
  | item :: rest, formed => by
      rw [List.flatMap_cons]
      exact leaves_isLeaf_append (item.leaves_isLeaf formed.1)
        (Expr.all_leaves_isLeaf rest formed.2)

theorem Pair.all_leaves_isLeaf : ∀ (pairs : List Pair), Pair.AllWellFormed pairs →
    ∀ token ∈ pairs.flatMap Pair.leaves, token.IsLeaf
  | [], _ => fun _ member => absurd member List.not_mem_nil
  | .mk _ key value :: rest, formed => by
      rw [List.flatMap_cons, Pair.leaves_mk]
      exact leaves_isLeaf_append
        (leaves_isLeaf_append (key.leaves_isLeaf formed.1.1) (value.leaves_isLeaf formed.1.2))
        (Pair.all_leaves_isLeaf rest formed.2)

theorem Stmt.leaves_isLeaf :
    ∀ (stmt : Stmt), stmt.WellFormed → ∀ token ∈ stmt.leaves, token.IsLeaf
  | .binding _ name value, formed => by
      simpa using ⟨.name formed.1, value.leaves_isLeaf formed.2⟩
  | .returnNil _, _ => by simp
  | .returnValue _ value, formed => by
      rw [Stmt.leaves_returnValue]
      exact value.leaves_isLeaf formed
  | .block (.mk _ statements), formed => by
      rw [Stmt.leaves_block]
      exact Stmt.all_leaves_isLeaf statements formed
  | .expr _ value, formed => by
      rw [Stmt.leaves_expr]
      exact value.leaves_isLeaf formed

theorem Stmt.all_leaves_isLeaf : ∀ (statements : List Stmt), Stmt.AllWellFormed statements →
    ∀ token ∈ statements.flatMap Stmt.leaves, token.IsLeaf
  | [], _ => fun _ member => absurd member List.not_mem_nil
  | stmt :: rest, formed => by
      rw [List.flatMap_cons]
      exact leaves_isLeaf_append (stmt.leaves_isLeaf formed.1)
        (Stmt.all_leaves_isLeaf rest formed.2)

end

theorem Program.leaves_isLeaf {program : Program} (formed : program.WellFormed) :
    ∀ token ∈ program.tree.leaves, token.IsLeaf := by
  rw [Program.tree_leaves]
  exact Stmt.all_leaves_isLeaf program.statements ((Stmt.allWellFormed_iff _).mpr formed)

/-! ## Integers among the leaves -/

/-- If the token is an integer, it is read as a number that is not too large. -/
def Token.IsBounded (token : Token) : Prop :=
  token.kind = .integer → ∃ value, Text.readInteger token.text = .ok value ∧
    value ≤ Integer.largest

theorem Token.IsLeaf.isBounded {token : Token} (isLeaf : token.IsLeaf) : token.IsBounded := by
  intro isInteger
  cases isLeaf with
  | operand isOperand => simpa only [Token.IsOperand, isInteger] using isOperand
  | unary isUnary => simp [TokenKind.IsUnary, isInteger] at isUnary
  | binary isBinary => simp [TokenKind.IsBinary, TokenKind.power, isInteger] at isBinary

theorem Program.leaves_bounded {program : Program} (formed : program.WellFormed) :
    ∀ token ∈ program.tree.leaves, token.IsBounded :=
  fun token member => (leaves_isLeaf formed token member).isBounded

end Monkey
