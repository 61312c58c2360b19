import Monkey.Ast.Tree
import Monkey.Proofs.Printing.Basic

/-!
# The shape of labelled trees

What an evaluator of labelled trees relies on when it takes a node apart: how many children there
are under each label, which of them are tokens, and of which kinds. The tree of a well-formed
program has this shape at every node.
-/

set_option autoImplicit false

namespace Monkey

namespace Tree

mutual

inductive Evaluable : Tree → Prop
  | leaf {token : Token} (isOperand : token.IsOperand) : Evaluable (.leaf token)
  | statements {label : Label} {position : Position} {children : List Tree}
      (runs : label = .program ∨ label = .block ∨ label = .blockExpr)
      (all : ∀ child ∈ children, Evaluable child) : Evaluable (.node label position children)
  | exprStmt {position : Position} {value : Tree} (values : Evaluable value) :
      Evaluable (.node .exprStmt position [value])
  | binding {position : Position} {name : Token} {value : Tree} (isName : name.kind = .identifier)
      (values : Evaluable value) : Evaluable (.node .binding position [.leaf name, value])
  | returnNil {position : Position} : Evaluable (.node .returning position [])
  | returnValue {position : Position} {value : Tree} (values : Evaluable value) :
      Evaluable (.node .returning position [value])
  | array {position : Position} {items : List Tree} (all : ∀ item ∈ items, Evaluable item) :
      Evaluable (.node .array position items)
  | hash {position : Position} {pairs : List Tree} (all : ∀ pair ∈ pairs, EvaluablePair pair) :
      Evaluable (.node .hash position pairs)
  | unary {position : Position} {operator : Token} {operand : Tree}
      (isUnary : operator.kind.IsUnary) (operands : Evaluable operand) :
      Evaluable (.node .unary position [.leaf operator, operand])
  | binary {position : Position} {left right : Tree} {operator : Token}
      (isBinary : operator.kind.IsBinary) (lefts : Evaluable left) (rights : Evaluable right) :
      Evaluable (.node .binary position [left, .leaf operator, right])
  | ifThen {position : Position} {condition consequence : Tree} (conditions : Evaluable condition)
      (consequences : Evaluable consequence) :
      Evaluable (.node .conditional position [condition, consequence])
  | ifElse {position : Position} {condition consequence alternative : Tree}
      (conditions : Evaluable condition) (consequences : Evaluable consequence)
      (alternatives : Evaluable alternative) :
      Evaluable (.node .conditional position [condition, consequence, alternative])
  | function {position parametersPosition bodyPosition : Position} {parameters : List Token}
      {body : List Tree} (areNames : ∀ parameter ∈ parameters, parameter.kind = .identifier)
      (all : ∀ stmt ∈ body, Evaluable stmt) :
      Evaluable (.node .function position
        [.node .parameters parametersPosition (parameters.map .leaf),
          .node .block bodyPosition body])
  | call {position argumentsPosition : Position} {callee : Tree} {arguments : List Tree}
      (callees : Evaluable callee) (all : ∀ argument ∈ arguments, Evaluable argument) :
      Evaluable (.node .call position [callee, .node .arguments argumentsPosition arguments])
  | index {position : Position} {target place : Tree} (targets : Evaluable target)
      (places : Evaluable place) : Evaluable (.node .index position [target, place])

inductive EvaluablePair : Tree → Prop
  | intro {position : Position} {key value : Tree} (keys : Evaluable key)
      (values : Evaluable value) : EvaluablePair (.node .pair position [key, value])

end

end Tree

mutual

theorem Expr.tree_evaluable :
    ∀ (expr : Expr), expr.WellFormed → expr.tree.Evaluable
  | .leaf _, formed => .leaf formed
  | .unary _ operand, formed => .unary formed.1 (operand.tree_evaluable formed.2)
  | .binary left _ right, formed =>
      .binary formed.1 (left.tree_evaluable formed.2.1) (right.tree_evaluable formed.2.2)
  | .array _ items, formed => .array (Expr.trees_evaluable items formed)
  | .hash _ pairs, formed => .hash (Pair.trees_evaluable pairs formed)
  | .block (.mk _ statements), formed =>
      .statements (.inr (.inr rfl)) (Stmt.trees_evaluable statements formed)
  | .ifThen _ condition (.mk _ statements), formed =>
      .ifThen (condition.tree_evaluable formed.1)
        (.statements (.inr (.inl rfl)) (Stmt.trees_evaluable statements formed.2))
  | .ifElse _ condition (.mk _ statements) (.mk _ others), formed =>
      .ifElse (condition.tree_evaluable formed.1)
        (.statements (.inr (.inl rfl)) (Stmt.trees_evaluable statements formed.2.1))
        (.statements (.inr (.inl rfl)) (Stmt.trees_evaluable others formed.2.2))
  | .function _ _ _ (.mk _ statements), formed =>
      .function formed.1 (Stmt.trees_evaluable statements formed.2)
  | .call callee _ arguments, formed =>
      .call (callee.tree_evaluable formed.1) (Expr.trees_evaluable arguments formed.2)
  | .index target _ place, formed =>
      .index (target.tree_evaluable formed.1) (place.tree_evaluable formed.2)

theorem Expr.trees_evaluable :
    ∀ (items : List Expr), Expr.AllWellFormed items → ∀ tree ∈ Expr.trees items, tree.Evaluable
  | [], _ => fun _ member => absurd member List.not_mem_nil
  | item :: rest, formed => List.forall_mem_cons.mpr
      ⟨item.tree_evaluable formed.1, Expr.trees_evaluable rest formed.2⟩

theorem Pair.trees_evaluable :
    ∀ (pairs : List Pair), Pair.AllWellFormed pairs → ∀ tree ∈ Pair.trees pairs, tree.EvaluablePair
  | [], _ => fun _ member => absurd member List.not_mem_nil
  | .mk _ key value :: rest, formed => List.forall_mem_cons.mpr
      ⟨.intro (key.tree_evaluable formed.1.1) (value.tree_evaluable formed.1.2),
        Pair.trees_evaluable rest formed.2⟩

theorem Stmt.tree_evaluable : ∀ (stmt : Stmt), stmt.WellFormed → stmt.tree.Evaluable
  | .binding _ _ value, formed => .binding formed.1 (value.tree_evaluable formed.2)
  | .returnNil _, _ => .returnNil
  | .returnValue _ value, formed => .returnValue (value.tree_evaluable formed)
  | .block (.mk _ statements), formed =>
      .statements (.inr (.inl rfl)) (Stmt.trees_evaluable statements formed)
  | .expr _ value, formed => .exprStmt (value.tree_evaluable formed)

theorem Stmt.trees_evaluable :
    ∀ (list : List Stmt), Stmt.AllWellFormed list → ∀ tree ∈ Stmt.trees list, tree.Evaluable
  | [], _ => fun _ member => absurd member List.not_mem_nil
  | stmt :: rest, formed => List.forall_mem_cons.mpr
      ⟨stmt.tree_evaluable formed.1, Stmt.trees_evaluable rest formed.2⟩

end

theorem Program.tree_evaluable {program : Program} (formed : program.WellFormed) :
    program.tree.Evaluable :=
  .statements (.inl rfl)
    (Stmt.trees_evaluable program.statements ((Stmt.allWellFormed_iff _).mpr formed))

end Monkey
