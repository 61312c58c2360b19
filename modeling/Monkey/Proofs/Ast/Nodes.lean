import Monkey.Ast.Tree

/-!
# Nodes and where they are

Every node of a tree has a position, a leaf that of its token. What is blamed on a phrase is blamed
on the node that its tree has at the top, and the trees of the phrases in it stand inside its own.
-/

set_option autoImplicit false

namespace Monkey

namespace Tree

def position : Tree → Position
  | .leaf token => token.position
  | .node _ position _ => position

/-- The first tree is the second or stands somewhere below its top. -/
inductive Inside : Tree → Tree → Prop
  | whole (tree : Tree) : Inside tree tree
  | child {part child : Tree} {label : Label} {position : Position} {children : List Tree}
      (member : child ∈ children) (inside : Inside part child) :
      Inside part (.node label position children)

theorem Inside.trans {first second third : Tree} (lower : first.Inside second)
    (upper : second.Inside third) : first.Inside third := by
  induction upper with
  | whole => exact lower
  | child member _ ih => exact .child member ih

theorem Inside.descend {label : Label} {position : Position} {children : List Tree}
    {child tree : Tree} (inside : (Tree.node label position children).Inside tree)
    (member : child ∈ children) : child.Inside tree :=
  Inside.trans (.child member (.whole child)) inside

/-- Every node of the tree is at such a position. -/
def Placed (placed : Position → Prop) (tree : Tree) : Prop :=
  ∀ node : Tree, node.Inside tree → placed node.position

variable {placed : Position → Prop}

@[simp] theorem placed_leaf (token : Token) :
    (Tree.leaf token).Placed placed ↔ placed token.position := by
  refine ⟨fun all => all _ (.whole _), fun isPlaced node inside => ?_⟩
  cases inside with
  | whole => exact isPlaced

@[simp] theorem placed_node (label : Label) (position : Position) (children : List Tree) :
    (Tree.node label position children).Placed placed ↔
      placed position ∧ ∀ child ∈ children, child.Placed placed := by
  constructor
  · intro all
    exact ⟨all _ (.whole _), fun child member node inside => all _ (.child member inside)⟩
  · rintro ⟨top, others⟩ node inside
    cases inside with
    | whole => exact top
    | child member inside => exact others _ member node inside

end Tree

/-! ## Phrases and their trees -/

@[simp] theorem Expr.tree_position (expr : Expr) : expr.tree.position = expr.position := by
  cases expr with
  | block body => cases body; rfl
  | _ => rfl

@[simp] theorem Stmt.tree_position (stmt : Stmt) : stmt.tree.position = stmt.position := by
  cases stmt with
  | block body => cases body; rfl
  | _ => rfl

theorem Expr.trees_eq (items : List Expr) : Expr.trees items = items.map Expr.tree := by
  induction items with
  | nil => rfl
  | cons item rest ih => exact congrArg (item.tree :: ·) ih

theorem Pair.trees_eq (pairs : List Pair) : Pair.trees pairs = pairs.map Pair.tree := by
  induction pairs with
  | nil => rfl
  | cons pair rest ih => exact congrArg (pair.tree :: ·) ih

theorem Stmt.trees_eq (statements : List Stmt) :
    Stmt.trees statements = statements.map Stmt.tree := by
  induction statements with
  | nil => rfl
  | cons stmt rest ih => exact congrArg (stmt.tree :: ·) ih

theorem Block.tree_eq (label : Label) (body : Block) :
    body.tree label = .node label body.position (body.statements.map Stmt.tree) := by
  obtain ⟨position, statements⟩ := body
  exact congrArg (Tree.node label position) (Stmt.trees_eq statements)

theorem Program.tree_eq (program : Program) :
    program.tree = .node .program program.position (program.statements.map Stmt.tree) :=
  congrArg (Tree.node .program program.position) (Stmt.trees_eq program.statements)

/-! ## Phrases all of whose nodes are at such positions -/

section Placed

variable (placed : Position → Prop)

def Expr.Placed (expr : Expr) : Prop := expr.tree.Placed placed

def Pair.Placed (pair : Pair) : Prop := pair.tree.Placed placed

def Stmt.Placed (stmt : Stmt) : Prop := stmt.tree.Placed placed

def Block.Placed (body : Block) : Prop :=
  placed body.position ∧ ∀ stmt ∈ body.statements, stmt.Placed placed

end Placed

section Constructors

variable {placed : Position → Prop} (position other : Position) (token : Token)

attribute [local simp] Expr.tree Pair.tree Stmt.tree

@[simp] theorem Block.placed_tree (label : Label) (body : Block) :
    (body.tree label).Placed placed ↔ body.Placed placed := by
  simp [Block.tree_eq, Block.Placed, Stmt.Placed]

@[simp] theorem Pair.placed_mk (key value : Expr) :
    (Pair.mk position key value).Placed placed ↔
      placed position ∧ key.Placed placed ∧ value.Placed placed := by
  simp [Pair.Placed, Expr.Placed]

namespace Expr

@[simp] theorem placed_leaf : (leaf token).Placed placed ↔ placed token.position := by
  simp [Expr.Placed]

@[simp] theorem placed_unary (operand : Expr) :
    (unary token operand).Placed placed ↔ placed token.position ∧ operand.Placed placed := by
  simp [Expr.Placed]

@[simp] theorem placed_binary (left right : Expr) :
    (binary left token right).Placed placed ↔
      placed token.position ∧ left.Placed placed ∧ right.Placed placed := by
  simp [Expr.Placed]
  exact fun isPlaced _ _ => isPlaced

@[simp] theorem placed_array (items : List Expr) :
    (array position items).Placed placed ↔
      placed position ∧ ∀ item ∈ items, item.Placed placed := by
  simp [Expr.Placed, Expr.trees_eq]

@[simp] theorem placed_hash (pairs : List Pair) :
    (hash position pairs).Placed placed ↔
      placed position ∧ ∀ pair ∈ pairs, pair.Placed placed := by
  simp [Expr.Placed, Pair.Placed, Pair.trees_eq]

@[simp] theorem placed_block (body : Block) :
    (block body).Placed placed ↔ body.Placed placed := by
  simp [Expr.Placed]

@[simp] theorem placed_ifThen (condition : Expr) (consequence : Block) :
    (ifThen position condition consequence).Placed placed ↔
      placed position ∧ condition.Placed placed ∧ consequence.Placed placed := by
  simp [Expr.Placed]

@[simp] theorem placed_ifElse (condition : Expr) (consequence alternative : Block) :
    (ifElse position condition consequence alternative).Placed placed ↔
      placed position ∧ condition.Placed placed ∧ consequence.Placed placed ∧
        alternative.Placed placed := by
  simp [Expr.Placed]

@[simp] theorem placed_function (parameters : List Token) (body : Block) :
    (function position other parameters body).Placed placed ↔
      placed position ∧ (placed other ∧ ∀ parameter ∈ parameters, placed parameter.position) ∧
        body.Placed placed := by
  simp [Expr.Placed]

@[simp] theorem placed_call (callee : Expr) (arguments : List Expr) :
    (call callee position arguments).Placed placed ↔
      placed position ∧ callee.Placed placed ∧ ∀ argument ∈ arguments, argument.Placed placed := by
  simp [Expr.Placed, Expr.trees_eq]
  exact fun isPlaced _ _ => isPlaced

@[simp] theorem placed_index (target place : Expr) :
    (index target position place).Placed placed ↔
      placed position ∧ target.Placed placed ∧ place.Placed placed := by
  simp [Expr.Placed]

end Expr

namespace Stmt

@[simp] theorem placed_binding (value : Expr) :
    (binding position token value).Placed placed ↔
      placed position ∧ placed token.position ∧ value.Placed placed := by
  simp [Stmt.Placed, Expr.Placed]

@[simp] theorem placed_returnNil : (returnNil position).Placed placed ↔ placed position := by
  simp [Stmt.Placed]

@[simp] theorem placed_returnValue (value : Expr) :
    (returnValue position value).Placed placed ↔ placed position ∧ value.Placed placed := by
  simp [Stmt.Placed, Expr.Placed]

@[simp] theorem placed_block (body : Block) :
    (block body).Placed placed ↔ body.Placed placed := by
  simp [Stmt.Placed]

@[simp] theorem placed_expr (value : Expr) :
    (expr position value).Placed placed ↔ placed position ∧ value.Placed placed := by
  simp [Stmt.Placed, Expr.Placed]

end Stmt

@[simp] theorem Program.placed_tree (program : Program) :
    program.tree.Placed placed ↔
      placed program.position ∧ ∀ stmt ∈ program.statements, stmt.Placed placed := by
  simp [Program.tree_eq, Stmt.Placed]

end Constructors

end Monkey
