import Mathlib.Data.List.Forall2
import Monkey.Proofs.Printing.Basic

/-!
# Trees that differ in their places

Two well-formed trees are alike if they are the same up to the positions in them. Where a comparison
is `exact`, the positions have to agree as well. What is alike has the same shape, and parts that
are alike in turn.
-/

set_option autoImplicit false

namespace Monkey

/-- The first is well formed, and the second is the same up to what is erased; if the comparison is
exact, it is the same altogether. -/
structure Alike {α : Type} (wellFormed : α → Prop) (erase : α → α) (exact : Prop)
    (first second : α) : Prop where
  wellFormed : wellFormed first
  erased : erase first = erase second
  same : exact → first = second

section Lists

variable {α : Type} {wellFormed : α → Prop} {erase : α → α} {exact : Prop}

theorem forall₂_alike {items items' : List α} (formed : ∀ item ∈ items, wellFormed item)
    (erased : items.map erase = items'.map erase) (same : exact → items = items') :
    List.Forall₂ (Alike wellFormed erase exact) items items' := by
  induction items generalizing items' with
  | nil =>
      obtain rfl := List.map_eq_nil_iff.mp erased.symm
      exact .nil
  | cons item rest ih =>
      obtain ⟨item', rest', rfl, first, others⟩ := List.map_eq_cons_iff.mp erased.symm
      obtain ⟨here, later⟩ := List.forall_mem_cons.mp formed
      refine .cons ⟨here, first.symm, fun holds => ?_⟩ (ih later others.symm fun holds => ?_)
      · exact (List.cons.inj (same holds)).1
      · exact (List.cons.inj (same holds)).2

theorem forall_of_alike {items items' : List α}
    (alike : List.Forall₂ (Alike wellFormed erase exact) items items') :
    ∀ item ∈ items, wellFormed item := by
  induction alike with
  | nil => exact nofun
  | cons first _ ih => exact List.forall_mem_cons.mpr ⟨first.wellFormed, ih⟩

theorem map_eq_of_alike {items items' : List α}
    (alike : List.Forall₂ (Alike wellFormed erase exact) items items') :
    items.map erase = items'.map erase := by
  induction alike with
  | nil => rfl
  | cons first _ ih => rw [List.map_cons, List.map_cons, first.erased, ih]

end Lists

abbrev Token.Alike (exact : Prop) : Token → Token → Prop :=
  Monkey.Alike (fun _ => True) Token.unplaced exact

abbrev Expr.Alike (exact : Prop) : Expr → Expr → Prop :=
  Monkey.Alike Expr.WellFormed Expr.unplaced exact

abbrev Pair.Alike (exact : Prop) : Pair → Pair → Prop :=
  Monkey.Alike Pair.WellFormed Pair.unplaced exact

abbrev Stmt.Alike (exact : Prop) : Stmt → Stmt → Prop :=
  Monkey.Alike Stmt.WellFormed Stmt.unplaced exact

abbrev Block.Alike (exact : Prop) : Block → Block → Prop :=
  Monkey.Alike Block.WellFormed Block.unplaced exact

variable {exact : Prop}

theorem Token.unplaced_eq_iff (token token' : Token) :
    token.unplaced = token'.unplaced ↔ token.kind = token'.kind ∧ token.text = token'.text := by
  simp [Token.unplaced]

namespace Token.Alike

variable {token token' : Token}

theorem kind (alike : token.Alike exact token') : token.kind = token'.kind :=
  ((Token.unplaced_eq_iff _ _).mp alike.erased).1

theorem text (alike : token.Alike exact token') : token.text = token'.text :=
  ((Token.unplaced_eq_iff _ _).mp alike.erased).2

end Token.Alike

/-! ## Parts of trees that are alike -/

namespace Expr.Alike

variable {other : Expr}

theorem of_leaf {token : Token} (alike : (Expr.leaf token).Alike exact other) :
    ∃ token', other = .leaf token' ∧ token.IsOperand ∧ token.Alike exact token' := by
  obtain ⟨formed, erased, same⟩ := alike
  cases other with
  | leaf token' =>
      refine ⟨token', rfl, formed, trivial, Expr.leaf.inj erased, fun holds => ?_⟩
      exact Expr.leaf.inj (same holds)
  | _ => cases erased

theorem of_unary {operator : Token} {operand : Expr}
    (alike : (Expr.unary operator operand).Alike exact other) :
    ∃ operator' operand', other = .unary operator' operand' ∧ operator.Alike exact operator' ∧
      operand.Alike exact operand' := by
  obtain ⟨formed, erased, same⟩ := alike
  cases other with
  | unary operator' operand' =>
      obtain ⟨operatorErased, operandErased⟩ := Expr.unary.inj erased
      refine ⟨operator', operand', rfl, ⟨trivial, operatorErased, fun holds => ?_⟩,
        ⟨formed.2, operandErased, fun holds => ?_⟩⟩
      · exact (Expr.unary.inj (same holds)).1
      · exact (Expr.unary.inj (same holds)).2
  | _ => cases erased

theorem of_binary {left right : Expr} {operator : Token}
    (alike : (Expr.binary left operator right).Alike exact other) :
    ∃ left' operator' right', other = .binary left' operator' right' ∧ left.Alike exact left' ∧
      operator.Alike exact operator' ∧ right.Alike exact right' := by
  obtain ⟨formed, erased, same⟩ := alike
  cases other with
  | binary left' operator' right' =>
      obtain ⟨leftErased, operatorErased, rightErased⟩ := Expr.binary.inj erased
      refine ⟨left', operator', right', rfl, ⟨formed.2.1, leftErased, fun holds => ?_⟩,
        ⟨trivial, operatorErased, fun holds => ?_⟩, ⟨formed.2.2, rightErased, fun holds => ?_⟩⟩
      · exact (Expr.binary.inj (same holds)).1
      · exact (Expr.binary.inj (same holds)).2.1
      · exact (Expr.binary.inj (same holds)).2.2
  | _ => cases erased

theorem of_array {position : Position} {items : List Expr}
    (alike : (Expr.array position items).Alike exact other) :
    ∃ position' items', other = .array position' items' ∧
      List.Forall₂ (Expr.Alike exact) items items' := by
  obtain ⟨formed, erased, same⟩ := alike
  cases other with
  | array position' items' =>
      have itemsErased := (Expr.array.inj erased).2
      rw [Expr.unplacedAll_eq, Expr.unplacedAll_eq] at itemsErased
      exact ⟨position', items', rfl, forall₂_alike ((Expr.allWellFormed_iff items).mp formed)
        itemsErased fun holds => (Expr.array.inj (same holds)).2⟩
  | _ => cases erased

theorem of_hash {position : Position} {pairs : List Pair}
    (alike : (Expr.hash position pairs).Alike exact other) :
    ∃ position' pairs', other = .hash position' pairs' ∧
      List.Forall₂ (Pair.Alike exact) pairs pairs' := by
  obtain ⟨formed, erased, same⟩ := alike
  cases other with
  | hash position' pairs' =>
      have pairsErased := (Expr.hash.inj erased).2
      rw [Pair.unplacedAll_eq, Pair.unplacedAll_eq] at pairsErased
      exact ⟨position', pairs', rfl, forall₂_alike ((Pair.allWellFormed_iff pairs).mp formed)
        pairsErased fun holds => (Expr.hash.inj (same holds)).2⟩
  | _ => cases erased

theorem of_block {body : Block} (alike : (Expr.block body).Alike exact other) :
    ∃ body', other = .block body' ∧ body.Alike exact body' := by
  obtain ⟨formed, erased, same⟩ := alike
  cases other with
  | block body' =>
      exact ⟨body', rfl, formed, Expr.block.inj erased, fun holds => Expr.block.inj (same holds)⟩
  | _ => cases erased

theorem of_ifThen {position : Position} {condition : Expr} {consequence : Block}
    (alike : (Expr.ifThen position condition consequence).Alike exact other) :
    ∃ position' condition' consequence', other = .ifThen position' condition' consequence' ∧
      condition.Alike exact condition' ∧ consequence.Alike exact consequence' := by
  obtain ⟨formed, erased, same⟩ := alike
  cases other with
  | ifThen position' condition' consequence' =>
      obtain ⟨-, conditionErased, consequenceErased⟩ := Expr.ifThen.inj erased
      refine ⟨position', condition', consequence', rfl,
        ⟨formed.1, conditionErased, fun holds => ?_⟩,
        ⟨formed.2, consequenceErased, fun holds => ?_⟩⟩
      · exact (Expr.ifThen.inj (same holds)).2.1
      · exact (Expr.ifThen.inj (same holds)).2.2
  | _ => cases erased

theorem of_ifElse {position : Position} {condition : Expr} {consequence alternative : Block}
    (alike : (Expr.ifElse position condition consequence alternative).Alike exact other) :
    ∃ position' condition' consequence' alternative',
      other = .ifElse position' condition' consequence' alternative' ∧
      condition.Alike exact condition' ∧ consequence.Alike exact consequence' ∧
      alternative.Alike exact alternative' := by
  obtain ⟨formed, erased, same⟩ := alike
  cases other with
  | ifElse position' condition' consequence' alternative' =>
      obtain ⟨-, conditionErased, consequenceErased, alternativeErased⟩ := Expr.ifElse.inj erased
      refine ⟨position', condition', consequence', alternative', rfl,
        ⟨formed.1, conditionErased, fun holds => ?_⟩,
        ⟨formed.2.1, consequenceErased, fun holds => ?_⟩,
        ⟨formed.2.2, alternativeErased, fun holds => ?_⟩⟩
      · exact (Expr.ifElse.inj (same holds)).2.1
      · exact (Expr.ifElse.inj (same holds)).2.2.1
      · exact (Expr.ifElse.inj (same holds)).2.2.2
  | _ => cases erased

theorem of_function {position parametersPosition : Position} {parameters : List Token}
    {body : Block}
    (alike : (Expr.function position parametersPosition parameters body).Alike exact other) :
    ∃ position' parametersPosition' parameters' body',
      other = .function position' parametersPosition' parameters' body' ∧
      parameters.map Token.text = parameters'.map Token.text ∧ body.Alike exact body' := by
  obtain ⟨formed, erased, same⟩ := alike
  cases other with
  | function position' parametersPosition' parameters' body' =>
      obtain ⟨-, -, parametersErased, bodyErased⟩ := Expr.function.inj erased
      refine ⟨position', parametersPosition', parameters', body', rfl, ?_,
        ⟨formed.2, bodyErased, fun holds => ?_⟩⟩
      · have texts := congrArg (List.map Token.text) parametersErased
        rwa [List.map_map, List.map_map] at texts
      · exact (Expr.function.inj (same holds)).2.2.2
  | _ => cases erased

theorem of_call {callee : Expr} {position : Position} {arguments : List Expr}
    (alike : (Expr.call callee position arguments).Alike exact other) :
    ∃ callee' position' arguments', other = .call callee' position' arguments' ∧
      callee.Alike exact callee' ∧ List.Forall₂ (Expr.Alike exact) arguments arguments' := by
  obtain ⟨formed, erased, same⟩ := alike
  cases other with
  | call callee' position' arguments' =>
      obtain ⟨calleeErased, -, argumentsErased⟩ := Expr.call.inj erased
      rw [Expr.unplacedAll_eq, Expr.unplacedAll_eq] at argumentsErased
      refine ⟨callee', position', arguments', rfl, ⟨formed.1, calleeErased, fun holds => ?_⟩,
        forall₂_alike ((Expr.allWellFormed_iff arguments).mp formed.2) argumentsErased
          fun holds => ?_⟩
      · exact (Expr.call.inj (same holds)).1
      · exact (Expr.call.inj (same holds)).2.2
  | _ => cases erased

theorem of_index {target index : Expr} {position : Position}
    (alike : (Expr.index target position index).Alike exact other) :
    ∃ target' position' index', other = .index target' position' index' ∧
      target.Alike exact target' ∧ index.Alike exact index' := by
  obtain ⟨formed, erased, same⟩ := alike
  cases other with
  | index target' position' index' =>
      obtain ⟨targetErased, -, indexErased⟩ := Expr.index.inj erased
      refine ⟨target', position', index', rfl, ⟨formed.1, targetErased, fun holds => ?_⟩,
        ⟨formed.2, indexErased, fun holds => ?_⟩⟩
      · exact (Expr.index.inj (same holds)).1
      · exact (Expr.index.inj (same holds)).2.2
  | _ => cases erased

end Expr.Alike

theorem Pair.Alike.parts {position : Position} {key value : Expr} {other : Pair}
    (alike : (Pair.mk position key value).Alike exact other) :
    ∃ position' key' value', other = .mk position' key' value' ∧ key.Alike exact key' ∧
      value.Alike exact value' := by
  obtain ⟨formed, erased, same⟩ := alike
  obtain ⟨position', key', value'⟩ := other
  obtain ⟨-, keyErased, valueErased⟩ := Pair.mk.inj erased
  refine ⟨position', key', value', rfl, ⟨formed.1, keyErased, fun holds => ?_⟩,
    ⟨formed.2, valueErased, fun holds => ?_⟩⟩
  · exact (Pair.mk.inj (same holds)).2.1
  · exact (Pair.mk.inj (same holds)).2.2

theorem Block.Alike.statements {body body' : Block} (alike : body.Alike exact body') :
    List.Forall₂ (Stmt.Alike exact) body.statements body'.statements := by
  obtain ⟨formed, erased, same⟩ := alike
  obtain ⟨position, list⟩ := body
  obtain ⟨position', list'⟩ := body'
  have listErased := (Block.mk.inj erased).2
  rw [Stmt.unplacedAll_eq, Stmt.unplacedAll_eq] at listErased
  exact forall₂_alike ((Stmt.allWellFormed_iff list).mp formed) listErased
    fun holds => (Block.mk.inj (same holds)).2

namespace Stmt.Alike

variable {position : Position} {other : Stmt}

theorem of_binding {name : Token} {value : Expr}
    (alike : (Stmt.binding position name value).Alike exact other) :
    ∃ position' name' value', other = .binding position' name' value' ∧ name.text = name'.text ∧
      value.Alike exact value' := by
  obtain ⟨formed, erased, same⟩ := alike
  cases other with
  | binding position' name' value' =>
      obtain ⟨-, nameErased, valueErased⟩ := Stmt.binding.inj erased
      refine ⟨position', name', value', rfl, ((Token.unplaced_eq_iff _ _).mp nameErased).2,
        ⟨formed.2, valueErased, fun holds => ?_⟩⟩
      exact (Stmt.binding.inj (same holds)).2.2
  | _ => cases erased

theorem of_returnNil (alike : (Stmt.returnNil position).Alike exact other) :
    ∃ position', other = .returnNil position' := by
  have erased := alike.erased
  cases other with
  | returnNil position' => exact ⟨position', rfl⟩
  | _ => cases erased

theorem of_returnValue {value : Expr}
    (alike : (Stmt.returnValue position value).Alike exact other) :
    ∃ position' value', other = .returnValue position' value' ∧ value.Alike exact value' := by
  obtain ⟨formed, erased, same⟩ := alike
  cases other with
  | returnValue position' value' =>
      exact ⟨position', value', rfl, formed, (Stmt.returnValue.inj erased).2,
        fun holds => (Stmt.returnValue.inj (same holds)).2⟩
  | _ => cases erased

theorem of_block {body : Block} (alike : (Stmt.block body).Alike exact other) :
    ∃ body', other = .block body' ∧ body.Alike exact body' := by
  obtain ⟨formed, erased, same⟩ := alike
  cases other with
  | block body' =>
      exact ⟨body', rfl, formed, Stmt.block.inj erased, fun holds => Stmt.block.inj (same holds)⟩
  | _ => cases erased

theorem of_expr {value : Expr} (alike : (Stmt.expr position value).Alike exact other) :
    ∃ position' value', other = .expr position' value' ∧ value.Alike exact value' := by
  obtain ⟨formed, erased, same⟩ := alike
  cases other with
  | expr position' value' =>
      exact ⟨position', value', rfl, formed, (Stmt.expr.inj erased).2,
        fun holds => (Stmt.expr.inj (same holds)).2⟩
  | _ => cases erased

end Stmt.Alike

end Monkey
