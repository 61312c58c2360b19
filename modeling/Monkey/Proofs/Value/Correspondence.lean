import Monkey.Proofs.Ast.Alike
import Monkey.Value.Operators

/-!
# Values that correspond

Two runs are compared by the values they compute with: data has to be the same, and a function
corresponds to one with the same parameters whose body differs in its positions at most and whose
frame stands in the place of the other's. No operator and no built-in function can tell such values
apart, and each of them fails with an error of a named kind if it fails.
-/

set_option autoImplicit false

namespace Monkey

/-- How two runs are compared. -/
structure Correspondence where
  /-- Whether positions have to agree. -/
  exact : Prop
  /-- The frames of the first run that are compared. -/
  covers : FrameId → Prop
  /-- The frame of the second run in the place of one of the first. -/
  rename : FrameId → FrameId
  increasing : ∀ {id other : FrameId}, id < other → rename id < rename other
  /-- What each of the runs has printed before they are compared. -/
  printed : String
  printed' : String

/-- Entries with one key and values that are the same in some sense. -/
inductive Entries.Matches {κ α : Type} (same : α → α → Prop) : κ × α → κ × α → Prop
  | intro (key : κ) {value value' : α} (values : same value value') :
      Matches same (key, value) (key, value')

namespace Correspondence

inductive Values (between : Correspondence) : Value → Value → Prop
  | nil : Values between .nil .nil
  | bool (b : Bool) : Values between (.bool b) (.bool b)
  | int (n : Int) : Values between (.int n) (.int n)
  | string (s : String) : Values between (.string s) (.string s)
  | array {items items' : List Value} (same : List.Forall₂ (Values between) items items') :
      Values between (.array items) (.array items')
  | hash {pairs pairs' : List (Key × Value)}
      (same : List.Forall₂ (Entries.Matches (Values between)) pairs pairs') :
      Values between (.hash pairs) (.hash pairs')
  | function {parameters : List String} {body body' : Block} {frame : FrameId}
      (bodies : body.Alike between.exact body') (covered : between.covers frame) :
      Values between (.function parameters body frame)
        (.function parameters body' (between.rename frame))
  | builtin (callee : Builtin) : Values between (.builtin callee) (.builtin callee)

/-- The entries of a hash or of a scope, in the same order. -/
abbrev Bindings (between : Correspondence) {κ : Type} :
    List (κ × Value) → List (κ × Value) → Prop :=
  List.Forall₂ (Entries.Matches between.Values)

end Correspondence

/-! ## Entries -/

namespace Entries

variable {κ α : Type} [DecidableEq κ] {same : α → α → Prop} {entries entries' : List (κ × α)}

theorem get?_matches (key : κ) (matched : List.Forall₂ (Matches same) entries entries') :
    Option.Rel same (get? key entries) (get? key entries') := by
  induction matched with
  | nil => exact .none
  | cons entry _ ih =>
      obtain ⟨held, values⟩ := entry
      by_cases found : held = key
      · simp only [get?, if_pos found]
        exact .some values
      · simp only [get?, if_neg found]
        exact ih

theorem put_matches (key : κ) {value value' : α} (values : same value value')
    (matched : List.Forall₂ (Matches same) entries entries') :
    List.Forall₂ (Matches same) (put key value entries) (put key value' entries') := by
  induction matched with
  | nil => exact .cons (.intro key values) .nil
  | cons entry rest ih =>
      obtain ⟨held, heldValues⟩ := entry
      by_cases found : held = key
      · simp only [put, if_pos found]
        exact .cons (.intro held values) rest
      · simp only [put, if_neg found]
        exact .cons (.intro held heldValues) ih

end Entries

/-! ## What does not tell values apart -/

namespace Correspondence

variable {between : Correspondence} {value value' : Value}

namespace Values

theorem type_eq (values : between.Values value value') : value.type = value'.type := by
  cases values <;> rfl

theorem isTruthy_eq (values : between.Values value value') :
    value.isTruthy = value'.isTruthy := by
  cases values <;> rfl

theorem key?_eq (values : between.Values value value') :
    Value.key? value = Value.key? value' := by
  cases values <;> rfl

theorem equals_eq {other other' : Value} (values : between.Values value value')
    (others : between.Values other other') : value.equals other = value'.equals other' := by
  cases values <;> cases others <;> rfl

/-- Induction over values that correspond, with what is known of the parts of an array or hash. -/
theorem induct {motive : Value → Value → Prop} (values : between.Values value value')
    (nil : motive .nil .nil) (bool : ∀ b, motive (.bool b) (.bool b))
    (int : ∀ n, motive (.int n) (.int n)) (string : ∀ s, motive (.string s) (.string s))
    (array : ∀ items items', List.Forall₂ motive items items' →
      motive (.array items) (.array items'))
    (hash : ∀ pairs pairs', List.Forall₂ (Entries.Matches motive) pairs pairs' →
      motive (.hash pairs) (.hash pairs'))
    (function : ∀ parameters body body' frame, body.Alike between.exact body' →
      between.covers frame → motive (.function parameters body frame)
        (.function parameters body' (between.rename frame)))
    (builtin : ∀ callee, motive (.builtin callee) (.builtin callee)) : motive value value' :=
  values.rec nil bool int string (fun _ known => array _ _ known) (fun _ known => hash _ _ known)
    (fun bodies covered => function _ _ _ _ bodies covered) builtin
    .nil (fun _ _ first rest => .cons first rest)
    .nil (fun _ _ first rest => .cons first rest) fun key => fun _ known => .intro key known

theorem display_eq (values : between.Values value value') : value.display = value'.display := by
  refine values.induct (motive := fun value value' => value.display = value'.display)
    ?nil ?bool ?int ?string ?array ?hash ?function ?builtin
  case array =>
    intro items items' same
    have shown : items.map Value.display = items'.map Value.display := by
      induction same with
      | nil => rfl
      | cons first _ ih => rw [List.map_cons, List.map_cons, first, ih]
    rw [Value.display_array, Value.display_array, shown]
  case hash =>
    intro pairs pairs' same
    rw [Value.display_hash, Value.display_hash]
    congr 3
    induction same with
    | nil => rfl
    | cons first _ ih =>
        obtain ⟨key, values⟩ := first
        rw [List.map_cons, List.map_cons, values, ih]
  all_goals
    intros
    rfl

/-- A comparison that asks for less, of frames that stand for the same ones. -/
theorem imp {other : Correspondence} (exact : other.exact → between.exact)
    (covers : ∀ id, between.covers id → other.covers id ∧ other.rename id = between.rename id)
    (values : between.Values value value') : other.Values value value' := by
  refine values.induct .nil .bool .int .string (fun _ _ same => .array same)
    (fun _ _ same => .hash same) ?_ .builtin
  intro parameters body body' frame bodies covered
  obtain ⟨inside, same⟩ := covers frame covered
  rw [← same]
  exact .function ⟨bodies.wellFormed, bodies.erased, bodies.same ∘ exact⟩ inside

theorem printed_eq (values : between.Values value value') : value.printed = value'.printed := by
  have shown := values.display_eq
  cases values with
  | string s => rfl
  | _ => exact shown

end Values

end Correspondence

/-! ## Faults of named kinds -/

/-- The kinds of error that a program can end in, apart from running out of room. -/
def RuntimeFault.namedKinds : List String :=
  ["IdentifierNotFound", "TypeMismatch", "DivisionByZero", "ArityMismatch", "UnhashableKey",
    "IndexOutOfBounds", "NotCallable", "NegativeExponent", "IntegerOverflow", "InvalidReturn",
    "ImportError", "AssertionFailed"]

def RuntimeFault.IsNamed (fault : RuntimeFault) : Prop := fault.kind ∈ namedKinds

@[simp] theorem RuntimeFault.isNamed_iff (fault : RuntimeFault) :
    fault.IsNamed ↔ fault ≠ .stackOverflow ∧ ∀ token, fault ≠ .strayToken token := by
  cases fault with
  | arithmetic fault => cases fault <;> simp [IsNamed, kind, namedKinds]
  | _ => simp [IsNamed, kind, namedKinds]

namespace Correspondence

variable {between : Correspondence} {value value' : Value}

/-- Both computations give results that are the same in some sense, or both fail with the same fault
of a named kind. -/
inductive Outcomes {α : Type} (same : α → α → Prop) :
    Except RuntimeFault α → Except RuntimeFault α → Prop
  | ok {value value' : α} (values : same value value') : Outcomes same (.ok value) (.ok value')
  | error {fault : RuntimeFault} (named : fault.IsNamed) :
      Outcomes same (.error fault) (.error fault)

namespace Outcomes

variable {α β : Type} {same : α → α → Prop} {sameNext : β → β → Prop}
  {result result' : Except RuntimeFault α}

theorem map {change change' : α → β} (results : Outcomes same result result')
    (changes : ∀ value value', same value value' → sameNext (change value) (change' value')) :
    Outcomes sameNext (result.map change) (result'.map change') := by
  cases results with
  | ok values => exact .ok (changes _ _ values)
  | error named => exact .error named

theorem bind {next next' : α → Except RuntimeFault β} (results : Outcomes same result result')
    (tail : ∀ value value', same value value' → Outcomes sameNext (next value) (next' value')) :
    Outcomes sameNext (result >>= next) (result' >>= next') := by
  cases results with
  | ok values => exact tail _ _ values
  | error named => exact .error named

end Outcomes

/-! ## Operators -/

theorem ofArithmetic_outcomes (result : Except Integer.Fault Int) :
    Outcomes between.Values (Value.ofArithmetic result) (Value.ofArithmetic result) := by
  cases result with
  | ok n => exact .ok (.int n)
  | error fault => exact .error (by simp)

section Operators

variable {operator operator' : Token} (operators : operator.Alike between.exact operator')
include operators

theorem applyUnary_outcomes (values : between.Values value value') :
    Outcomes between.Values (value.applyUnary operator) (value'.applyUnary operator') := by
  unfold Value.applyUnary
  rw [← operators.kind, ← operators.text]
  have mismatched : Outcomes between.Values
      (.error (.unaryOperand operator.text value.type) : Value.Result)
      (.error (.unaryOperand operator.text value'.type)) := by
    rw [← values.type_eq]
    exact .error (by simp)
  cases operator.kind with
  | bang =>
      dsimp only
      rw [← values.isTruthy_eq]
      exact .ok (.bool _)
  | minus =>
      cases values with
      | int n => exact ofArithmetic_outcomes _
      | _ => exact mismatched
  | _ => exact mismatched

theorem integerOperator_outcomes (left right : Int) :
    Outcomes between.Values (Value.integerOperator operator left right)
      (Value.integerOperator operator' left right) := by
  unfold Value.integerOperator
  rw [← operators.kind, ← operators.text]
  cases operator.kind with
  | plus | minus | star | slash | percent | caret => exact ofArithmetic_outcomes _
  | less | greater | lessEqual | greaterEqual => exact .ok (.bool _)
  | _ => exact .error (by simp)

theorem stringOperator_outcomes (left right : String) :
    Outcomes between.Values (Value.stringOperator operator left right)
      (Value.stringOperator operator' left right) := by
  unfold Value.stringOperator
  rw [← operators.kind, ← operators.text]
  cases operator.kind with
  | plus => exact .ok (.string _)
  | less | greater | lessEqual | greaterEqual => exact .ok (.bool _)
  | _ => exact .error (by simp)

theorem applyBinary_outcomes {left left' right right' : Value}
    (lefts : between.Values left left') (rights : between.Values right right') :
    Outcomes between.Values (Value.applyBinary operator left right)
      (Value.applyBinary operator' left' right') := by
  have mismatched : Outcomes between.Values
      (.error (.binaryOperands operator.text left.type right.type) : Value.Result)
      (.error (.binaryOperands operator'.text left'.type right'.type)) := by
    rw [← operators.text, ← lefts.type_eq, ← rights.type_eq]
    exact .error (by simp)
  have compared := lefts.equals_eq rights
  unfold Value.applyBinary
  rw [← operators.kind]
  split
  · rw [compared]
    exact .ok (.bool _)
  · rw [compared]
    exact .ok (.bool _)
  · cases lefts with
    | int m =>
        cases rights with
        | int n => exact integerOperator_outcomes operators m n
        | _ => exact mismatched
    | string s =>
        cases rights with
        | string t => exact stringOperator_outcomes operators s t
        | _ => exact mismatched
    | _ => exact mismatched

end Operators

/-! ## Indexing -/

theorem getElem?_related {α : Type} {same : α → α → Prop} {items items' : List α}
    (parts : List.Forall₂ same items items') (n : Nat) :
    Option.Rel same items[n]? items'[n]? := by
  induction parts generalizing n with
  | nil => exact .none
  | cons first _ ih =>
      cases n with
      | zero => exact .some first
      | succ n => exact ih n

theorem itemAt_outcomes {α : Type} {same : α → α → Prop} (target : ValueType)
    {items items' : List α} (parts : List.Forall₂ same items items')
    {index index' : Value} (indices : between.Values index index') :
    Outcomes same (Value.itemAt target items index) (Value.itemAt target items' index') := by
  cases indices with
  | int n =>
      simp only [Value.itemAt]
      split
      · exact .error (by simp)
      · have found := getElem?_related parts n.toNat
        generalize items[n.toNat]? = item, items'[n.toNat]? = item' at found
        cases found with
        | none => exact .error (by simp)
        | some values => exact .ok values
  | _ => exact .error (by simp)

theorem atIndex_outcomes {index index' : Value} (values : between.Values value value')
    (indices : between.Values index index') :
    Outcomes between.Values (value.atIndex index) (value'.atIndex index') := by
  cases values with
  | array same => exact itemAt_outcomes .array same indices
  | string text =>
      have same : List.Forall₂ (· = ·) text.toList text.toList := List.forall₂_refl _
      refine (itemAt_outcomes .string same indices).map fun c c' equal => ?_
      rw [equal]
      exact .string _
  | hash same =>
      simp only [Value.atIndex]
      rw [← indices.key?_eq, ← indices.type_eq]
      cases index.key? with
      | none => exact .error (by simp)
      | some key =>
          have found := Entries.get?_matches key same
          dsimp only
          revert found
          generalize Entries.get? key _ = held
          generalize Entries.get? key _ = held'
          intro found
          cases found with
          | none => exact .ok .nil
          | some values => exact .ok values
  | _ => exact .error (by simp)

/-! ## Built-in functions -/

theorem arrayArgument_outcomes (callee : Builtin) (values : between.Values value value') :
    Outcomes (List.Forall₂ between.Values) (Value.arrayArgument callee value)
      (Value.arrayArgument callee value') := by
  cases values with
  | array same => exact .ok same
  | _ => exact .error (by simp)

theorem intArgument_outcomes (callee : Builtin) (values : between.Values value value') :
    Outcomes (· = ·) (Value.intArgument callee value) (Value.intArgument callee value') := by
  cases values with
  | int n => exact .ok rfl
  | _ => exact .error (by simp)

theorem length_outcomes (values : between.Values value value') :
    Outcomes between.Values value.length value'.length := by
  cases values with
  | string text => exact .ok (.int _)
  | array same =>
      simp only [Value.length, same.length_eq]
      exact .ok (.int _)
  | _ => exact .error (by simp)

theorem first_outcomes (values : between.Values value value') :
    Outcomes between.Values value.first value'.first := by
  refine (arrayArgument_outcomes .first values).map fun items items' same => ?_
  cases same with
  | nil => exact .nil
  | cons first rest => exact first

theorem last_outcomes (values : between.Values value value') :
    Outcomes between.Values value.last value'.last := by
  refine (arrayArgument_outcomes .last values).map fun items items' same => ?_
  rw [List.getLast?_eq_getElem?, List.getLast?_eq_getElem?, ← same.length_eq]
  have found := getElem?_related same (items.length - 1)
  generalize items[items.length - 1]? = item, items'[items.length - 1]? = item' at found ⊢
  cases found with
  | none => exact .nil
  | some values => exact values

theorem rest_outcomes (values : between.Values value value') :
    Outcomes between.Values value.rest value'.rest := by
  refine (arrayArgument_outcomes .rest values).map fun items items' same => ?_
  cases same with
  | nil => exact .nil
  | cons first rest => exact .array rest

theorem push_outcomes {item item' : Value} (values : between.Values value value')
    (items : between.Values item item') :
    Outcomes between.Values (value.push item) (value'.push item') := by
  refine (arrayArgument_outcomes .push values).map fun held held' same => ?_
  exact .array (List.rel_append same (.cons items .nil))

theorem cons_outcomes {item item' : Value} (items : between.Values item item')
    (values : between.Values value value') :
    Outcomes between.Values (item.cons value) (item'.cons value') := by
  refine (arrayArgument_outcomes .cons values).map fun held held' same => ?_
  exact .array (.cons items same)

theorem getAt_outcomes {index index' : Value} (values : between.Values value value')
    (indices : between.Values index index') :
    Outcomes between.Values (value.getAt index) (value'.getAt index') := by
  have found := atIndex_outcomes values indices
  unfold Value.getAt
  generalize value.atIndex index = result, value'.atIndex index' = result' at found ⊢
  cases found with
  | ok found => exact .ok found
  | error named =>
      split
      · exact .ok .nil
      · exact .error named

theorem countUp_values (start stop step : Int) :
    between.Values (Value.countUp start stop step) (Value.countUp start stop step) := by
  refine .array (List.forall₂_same.mpr fun value member => ?_)
  obtain ⟨i, -, rfl⟩ := List.mem_map.mp member
  exact .int _

theorem range_outcomes {arguments arguments' : List Value}
    (values : List.Forall₂ between.Values arguments arguments') :
    Outcomes between.Values (Value.range arguments) (Value.range arguments') := by
  cases values with
  | nil => exact .error (by simp)
  | cons first others =>
  cases others with
  | nil =>
      refine (intArgument_outcomes .range first).bind ?_
      rintro stop _ rfl
      exact .ok (countUp_values _ _ _)
  | cons second others =>
  cases others with
  | nil =>
      refine (intArgument_outcomes .range first).bind ?_
      rintro start _ rfl
      refine (intArgument_outcomes .range second).bind ?_
      rintro stop _ rfl
      exact .ok (countUp_values _ _ _)
  | cons third others =>
  cases others with
  | nil =>
      refine (intArgument_outcomes .range first).bind ?_
      rintro start _ rfl
      refine (intArgument_outcomes .range second).bind ?_
      rintro stop _ rfl
      refine (intArgument_outcomes .range third).bind ?_
      rintro step _ rfl
      split
      · exact .error (by simp)
      · exact .ok (countUp_values _ _ _)
  | cons fourth others =>
      simp only [Value.range, List.length_cons, others.length_eq]
      exact .error (by simp)

end Correspondence

end Monkey
