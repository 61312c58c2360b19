import Monkey.Proofs.Value.Validity

/-!
# Functions in values

The operators and the built-in functions that run no code make no functions: every function in what
they give, at whatever depth, is one of those in their operands, and so is every built-in function.
-/

set_option autoImplicit false

namespace Monkey

namespace Value

/-- Every function in the value is one of those described. -/
inductive Traced (made : List String → Block → FrameId → Prop) : Value → Prop
  | nil : Traced made .nil
  | bool (b : Bool) : Traced made (.bool b)
  | int (n : Int) : Traced made (.int n)
  | string (s : String) : Traced made (.string s)
  | array {items : List Value} (all : ∀ item ∈ items, Traced made item) : Traced made (.array items)
  | hash {pairs : List (Key × Value)} (held : ∀ pair ∈ pairs, Traced made pair.2) :
      Traced made (.hash pairs)
  | function {parameters : List String} {body : Block} {frame : FrameId}
      (isMade : made parameters body frame) : Traced made (.function parameters body frame)
  | builtin (callee : Builtin) : Traced made (.builtin callee)

/-- The same, and every built-in function in the value is one of those offered. -/
inductive Carries (made : List String → Block → FrameId → Prop) (offered : Builtin → Prop) :
    Value → Prop
  | nil : Carries made offered .nil
  | bool (b : Bool) : Carries made offered (.bool b)
  | int (n : Int) : Carries made offered (.int n)
  | string (s : String) : Carries made offered (.string s)
  | array {items : List Value} (all : ∀ item ∈ items, Carries made offered item) :
      Carries made offered (.array items)
  | hash {pairs : List (Key × Value)} (held : ∀ pair ∈ pairs, Carries made offered pair.2) :
      Carries made offered (.hash pairs)
  | function {parameters : List String} {body : Block} {frame : FrameId}
      (isMade : made parameters body frame) :
      Carries made offered (.function parameters body frame)
  | builtin {callee : Builtin} (isOffered : offered callee) : Carries made offered (.builtin callee)

variable {made : List String → Block → FrameId → Prop} {offered : Builtin → Prop}

theorem Carries.items {items : List Value} (carries : (Value.array items).Carries made offered) :
    ∀ item ∈ items, item.Carries made offered := by
  cases carries with
  | array all => exact all

theorem Carries.held {pairs : List (Key × Value)}
    (carries : (Value.hash pairs).Carries made offered) :
    ∀ pair ∈ pairs, pair.2.Carries made offered := by
  cases carries with
  | hash held => exact held

theorem Carries.isOffered {callee : Builtin}
    (carries : (Value.builtin callee).Carries made offered) : offered callee := by
  cases carries with
  | builtin isOffered => exact isOffered

theorem Carries.isMade {parameters : List String} {body : Block} {frame : FrameId}
    (carries : (Value.function parameters body frame).Carries made offered) :
    made parameters body frame := by
  cases carries with
  | function isMade => exact isMade

theorem carries_iff_traced {value : Value} :
    value.Carries made (fun _ => True) ↔ value.Traced made := by
  constructor
  · intro carries
    induction carries with
    | nil => exact .nil
    | bool b => exact .bool b
    | int n => exact .int n
    | string s => exact .string s
    | array _ ih => exact .array ih
    | hash _ ih => exact .hash ih
    | function isMade => exact .function isMade
    | builtin => exact .builtin _
  · intro traced
    induction traced with
    | nil => exact .nil
    | bool b => exact .bool b
    | int n => exact .int n
    | string s => exact .string s
    | array _ ih => exact .array ih
    | hash _ ih => exact .hash ih
    | function isMade => exact .function isMade
    | builtin => exact .builtin trivial

theorem Carries.mono {made' : List String → Block → FrameId → Prop} {value : Value}
    (carries : value.Carries made offered)
    (weaker : ∀ parameters body frame, made parameters body frame → made' parameters body frame) :
    value.Carries made' offered := by
  induction carries with
  | nil => exact .nil
  | bool b => exact .bool b
  | int n => exact .int n
  | string s => exact .string s
  | array _ ih => exact .array ih
  | hash _ ih => exact .hash ih
  | function isMade => exact .function (weaker _ _ _ isMade)
  | builtin isOffered => exact .builtin isOffered

theorem Traced.mono {made' : List String → Block → FrameId → Prop} {value : Value}
    (traced : value.Traced made)
    (weaker : ∀ parameters body frame, made parameters body frame → made' parameters body frame) :
    value.Traced made' :=
  carries_iff_traced.mp (Carries.mono (carries_iff_traced.mpr traced) weaker)

theorem Carries.getD {found : Option Value}
    (carries : ∀ value, found = some value → value.Carries made offered) :
    (found.getD .nil).Carries made offered := by
  cases found with
  | none => exact .nil
  | some value => exact carries value rfl

theorem Carries.put {pairs : List (Key × Value)} (carries : (Value.hash pairs).Carries made offered)
    (key : Key) {value : Value} (valueCarries : value.Carries made offered) :
    (Value.hash (Entries.put key value pairs)).Carries made offered := by
  refine .hash fun pair member => ?_
  rcases Entries.mem_put member with rfl | old
  · exact valueCarries
  · exact carries.held pair old

/-- If there is a result, every function in it is one of those described. -/
def Result.Carries (made : List String → Block → FrameId → Prop) (offered : Builtin → Prop)
    (result : Result) : Prop :=
  ∀ value, result = .ok value → value.Carries made offered

theorem Result.Carries.ok {value : Value} (carries : value.Carries made offered) :
    Result.Carries made offered (.ok value) := by
  rintro _ ⟨⟩
  exact carries

theorem Result.Carries.error (fault : RuntimeFault) :
    Result.Carries made offered (.error fault) := nofun

theorem Result.Carries.map {α : Type} {result : Except RuntimeFault α} {change : α → Value}
    (carries : ∀ given, result = .ok given → (change given).Carries made offered) :
    Result.Carries made offered (result.map change) := by
  cases result with
  | error fault => exact .error fault
  | ok given => exact .ok (carries given rfl)

/-! ## Operators -/

theorem ofArithmetic_carries (result : Except Integer.Fault Int) :
    (ofArithmetic result).Carries made offered := by
  cases result with
  | error fault => exact .error _
  | ok n => exact .ok (.int n)

theorem applyUnary_carries (operator : Token) (operand : Value) :
    (applyUnary operator operand).Carries made offered := by
  unfold applyUnary
  split
  · exact .ok (.bool _)
  · exact ofArithmetic_carries _
  · exact .error _

theorem integerOperator_carries (operator : Token) (left right : Int) :
    (integerOperator operator left right).Carries made offered := by
  unfold integerOperator
  split
  all_goals first | exact ofArithmetic_carries _ | exact .ok (.bool _) | exact .error _

theorem stringOperator_carries (operator : Token) (left right : String) :
    (stringOperator operator left right).Carries made offered := by
  unfold stringOperator
  split
  all_goals first | exact .ok (.string _) | exact .ok (.bool _) | exact .error _

theorem applyBinary_carries (operator : Token) (left right : Value) :
    (applyBinary operator left right).Carries made offered := by
  unfold applyBinary
  split
  · exact .ok (.bool _)
  · exact .ok (.bool _)
  split
  · exact integerOperator_carries operator _ _
  · exact stringOperator_carries operator _ _
  · exact .error _

/-! ## Indexing -/

theorem atIndex_carries {target : Value} (carries : target.Carries made offered) (index : Value) :
    (target.atIndex index).Carries made offered := by
  unfold atIndex
  split
  · exact fun item found => carries.items item (itemAt_mem found)
  · exact .map fun c _ => .string _
  · split
    · exact .ok (.getD fun value found => carries.held _ (Entries.mem_of_get? found))
    · exact .error _
  · exact .error _

theorem getAt_carries {target : Value} (carries : target.Carries made offered) (index : Value) :
    (target.getAt index).Carries made offered := by
  unfold getAt
  split
  · exact .ok .nil
  · exact atIndex_carries carries index

/-! ## Built-in functions -/

theorem length_carries (value : Value) : value.length.Carries made offered := by
  cases value with
  | string text => exact .ok (.int _)
  | array items => exact .ok (.int _)
  | _ => exact .error _

theorem arrayArgument_carries {callee : Builtin} {value : Value} {items : List Value}
    (carries : value.Carries made offered) (isArray : arrayArgument callee value = .ok items) :
    ∀ item ∈ items, item.Carries made offered := by
  cases value with
  | array held =>
      cases isArray
      exact carries.items
  | _ => cases isArray

theorem first_carries {array : Value} (carries : array.Carries made offered) :
    array.first.Carries made offered :=
  .map fun _ isArray => .getD fun item found =>
    arrayArgument_carries carries isArray item (List.mem_of_head? found)

theorem last_carries {array : Value} (carries : array.Carries made offered) :
    array.last.Carries made offered :=
  .map fun _ isArray => .getD fun item found =>
    arrayArgument_carries carries isArray item (List.mem_of_getLast? found)

theorem rest_carries {array : Value} (carries : array.Carries made offered) :
    array.rest.Carries made offered := by
  refine .map fun items isArray => ?_
  have all := arrayArgument_carries carries isArray
  cases items with
  | nil => exact .nil
  | cons first others => exact .array fun item member => all item (List.mem_cons_of_mem _ member)

theorem push_carries {array item : Value} (carries : array.Carries made offered)
    (itemCarries : item.Carries made offered) : (array.push item).Carries made offered := by
  refine .map fun items isArray => .array ?_
  have all := arrayArgument_carries carries isArray
  exact List.forall_mem_append.mpr ⟨all, List.forall_mem_singleton.mpr itemCarries⟩

theorem cons_carries {item array : Value} (itemCarries : item.Carries made offered)
    (carries : array.Carries made offered) : (item.cons array).Carries made offered :=
  .map fun _ isArray => .array (List.forall_mem_cons.mpr
    ⟨itemCarries, arrayArgument_carries carries isArray⟩)

theorem countUp_carries (start stop step : Int) :
    (countUp start stop step).Carries made offered := by
  refine .array fun item member => ?_
  obtain ⟨i, -, rfl⟩ := List.mem_map.mp member
  exact .int _

theorem range_carries (arguments : List Value) : (range arguments).Carries made offered := by
  intro value counted
  unfold range at counted
  split at counted
  · cases counted
  · obtain ⟨last, -, rest⟩ := ok_of_bind counted
    cases rest
    exact countUp_carries _ _ _
  · obtain ⟨first, -, rest⟩ := ok_of_bind counted
    obtain ⟨last, -, rest⟩ := ok_of_bind rest
    cases rest
    exact countUp_carries _ _ _
  · obtain ⟨first, -, rest⟩ := ok_of_bind counted
    obtain ⟨last, -, rest⟩ := ok_of_bind rest
    obtain ⟨step, -, rest⟩ := ok_of_bind rest
    split at rest
    · cases rest
    · cases rest
      exact countUp_carries _ _ _
  · cases counted

end Value

end Monkey
