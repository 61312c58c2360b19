import Monkey.Entries
import Monkey.Value.Fault

/-!
# Operators on values

What the operators, indexing and the built-in functions that run no code make of their operands.
-/

set_option autoImplicit false

namespace Monkey.Value

abbrev Result := Except RuntimeFault Value

def ofArithmetic : Except Integer.Fault Int → Result
  | .ok n => .ok (.int n)
  | .error fault => .error (.arithmetic fault)

def applyUnary (operator : Token) (operand : Value) : Result :=
  match operator.kind, operand with
  | .bang, operand => .ok (.bool !operand.isTruthy)
  | .minus, .int n => ofArithmetic (Integer.neg n)
  | _, operand => .error (.unaryOperand operator.text operand.type)

def integerOperator (operator : Token) (left right : Int) : Result :=
  match operator.kind with
  | .plus => ofArithmetic (Integer.add left right)
  | .minus => ofArithmetic (Integer.sub left right)
  | .star => ofArithmetic (Integer.mul left right)
  | .slash => ofArithmetic (Integer.div left right)
  | .percent => ofArithmetic (Integer.mod left right)
  | .caret => ofArithmetic (Integer.pow left right)
  | .less => .ok (.bool (left < right))
  | .greater => .ok (.bool (right < left))
  | .lessEqual => .ok (.bool (left ≤ right))
  | .greaterEqual => .ok (.bool (right ≤ left))
  | _ => .error (.integerOperator operator.text)

/-- Strings are joined, and compared by their code points. -/
def stringOperator (operator : Token) (left right : String) : Result :=
  match operator.kind with
  | .plus => .ok (.string (left ++ right))
  | .less => .ok (.bool (left < right))
  | .greater => .ok (.bool (right < left))
  | .lessEqual => .ok (.bool !decide (right < left))
  | .greaterEqual => .ok (.bool !decide (left < right))
  | _ => .error (.binaryOperands operator.text .string .string)

def applyBinary (operator : Token) (left right : Value) : Result :=
  match operator.kind with
  | .equal => .ok (.bool (left.equals right))
  | .notEqual => .ok (.bool !left.equals right)
  | _ =>
      match left, right with
      | .int left, .int right => integerOperator operator left right
      | .string left, .string right => stringOperator operator left right
      | _, _ => .error (.binaryOperands operator.text left.type right.type)

def itemAt {α : Type} (target : ValueType) (items : List α) (index : Value) :
    Except RuntimeFault α :=
  match index with
  | .int n =>
      if n < 0 then .error (.indexOutOfBounds n)
      else
        match items[n.toNat]? with
        | some item => .ok item
        | none => .error (.indexOutOfBounds n)
  | other => .error (.indexType target other.type)

/-- The part of a value at an index or key. A key that a hash lacks gives `nil`. -/
def atIndex (target index : Value) : Result :=
  match target with
  | .array items => itemAt .array items index
  | .string text => (itemAt .string text.toList index).map fun c => .string (String.singleton c)
  | .hash pairs =>
      match index.key? with
      | some key => .ok ((Entries.get? key pairs).getD .nil)
      | none => .error (.unhashable index.type)
  | other => .error (.notIndexable other.type)

/-! ## Built-in functions -/

def arrayArgument (callee : Builtin) : Value → Except RuntimeFault (List Value)
  | .array items => .ok items
  | other => .error (.argumentType callee .array other.type)

def intArgument (callee : Builtin) : Value → Except RuntimeFault Int
  | .int n => .ok n
  | other => .error (.argumentType callee .int other.type)

def length : Value → Result
  | .string text => .ok (.int text.length)
  | .array items => .ok (.int items.length)
  | other => .error (.noLength other.type)

def first (array : Value) : Result :=
  (arrayArgument .first array).map fun items => items.head?.getD .nil

def last (array : Value) : Result :=
  (arrayArgument .last array).map fun items => items.getLast?.getD .nil

/-- All but the first item; `nil` for an empty array. -/
def rest (array : Value) : Result :=
  (arrayArgument .rest array).map fun
    | [] => .nil
    | _ :: items => .array items

def push (array item : Value) : Result :=
  (arrayArgument .push array).map fun items => .array (items ++ [item])

def cons (item array : Value) : Result :=
  (arrayArgument .cons array).map fun items => .array (item :: items)

/-- Indexing that gives `nil` where the index is out of bounds. -/
def getAt (target index : Value) : Result :=
  match atIndex target index with
  | .error (.indexOutOfBounds _) => .ok .nil
  | result => result

/-- The integers from `start` on that are less than `stop`, `step` apart. -/
def countUp (start stop step : Int) : Value :=
  let count := ((stop - start + step - 1) / step).toNat
  .array ((List.range count).map fun (i : Nat) => .int (start + step * i))

/-- `range(stop)`, `range(start, stop)` or `range(start, stop, step)`. -/
def range (arguments : List Value) : Result :=
  match arguments with
  | [] => .error (.arity 1 0)
  | [stop] => do
      let stop ← intArgument .range stop
      pure (countUp 0 stop 1)
  | [start, stop] => do
      let start ← intArgument .range start
      let stop ← intArgument .range stop
      pure (countUp start stop 1)
  | [start, stop, step] => do
      let start ← intArgument .range start
      let stop ← intArgument .range stop
      let step ← intArgument .range step
      if step ≤ 0 then .error .stepNotPositive else pure (countUp start stop step)
  | arguments => .error (.arity 3 arguments.length)

end Monkey.Value
