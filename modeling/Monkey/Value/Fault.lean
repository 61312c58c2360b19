import Monkey.Diagnostic
import Monkey.Text.Utf8
import Monkey.Value.Basic

/-!
# Runtime errors

Why a program fails, each fault as a cause with the wording in one place, and the error that carries
a fault together with the position of the innermost phrase it arose in.
-/

set_option autoImplicit false

namespace Monkey

inductive ImportFault
  | notFound
  | cyclic
  | unreadable (fault : Text.Utf8Fault)
  | rejected (diagnostic : Diagnostic)
  /-- The file fails when it is run; `report` is the text of its error. -/
  | failed (report : String)
  deriving DecidableEq, Repr

inductive RuntimeFault
  | unbound (name : String)
  | unaryOperand (operator : String) (operand : ValueType)
  | binaryOperands (operator : String) (left right : ValueType)
  | integerOperator (operator : String)
  | indexType (target index : ValueType)
  | notIndexable (target : ValueType)
  | noLength (type : ValueType)
  | argumentType (callee : Builtin) (wanted given : ValueType)
  | stepNotPositive
  | arithmetic (fault : Integer.Fault)
  | arity (expected given : Nat)
  | unhashable (type : ValueType)
  | indexOutOfBounds (index : Int)
  | notCallable (type : ValueType)
  | returnOutsideFunction
  | importing (path : String) (fault : ImportFault)
  | assertion (shown : String)
  | stackOverflow
  /-- A leaf that is neither a name nor a literal. -/
  | strayToken (token : Token)
  deriving DecidableEq, Repr

def ImportFault.message (path : String) : ImportFault → String
  | notFound => "cannot import '" ++ path ++ "': file not found"
  | cyclic => "cyclic import of '" ++ path ++ "'"
  | unreadable fault => "cannot read '" ++ path ++ "': " ++ fault.message
  | rejected diagnostic => "cannot import '" ++ path ++ "': " ++ diagnostic.text
  | failed report => "error while evaluating '" ++ path ++ "': " ++ report

namespace RuntimeFault

/-- The kind of error that a program's output names. -/
def kind : RuntimeFault → String
  | unbound _ => "IdentifierNotFound"
  | unaryOperand .. | binaryOperands .. | integerOperator _ | indexType .. | notIndexable _
  | noLength _ | argumentType .. | stepNotPositive => "TypeMismatch"
  | arithmetic (.overflow _) => "IntegerOverflow"
  | arithmetic .divisionByZero | arithmetic .moduloByZero => "DivisionByZero"
  | arithmetic (.negativeExponent _) => "NegativeExponent"
  | arity .. => "ArityMismatch"
  | unhashable _ => "UnhashableKey"
  | indexOutOfBounds _ => "IndexOutOfBounds"
  | notCallable _ => "NotCallable"
  | returnOutsideFunction => "InvalidReturn"
  | importing .. => "ImportError"
  | assertion _ => "AssertionFailed"
  | stackOverflow => "StackOverflow"
  | strayToken _ => "RuntimeError"

private def quoted (type : ValueType) : String := "'" ++ type.name ++ "'"

def message : RuntimeFault → String
  | unbound name => "identifier not found: '" ++ name ++ "'"
  | unaryOperand operator operand =>
      "unsupported operand type for prefix operator `" ++ operator ++ "`: " ++ quoted operand
  | binaryOperands operator left right =>
      "unsupported operand types for infix operator `" ++ operator ++ "`: " ++ quoted left
        ++ " and " ++ quoted right
  | integerOperator operator => "unsupported infix operator `" ++ operator ++ "` for 'int'"
  | indexType target index =>
      target.name ++ " index must be integer, not " ++ quoted index
  | notIndexable target => quoted target ++ " is not an array, string or hash object"
  | noLength type => quoted type ++ " object has no length"
  | argumentType callee wanted given =>
      "argument to `" ++ callee.name ++ "` must be " ++ wanted.name ++ ", got " ++ quoted given
  | stepNotPositive => "third argument to `range` must be positive"
  | arithmetic (.overflow operator) => "integer overflow in `" ++ operator ++ "`"
  | arithmetic .divisionByZero => "division by zero"
  | arithmetic .moduloByZero => "modulo by zero"
  | arithmetic (.negativeExponent exponent) => "negative exponent: " ++ Integer.decimal exponent
  | arity expected given =>
      "wrong number of arguments: expected " ++ toString expected ++ " arguments but "
        ++ toString given ++ " were given"
  | unhashable type => "hash key must be hashable type, not " ++ quoted type
  | indexOutOfBounds index => "index out of bounds: " ++ Integer.decimal index
  | notCallable type => quoted type ++ " is not a function object"
  | returnOutsideFunction => "`return` outside of function context"
  | importing path fault => fault.message path
  | assertion shown => "assertion failed on value " ++ shown
  | stackOverflow => "maximum recursion depth exceeded"
  | strayToken token => "unhandled token " ++ token.describe

end RuntimeFault

/-- A fault and the position it is blamed on, where that is known. -/
structure RuntimeError where
  fault : RuntimeFault
  position : Option Position
  deriving DecidableEq, Repr

namespace RuntimeError

/-- Blames the error on a position, unless it has one already or the position is unknown. -/
def blame (error : RuntimeError) (position : Position) : RuntimeError :=
  match error.position with
  | some _ => error
  | none => if position.IsKnown then { error with position := some position } else error

def report (error : RuntimeError) : String :=
  let text := error.fault.kind ++ ": " ++ error.fault.message
  match error.position with
  | none => text
  | some position =>
      text ++ " (line " ++ toString position.line ++ ", col " ++ toString position.column ++ ")"

end RuntimeError

end Monkey
