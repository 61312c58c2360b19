import Monkey.Ast.Basic
import Monkey.Integer

/-!
# Values

What programs compute with, and how values are shown. A function holds the frame it was made in by
its number, so two values that are shown alike may still differ in what they refer to.
-/

set_option autoImplicit false

namespace Monkey

abbrev FrameId := Nat

/-- The functions every program can call. -/
inductive Builtin
  | len | puts | type | first | last | rest | push | cons | get | map | range | assert | importFile
  deriving DecidableEq, Repr

namespace Builtin

def name : Builtin → String
  | len => "len"
  | puts => "puts"
  | type => "type"
  | first => "first"
  | last => "last"
  | rest => "rest"
  | push => "push"
  | cons => "cons"
  | get => "get"
  | map => "map"
  | range => "range"
  | assert => "assert"
  | importFile => "import"

def all : List Builtin :=
  [len, puts, type, first, last, rest, push, cons, get, map, range, assert, importFile]

def ofName? (name : String) : Option Builtin := all.find? fun builtin => builtin.name == name

def arity? : Builtin → Option Nat
  | len | type | first | last | rest | assert | importFile => some 1
  | push | cons | get | map => some 2
  | puts | range => none

end Builtin

inductive Key
  | int (n : Int)
  | bool (b : Bool)
  | string (s : String)
  deriving DecidableEq, Repr

inductive Value where
  | nil
  | bool (b : Bool)
  | int (n : Int)
  | string (s : String)
  | array (items : List Value)
  | hash (pairs : List (Key × Value))
  | function (parameters : List String) (body : Block) (frame : FrameId)
  | builtin (callee : Builtin)

instance : Inhabited Value := ⟨.nil⟩

inductive ValueType
  | int | bool | string | nil | array | hash | function
  deriving DecidableEq, Repr

def ValueType.name : ValueType → String
  | int => "int"
  | bool => "bool"
  | string => "string"
  | nil => "nil"
  | array => "array"
  | hash => "hash"
  | function => "function"

namespace Key

def value : Key → Value
  | int n => .int n
  | bool b => .bool b
  | string s => .string s

end Key

namespace Value

def type : Value → ValueType
  | nil => .nil
  | bool _ => .bool
  | int _ => .int
  | string _ => .string
  | array _ => .array
  | hash _ => .hash
  | function .. | builtin _ => .function

def key? : Value → Option Key
  | int n => some (.int n)
  | bool b => some (.bool b)
  | string s => some (.string s)
  | _ => none

/-- Whether a condition with this value holds: only `false` and `nil` fail. -/
def isTruthy : Value → Bool
  | nil => false
  | bool b => b
  | _ => true

/-- The equality of the language. Arrays, hashes and functions equal nothing, not even themselves.
-/
def equals : Value → Value → Bool
  | nil, nil => true
  | int left, int right => left == right
  | bool left, bool right => left == right
  | string left, string right => left == right
  | _, _ => false

def showChar : Char → List Char
  | '"' => ['\\', '"']
  | '\\' => ['\\', '\\']
  | '\n' => ['\\', 'n']
  | '\t' => ['\\', 't']
  | '\r' => ['\\', 'r']
  | c => [c]

/-- A string as it would be written in a program. -/
def showString (text : String) : String :=
  String.ofList ('"' :: text.toList.flatMap showChar ++ ['"'])

def showBool : Bool → String
  | true => "true"
  | false => "false"

def showKey : Key → String
  | .int n => Integer.decimal n
  | .bool b => showBool b
  | .string s => showString s

def commaSeparated (items : List String) : String := String.intercalate ", " items

mutual

/-- The text of a value, which for data is an expression that gives it. -/
def display : Value → String
  | nil => "nil"
  | bool b => showBool b
  | int n => Integer.decimal n
  | string s => showString s
  | array items => "[" ++ commaSeparated (displayAll items) ++ "]"
  | hash pairs => "#\x7b" ++ commaSeparated (displayPairs pairs) ++ "\x7d"
  | function parameters _ _ => "<function(" ++ commaSeparated parameters ++ ")>"
  | builtin callee => "<built-in function " ++ callee.name ++ ">"

def displayAll : List Value → List String
  | [] => []
  | item :: rest => item.display :: displayAll rest

def displayPairs : List (Key × Value) → List String
  | [] => []
  | (key, value) :: rest => (showKey key ++ ": " ++ value.display) :: displayPairs rest

end

theorem displayAll_eq (items : List Value) : displayAll items = items.map display := by
  induction items with
  | nil => rfl
  | cons item rest ih => simp only [displayAll, ih, List.map_cons]

theorem displayPairs_eq (pairs : List (Key × Value)) :
    displayPairs pairs = pairs.map fun pair => showKey pair.1 ++ ": " ++ pair.2.display := by
  induction pairs with
  | nil => rfl
  | cons pair rest ih => simp only [displayPairs, ih, List.map_cons]

theorem display_array (items : List Value) :
    (array items).display = "[" ++ commaSeparated (items.map display) ++ "]" := by
  rw [← displayAll_eq]
  rfl

theorem display_hash (pairs : List (Key × Value)) :
    (hash pairs).display = "#\x7b" ++ commaSeparated
      (pairs.map fun pair => showKey pair.1 ++ ": " ++ pair.2.display) ++ "\x7d" := by
  rw [← displayPairs_eq]
  rfl

/-- The text of a value as it is printed: a string is printed as it is. -/
def printed : Value → String
  | string s => s
  | value => value.display

end Value

end Monkey
