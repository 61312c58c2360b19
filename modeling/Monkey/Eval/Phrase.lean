import Monkey.Eval.Import
import Monkey.Value.Operators

/-!
# Evaluation

Each construct is evaluated in terms of an evaluator for the phrases inside it, and `evaluate` ties
the knot up to a depth limit. Errors are blamed on the innermost phrase that is being evaluated when
they arise.
-/

set_option autoImplicit false

namespace Monkey

inductive Phrase where
  | expr (value : Expr)
  | stmt (value : Stmt)
  /-- A call made by a built-in function. -/
  | apply (callee : Value) (arguments : List Value)

/-- Where errors that arise in the phrase itself are blamed. A call made by a built-in function
leaves that to the call of the built-in function. -/
def Phrase.position : Phrase → Position
  | expr value => value.position
  | stmt value => value.position
  | apply _ _ => .unknown

def Phrase.activity : Phrase → Activity
  | expr value => .expr value
  | stmt value => .stmt value
  | apply _ _ => .applying

def Phrase.site (phrase : Phrase) : Site := ⟨phrase.position, phrase.activity⟩

def Program.site (program : Program) : Site := ⟨program.position, .program⟩

abbrev Evaluator := FrameId → Phrase → Eval Value

namespace Eval

/-- Runs statements in order; the value of the last one is the result. -/
def statements (inner : Evaluator) (frame : FrameId) : List Stmt → Value → Eval Value
  | [], result => pure result
  | stmt :: rest, _ => do
      let result ← inner frame (.stmt stmt)
      statements inner frame rest result

def block (inner : Evaluator) (frame : FrameId) (body : Block) : Eval Value := do
  let scope ← newFrameIn frame [] false
  statements inner scope body.statements .nil

def exprs (inner : Evaluator) (frame : FrameId) (items : List Expr) : Eval (List Value) :=
  collect (fun item => inner frame (.expr item)) items []

/-- Evaluates the pairs of a hash literal from left to right, key before value. A later value of a
key takes the place of an earlier one. -/
def pairs (inner : Evaluator) (frame : FrameId) :
    List Pair → List (Key × Value) → Eval (List (Key × Value))
  | [], done => pure done
  | .mk _ key value :: rest, done => do
      let keyValue ← inner frame (.expr key)
      match keyValue.key? with
      | none => located (Phrase.expr key).site (fail (.unhashable keyValue.type))
      | some hashKey => do
          let held ← inner frame (.expr value)
          pairs inner frame rest (Entries.put hashKey held done)

def leaf (frame : FrameId) (token : Token) : Eval Value :=
  match token.kind with
  | .identifier => nameValue frame token.text
  | .integer =>
      match Text.readInteger token.text with
      | .ok n => pure (.int n)
      | .error numeral => throw (.numeral ⟨numeral, []⟩)
  | .string => pure (.string token.text)
  | .kwTrue => pure (.bool true)
  | .kwFalse => pure (.bool false)
  | .kwNil => pure .nil
  | _ => fail (.strayToken token)

/-! ## Calls -/

def bindParameters (parameters : List String) (arguments : List Value) : List (String × Value) :=
  (parameters.zip arguments).foldl (fun bound entry => Entries.put entry.1 entry.2 bound) []

/-- Calls a function: its body runs in a new frame inside the one the function was made in, and a
`return` in it ends the call. -/
def callFunction (inner : Evaluator) (parameters : List String) (body : Block) (frame : FrameId)
    (arguments : List Value) : Eval Value :=
  if arguments.length ≠ parameters.length then fail (.arity parameters.length arguments.length)
  else do
    let scope ← newFrameIn frame (bindParameters parameters arguments) true
    catchReturn (statements inner scope body.statements .nil)

/-- Runs a file in a frame of its own and gives its bindings. -/
def runModule (inner : Evaluator) (real : RealPath) (path : String) (program : Program) :
    Eval Value := do
  let frame ← newFrame ⟨[], [], false, some (Path.ofNames real)⟩
  let _ ← mapError (fun error => .importing path (.failed error.report))
    (whileRunning real
      (located program.site (statements inner frame program.statements .nil)))
  let machine ← get
  pure (.hash ((machine.frame frame).bindings.map fun entry => (.string entry.1, entry.2)))

/-- Imports the file that a path means to the code in a frame. A file that is being run is not
entered again. -/
def importFile (world : World) (inner : Evaluator) (frame : FrameId) (path : String) :
    Eval Value := do
  let machine ← get
  match world.resolveImport (machine.frame frame).sourcePath path with
  | none => fail (.importing path .notFound)
  | some (real, content) =>
      if machine.running.contains real then fail (.importing path .cyclic)
      else
        match ModuleText.ofContent content world.nestingLimit with
        | .faulty fault => fail (.importing path fault)
        | .unreadableNumeral crash => throw (.numeral crash)
        | .program program => runModule inner real path program

def runBuiltin (world : World) (inner : Evaluator) (frame : FrameId) :
    Builtin → List Value → Eval Value
  | .len, [value] => ofExcept value.length
  | .type, [value] => pure (.string value.type.name)
  | .first, [array] => ofExcept array.first
  | .last, [array] => ofExcept array.last
  | .rest, [array] => ofExcept array.rest
  | .push, [array, item] => ofExcept (array.push item)
  | .cons, [item, array] => ofExcept (item.cons array)
  | .get, [target, index] => ofExcept (target.getAt index)
  | .map, [callee, array] => do
      let items ← ofExcept (Value.arrayArgument .map array)
      let results ← collect (fun item => inner frame (.apply callee [item])) items []
      pure (.array results)
  | .assert, [value] =>
      if value.isTruthy then pure .nil else fail (.assertion value.display)
  | .importFile, [.string path] => importFile world inner frame path
  | .importFile, [other] => fail (.argumentType .importFile .string other.type)
  | .range, arguments => ofExcept (Value.range arguments)
  | .puts, [] => fail (.arity 1 0)
  | .puts, arguments => do
      print (String.intercalate " " (arguments.map Value.printed) ++ "\n")
      pure .nil
  | callee, arguments => fail (.arity (callee.arity?.getD 0) arguments.length)

def call (world : World) (inner : Evaluator) (frame : FrameId) (callee : Value)
    (arguments : List Value) : Eval Value :=
  match callee with
  | .function parameters body scope => callFunction inner parameters body scope arguments
  | .builtin callee => runBuiltin world inner frame callee arguments
  | other => fail (.notCallable other.type)

/-! ## Phrases -/

def conditional (inner : Evaluator) (frame : FrameId) (condition : Expr) (consequence : Block)
    (otherwise : Eval Value) : Eval Value := do
  let held ← inner frame (.expr condition)
  if held.isTruthy then block inner frame consequence else otherwise

def expr (world : World) (inner : Evaluator) (frame : FrameId) : Expr → Eval Value
  | .leaf token => leaf frame token
  | .unary operator operand => do
      let value ← inner frame (.expr operand)
      ofExcept (value.applyUnary operator)
  | .binary left operator right => do
      let leftValue ← inner frame (.expr left)
      let rightValue ← inner frame (.expr right)
      ofExcept (Value.applyBinary operator leftValue rightValue)
  | .array _ items => do
      let values ← exprs inner frame items
      pure (.array values)
  | .hash _ entries => do
      let held ← pairs inner frame entries []
      pure (.hash held)
  | .block body => block inner frame body
  | .ifThen _ condition consequence => conditional inner frame condition consequence (pure .nil)
  | .ifElse _ condition consequence alternative =>
      conditional inner frame condition consequence (block inner frame alternative)
  | .function _ _ parameters body => pure (.function (parameters.map Token.text) body frame)
  | .call callee _ arguments => do
      let calleeValue ← inner frame (.expr callee)
      let values ← exprs inner frame arguments
      call world inner frame calleeValue values
  | .index target _ index => do
      let targetValue ← inner frame (.expr target)
      let indexValue ← inner frame (.expr index)
      ofExcept (targetValue.atIndex indexValue)

/-- Ends the innermost call with the value of a computation, which is not run outside calls. -/
def returning (frame : FrameId) (value : Eval Value) : Eval Value := do
  let machine ← get
  if machine.inCall frame then
    let result ← value
    throw (.returned result)
  else fail .returnOutsideFunction

def stmt (inner : Evaluator) (frame : FrameId) : Stmt → Eval Value
  | .binding _ name value => do
      let held ← inner frame (.expr value)
      define frame name.text held
      pure .nil
  | .returnNil _ => returning frame (pure .nil)
  | .returnValue _ value => returning frame (inner frame (.expr value))
  | .block body => block inner frame body
  | .expr _ value => inner frame (.expr value)

def phrase (world : World) (inner : Evaluator) (frame : FrameId) : Phrase → Eval Value
  | .expr value => expr world inner frame value
  | .stmt value => stmt inner frame value
  | .apply callee arguments => call world inner frame callee arguments

end Eval

/-- Evaluates phrases that nest no deeper than the given limit. -/
def evaluate (world : World) : Nat → Evaluator
  | 0 => fun _ _ => throw .tooDeep
  | depth + 1 => fun frame phrase =>
      Eval.located phrase.site (Eval.phrase world (evaluate world depth) frame phrase)

end Monkey
