import Monkey.Proofs.Eval.Frames

/-!
# What takes place during an evaluation

Evaluating a phrase evaluates other phrases in turn, each on the machine that the one before it has
left. `Part` is the relation between an evaluation and those that take place directly inside it,
with the calls that are active at each: entering the body of a function adds a call, and nothing
else does. A part that fails or returns ends the evaluation it is a part of in the same way, unless
that evaluation is the call that the part belongs to or the import that it is run by.
-/

set_option autoImplicit false

namespace Monkey

/-- A call of a function, made on a machine by the evaluator of some depth. -/
structure Activation where
  limit : Nat
  parameters : List String
  body : Block
  outer : FrameId
  arguments : List Value
  machine : Machine

namespace Activation

/-- The frame in which the body of the function runs. -/
def scope (activation : Activation) : FrameId := activation.machine.frames.size

/-- How the call ends. -/
def result (world : World) (activation : Activation) : EStateM.Result Stop Machine Value :=
  Eval.callFunction (evaluate world activation.limit) activation.parameters activation.body
    activation.outer activation.arguments activation.machine

end Activation

/-- An evaluation that takes place, with the calls that are active, the innermost first. -/
structure Moment where
  limit : Nat
  calls : List Activation
  frame : FrameId
  phrase : Phrase
  machine : Machine

def Moment.result (world : World) (moment : Moment) : EStateM.Result Stop Machine Value :=
  evaluate world moment.limit moment.frame moment.phrase moment.machine

/-- The phrases whose values a phrase needs before all else, in the order of their evaluation. -/
def Phrase.operands : Phrase → List Phrase
  | .expr (.unary _ operand) => [.expr operand]
  | .expr (.binary left _ right) => [.expr left, .expr right]
  | .expr (.array _ items) => items.map .expr
  | .expr (.ifThen _ condition _) => [.expr condition]
  | .expr (.ifElse _ condition _ _) => [.expr condition]
  | .expr (.call callee _ arguments) => .expr callee :: arguments.map .expr
  | .expr (.index target _ index) => [.expr target, .expr index]
  | .stmt (.binding _ _ value) => [.expr value]
  | .stmt (.expr _ value) => [.expr value]
  | _ => []

namespace Machine

/-- The machine with a new frame inside another one. -/
def withScope (machine : Machine) (outer : FrameId) (bindings : List (String × Value))
    (isCall : Bool) : Machine :=
  { machine with
    frames := machine.frames.push
      ⟨machine.scopes outer, bindings, isCall, (machine.frame outer).sourcePath⟩ }

/-- The machine that is about to run a file. -/
def withModule (machine : Machine) (real : RealPath) : Machine :=
  { machine with
    frames := machine.frames.push ⟨[], [], false, some (Path.ofNames real)⟩
    running := real :: machine.running }

end Machine

section Evaluations

variable (inner : Evaluator) (frame : FrameId)

/-- Evaluating phrases one after another, as long as each gives a value, comes to one of them on
some machine. -/
inductive Sequence : List Phrase → Machine → Phrase → Machine → Prop
  | first {phrase : Phrase} {rest : List Phrase} {machine : Machine} :
      Sequence (phrase :: rest) machine phrase machine
  | later {first phrase : Phrase} {rest : List Phrase} {machine next reached : Machine}
      {value : Value} (ran : inner frame first machine = .ok value next)
      (others : Sequence rest next phrase reached) : Sequence (first :: rest) machine phrase reached

/-- The same for the keys and values of a hash literal. -/
inductive PairSequence : List Pair → Machine → Phrase → Machine → Prop
  | key {position : Position} {key value : Expr} {rest : List Pair} {machine : Machine} :
      PairSequence (.mk position key value :: rest) machine (.expr key) machine
  | value {position : Position} {key value : Expr} {rest : List Pair} {machine next : Machine}
      {keyValue : Value} {hashKey : Key} (ran : inner frame (.expr key) machine = .ok keyValue next)
      (hashable : keyValue.key? = some hashKey) :
      PairSequence (.mk position key value :: rest) machine (.expr value) next
  | later {position : Position} {key value : Expr} {rest : List Pair}
      {machine next after reached : Machine} {keyValue held : Value} {hashKey : Key}
      {phrase : Phrase} (ran : inner frame (.expr key) machine = .ok keyValue next)
      (hashable : keyValue.key? = some hashKey)
      (valueRan : inner frame (.expr value) next = .ok held after)
      (others : PairSequence rest after phrase reached) :
      PairSequence (.mk position key value :: rest) machine phrase reached

/-- Evaluating a phrase comes to running a block on some machine. -/
inductive Enters : Phrase → Machine → Block → Machine → Prop
  | expr {body : Block} {machine : Machine} : Enters (.expr (.block body)) machine body machine
  | stmt {body : Block} {machine : Machine} : Enters (.stmt (.block body)) machine body machine
  | ifThen {position : Position} {condition : Expr} {consequence : Block} {held : Value}
      {machine next : Machine} (ran : inner frame (.expr condition) machine = .ok held next)
      (holds : held.isTruthy = true) :
      Enters (.expr (.ifThen position condition consequence)) machine consequence next
  | consequence {position : Position} {condition : Expr} {consequence alternative : Block}
      {held : Value} {machine next : Machine}
      (ran : inner frame (.expr condition) machine = .ok held next)
      (holds : held.isTruthy = true) :
      Enters (.expr (.ifElse position condition consequence alternative)) machine consequence next
  | alternative {position : Position} {condition : Expr} {consequence alternative : Block}
      {held : Value} {machine next : Machine}
      (ran : inner frame (.expr condition) machine = .ok held next)
      (fails : held.isTruthy = false) :
      Enters (.expr (.ifElse position condition consequence alternative)) machine alternative next

/-- Evaluating a phrase comes to calling a value with arguments on some machine. -/
inductive Calls : Phrase → Machine → Value → List Value → Machine → Prop
  | expr {callee : Expr} {position : Position} {arguments : List Expr} {machine next at' : Machine}
      {value : Value} {values : List Value}
      (ran : inner frame (.expr callee) machine = .ok value next)
      (argumentsRan : Eval.exprs inner frame arguments next = .ok values at') :
      Calls (.expr (.call callee position arguments)) machine value values at'
  | apply {callee : Value} {arguments : List Value} {machine : Machine} :
      Calls (.apply callee arguments) machine callee arguments machine

end Evaluations

/-- The phrases of a list of statements. -/
abbrev Block.phrases (body : Block) : List Phrase := body.statements.map .stmt

/-- The second evaluation takes place directly inside the first. -/
inductive Part (world : World) : Moment → Moment → Prop
  | operand {limit : Nat} {calls : List Activation} {frame : FrameId} {phrase part : Phrase}
      {machine reached : Machine}
      (parts : Sequence (evaluate world limit) frame phrase.operands machine part reached) :
      Part world ⟨limit + 1, calls, frame, phrase, machine⟩ ⟨limit, calls, frame, part, reached⟩
  | pair {limit : Nat} {calls : List Activation} {frame : FrameId} {position : Position}
      {pairs : List Pair} {part : Phrase} {machine reached : Machine}
      (parts : PairSequence (evaluate world limit) frame pairs machine part reached) :
      Part world ⟨limit + 1, calls, frame, .expr (.hash position pairs), machine⟩
        ⟨limit, calls, frame, part, reached⟩
  | block {limit : Nat} {calls : List Activation} {frame : FrameId} {phrase part : Phrase}
      {machine entered reached : Machine} {body : Block}
      (enters : Enters (evaluate world limit) frame phrase machine body entered)
      (parts : Sequence (evaluate world limit) entered.frames.size body.phrases
        (entered.withScope frame [] false) part reached) :
      Part world ⟨limit + 1, calls, frame, phrase, machine⟩
        ⟨limit, calls, entered.frames.size, part, reached⟩
  | returned {limit : Nat} {calls : List Activation} {frame : FrameId} {position : Position}
      {value : Expr} {machine : Machine} (inside : machine.inCall frame = true) :
      Part world ⟨limit + 1, calls, frame, .stmt (.returnValue position value), machine⟩
        ⟨limit, calls, frame, .expr value, machine⟩
  /-- A statement of the body of a function that is called: the one part inside a further call. -/
  | body {limit : Nat} {calls : List Activation} {frame outer : FrameId} {phrase part : Phrase}
      {machine called reached : Machine} {parameters : List String} {body : Block}
      {arguments : List Value}
      (makes : Calls (evaluate world limit) frame phrase machine
        (.function parameters body outer) arguments called)
      (fits : arguments.length = parameters.length)
      (parts : Sequence (evaluate world limit) called.frames.size body.phrases
        (called.withScope outer (Eval.bindParameters parameters arguments) true) part reached) :
      Part world ⟨limit + 1, calls, frame, phrase, machine⟩
        ⟨limit, ⟨limit, parameters, body, outer, arguments, called⟩ :: calls, called.frames.size,
          part, reached⟩
  | mapped {limit : Nat} {calls : List Activation} {frame : FrameId} {phrase part : Phrase}
      {machine called reached : Machine} {callee : Value} {items : List Value}
      (makes : Calls (evaluate world limit) frame phrase machine (.builtin .map)
        [callee, .array items] called)
      (parts : Sequence (evaluate world limit) frame (items.map fun item => .apply callee [item])
        called part reached) :
      Part world ⟨limit + 1, calls, frame, phrase, machine⟩ ⟨limit, calls, frame, part, reached⟩
  | imported {limit : Nat} {calls : List Activation} {frame : FrameId} {phrase part : Phrase}
      {machine called reached : Machine} {path : String} {real : RealPath} {content : List UInt8}
      {program : Program}
      (makes : Calls (evaluate world limit) frame phrase machine (.builtin .importFile)
        [.string path] called)
      (found : world.resolveImport (called.frame frame).sourcePath path = some (real, content))
      (free : called.running.contains real = false)
      (text : ModuleText.ofContent content world.nestingLimit = .program program)
      (parts : Sequence (evaluate world limit) called.frames.size
        (program.statements.map .stmt) (called.withModule real) part reached) :
      Part world ⟨limit + 1, calls, frame, phrase, machine⟩
        ⟨limit, calls, called.frames.size, part, reached⟩

theorem Part.limit_eq {world : World} {whole part : Moment} (isPart : Part world whole part) :
    whole.limit = part.limit + 1 := by
  cases isPart <;> rfl

/-! ## Parts that do not give a value -/

namespace Eval

variable {world : World} {inner : Evaluator} {frame : FrameId} {machine reached : Machine}
  {part : Phrase} {stop : Stop} {rest : Machine}

theorem bind_ok {α β : Type} {run : Eval α} {next : α → Eval β} {value : α} {after : Machine}
    (ran : run machine = .ok value after) : (run >>= next) machine = next value after := by
  rw [bind_apply, ran]

theorem bind_error {α β : Type} {run : Eval α} {next : α → Eval β}
    (ran : run machine = .error stop rest) : (run >>= next) machine = .error stop rest := by
  rw [bind_apply, ran]

/-- Running phrases with one computation for each, as far as the part that stops. -/
theorem collect_stops {α : Type} {phrase : α → Phrase} {items : List α}
    (parts : Sequence inner frame (items.map phrase) machine part reached)
    (stops : inner frame part reached = .error stop rest) (done : List Value) :
    collect (fun item => inner frame (phrase item)) items done machine = .error stop rest := by
  induction items generalizing machine done with
  | nil => cases parts
  | cons item others ih =>
      cases parts with
      | first => exact bind_error stops
      | later ran parts => exact (bind_ok ran).trans (ih parts (_ :: done))

theorem statements_stops {list : List Stmt}
    (parts : Sequence inner frame (list.map .stmt) machine part reached)
    (stops : inner frame part reached = .error stop rest) (result : Value) :
    statements inner frame list result machine = .error stop rest := by
  induction list generalizing machine result with
  | nil => cases parts
  | cons stmt others ih =>
      cases parts with
      | first => exact bind_error stops
      | later ran parts => exact (bind_ok ran).trans (ih parts _)

theorem pairs_stops {list : List Pair} (parts : PairSequence inner frame list machine part reached)
    (stops : inner frame part reached = .error stop rest) (done : List (Key × Value)) :
    pairs inner frame list done machine = .error stop rest := by
  induction parts generalizing done with
  | key => exact bind_error stops
  | value ran hashable =>
      refine (bind_ok ran).trans ?_
      rw [hashable]
      exact bind_error stops
  | later ran hashable valueRan _ ih =>
      refine (bind_ok ran).trans ?_
      rw [hashable]
      exact (bind_ok valueRan).trans (ih stops _)

theorem operand_stops {phrase : Phrase}
    (parts : Sequence inner frame phrase.operands machine part reached)
    (stops : inner frame part reached = .error stop rest) :
    Eval.phrase world inner frame phrase machine = .error stop rest := by
  cases phrase with
  | apply callee arguments => cases parts
  | stmt stmt =>
      cases stmt with
      | binding position name value =>
          cases parts with
          | first => exact bind_error stops
          | later ran parts => cases parts
      | expr position value =>
          cases parts with
          | first => exact stops
          | later ran parts => cases parts
      | _ => cases parts
  | expr expr =>
      cases expr with
      | unary operator operand =>
          cases parts with
          | first => exact bind_error stops
          | later ran parts => cases parts
      | binary left operator right =>
          rcases parts with _ | ⟨ran, _ | ⟨_, parts⟩⟩
          · exact bind_error stops
          · exact (bind_ok ran).trans (bind_error stops)
          · cases parts
      | array position items => exact bind_error (collect_stops parts stops [])
      | ifThen position condition consequence =>
          cases parts with
          | first => exact bind_error stops
          | later ran parts => cases parts
      | ifElse position condition consequence alternative =>
          cases parts with
          | first => exact bind_error stops
          | later ran parts => cases parts
      | call callee position arguments =>
          cases parts with
          | first => exact bind_error stops
          | later ran parts => exact (bind_ok ran).trans (bind_error (collect_stops parts stops []))
      | index target position place =>
          rcases parts with _ | ⟨ran, _ | ⟨_, parts⟩⟩
          · exact bind_error stops
          · exact (bind_ok ran).trans (bind_error stops)
          · cases parts
      | _ => cases parts

theorem phrase_enters {phrase : Phrase} {body : Block} {entered : Machine}
    (enters : Enters inner frame phrase machine body entered) :
    Eval.phrase world inner frame phrase machine = Eval.block inner frame body entered := by
  cases enters with
  | expr => rfl
  | stmt => rfl
  | ifThen ran holds | consequence ran holds =>
      refine (bind_ok ran).trans ?_
      rw [holds]
      rfl
  | alternative ran fails =>
      refine (bind_ok ran).trans ?_
      rw [fails]
      rfl

theorem phrase_calls {phrase : Phrase} {callee : Value} {arguments : List Value} {called : Machine}
    (makes : Calls inner frame phrase machine callee arguments called) :
    Eval.phrase world inner frame phrase machine =
      Eval.call world inner frame callee arguments called := by
  cases makes with
  | expr ran argumentsRan => exact (bind_ok ran).trans (bind_ok argumentsRan)
  | apply => rfl

end Eval

end Monkey
