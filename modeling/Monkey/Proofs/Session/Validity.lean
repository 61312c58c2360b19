import Monkey.Proofs.Eval.Validity
import Monkey.Proofs.Session.Returns

/-!
# Values in sessions

Whatever a session computes is made of integers in range, and of hashes in which no key stands
twice. The literals of an accepted text are in range, and the machine a session starts on binds
nothing, so every run starts on a valid machine, and from there validity passes from each evaluation
to the ones inside it and after it.
-/

set_option autoImplicit false

namespace Monkey

section Parts

variable {world : World} {limit : Nat} {calls : List Activation} {frame : FrameId}
  {machine : Machine} {part : Moment}

/-- The one part of a statement that needs the value of an expression. -/
theorem Part.of_operand {stmt : Stmt} {operand : Phrase}
    (needs : Phrase.operands (.stmt stmt) = [operand])
    (isPart : Part world ⟨limit + 1, calls, frame, .stmt stmt, machine⟩ part) :
    part = ⟨limit, calls, frame, operand, machine⟩ := by
  cases isPart with
  | operand parts =>
      rw [needs] at parts
      cases parts with
      | first => rfl
      | later _ parts => cases parts
  | block enters =>
      cases enters
      cases needs
  | returned => cases needs
  | body makes | mapped makes | imported makes => cases makes

theorem not_part_of_leaf {token : Token} :
    ¬ Part world ⟨limit + 1, calls, frame, .expr (.leaf token), machine⟩ part := by
  intro isPart
  cases isPart with
  | operand parts => cases parts
  | block enters => cases enters
  | body makes | mapped makes | imported makes => cases makes

end Parts

/-! ## Evaluations that fit in memory -/

/-- Neither the evaluation nor any that takes place inside it measures anything too long. -/
inductive Moment.Fits (world : World) : Moment → Prop
  | intro {moment : Moment} (measured : moment.Measured world)
      (parts : ∀ part, Part world moment part → Fits world part) : Fits world moment

namespace Moment.Fits

variable {world : World} {limit : Nat} {calls : List Activation} {frame : FrameId}
  {machine : Machine}

theorem leaf (token : Token) :
    Fits world ⟨limit + 1, calls, frame, .expr (.leaf token), machine⟩ := by
  refine .intro ?_ fun part isPart => absurd isPart not_part_of_leaf
  rintro _ _ _ - makes
  cases makes

theorem stmt {stmt : Stmt} {operand : Phrase} (needs : Phrase.operands (.stmt stmt) = [operand])
    (fits : Fits world ⟨limit, calls, frame, operand, machine⟩) :
    Fits world ⟨limit + 1, calls, frame, .stmt stmt, machine⟩ := by
  refine .intro ?_ fun part isPart => ?_
  · rintro _ _ _ - makes
    cases makes
  · rw [isPart.of_operand needs]
    exact fits

theorem hash {position : Position} {pairs : List Pair}
    (fits : ∀ part reached, PairSequence (evaluate world limit) frame pairs machine part reached →
      Fits world ⟨limit, calls, frame, part, reached⟩) :
    Fits world ⟨limit + 1, calls, frame, .expr (.hash position pairs), machine⟩ := by
  refine .intro ?_ fun part isPart => ?_
  · rintro _ _ _ - makes
    cases makes
  · cases isPart with
    | pair parts => exact fits _ _ parts
    | operand parts => cases parts
    | block enters => cases enters
    | body makes | mapped makes | imported makes => cases makes

/-- A call of `len` fits as its operands do and the argument is not too long. -/
theorem length {callee argument : Expr} {position : Position} {next : Machine}
    (calleeRan : evaluate world limit frame (.expr callee) machine = .ok (.builtin .len) next)
    (fits : ∀ part reached, Sequence (evaluate world limit) frame [.expr callee, .expr argument]
      machine part reached → Fits world ⟨limit, calls, frame, part, reached⟩)
    (short : ∀ value rest, evaluate world limit frame (.expr argument) next = .ok value rest →
      value.Fits) :
    Fits world ⟨limit + 1, calls, frame, .expr (.call callee position [argument]), machine⟩ := by
  refine .intro ?_ fun part isPart => ?_
  · rintro _ value rest ⟨⟩ makes
    cases makes with
    | expr ran argumentsRan =>
        cases calleeRan.symm.trans ran
        rw [Eval.exprs, Eval.collect, Eval.bind_apply] at argumentsRan
        cases argumentRan : evaluate world limit frame (.expr argument) next with
        | error stop after =>
            rw [argumentRan] at argumentsRan
            cases argumentsRan
        | ok held after =>
            rw [argumentRan] at argumentsRan
            cases argumentsRan
            exact short _ _ argumentRan
  · cases isPart with
    | operand parts => exact fits _ _ parts
    | block enters => cases enters
    | body makes | mapped makes | imported makes =>
        cases makes with
        | expr ran => cases calleeRan.symm.trans ran

end Moment.Fits

namespace Machine

/-- Nothing that the run calls `len` with is too long. No memory holds anything that is. -/
def RunFits (world : World) (program : Program) (start : Machine) : Prop :=
  ∀ moment, Occurs world program start moment → moment.Measured world

theorem RunFits.of_statements {world : World} {program : Program} {start : Machine}
    (fits : ∀ phrase reached, Sequence (evaluate world world.evaluationLimit) topFrame
      (program.statements.map .stmt) start phrase reached →
        Moment.Fits world ⟨world.evaluationLimit, [], topFrame, phrase, reached⟩) :
    RunFits world program start := by
  intro moment occurs
  have inside : moment.Fits world := by
    induction occurs with
    | statement parts => exact fits _ _ parts
    | part _ isPart ih =>
        cases ih with
        | intro measured parts => exact parts _ isPart
  cases inside with
  | intro measured parts => exact measured

/-- A machine on which any texts have been run one after another, with any files around, and no run
needed more memory than there is. -/
inductive ReachableInMemory : Machine → Prop
  | start (sourcePath : Option String) : ReachableInMemory (.start sourcePath)
  | run {machine : Machine} (reached : machine.ReachableInMemory) (world : World) (source : String)
      (sourcePath : Option String)
      (fits : ∀ parsed, Program.ofSource source world.nestingLimit = .ok parsed →
        parsed.diagnostics = [] →
        RunFits world parsed.program (machine.entered world sourcePath)) :
      ReachableInMemory (machine.run world source sourcePath).2

/-- A value that comes up when a program is run from a machine on. -/
inductive Handles (world : World) (program : Program) (start : Machine) : Value → Prop
  /-- The value is bound in some frame when an evaluation begins. -/
  | bound {moment : Moment} (occurs : Occurs world program start moment) {id : FrameId}
      {entry : String × Value} (member : entry ∈ (moment.machine.frame id).bindings) :
      Handles world program start entry.2
  /-- The value is bound in some frame when an evaluation has ended, however it does. -/
  | left {moment : Moment} (occurs : Occurs world program start moment) {id : FrameId}
      {entry : String × Value}
      (member : entry ∈ ((Eval.ended (moment.result world)).frame id).bindings) :
      Handles world program start entry.2
  | given {moment : Moment} (occurs : Occurs world program start moment) {value : Value}
      {rest : Machine} (ran : moment.result world = .ok value rest) :
      Handles world program start value
  | returned {moment : Moment} (occurs : Occurs world program start moment) {value : Value}
      {rest : Machine} (ended : moment.result world = .error (.returned value) rest) :
      Handles world program start value
  /-- The value is passed to a function, be it one that prints it. -/
  | passed {limit : Nat} {calls : List Activation} {frame : FrameId} {phrase : Phrase}
      {machine next : Machine}
      (occurs : Occurs world program start ⟨limit + 1, calls, frame, phrase, machine⟩)
      {callee : Value} {arguments : List Value}
      (makes : Calls (evaluate world limit) frame phrase machine callee arguments next)
      {argument : Value} (member : argument ∈ arguments) : Handles world program start argument

/-! ## Valid machines -/

theorem valid_start (sourcePath : Option String) : (Machine.start sourcePath).Valid := by
  intro id
  cases id with
  | zero => exact .nil
  | succ id =>
      rw [frame_outside _ (Nat.le_add_left 1 id)]
      exact .nil

theorem Valid.entered {machine : Machine} (valid : machine.Valid) (world : World)
    (sourcePath : Option String) : (machine.entered world sourcePath).Valid := by
  cases sourcePath with
  | none => exact valid
  | some path =>
      have cleared : Machine.Valid { machine with output := "" } := valid
      exact cleared.modifyFrame topFrame fun _ bound => bound

theorem Valid.exited {machine : Machine} (valid : machine.Valid) (sourcePath : Option String) :
    (machine.exited sourcePath).Valid := by
  cases sourcePath <;> exact valid

/-! ## Runs -/

section Runs

variable {world : World} {program : Program} {start : Machine} {moment : Moment}
  (fits : RunFits world program start)
include fits

theorem Occurs.ends (occurs : Occurs world program start moment)
    (phraseValid : moment.phrase.Valid) (valid : moment.machine.Valid) : moment.Ends world := by
  -- On the depth: a part has less of it left, so it ends well as soon as it is valid.
  induction isLimit : moment.limit using Nat.strongRecOn generalizing moment with
  | ind limit ih =>
      have parts : ∀ part, Part world moment part → part.phrase.Valid → part.machine.Valid →
          part.Ends world := by
        intro part isPart partValid reachedValid
        have less : part.limit < limit := by
          rw [← isLimit, isPart.limit_eq]
          exact Nat.lt_succ_self part.limit
        exact ih part.limit less (.part occurs isPart) partValid reachedValid rfl
      refine Moment.ends_of_parts (fun part isPart => ?_) (fits moment occurs) phraseValid valid
      obtain ⟨partValid, reachedValid⟩ := isPart.valid parts phraseValid valid
      exact parts part isPart partValid reachedValid

theorem Occurs.parts_end (occurs : Occurs world program start moment) :
    ∀ part, Part world moment part → part.phrase.Valid → part.machine.Valid → part.Ends world :=
  fun _ isPart => Occurs.ends fits (.part occurs isPart)

variable (inRange : AllInRange program.tree.leaves) (startValid : start.Valid)
include inRange startValid

theorem Occurs.valid (occurs : Occurs world program start moment) :
    moment.phrase.Valid ∧ moment.machine.Valid := by
  induction occurs with
  | statement parts =>
      rw [Program.tree_leaves] at inRange
      exact parts.valid (fun _ _ parts => Occurs.ends fits (.statement parts))
        (Phrase.statements_valid inRange) startValid
  | part occurs isPart ih =>
      exact isPart.valid (occurs.parts_end fits) ih.1 ih.2

theorem runProgram_ends : Eval.Ends Value.Valid (runProgram world program start) := by
  refine .located _ (Eval.statements_ends (fun part reached parts => ?_) startValid .nil)
  have occurs := Occurs.statement parts
  obtain ⟨partValid, reachedValid⟩ := occurs.valid fits inRange startValid
  exact occurs.ends fits partValid reachedValid

theorem Handles.valid {value : Value} (handles : Handles world program start value) :
    value.Valid := by
  have ends : ∀ {moment : Moment}, Occurs world program start moment → moment.Ends world := by
    intro moment occurs
    obtain ⟨phraseValid, valid⟩ := occurs.valid fits inRange startValid
    exact occurs.ends fits phraseValid valid
  cases handles with
  | bound occurs member =>
      exact ((occurs.valid fits inRange startValid).2 _).values _ member
  | @left moment occurs id entry member =>
      have ended := ends occurs
      unfold Moment.Ends at ended
      generalize moment.result world = result at ended member
      cases result with
      | ok value rest | error stop rest => exact (ended.2 id).values entry member
  | given occurs ran => exact ((ends occurs).ok ran).1
  | returned occurs stopped =>
      have ended := ends occurs
      rw [Moment.Ends, stopped] at ended
      exact ended.1
  | passed occurs makes member =>
      obtain ⟨phraseValid, valid⟩ := occurs.valid fits inRange startValid
      have passed := Part.calls_valid (occurs.parts_end fits) phraseValid valid makes
      exact passed.1.2 _ member

end Runs

theorem execute_valid {world : World} {program : Program} (inRange : AllInRange program.tree.leaves)
    {machine : Machine} (valid : machine.Valid) {sourcePath : Option String}
    (fits : RunFits world program (machine.entered world sourcePath)) :
    (∀ value, (machine.execute world program sourcePath).1 = .finished value → value.Valid) ∧
      (machine.execute world program sourcePath).2.Valid := by
  have ends := runProgram_ends fits inRange (valid.entered world sourcePath)
  rw [execute_eq]
  generalize runProgram world program (machine.entered world sourcePath) = result at ends ⊢
  cases result with
  | ok value rest =>
      refine ⟨fun _ finished => ?_, ends.2.exited sourcePath⟩
      cases finished
      exact ends.1
  | error stop rest =>
      refine ⟨fun value finished => ?_, ends.2.exited sourcePath⟩
      cases stop <;> cases finished

theorem ReachableInMemory.valid {machine : Machine} (reached : machine.ReachableInMemory) :
    machine.Valid := by
  induction reached with
  | start sourcePath => exact valid_start sourcePath
  | @run machine reached world source sourcePath fits ih =>
      cases read : Program.ofSource source world.nestingLimit with
      | error numeral =>
          rw [Machine.run, read]
          exact ih
      | ok parsed =>
          cases found : parsed.diagnostics with
          | nil =>
              rw [run_eq_execute read found]
              have inRange := Program.allInRange_of_ofSource read
              exact (execute_valid inRange ih (fits parsed read found)).2
          | cons diagnostic rest =>
              rw [Machine.run, read]
              dsimp only
              rw [found]
              exact ih

/-- In every session whose runs fit in memory, all values that are bound or passed to a function,
that evaluations give and that a `return` or a run ends with, are regular at every depth: integers
are in range, the keys of a hash are integers, booleans or strings of which no two are equal, and
nothing is of a type named `error`. -/
theorem run_regular {machine : Machine} (reached : machine.ReachableInMemory) :
    (∀ id, ∀ entry ∈ (machine.frame id).bindings, entry.2.Regular) ∧
    ∀ world source sourcePath parsed, Program.ofSource source world.nestingLimit = .ok parsed →
      parsed.diagnostics = [] →
      RunFits world parsed.program (machine.entered world sourcePath) →
      (∀ value, Handles world parsed.program (machine.entered world sourcePath) value →
        value.Regular) ∧
      ∀ value, (machine.run world source sourcePath).1 = .finished value → value.Regular := by
  have valid := reached.valid
  refine ⟨fun id entry member => ((valid id).values entry member).regular, ?_⟩
  intro world source sourcePath parsed read clean fits
  have inRange := Program.allInRange_of_ofSource read
  constructor
  · intro value handles
    exact (handles.valid fits inRange (valid.entered world sourcePath)).regular
  · intro value finished
    rw [run_eq_execute read clean] at finished
    exact ((execute_valid inRange valid fits).1 value finished).regular

/-- A session that binds a name and then gives a hash with the length of a text in it. -/
theorem run_regular_hash :
    let world : World := { files := ⟨[], []⟩, searchPath := [] }
    let machine := ((Machine.start none).run world "let x = 1;" none).2
    let start := machine.entered world none
    let held : Value := .hash [(.int 1, .int 2)]
    machine.ReachableInMemory ∧ ∃ parsed,
      Program.ofSource "#\x7bx: len(\"ab\")\x7d;" = .ok parsed ∧ parsed.diagnostics = [] ∧
      RunFits world parsed.program start ∧ Handles world parsed.program start held ∧
      held.Regular := by
  intro world machine start held
  obtain ⟨limit, isLimit⟩ : ∃ limit, world.evaluationLimit = limit + 4 := ⟨2996, rfl⟩
  have reached : machine.ReachableInMemory := by
    refine .run (.start none) world "let x = 1;" none fun parsed read _ => ?_
    have bound : Program.ofSource "let x = 1;" = .ok ⟨⟨⟨1, 1⟩, [.binding ⟨1, 1⟩
      ⟨.identifier, "x", ⟨1, 5⟩⟩ (.leaf ⟨.integer, "1", ⟨1, 9⟩⟩)]⟩, []⟩ := rfl
    cases bound.symm.trans read
    refine .of_statements fun phrase reached parts => ?_
    rw [isLimit]
    cases parts with
    | first => exact .stmt rfl (.leaf _)
    | later _ parts => cases parts
  let x : Token := ⟨.identifier, "x", ⟨1, 3⟩⟩
  let len : Token := ⟨.identifier, "len", ⟨1, 6⟩⟩
  let text : Token := ⟨.string, "ab", ⟨1, 10⟩⟩
  let stmt : Stmt := .expr ⟨1, 1⟩ (.hash ⟨1, 1⟩
    [.mk ⟨1, 3⟩ (.leaf x) (.call (.leaf len) ⟨1, 9⟩ [.leaf text])])
  have read : Program.ofSource "#\x7bx: len(\"ab\")\x7d;" = .ok ⟨⟨⟨1, 1⟩, [stmt]⟩, []⟩ := rfl
  have keyRan : evaluate world (limit + 2) topFrame (.expr (.leaf x)) start =
      .ok (.int 1) start := rfl
  have call : Moment.Fits world ⟨limit + 2, [], topFrame,
      .expr (.call (.leaf len) ⟨1, 9⟩ [.leaf text]), start⟩ := by
    refine .length rfl (fun part reached parts => ?_) fun value rest ran => ?_
    · rcases parts with _ | ⟨_, _ | ⟨_, parts⟩⟩
      · exact .leaf len
      · exact .leaf text
      · cases parts
    · cases ran
      show ("ab".length : Int) ≤ Integer.largest
      decide
  have fits : RunFits world ⟨⟨1, 1⟩, [stmt]⟩ start := by
    refine .of_statements fun phrase reached parts => ?_
    rw [isLimit] at parts ⊢
    rcases parts with _ | ⟨_, parts⟩
    · refine .stmt rfl (.hash fun part reached parts => ?_)
      cases parts with
      | key => exact .leaf x
      | value ran =>
          cases keyRan.symm.trans ran
          exact call
      | later _ _ _ parts => cases parts
    · cases parts
  have ran : evaluate world world.evaluationLimit topFrame (.stmt stmt) start =
      .ok (.hash [(.int 1, .int "ab".length)]) start := rfl
  have handles : Handles world ⟨⟨1, 1⟩, [stmt]⟩ start held := .given (.statement .first) ran
  obtain ⟨regular, -⟩ := (run_regular reached).2 world _ none _ read rfl fits
  exact ⟨reached, _, read, rfl, fits, handles, regular _ handles⟩

end Machine

end Monkey
