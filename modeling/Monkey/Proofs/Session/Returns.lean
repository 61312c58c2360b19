import Monkey.Proofs.Eval.Returns
import Monkey.Proofs.Session.Accepted

/-!
# Returns in sessions

Every evaluation of a run is a part of that of a statement of the program, which stands in the top
frame of the session. No frame is around the top frame, whatever has been run before, so the
statements of a program are outside all calls, and every moment of the run is guarded.
-/

set_option autoImplicit false

namespace Monkey

namespace Machine

/-- The machine on which the statements of a program begin to run. -/
def entered (world : World) (sourcePath : Option String) (machine : Machine) : Machine :=
  let prepared := machine.prepare sourcePath
  match sourcePath with
  | none => prepared
  | some path => { prepared with running := world.files.realPath path :: prepared.running }

/-- The machine after a run that may have belonged to a file. -/
def exited (sourcePath : Option String) (machine : Machine) : Machine :=
  match sourcePath with
  | none => machine
  | some _ => { machine with running := machine.running.tail }

theorem execute_eq (world : World) (program : Program) (sourcePath : Option String)
    (machine : Machine) :
    machine.execute world program sourcePath =
      match runProgram world program (machine.entered world sourcePath) with
      | .ok value rest => (.finished value, rest.exited sourcePath)
      | .error stop rest => (.ofStop stop, rest.exited sourcePath) := by
  cases sourcePath with
  | none => rfl
  | some path =>
      unfold execute entered
      simp only [Option.map_some, Eval.whileRunning?, Eval.whileRunning]
      cases runProgram world program _ <;> rfl

/-- An evaluation that takes place when a program is run from a machine on. -/
inductive Occurs (world : World) (program : Program) (start : Machine) : Moment → Prop
  | statement {phrase : Phrase} {reached : Machine}
      (parts : Sequence (evaluate world world.evaluationLimit) topFrame
        (program.statements.map .stmt) start phrase reached) :
      Occurs world program start ⟨world.evaluationLimit, [], topFrame, phrase, reached⟩
  | part {moment part : Moment} (occurs : Occurs world program start moment)
      (isPart : Part world moment part) : Occurs world program start part

/-! ## The top frame -/

/-- No frame of a call is around the top frame, which is none itself. -/
def TopLevel (machine : Machine) : Prop := machine.Leads topFrame none

theorem topLevel_start (sourcePath : Option String) : (Machine.start sourcePath).TopLevel :=
  .further (Nat.zero_lt_one) rfl .none

theorem shapes_withOutput (machine : Machine) (output : String) :
    machine.Shapes { machine with output } :=
  ⟨Nat.le_refl _, fun _ _ => rfl, fun _ _ => rfl⟩

theorem shapes_withRunning (machine : Machine) (running : List RealPath) :
    machine.Shapes { machine with running } :=
  ⟨Nat.le_refl _, fun _ _ => rfl, fun _ _ => rfl⟩

theorem shapes_prepare (machine : Machine) (sourcePath : Option String) :
    machine.Shapes (machine.prepare sourcePath) := by
  cases sourcePath with
  | none => exact machine.shapes_withOutput ""
  | some path =>
      refine (machine.shapes_withOutput "").trans ?_
      refine ⟨Nat.le_of_eq (size_modify _ _ _).symm, fun id inside => ?_, fun id inside => ?_⟩
      · rw [prepare, frame_modify _ _ _ _ inside]
        split <;> rfl
      · rw [prepare, frame_modify _ _ _ _ inside]
        split <;> rfl

theorem shapes_entered (machine : Machine) (world : World) (sourcePath : Option String) :
    machine.Shapes (machine.entered world sourcePath) := by
  cases sourcePath with
  | none => exact machine.shapes_prepare none
  | some path => exact (machine.shapes_prepare (some path)).trans (shapes_withRunning _ _)

theorem shapes_statements (world : World) (limit : Nat) (frame : FrameId) (list : List Stmt)
    (result : Value) (machine : Machine) :
    machine.Shapes
      (Eval.ended (Eval.statements (evaluate world limit) frame list result machine)) := by
  induction list generalizing machine result with
  | nil => exact .refl machine
  | cons stmt rest ih =>
      have shapes := evaluate_shapes world limit frame (.stmt stmt) machine
      rw [Eval.statements, Eval.bind_apply]
      cases ran : evaluate world limit frame (.stmt stmt) machine with
      | ok value next =>
          rw [ran] at shapes
          exact shapes.trans (ih value next)
      | error stop next =>
          rw [ran] at shapes
          exact shapes

theorem shapes_runProgram (world : World) (program : Program) (machine : Machine) :
    machine.Shapes (Eval.ended (runProgram world program machine)) := by
  rw [runProgram, Eval.ended_located]
  exact shapes_statements world world.evaluationLimit topFrame program.statements .nil machine

theorem shapes_execute (world : World) (program : Program) (sourcePath : Option String)
    (machine : Machine) :
    machine.Shapes (machine.execute world program sourcePath).2 := by
  have ran := (machine.shapes_entered world sourcePath).trans
    (shapes_runProgram world program (machine.entered world sourcePath))
  have left : ∀ rest : Machine, rest.Shapes (rest.exited sourcePath) := by
    intro rest
    cases sourcePath with
    | none => exact .refl rest
    | some path => exact shapes_withRunning rest _
  rw [execute_eq]
  cases result : runProgram world program (machine.entered world sourcePath) with
  | ok value rest =>
      rw [result] at ran
      exact ran.trans (left rest)
  | error stop rest =>
      rw [result] at ran
      exact ran.trans (left rest)

theorem shapes_run (world : World) (source : String) (sourcePath : Option String)
    (machine : Machine) : machine.Shapes (machine.run world source sourcePath).2 := by
  unfold run
  split
  · exact machine.shapes_withOutput ""
  split
  · exact shapes_execute world _ sourcePath machine
  · exact machine.shapes_withOutput ""

theorem Reachable.topLevel {machine : Machine} (reached : machine.Reachable) :
    machine.TopLevel := by
  induction reached with
  | start sourcePath => exact topLevel_start sourcePath
  | run _ world source sourcePath ih => exact ih.of_shapes (shapes_run world source sourcePath _)

/-! ## Runs -/

theorem Occurs.guarded {world : World} {program : Program} {start : Machine} {moment : Moment}
    (topLevel : start.TopLevel) (occurs : Occurs world program start moment) :
    moment.Guarded world := by
  induction occurs with
  | statement parts => exact .outside (Leads.of_shapes topLevel parts.shapes)
  | part _ isPart ih => exact isPart.guarded ih

theorem runProgram_silent (world : World) (program : Program) {machine : Machine}
    (topLevel : machine.TopLevel) : Eval.Silent (runProgram world program machine) :=
  .located (Eval.statements_silent (evaluate_disciplined world world.evaluationLimit) topLevel _ _)

/-- In any run of any session, a `return` that is inside a call by the frames around it is inside
the innermost call that is active, in whose frame the look-up ends, and ends that call with its
value; a `return` that is not fails without evaluating anything. No call, no imported file and no
program ends in a `return`. -/
theorem returns_disciplined {machine : Machine} (reached : machine.Reachable) (world : World)
    (program : Program) (sourcePath : Option String) :
    (∀ limit calls frame stmt reached value,
      Occurs world program (machine.entered world sourcePath)
        ⟨limit + 1, calls, frame, .stmt stmt, reached⟩ →
      Eval.returned? (evaluate world limit) frame stmt = some value →
      (∀ scope, reached.nearestCall frame = some scope →
        ∃ activation outer, calls = activation :: outer ∧ activation.scope = scope ∧
          ∀ result rest, value reached = .ok result rest →
            evaluate world (limit + 1) frame (.stmt stmt) reached =
                .error (.returned result) rest ∧
              activation.result world = .ok result rest) ∧
      (reached.nearestCall frame = none →
        evaluate world (limit + 1) frame (.stmt stmt) reached =
            .error (.error (RuntimeError.blame ⟨.returnOutsideFunction, none⟩ stmt.position))
              reached ∧
          ∀ part, ¬ Part world ⟨limit + 1, calls, frame, .stmt stmt, reached⟩ part)) ∧
    (∀ limit frame callee arguments called,
      Eval.Silent (Eval.call world (evaluate world limit) frame callee arguments called)) ∧
    (∀ limit frame path called,
      Eval.Silent (Eval.importFile world (evaluate world limit) frame path called)) ∧
    Eval.Silent (runProgram world program (machine.entered world sourcePath)) := by
  have topLevel := reached.topLevel.of_shapes (machine.shapes_entered world sourcePath)
  refine ⟨?_, fun limit frame callee arguments called => ?_, fun limit frame path called => ?_,
    runProgram_silent world program topLevel⟩
  · intro limit calls frame stmt reached value occurs returns
    cases occurs.guarded topLevel with
    | outside leads =>
        rw [Leads.nearestCall_eq leads]
        refine ⟨nofun, fun _ => ⟨?_, fun part => ?_⟩⟩
        · exact Eval.evaluate_return_outside returns leads
        · exact Eval.not_part_of_return_outside returns leads
    | @inside activation outer active leads ends =>
        rw [Leads.nearestCall_eq leads]
        refine ⟨?_, nofun⟩
        rintro scope ⟨⟩
        refine ⟨activation, outer, active, rfl, fun result rest ran => ?_⟩
        have ended := Eval.evaluate_return_inside returns leads ran
        exact ⟨ended, ends result rest ended⟩
  · exact Eval.call_silent (evaluate_disciplined world limit) world callee arguments
  · exact Eval.importFile_silent (evaluate_disciplined world limit) world path

/-- A `return` in a block of a function, with the call that it ends. -/
theorem returns_disciplined_block :
    let world : World := { files := ⟨[], []⟩, searchPath := [] }
    let f : Token := ⟨.identifier, "f", ⟨1, 5⟩⟩
    let x : Token := ⟨.identifier, "x", ⟨1, 12⟩⟩
    let body : Block := .mk ⟨1, 15⟩ [.block (.mk ⟨1, 17⟩ [.returnValue ⟨1, 19⟩ (.leaf x)])]
    let program : Program := ⟨⟨1, 1⟩, [
      .binding ⟨1, 1⟩ f (.function ⟨1, 9⟩ ⟨1, 11⟩ [x] body),
      .expr ⟨1, 34⟩ (.call (.leaf f) ⟨1, 35⟩ [.leaf ⟨.integer, "7", ⟨1, 36⟩⟩])]⟩
    ∃ reached activation,
      Occurs world program ((Machine.start none).entered world none)
        ⟨2997, [activation], 2, .stmt (.returnValue ⟨1, 19⟩ (.leaf x)), reached⟩ ∧
      reached.nearestCall 2 = some activation.scope ∧
      activation.result world = .ok (.int 7) reached := by
  intro world f x body program
  have second : Occurs world program ((Machine.start none).entered world none) _ :=
    .statement (.later rfl .first)
  have call := Occurs.part second (.operand .first)
  have block := Occurs.part call (.body (.expr rfl rfl) rfl .first)
  have occurs := Occurs.part block (.block .stmt .first)
  obtain ⟨inside, -⟩ :=
    (returns_disciplined (.start none) world program none).1 _ _ _ _ _ _ occurs rfl
  obtain ⟨activation, outer, calls, scope, ends⟩ := inside 1 rfl
  cases calls
  obtain ⟨-, result⟩ := ends (.int 7) _ rfl
  exact ⟨_, _, occurs, rfl, result⟩

end Machine

end Monkey
