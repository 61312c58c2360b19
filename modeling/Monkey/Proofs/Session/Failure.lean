import Monkey.Proofs.Session.Joining
import Monkey.Proofs.Session.Locations

/-!
# What a failed run leaves behind

A run that does not finish stops in one of its statements. What it leaves behind is what running the
statements before that one leaves behind: the failing statement may add frames, but it changes none
of those there are, and running it on its own from there fails with the same error.
-/

set_option autoImplicit false

namespace Monkey

/-! ## The statement that stops -/

namespace Eval

variable {inner : Evaluator} {frame : FrameId} {machine rest : Machine} {stop : Stop}

/-- Statements that stop do so in one of them, and those before it give a value. -/
theorem statements_split {list : List Stmt} {result : Value}
    (stopped : statements inner frame list result machine = .error stop rest) :
    ∃ before stmt after value reached, list = before ++ stmt :: after ∧
      statements inner frame before result machine = .ok value reached ∧
      inner frame (.stmt stmt) reached = .error stop rest := by
  induction list generalizing machine result with
  | nil => cases stopped
  | cons stmt others ih =>
      rw [statements, bind_apply] at stopped
      cases ran : inner frame (.stmt stmt) machine with
      | error first after =>
          rw [ran] at stopped
          cases stopped
          exact ⟨[], stmt, others, result, machine, rfl, rfl, ran⟩
      | ok value after =>
          rw [ran] at stopped
          obtain ⟨before, failing, later, last, reached, parts, given, failed⟩ := ih stopped
          refine ⟨stmt :: before, failing, later, last, reached, ?_, ?_, failed⟩
          · rw [parts, List.cons_append]
          · exact (bind_ok ran).trans given

/-- A statement that does not give a value changes no frame, whatever it has run. -/
theorem extends_of_stmt_error {world : World} {limit : Nat} {stmt : Stmt}
    (failed : evaluate world limit frame (.stmt stmt) machine = .error stop rest) :
    machine.Extends machine.frames.size rest := by
  cases limit with
  | zero =>
      cases failed
      exact .refl _ machine
  | succ limit =>
      have changes : stmt.MayChange frame machine _ :=
        (stmt_mayChange (evaluate_keeps world limit) frame stmt machine).located
          (Phrase.stmt stmt).site
      change located (Phrase.stmt stmt).site (Eval.stmt (evaluate world limit) frame stmt)
        machine = _
        at failed
      rw [failed] at changes
      cases stmt <;> exact changes

/-- The error of a phrase at a known position is not blamed on anything around it, so it does not
matter where what is around it stands. -/
theorem blame_of_error {world : World} {limit : Nat} {phrase : Phrase}
    (known : phrase.position.IsKnown)
    (failed : evaluate world limit frame phrase machine = .error stop rest)
    (position position' : Position) (activity : Activity) :
    stop.blame ⟨position, activity⟩ = stop.blame ⟨position', activity⟩ := by
  cases limit with
  | zero =>
      cases failed
      rfl
  | succ limit =>
      cases stop with
      | error error =>
          obtain ⟨raised, -, rfl⟩ := error_of_located failed
          obtain ⟨blamed, placed⟩ := raised.exists_blamed known
          have kept := RuntimeError.blame_of_placed placed
          exact congrArg Stop.error ((kept position).trans (kept position').symm)
      | _ => rfl

end Eval

namespace Correspondence

/-! ## Going on in the same run -/

/-- The comparison of a run that starts with nothing printed with the same run after something has
been. -/
def continued (printed : String) : Correspondence :=
  ⟨True, fun _ => True, id, @increasing_id, "", printed⟩

theorem Machines.output_continued {printed : String} {here there : Machine}
    (machines : (continued printed).Machines here there) :
    there.output = printed ++ here.output := by
  obtain ⟨text, output, output'⟩ := machines.output
  rw [output, output']
  simp [continued]

theorem Concludes.eq_of_exact {world : World} {between : Correspondence}
    {outcome outcome' : Outcome} (concludes : Concludes world between outcome outcome')
    (exact : between.exact) (unfinished : ∀ value, outcome ≠ .finished value) :
    outcome = outcome' := by
  cases concludes with
  | finished values => exact absurd rfl (unfinished _)
  | failed faults named positions =>
      rw [RuntimeError.eq_of_parts faults (positions exact)]
  | crashed imported faults crashes => rw [crashes exact]

end Correspondence

theorem Outcome.ofStop_ne_finished (stop : Stop) (value : Value) :
    ofStop stop ≠ .finished value := by
  cases stop <;> exact nofun

namespace Machine

open Correspondence

theorem Sound.continued {machine : Machine} (sound : machine.Sound) :
    (Correspondence.continued machine.output).Machines { machine with output := "" } machine where
  added _ := ⟨trivial, rfl⟩
  frame id _ := by
    have frames : itself.Frames (machine.frame id) (machine.frame id) := sound.frame id trivial
    exact frames.imp (fun _ => trivial) fun _ _ => ⟨trivial, rfl⟩
  running := rfl
  output := ⟨"", rfl, String.append_empty.symm⟩

theorem output_exited (machine : Machine) (sourcePath : Option String) :
    (machine.exited sourcePath).output = machine.output := by
  cases sourcePath <;> rfl

theorem frames_exited (machine : Machine) (sourcePath : Option String) :
    (machine.exited sourcePath).frames = machine.frames := by
  cases sourcePath <;> rfl

theorem Extends.exited {before after : Machine} {count : Nat} (kept : before.Extends count after)
    (sourcePath : Option String) :
    (before.exited sourcePath).Extends count (after.exited sourcePath) := by
  cases sourcePath <;> exact ⟨kept.size, kept.frame⟩

theorem modifyFrame_eq_self {machine : Machine} {id : FrameId} {change : Frame → Frame}
    (same : change (machine.frame id) = machine.frame id) :
    machine.modifyFrame id change = machine := by
  have frames : machine.frames.modify id change = machine.frames := by
    refine Array.ext Array.size_modify fun other inside inside' => ?_
    rw [Array.getElem_modify]
    split
    · next isOther =>
      subst isOther
      simpa [frame, inside'] using same
    · rfl
  rw [modifyFrame, frames]

/-- The session goes on where a run has ended as the run itself would, but with nothing printed. -/
theorem entered_exited {machine rest : Machine} (world : World) (sourcePath : Option String)
    (becomes : (machine.entered world sourcePath).Becomes rest)
    (inside : topFrame < machine.frames.size) :
    (rest.exited sourcePath).entered world sourcePath = { rest with output := "" } := by
  cases sourcePath with
  | none => rfl
  | some path =>
      have running : rest.running = world.files.realPath path :: machine.running :=
        becomes.running_eq
      have named : (rest.frame topFrame).sourcePath = some path := by
        refine (becomes.grows.sourcePath topFrame ?_).trans ?_
        · exact Nat.lt_of_lt_of_le inside (machine.shapes_entered world (some path)).size
        · exact congrArg Frame.sourcePath
            ((frame_modify { machine with output := "" } topFrame topFrame _ inside).trans
              (if_pos rfl))
      let left : Machine := { rest with running := machine.running, output := "" }
      have isLeft : { rest.exited (some path) with output := "" } = left := by
        rw [exited, running]
        rfl
      have kept : left.modifyFrame topFrame (fun frame => { frame with sourcePath := some path }) =
          left := by
        refine modifyFrame_eq_self ?_
        change { rest.frame topFrame with sourcePath := some path } = rest.frame topFrame
        rw [← named]
      rw [entered, prepare, isLeft, kept, ← running]

theorem Sound.entered {machine : Machine} (sound : machine.Sound) (world : World)
    (sourcePath : Option String) : (machine.entered world sourcePath).Sound := by
  cases sourcePath with
  | none => exact sound.prepare none
  | some path => exact (sound.prepare (some path)).withRunning _

theorem Sound.runProgram {machine rest : Machine} (sound : machine.Sound) {world : World}
    {program : Program} (formed : program.WellFormed) {value : Value}
    (ran : runProgram world program machine = .ok value rest) : rest.Sound := by
  have runs : Runs world itself itself.Values _ _ :=
    runProgram_runs trivial rfl (fun _ => rfl) (forall₂_alike_self formed itself.exact)
  have ends := runs _ _ sound
  rw [ran] at ends
  cases ends with
  | ok values machines => exact machines

/-- A statement that stops a run stops one of its own that goes on where the statements before it
have ended. -/
theorem execute_statement {world : World} {machine rest done : Machine} (sound : machine.Sound)
    {sourcePath : Option String}
    (entered : done.entered world sourcePath = { machine with output := "" }) {stmt : Stmt}
    (formed : stmt.WellFormed) {stop : Stop}
    (failed : evaluate world world.evaluationLimit topFrame (.stmt stmt) machine = .error stop rest)
    (position : Position) :
    let last := done.execute world ⟨position, [stmt]⟩ sourcePath
    last.1 = .ofStop (stop.blame ⟨position, .program⟩) ∧
      rest.output = machine.output ++ last.2.output := by
  have here : Machine.runProgram world ⟨position, [stmt]⟩ machine =
      .error (stop.blame ⟨position, .program⟩) rest := by
    have stopped : Eval.statements (evaluate world world.evaluationLimit) topFrame [stmt] .nil
        machine = .error stop rest := Eval.bind_error failed
    exact Eval.located_error stopped _
  have alike := forall₂_alike_self (List.forall_mem_singleton.mpr formed)
    (Correspondence.continued machine.output).exact
  have runs : Runs world (Correspondence.continued machine.output)
      (Correspondence.continued machine.output).Values (Machine.runProgram world ⟨position, [stmt]⟩)
      (Machine.runProgram world ⟨position, [stmt]⟩) :=
    runProgram_runs trivial rfl (fun _ => rfl) alike
  have ends := runs _ _ sound.continued
  rw [here] at ends
  intro last
  have isLast : last = done.execute world ⟨position, [stmt]⟩ sourcePath := rfl
  rw [execute_eq, entered] at isLast
  generalize Machine.runProgram world ⟨position, [stmt]⟩ { machine with output := "" } = result
    at ends isLast
  cases ends with
  | error stops machines =>
      rw [isLast]
      refine ⟨stops.concludes.eq_of_exact trivial (Outcome.ofStop_ne_finished _), ?_⟩
      rw [output_exited]
      exact machines.output_continued

/-- A run of statements at known positions that does not finish leaves what the statements before
the one that stops leave. -/
theorem execute_failed (world : World) {machine : Machine} (sound : machine.Sound)
    (inside : topFrame < machine.frames.size) {program : Program} (formed : program.WellFormed)
    (known : ∀ stmt ∈ program.statements, stmt.position.IsKnown) (sourcePath : Option String)
    (unfinished : ∀ value, (machine.execute world program sourcePath).1 ≠ .finished value) :
    ∃ before stmt after, program.statements = before ++ stmt :: after ∧ ∀ position,
      let ran := machine.execute world program sourcePath
      let done := machine.execute world ⟨position, before⟩ sourcePath
      let last := done.2.execute world ⟨position, [stmt]⟩ sourcePath
      (∃ value, done.1 = .finished value) ∧ last.1 = ran.1 ∧
        done.2.Extends done.2.frames.size ran.2 ∧
        ran.2.output = done.2.output ++ last.2.output := by
  have isRun := machine.execute_eq world program sourcePath
  cases ran : Machine.runProgram world program (machine.entered world sourcePath) with
  | ok value rest =>
      rw [ran] at isRun
      exact absurd (congrArg Prod.fst isRun) (unfinished value)
  | error blamed rest =>
      obtain ⟨stop, stopped, rfl⟩ := Eval.stop_of_located ran
      obtain ⟨before, stmt, after, value, reached, parts, given, failed⟩ :=
        Eval.statements_split stopped
      have member : stmt ∈ program.statements := by simp [parts]
      have isKnown : (Phrase.stmt stmt).position.IsKnown := known stmt member
      rw [ran] at isRun
      refine ⟨before, stmt, after, parts, fun position => ?_⟩
      have isBefore : Machine.runProgram world ⟨position, before⟩
          (machine.entered world sourcePath) = .ok value reached := by
        rw [Machine.runProgram, Eval.located, given]
      have isDone := machine.execute_eq world ⟨position, before⟩ sourcePath
      rw [isBefore] at isDone
      have formedBefore : Program.WellFormed ⟨position, before⟩ := fun stmt member =>
        formed stmt (by simp [parts, member])
      have becomes : (machine.entered world sourcePath).Becomes reached := by
        have changes := Eval.statements_changes (evaluate_changes world world.evaluationLimit)
          topFrame before .nil (machine.entered world sourcePath)
        rwa [given] at changes
      have isLast := execute_statement ((sound.entered world sourcePath).runProgram formedBefore
        isBefore) (entered_exited world sourcePath becomes inside) (formed stmt member)
        failed position
      rw [Program.site, Eval.blame_of_error isKnown failed _ position] at isRun
      rw [isRun, isDone]
      have kept := (Eval.extends_of_stmt_error failed).exited sourcePath
      rw [← frames_exited reached sourcePath] at kept
      refine ⟨⟨value, rfl⟩, isLast.1, kept, ?_⟩
      change (rest.exited sourcePath).output = (reached.exited sourcePath).output ++ _
      rw [output_exited, output_exited]
      exact isLast.2

/-- A run of an accepted program that does not finish stops in one of its statements. Running the
statements before that one alone finishes, and leaves all frames as the whole run does: the same
names bound to the same values in the same order. Running the failing statement alone from there
ends in the same way, and the whole run prints what the two print one after the other. -/
theorem run_failed (world : World) {machine : Machine} (reached : machine.Reachable)
    {source : String} {parsed : Parsed}
    (accepted : Program.ofSource source world.nestingLimit = .ok parsed)
    (clean : parsed.diagnostics = []) (sourcePath : Option String)
    (unfinished : ∀ value, (machine.run world source sourcePath).1 ≠ .finished value) :
    ∃ before stmt after, parsed.program.statements = before ++ stmt :: after ∧ ∀ position,
      let ran := machine.run world source sourcePath
      let done := machine.execute world ⟨position, before⟩ sourcePath
      let last := done.2.execute world ⟨position, [stmt]⟩ sourcePath
      (∃ value, done.1 = .finished value) ∧ last.1 = ran.1 ∧
        ran.2.frame topFrame = done.2.frame topFrame ∧
        done.2.Extends done.2.frames.size ran.2 ∧
        ran.2.output = done.2.output ++ last.2.output := by
  have known : ∀ stmt ∈ parsed.program.statements, stmt.position.IsKnown := by
    intro stmt member
    have inside := parsed.program.in_tree _ (List.mem_map_of_mem member)
    rw [← stmt.tree_position]
    exact Program.ofSource_known accepted clean _ inside
  have isRun := run_eq_execute accepted clean sourcePath machine
  rw [isRun] at unfinished ⊢
  obtain ⟨before, stmt, after, parts, ends⟩ := execute_failed world reached.sound
    reached.topLevel.head_lt (Program.wellFormed_of_ofSource accepted) known sourcePath
    unfinished
  refine ⟨before, stmt, after, parts, fun position => ?_⟩
  obtain ⟨finished, same, kept, printed⟩ := ends position
  refine ⟨finished, same, kept.frame topFrame ?_, kept, printed⟩
  exact Nat.lt_of_lt_of_le reached.topLevel.head_lt (machine.shapes_execute world _ sourcePath).size

/-- In a session in which a name is bound, a `let` of the same name fails after something has been
printed. -/
theorem run_failed_rebinding :
    let world : World := { files := ⟨[], []⟩, searchPath := [] }
    let machine := ((Machine.start none).run world "let x = 1;" none).2
    let source := "puts(x); let x = 1 / 0; puts(2);"
    let ran := machine.run world source none
    ran.1 = .failed ⟨.arithmetic .divisionByZero, some ⟨1, 20⟩⟩ ∧
      ∃ parsed before stmt after, Program.ofSource source = .ok parsed ∧ parsed.diagnostics = [] ∧
        parsed.program.statements = before ++ stmt :: after ∧
        let done := machine.execute world ⟨⟨1, 1⟩, before⟩ none
        let last := done.2.execute world ⟨⟨1, 1⟩, [stmt]⟩ none
        last.1 = ran.1 ∧ ran.2.frame topFrame = done.2.frame topFrame ∧
          ran.2.output = done.2.output ++ last.2.output := by
  intro world machine source ran
  have failed : ran.1 = .failed ⟨.arithmetic .divisionByZero, some ⟨1, 20⟩⟩ :=
    Outcome.of_error? (by decide +kernel)
  obtain ⟨parsed, accepted, clean⟩ :
      ∃ parsed, Program.ofSource source = .ok parsed ∧ parsed.diagnostics = [] := by
    dsimp only [source]
    exact ⟨_, rfl, rfl⟩
  have reached : machine.Reachable := .run (.start none) world "let x = 1;" none
  have unfinished : ∀ value, ran.1 ≠ .finished value := by
    intro value finished
    rw [failed] at finished
    cases finished
  obtain ⟨before, stmt, after, parts, ends⟩ :=
    run_failed world reached accepted clean none unfinished
  obtain ⟨-, same, kept, -, printed⟩ := ends ⟨1, 1⟩
  exact ⟨failed, parsed, before, stmt, after, accepted, clean, parts, same, kept, printed⟩

end Machine

end Monkey
