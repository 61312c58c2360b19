import Monkey.Prompt.Loop
import Monkey.Proofs.Eval.Changes
import Monkey.Proofs.Session.Accepted

/-!
# The prompt, entry by entry

A prompt answers one entry after the other, so what it prints for some entries and then for others
is what it prints for the former, followed by what it prints for the latter from the state that the
former leave. What an entry can do to that state is said here once. No file is running between two
entries: one is running only while its own top level is.
-/

set_option autoImplicit false

namespace Monkey

namespace Machine

/-- In the top frame, a run is that of a session whose code belongs to no file. -/
theorem runIn_topFrame (world : World) (source : String) (machine : Machine) :
    machine.runIn world source topFrame = machine.run world source none := by
  unfold runIn run
  cases Program.ofSource source world.nestingLimit with
  | error numeral => rfl
  | ok parsed =>
      dsimp only
      cases parsed.diagnostics <;> rfl

theorem running_executeIn (world : World) (program : Program) (frame : FrameId)
    (machine : Machine) :
    (machine.executeIn world program frame).2.running = machine.running := by
  have changes : (Eval.located program.site (Eval.statements
      (evaluate world world.evaluationLimit) frame program.statements .nil)).Changes :=
    (Eval.statements_changes (evaluate_changes world world.evaluationLimit) frame _ _).located _
  have kept := (changes { machine with output := "" }).running_eq
  unfold executeIn
  dsimp only
  generalize Eval.located program.site _ { machine with output := "" } = result at kept ⊢
  cases result <;> exact kept

theorem running_runIn (world : World) (source : String) (frame : FrameId) (machine : Machine) :
    (machine.runIn world source frame).2.running = machine.running := by
  unfold runIn
  split
  · rfl
  split
  · exact running_executeIn world _ frame machine
  · rfl

end Machine

namespace Prompt

/-- The state that some entries leave a prompt in. -/
def State.after (world : World) (state : State) (entries : List (Option String)) : State :=
  entries.foldl (fun state entry => (answer world state entry).1) state

section Lists

variable (world : World) (state : State)

@[simp] theorem State.after_nil : state.after world [] = state := rfl

@[simp] theorem State.after_cons (entry : Option String) (rest : List (Option String)) :
    state.after world (entry :: rest) = (answer world state entry).1.after world rest :=
  rfl

theorem State.after_append (first second : List (Option String)) :
    state.after world (first ++ second) = (state.after world first).after world second :=
  List.foldl_append

@[simp] theorem answers_nil : answers world state [] = [] := rfl

@[simp] theorem answers_cons (entry : Option String) (rest : List (Option String)) :
    answers world state (entry :: rest) =
      (answer world state entry).2 :: answers world (answer world state entry).1 rest :=
  rfl

theorem answers_append (first second : List (Option String)) :
    answers world state (first ++ second) =
      answers world state first ++ answers world (state.after world first) second := by
  induction first generalizing state with
  | nil => rfl
  | cons entry rest ih =>
      simp only [List.cons_append, answers_cons, State.after_cons]
      rw [ih]

end Lists

/-! ## What an entry does -/

/-- The text of an entry has nothing in it but blanks. -/
def IsBlank (text : String) : Prop := Text.trimBlank text.toList = []

instance (text : String) : Decidable (IsBlank text) :=
  inferInstanceAs (Decidable (Text.trimBlank text.toList = []))

section Entries

variable (world : World) (state : State) {entry : String}

theorem answer_blank (blank : IsBlank (normalize entry)) :
    answer world state (some entry) = (state, .nothing) :=
  if_pos (List.isEmpty_iff.mpr blank)

theorem answer_command {line : CommandLine} (filled : ¬IsBlank (normalize entry))
    (isCommand : commandLine? (normalize entry) = some line) :
    answer world state (some entry) = obey state line := by
  have notBlank := mt List.isEmpty_iff.mp filled
  simp only [answer, submit, if_neg notBlank, isCommand]

theorem answer_text (filled : ¬IsBlank (normalize entry))
    (isText : commandLine? (normalize entry) = none) :
    answer world state (some entry) =
      ({ state with machine := (state.machine.runIn world (normalize entry) state.frame).2 },
        printOutcome (reportCrash world state.traceback)
          (state.machine.runIn world (normalize entry) state.frame).1
          (state.machine.runIn world (normalize entry) state.frame).2.output) := by
  have notBlank := mt List.isEmpty_iff.mp filled
  simp only [answer, submit, if_neg notBlank, isText]

theorem answer_reset :
    answer world state (some "/reset") = (state.reset, .outLine "Environment reset.") :=
  rfl

end Entries

/-! ## Running files -/

theorem running_obey (state : State) (line : CommandLine) :
    (obey state line).1.machine.running = state.machine.running := by
  unfold obey
  split
  · rfl
  · unfold switchTraceback
    cases Switch.ofArgument? line.argument <;> rfl
  · rfl
  · rfl

theorem running_answer (world : World) (state : State) (entry : Option String) :
    (answer world state entry).1.machine.running = state.machine.running := by
  cases entry with
  | none => rfl
  | some entry =>
      by_cases blank : IsBlank (normalize entry)
      · rw [answer_blank world state blank]
      cases isCommand : commandLine? (normalize entry) with
      | some line =>
          rw [answer_command world state blank isCommand]
          exact running_obey state line
      | none =>
          rw [answer_text world state blank isCommand]
          exact state.machine.running_runIn world (normalize entry) state.frame

theorem running_after (world : World) (state : State) (entries : List (Option String)) :
    (state.after world entries).machine.running = state.machine.running := by
  induction entries generalizing state with
  | nil => rfl
  | cons entry rest ih => exact (ih _).trans (running_answer world state entry)

end Prompt

end Monkey
