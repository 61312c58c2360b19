import Monkey.Proofs.Prompt.Answers
import Monkey.Proofs.Session.Failure

/-!
# What a reset forgets

A reset gives the prompt a new frame on the machine that it has. The frames made before stay there,
but nothing in the new one refers to them, so entries run in it as they do in the top frame of a
machine of their own whose frames are numbered from zero. Nothing else outlives an entry that could
tell the two apart: no file is left running, and the text that has been printed is printed once.
Where both crash, they do so at the same activities, so a trace of the crash reads the same.
-/

set_option autoImplicit false

namespace Monkey

/-- The comparison of a session with one whose frames come after some others. -/
def Correspondence.shifted (count : Nat) : Correspondence where
  exact := True
  covers _ := True
  rename id := count + id
  increasing before := Nat.add_lt_add_left before _
  printed := ""
  printed' := ""

namespace Correspondence

variable {world : World} {count : Nat} {machine machine' : Machine}

/-- A new frame at the end of a machine stands for the top frame of a machine of its own. -/
theorem Machines.ofNew (idle : machine.running = []) :
    (shifted machine.frames.size).Machines (.start none)
      { machine with frames := machine.frames.push ⟨[], [], false, none⟩, output := "" } := by
  have empty : (shifted machine.frames.size).Machines ⟨#[], "", machine.running⟩
      { machine with output := "" } :=
    .ofEmpty { machine with output := "" } (fun _ => ⟨trivial, rfl⟩) rfl rfl
  have isStart : Machine.start none = ⟨#[].push default, "", machine.running⟩ := by
    rw [idle]
    rfl
  rw [isStart]
  exact empty.push Frames.default

theorem Machines.output_shifted (machines : (shifted count).Machines machine machine') :
    machine.output = machine'.output := by
  obtain ⟨text, output, output'⟩ := machines.output
  exact output.trans output'.symm

theorem Machines.silenced (machines : (shifted count).Machines machine machine') :
    (shifted count).Machines { machine with output := "" } { machine' with output := "" } :=
  ⟨machines.added, machines.frame, machines.running, "", rfl, rfl⟩

theorem Values.result?_eq {between : Correspondence} {value value' : Value}
    (values : between.Values value value') :
    Outcome.result? (.finished value) = Outcome.result? (.finished value') := by
  have shown := values.display_eq
  cases values with
  | nil => rfl
  | _ => exact congrArg some shown

/-- What is printed of an outcome tells nothing of the frames that functions refer to. -/
theorem Concludes.printOutcome_eq {between : Correspondence} {outcome outcome' : Outcome}
    (concludes : Concludes world between outcome outcome') (exact : between.exact)
    (report : Crash → String) (output : String) :
    Prompt.printOutcome report outcome output = Prompt.printOutcome report outcome' output := by
  cases concludes with
  | finished values =>
      unfold Prompt.printOutcome
      simp only [values.result?_eq, Outcome.errorLines]
  | failed faults named positions => rw [RuntimeError.eq_of_parts faults (positions exact)]
  | crashed imported faults crashes => rw [crashes exact]

end Correspondence

namespace Machine

open Correspondence

variable {count : Nat} {machine machine' : Machine}

theorem executeIn_shifted
    (machines : (shifted count).Machines { machine with output := "" }
      { machine' with output := "" })
    (world : World) {program : Program} (formed : program.WellFormed) (frame : FrameId) :
    let ran := machine.executeIn world program frame
    let ran' := machine'.executeIn world program (count + frame)
    Concludes world (shifted count) ran.1 ran'.1 ∧ (shifted count).Machines ran.2 ran'.2 := by
  have covered : (shifted count).covers frame := trivial
  have runs : Runs world (shifted count) (shifted count).Values
      (Eval.located program.site
        (Eval.statements (evaluate world world.evaluationLimit) frame program.statements .nil))
      (Eval.located program.site
        (Eval.statements (evaluate world world.evaluationLimit) (count + frame) program.statements
          .nil)) :=
    (statements_runs (evaluate_respects world world.evaluationLimit (shifted count)) covered
      (forall₂_alike_self formed _) .nil).located fun _ => rfl
  have ends := runs _ _ machines
  unfold executeIn
  dsimp only
  generalize Eval.located program.site _ { machine with output := "" } = result,
    Eval.located program.site _ { machine' with output := "" } = result' at ends ⊢
  cases ends with
  | ok values machines => exact ⟨.finished values, machines⟩
  | error stops machines => exact ⟨stops.concludes, machines⟩

/-- A source text prints the same in frames that stand for each other. -/
theorem runIn_shifted
    (machines : (shifted count).Machines { machine with output := "" }
      { machine' with output := "" })
    (world : World) (report : Crash → String) (source : String) (frame : FrameId) :
    let ran := machine.runIn world source frame
    let ran' := machine'.runIn world source (count + frame)
    Prompt.printOutcome report ran.1 ran.2.output =
        Prompt.printOutcome report ran'.1 ran'.2.output ∧
      (shifted count).Machines ran.2 ran'.2 := by
  unfold runIn
  cases read : Program.ofSource source world.nestingLimit with
  | error numeral => exact ⟨rfl, machines⟩
  | ok parsed =>
      cases found : parsed.diagnostics with
      | cons first others =>
          simp only [found]
          exact ⟨trivial, machines⟩
      | nil =>
          simp only [found]
          obtain ⟨concludes, kept⟩ :=
            executeIn_shifted machines world (Program.wellFormed_of_ofSource read) frame
          rw [← kept.output_shifted]
          exact ⟨concludes.printOutcome_eq trivial report _, kept⟩

end Machine

namespace Prompt

open Correspondence

/-- Two prompts of which the second has made more frames, out of reach of the code it will run. -/
structure State.Resembles (count : Nat) (state state' : State) : Prop where
  machines : (shifted count).Machines { state.machine with output := "" }
    { state'.machine with output := "" }
  frame : state'.frame = count + state.frame
  traceback : state'.traceback = state.traceback

variable {count : Nat} {state state' : State}

namespace State.Resembles

theorem reset (resembles : state.Resembles count state') :
    state.reset.Resembles count state'.reset where
  machines := resembles.machines.push Frames.default
  frame := resembles.machines.rename_new.symm
  traceback := resembles.traceback

/-- A prompt after a reset resembles a new one. -/
theorem ofReset (idle : state.machine.running = []) :
    (State.initial state.traceback).Resembles state.machine.frames.size state.reset :=
  ⟨.ofNew idle, rfl, rfl⟩

theorem obey (resembles : state.Resembles count state') (line : CommandLine) :
    (Prompt.obey state line).2 = (Prompt.obey state' line).2 ∧
      (Prompt.obey state line).1.Resembles count (Prompt.obey state' line).1 := by
  unfold Prompt.obey
  cases Command.ofName? line.name with
  | none => exact ⟨rfl, resembles⟩
  | some command =>
      cases command with
      | clear => exact ⟨rfl, resembles⟩
      | reset => exact ⟨rfl, resembles.reset⟩
      | traceback =>
          dsimp only
          unfold switchTraceback
          rw [resembles.traceback]
          cases Switch.ofArgument? line.argument with
          | none => exact ⟨rfl, resembles⟩
          | some switch => exact ⟨rfl, resembles.machines, resembles.frame, rfl⟩

theorem run (resembles : state.Resembles count state') (world : World) (source : String) :
    let ran := state.machine.runIn world source state.frame
    let ran' := state'.machine.runIn world source state'.frame
    printOutcome (reportCrash world state.traceback) ran.1 ran.2.output =
        printOutcome (reportCrash world state'.traceback) ran'.1 ran'.2.output ∧
      State.Resembles count { state with machine := ran.2 } { state' with machine := ran'.2 } := by
  rw [resembles.frame, resembles.traceback]
  intro ran ran'
  obtain ⟨same, machines⟩ := Machine.runIn_shifted resembles.machines world
    (reportCrash world state.traceback) source state.frame
  constructor
  · exact same
  · exact { machines := machines.silenced, frame := rfl, traceback := rfl }

/-- One entry prints the same at both prompts, and they resemble each other afterwards. -/
theorem answer (resembles : state.Resembles count state') (world : World)
    (entry : Option String) :
    (Prompt.answer world state entry).2 = (Prompt.answer world state' entry).2 ∧
      (Prompt.answer world state entry).1.Resembles count (Prompt.answer world state' entry).1 := by
  cases entry with
  | none => exact ⟨rfl, resembles⟩
  | some entry =>
      by_cases blank : IsBlank (normalize entry)
      · rw [answer_blank world state blank, answer_blank world state' blank]
        exact ⟨rfl, resembles⟩
      cases isCommand : commandLine? (normalize entry) with
      | some line =>
          rw [answer_command world state blank isCommand,
            answer_command world state' blank isCommand]
          exact resembles.obey line
      | none =>
          rw [answer_text world state blank isCommand, answer_text world state' blank isCommand]
          dsimp only
          exact resembles.run world (normalize entry)

theorem answers_eq (resembles : state.Resembles count state') (world : World)
    (entries : List (Option String)) :
    answers world state entries = answers world state' entries := by
  induction entries generalizing state state' with
  | nil => rfl
  | cons entry rest ih =>
      obtain ⟨same, kept⟩ := resembles.answer world entry
      rw [answers_cons, answers_cons, same, ih kept]

end State.Resembles

/-- After a reset, a prompt prints for any entries what a new prompt prints for them whose failures
are traced or not as they are at the reset: whatever has been entered before, with whatever files
around, and however it ended. So in the whole of what a prompt prints, what follows the answer to a
reset is what follows the greeting of a new prompt. -/
theorem answers_after_reset (world : World) (traceback : Bool)
    (history later : List (Option String)) :
    (∀ earlier : World,
      let state := (State.initial traceback).after earlier (history ++ [some "/reset"])
      answers world state later = answers world (.initial state.traceback) later) ∧
    let state := (State.initial traceback).after world (history ++ [some "/reset"])
    converse world traceback (history ++ some "/reset" :: later) =
      greeting :: answers world (.initial traceback) (history ++ [some "/reset"]) ++
        (converse world state.traceback later).tail := by
  have forgotten : ∀ earlier : World,
      let state := (State.initial traceback).after earlier (history ++ [some "/reset"])
      answers world state later = answers world (.initial state.traceback) later := by
    intro earlier state
    have isReset : state = ((State.initial traceback).after earlier history).reset := by
      simp only [state, State.after_append, State.after_cons, State.after_nil, answer_reset]
    have idle : ((State.initial traceback).after earlier history).machine.running = [] :=
      running_after earlier _ history
    rw [isReset]
    exact ((State.Resembles.ofReset idle).answers_eq world later).symm
  refine ⟨forgotten, ?_⟩
  intro state
  have split : history ++ some "/reset" :: later = (history ++ [some "/reset"]) ++ later := by
    simp
  unfold converse
  rw [split, answers_append, forgotten world]
  simp only [List.cons_append, List.append_assoc, List.tail_cons, state]

end Prompt

end Monkey
