import Monkey.Proofs.Eval.Views
import Monkey.Proofs.File.RealPath
import Monkey.Proofs.Session.Returns

/-!
# Importing a file is running it

An import runs a file in a new frame of the machine it is made on, with what is left of the depth
there, and a run of the same text starts on a machine of its own with all of the depth. Where
neither runs out of it, the depth does not matter, and the two machines differ in where the new
frames are: they come after those there are. So both print the same and end in the same way, and
what the file is imported as has the bindings of the top frame of the run, or else the import fails
with a fault that tells how the run ended.
-/

set_option autoImplicit false

namespace Monkey

/-- A machine on which nothing has been run, while files are running elsewhere. -/
def Machine.fresh (running : List RealPath) : Machine := { Machine.start none with running }

/-- The comparison of a run on a machine of its own with one whose frames come after those of
another machine, and whose output comes after its output. -/
def Correspondence.after (machine : Machine) : Correspondence where
  exact := True
  covers _ := True
  rename id := machine.frames.size + id
  increasing before := Nat.add_lt_add_left before _
  printed := ""
  printed' := machine.output

theorem Eval.call_importFile (world : World) (inner : Evaluator) (frame : FrameId) (path : String) :
    call world inner frame (.builtin .importFile) [.string path] =
      importFile world inner frame path :=
  rfl

namespace Correspondence

open Machine

theorem after_machines (world : World) (machine : Machine) {real : RealPath}
    (isReal : world.files.realPath (Path.ofNames real) = real) :
    (after machine).Machines
      ((fresh machine.running).entered world (some (Path.ofNames real)))
      (machine.withModule real) := by
  have entered : (fresh machine.running).entered world (some (Path.ofNames real)) =
      ⟨#[⟨[], [], false, some (Path.ofNames real)⟩], "",
        world.files.realPath (Path.ofNames real) :: machine.running⟩ := rfl
  rw [entered, isReal]
  have empty : (after machine).Machines ⟨#[], "", real :: machine.running⟩
      { machine with running := real :: machine.running } :=
    .ofEmpty { machine with running := real :: machine.running } (fun _ => ⟨trivial, rfl⟩) rfl rfl
  exact empty.push ⟨fun _ member => absurd member List.not_mem_nil, rfl, .nil, rfl, rfl⟩

theorem Machines.output_after {machine here there : Machine}
    (machines : (after machine).Machines here there) :
    there.output = machine.output ++ here.output := by
  obtain ⟨text, output, output'⟩ := machines.output
  rw [output, output']
  simp [after]

end Correspondence

namespace Machine

open Correspondence

/-- How importing a file on a machine ends, compared with running it on a machine of its own. -/
inductive Agrees (machine : Machine) (path : String) :
    EStateM.Result Stop Machine Value → Outcome × Machine → Prop
  | finished {bindings : List (String × Value)} {value : Value} {rest rest' : Machine}
      (held : (after machine).Bindings (rest.frame topFrame).bindings bindings)
      (frames : ∀ id, (after machine).Frames (rest.frame id)
        (rest'.frame (machine.frames.size + id)))
      (output : rest'.output = machine.output ++ rest.output) :
      Agrees machine path (.ok (.hash (bindings.map fun entry => (.string entry.1, entry.2))) rest')
        (.finished value, rest)
  | rejected {first : Diagnostic} {others : List Diagnostic} {rest : Machine}
      (output : rest.output = "") :
      Agrees machine path (.error (.error ⟨.importing path (.rejected first), none⟩) machine)
        (.rejected (first :: others), rest)
  | failed {error : RuntimeError} {rest rest' : Machine}
      (output : rest'.output = machine.output ++ rest.output) :
      Agrees machine path (.error (.error ⟨.importing path (.failed error.report), none⟩) rest')
        (.failed error, rest)
  | crashed {crash : Crash} {rest rest' : Machine}
      (output : rest'.output = machine.output ++ rest.output) :
      Agrees machine path (.error (.numeral crash) rest') (.crashed crash, rest)

section Conclusions

variable {machine : Machine} {path : String} {imported : EStateM.Result Stop Machine Value}
  {ran : Outcome × Machine} (agrees : Agrees machine path imported ran)
include agrees

theorem Agrees.ok_iff :
    (∃ value rest, imported = .ok value rest) ↔ ∃ value, ran.1 = .finished value := by
  cases agrees <;> simp

theorem Agrees.of_finished {value : Value} (finished : ran.1 = .finished value) :
    ∃ bindings rest,
      imported = .ok (.hash (bindings.map fun entry => (.string entry.1, entry.2))) rest ∧
      (after machine).Bindings (ran.2.frame topFrame).bindings bindings ∧
      ∀ id, (after machine).Frames (ran.2.frame id) (rest.frame (machine.frames.size + id)) := by
  cases agrees with
  | finished held frames output => exact ⟨_, _, rfl, held, frames⟩
  | _ => cases finished

theorem Agrees.of_rejected {first : Diagnostic} {others : List Diagnostic}
    (rejected : ran.1 = .rejected (first :: others)) :
    ∃ fault rest, imported = .error (.error ⟨fault, none⟩) rest ∧ fault.kind = "ImportError" ∧
      fault.message = "cannot import '" ++ path ++ "': " ++ first.text := by
  cases agrees with
  | rejected =>
      cases rejected
      exact ⟨_, _, rfl, rfl, rfl⟩
  | _ => cases rejected

theorem Agrees.of_failed {error : RuntimeError} (failed : ran.1 = .failed error) :
    ∃ fault rest, imported = .error (.error ⟨fault, none⟩) rest ∧ fault.kind = "ImportError" ∧
      fault.message = "error while evaluating '" ++ path ++ "': " ++ error.report := by
  cases agrees with
  | failed =>
      cases failed
      exact ⟨_, _, rfl, rfl, rfl⟩
  | _ => cases failed

theorem Agrees.output_eq : (Eval.ended imported).output = machine.output ++ ran.2.output := by
  cases agrees with
  | rejected output =>
      rw [output]
      exact String.append_empty.symm
  | finished _ _ output | failed output | crashed output => exact output

end Conclusions

variable {world : World} {machine : Machine} {limit : Nat} {real : RealPath} {path : String}
  {program : Program}

/-- The statements of an imported file end as those of a run of its text do, where neither runs out
of depth. -/
theorem statements_end (isReal : world.files.realPath (Path.ofNames real) = real)
    (formed : program.WellFormed)
    (fathomsRun : ∀ rest, Eval.statements (evaluate world world.evaluationLimit) topFrame
      program.statements .nil ((fresh machine.running).entered world (some (Path.ofNames real))) ≠
        .error .tooDeep rest)
    (fathoms : ∀ rest, Eval.statements (evaluate world limit) machine.frames.size
      program.statements .nil (machine.withModule real) ≠ .error .tooDeep rest) :
    Ends world (after machine) (after machine).Values
      (Eval.statements (evaluate world world.evaluationLimit) topFrame program.statements .nil
        ((fresh machine.running).entered world (some (Path.ofNames real))))
      (Eval.statements (evaluate world limit) machine.frames.size program.statements .nil
        (machine.withModule real)) := by
  -- Both go on as they would with as much depth as either has.
  have deep := Eval.statements_deeper fathomsRun (Nat.le_max_right limit world.evaluationLimit)
  have shallow := Eval.statements_deeper fathoms (Nat.le_max_left limit world.evaluationLimit)
  have top : (after machine).covers topFrame := trivial
  have respects := evaluate_respects world (max limit world.evaluationLimit) (after machine)
  have runs := statements_runs respects top (forall₂_alike_self formed _) .nil
  have ends := runs _ _ (after_machines world machine isReal)
  have renamed : (after machine).rename topFrame = machine.frames.size := Nat.add_zero _
  rwa [renamed, deep, shallow] at ends

theorem Agrees.runModule (isReal : world.files.realPath (Path.ofNames real) = real)
    (formed : program.WellFormed)
    (fathoms : ∀ rest, Eval.runModule (evaluate world limit) real path program machine ≠
      .error .tooDeep rest)
    (fathomsRun : ((fresh machine.running).execute world program (some (Path.ofNames real))).1 ≠
      .failed ⟨.stackOverflow, none⟩) :
    Agrees machine path (Eval.runModule (evaluate world limit) real path program machine)
      ((fresh machine.running).execute world program (some (Path.ofNames real))) := by
  rw [execute_eq, runProgram] at fathomsRun ⊢
  rw [Eval.runModule_eq] at fathoms ⊢
  have ends := statements_end isReal formed
    (fun rest stopped => fathomsRun (by rw [Eval.located_error stopped]; rfl))
    (fun rest stopped => fathoms _ (by rw [stopped]; rfl))
  have silent := Eval.statements_silent (evaluate_disciplined world limit)
    (machine.leads_withModule real) program.statements .nil
  unfold Eval.located at fathomsRun ⊢
  generalize Eval.statements (evaluate world world.evaluationLimit) topFrame program.statements .nil
    ((fresh machine.running).entered world (some (Path.ofNames real))) = ran,
    Eval.statements (evaluate world limit) machine.frames.size program.statements .nil
    (machine.withModule real) = imported at *
  cases ends with
  | ok values machines =>
      have frames := fun id => machines.frame id trivial
      exact .finished (frames topFrame).bindings frames machines.output_after
  | error stops machines =>
      cases stops with
      | error faults named positions =>
          rw [RuntimeError.eq_of_parts faults (positions trivial)]
          exact .failed machines.output_after
      | returned values => exact absurd rfl (silent _ _)
      | tooDeep => exact absurd rfl (fathoms _)
      | numeral _ _ crashes =>
          rw [crashes trivial]
          exact .crashed machines.output_after

/-- What an import does with the text of the file that it has found. -/
def load (inner : Evaluator) (real : RealPath) (path : String) : ModuleText → Eval Value
  | .faulty fault => Eval.fail (.importing path fault)
  | .unreadableNumeral crash => throw (.numeral crash)
  | .program program => Eval.runModule inner real path program

theorem importFile_eq {inner : Evaluator} {frame : FrameId} {content : List UInt8}
    (found : world.resolveImport (machine.frame frame).sourcePath path = some (real, content))
    (free : real ∉ machine.running) :
    Eval.importFile world inner frame path machine =
      load inner real path (ModuleText.ofContent content world.nestingLimit) machine := by
  refine (Eval.bind_ok rfl).trans ?_
  simp only [found]
  rewrite [if_neg (by simpa using free)]
  cases ModuleText.ofContent content world.nestingLimit <;> rfl

theorem Agrees.importFile (coherent : world.files.Coherent) {frame : FrameId}
    {content : List UInt8} {source : String}
    (found : world.resolveImport (machine.frame frame).sourcePath path = some (real, content))
    (readable : Text.fileText content = .ok source) (free : real ∉ machine.running)
    (fathoms : ∀ rest, Eval.importFile world (evaluate world limit) frame path machine ≠
      .error .tooDeep rest)
    (fathomsRun : ((fresh machine.running).run world source (some (Path.ofNames real))).1 ≠
      .failed ⟨.stackOverflow, none⟩) :
    Agrees machine path (Eval.importFile world (evaluate world limit) frame path machine)
      ((fresh machine.running).run world source (some (Path.ofNames real))) := by
  have isReal := World.realPath_of_resolveImport coherent found
  rw [importFile_eq found free] at fathoms ⊢
  unfold ModuleText.ofContent at fathoms ⊢
  rw [readable] at fathoms ⊢
  dsimp only at fathoms ⊢
  cases read : Program.ofSource source world.nestingLimit with
  | error numeral =>
      rw [run, read]
      have same : machine.output = machine.output ++ "" := String.append_empty.symm
      exact .crashed same
  | ok parsed =>
      rw [read] at fathoms
      dsimp only at fathoms ⊢
      cases found : parsed.diagnostics with
      | nil =>
          rw [found] at fathoms
          rw [run_eq_execute read found] at fathomsRun ⊢
          exact .runModule isReal (Program.wellFormed_of_ofSource read) fathoms fathomsRun
      | cons first others =>
          rw [run, read]
          dsimp only
          rw [found]
          exact .rejected rfl

/-- Importing a file that is not running agrees with running its text as a file of its own, unless
one of the two runs out of depth. The import gives a value if and only if the run does: a hash of
what the run has bound in its top frame, under the same names in the same order, with functions that
refer to the same frames elsewhere. Otherwise its fault tells the first diagnostic or the error of
the run. Either way both print the same. -/
theorem import_agrees {world : World} (coherent : world.files.Coherent) {machine : Machine}
    {limit : Nat} {frame : FrameId} {path source : String} {real : RealPath} {content : List UInt8}
    (found : world.resolveImport (machine.frame frame).sourcePath path = some (real, content))
    (readable : Text.fileText content = .ok source) (free : real ∉ machine.running) :
    let imported := Eval.call world (evaluate world limit) frame (.builtin .importFile)
      [.string path] machine
    let ran := (fresh machine.running).run world source (some (Path.ofNames real))
    (∀ rest, imported ≠ .error .tooDeep rest) → ran.1 ≠ .failed ⟨.stackOverflow, none⟩ →
    ((∃ value rest, imported = .ok value rest) ↔ ∃ value, ran.1 = .finished value) ∧
    (∀ value, ran.1 = .finished value → ∃ bindings rest,
      imported = .ok (.hash (bindings.map fun entry => (.string entry.1, entry.2))) rest ∧
      (after machine).Bindings (ran.2.frame topFrame).bindings bindings ∧
      ∀ id, (after machine).Frames (ran.2.frame id) (rest.frame (machine.frames.size + id))) ∧
    (∀ first others, ran.1 = .rejected (first :: others) → ∃ fault rest,
      imported = .error (.error ⟨fault, none⟩) rest ∧ fault.kind = "ImportError" ∧
      fault.message = "cannot import '" ++ path ++ "': " ++ first.text) ∧
    (∀ error, ran.1 = .failed error → ∃ fault rest,
      imported = .error (.error ⟨fault, none⟩) rest ∧ fault.kind = "ImportError" ∧
      fault.message = "error while evaluating '" ++ path ++ "': " ++ error.report) ∧
    (Eval.ended imported).output = machine.output ++ ran.2.output := by
  intro imported ran fathoms fathomsRun
  have isImport : imported = Eval.importFile world (evaluate world limit) frame path machine :=
    congrFun (Eval.call_importFile world (evaluate world limit) frame path) machine
  rw [isImport] at fathoms
  have agrees : Agrees machine path imported ran := by
    rw [isImport]
    exact .importFile coherent found readable free fathoms fathomsRun
  clear fathoms fathomsRun isImport
  clear_value imported ran
  exact ⟨agrees.ok_iff, fun _ => agrees.of_finished, fun _ _ => agrees.of_rejected,
    fun _ => agrees.of_failed, agrees.output_eq⟩

/-- A file that binds a name and prints its value. -/
theorem import_agrees_printing :
    let library : List UInt8 := [108, 101, 116, 32, 120, 32, 61, 32, 49, 59, 32, 112, 117, 116, 115,
      40, 120, 41, 59]
    let world : World := { files := ⟨[], [(["lib"], .file library)]⟩, searchPath := [] }
    let imported := Eval.call world (evaluate world 5) topFrame (.builtin .importFile)
      [.string "/lib"] (Machine.start none)
    let ran := (fresh []).run world "let x = 1; puts(x);" (some (Path.ofNames ["lib"]))
    world.files.Coherent ∧ ran.1 = .finished .nil ∧
      (ran.2.frame topFrame).bindings = [("x", .int 1)] ∧
      ∃ bindings rest,
        imported = .ok (.hash (bindings.map fun entry => (.string entry.1, entry.2))) rest ∧
        (after (Machine.start none)).Bindings (ran.2.frame topFrame).bindings bindings ∧
        (Eval.ended imported).output = ran.2.output := by
  intro library world imported ran
  have coherent : world.files.Coherent := by
    refine ⟨.root, fun path target member => ?_⟩
    cases List.mem_singleton.mp member
  have ends : ran.1 = .finished .nil := rfl
  have fathoms : ∀ rest, imported ≠ .error .tooDeep rest := by
    have given : (Eval.value? imported).isSome = true := by decide +kernel
    intro rest stopped
    rw [stopped] at given
    cases given
  have fathomsRun : ran.1 ≠ .failed ⟨.stackOverflow, none⟩ := by
    rw [ends]
    intro failed
    cases failed
  have found : world.resolveImport ((Machine.start none).frame topFrame).sourcePath "/lib" =
    some (["lib"], library) := rfl
  have readable : Text.fileText library = .ok "let x = 1; puts(x);" := rfl
  obtain ⟨-, finished, -, -, output⟩ :=
    import_agrees coherent found readable List.not_mem_nil fathoms fathomsRun
  obtain ⟨bindings, rest, isOk, held, -⟩ := finished .nil ends
  exact ⟨coherent, ends, rfl, bindings, rest, isOk, held, output.trans String.empty_append⟩

end Machine

end Monkey
