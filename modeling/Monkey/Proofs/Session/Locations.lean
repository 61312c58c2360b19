import Monkey.Proofs.Program.Places
import Monkey.Proofs.Session.Origins

/-!
# Where errors are

Whatever code fails while a program is run, the error is blamed on a node of the program or of a
file that it has imported: on the innermost phrase that was being evaluated, or on the key of a hash
that is no key. What is evaluated around that phrase leaves the error as it is, but for an import of
the file that the phrase is in, which fails with an error of its own that reports the first.
-/

set_option autoImplicit false

namespace Monkey

namespace Eval

variable {inner : Evaluator} {frame : FrameId} {machine rest : Machine}

/-- Statements that stop do so in one of them. -/
theorem exists_of_statements_error {list : List Stmt} {result : Value} {stop : Stop}
    (stopped : statements inner frame list result machine = .error stop rest) :
    ∃ part reached, Sequence inner frame (list.map .stmt) machine part reached ∧
      inner frame part reached = .error stop rest := by
  induction list generalizing machine result with
  | nil => cases stopped
  | cons stmt others ih =>
      rw [statements, bind_apply] at stopped
      cases ran : inner frame (.stmt stmt) machine with
      | error first after =>
          rw [ran] at stopped
          cases stopped
          exact ⟨_, _, .first, ran⟩
      | ok value after =>
          rw [ran] at stopped
          obtain ⟨part, reached, parts, failed⟩ := ih stopped
          exact ⟨part, reached, .later ran parts, failed⟩

theorem error_of_located {α : Type} {run : Eval α} {site : Site} {error : RuntimeError}
    (failed : located site run machine = .error (.error error) rest) :
    ∃ raised, run machine = .error (.error raised) rest ∧ error = raised.blame site.position := by
  obtain ⟨first, ran, isBlamed⟩ := stop_of_located failed
  cases first with
  | error raised =>
      cases isBlamed
      exact ⟨raised, ran, rfl⟩
  | _ => cases isBlamed

end Eval

/-- An error is blamed on something once it has been blamed on a known position. -/
theorem RuntimeError.exists_blamed (error : RuntimeError) {position : Position}
    (known : position.IsKnown) : ∃ blamed, (error.blame position).position = some blamed := by
  unfold blame
  split
  · next blamed held => exact ⟨blamed, held⟩
  · exact ⟨position, by rw [if_pos known]⟩

/-- A part that fails with an error that is blamed on something makes the whole fail with the same
error, or else is in a file that the whole imports, and the whole fails with one that reports it. -/
theorem Part.error_kept {world : World} {whole part : Moment} {error : RuntimeError}
    {position : Position} {rest : Machine} (isPart : Part world whole part)
    (failed : part.result world = .error (.error error) rest)
    (placed : error.position = some position) :
    (∃ rest, whole.result world = .error (.error error) rest) ∨
      ∃ path real program rest, RunsFile world path real program whole part ∧
        whole.result world = .error (.error (RuntimeError.blame
          ⟨.importing path (.failed error.report), none⟩ whole.phrase.position)) rest := by
  have kept := fun later => congrArg Stop.error (RuntimeError.blame_of_placed placed later)
  rcases isPart.ways with nested | ⟨activation, runs⟩ | ⟨path, real, program, runs⟩
  · exact .inl ⟨rest, (nested.stops failed).trans (by rw [Stop.blame, kept])⟩
  · exact .inl ⟨rest, (runs.stops failed nofun).trans (by rw [Stop.blame, kept])⟩
  · have stopped := runs.stops failed
    rw [Stop.imported, RuntimeError.blame_of_placed placed] at stopped
    exact .inr ⟨path, real, program, _, runs, stopped⟩

namespace Machine

section Runs

variable {world : World} {initial sourcePath : Option String} {source : String} {parsed : Parsed}
  (read : Program.ofSource source world.nestingLimit = .ok parsed) (clean : parsed.diagnostics = [])
include read clean

theorem Written.known {origin : Origin} {start : Machine} {moment : Moment}
    {sourcePath : Option String}
    (written : Written world ⟨parsed.program, sourcePath⟩ start origin moment) :
    origin.program.tree.Placed Position.IsKnown := by
  rcases written.isRead with rfl | ⟨real, content, -, text, -⟩
  · exact Program.ofSource_known read clean
  · exact ModuleText.known text

theorem Places.known {start : Machine} {position : Position} {sourcePath : Option String}
    (places : Places world ⟨parsed.program, sourcePath⟩ start position) : position.IsKnown := by
  obtain ⟨origin, moment, node, written, inside, rfl⟩ := places
  exact written.known read clean node inside

/-- An error that comes out of code is blamed on a node of a program that is run. -/
theorem Occurs.located {moment : Moment} {error : RuntimeError} {rest : Machine}
    (occurs : Occurs world parsed.program ((Machine.start initial).entered world sourcePath) moment)
    (isCode : ∀ callee arguments, moment.phrase ≠ .apply callee arguments)
    (failed : moment.result world = .error (.error error) rest) :
    ∃ position, error.position = some position ∧
      Places world ⟨parsed.program, sourcePath.or initial⟩
        ((Machine.start initial).entered world sourcePath) position := by
  have follows := Occurs.follows world initial sourcePath occurs
  obtain ⟨origin, written⟩ := follows.holds
  have known : moment.phrase.position.IsKnown := by
    have inside := written.in_tree
    cases phrase : moment.phrase with
    | expr value =>
        rw [phrase] at inside
        rw [Phrase.position, ← value.tree_position]
        exact written.known read clean _ inside
    | stmt value =>
        rw [phrase] at inside
        rw [Phrase.position, ← value.tree_position]
        exact written.known read clean _ inside
    | apply callee arguments => exact absurd phrase (isCode callee arguments)
  have ends := follows.ends
  rw [failed] at ends
  obtain ⟨limit, calls, frame, phrase, machine⟩ := moment
  cases limit with
  | zero => cases failed
  | succ limit =>
      obtain ⟨raised, -, rfl⟩ := Eval.error_of_located failed
      obtain ⟨position, isBlamed⟩ := raised.exists_blamed known
      exact ⟨position, isBlamed, ends.1 position isBlamed⟩

/-- An error of a program is one of a statement. -/
theorem runProgram_located {error : RuntimeError} {rest : Machine}
    (failed : runProgram world parsed.program ((Machine.start initial).entered world sourcePath) =
      .error (.error error) rest) :
    ∃ position, error.position = some position ∧
      Places world ⟨parsed.program, sourcePath.or initial⟩
        ((Machine.start initial).entered world sourcePath) position := by
  obtain ⟨raised, stopped, rfl⟩ := Eval.error_of_located failed
  obtain ⟨part, reached, parts, partFailed⟩ := Eval.exists_of_statements_error stopped
  obtain ⟨stmt, -, rfl⟩ := List.mem_map.mp parts.mem
  obtain ⟨position, isBlamed, places⟩ :=
    Occurs.located read clean (.statement parts) nofun partFailed
  rw [RuntimeError.blame_of_placed isBlamed]
  exact ⟨position, isBlamed, places⟩

theorem execute_located {error : RuntimeError}
    (failed : ((Machine.start initial).execute world parsed.program sourcePath).1 = .failed error)
    (notDepth : error.fault.kind ≠ "StackOverflow") :
    ∃ position, error.position = some position ∧
      Places world ⟨parsed.program, sourcePath.or initial⟩
        ((Machine.start initial).entered world sourcePath) position := by
  rw [execute_eq] at failed
  cases ran : runProgram world parsed.program
      ((Machine.start initial).entered world sourcePath) with
  | ok value rest =>
      rw [ran] at failed
      cases failed
  | error stop rest =>
      rw [ran] at failed
      cases stop with
      | error raised =>
          cases failed
          exact runProgram_located read clean ran
      | returned value =>
          have shapes := (Machine.start initial).shapes_entered world sourcePath
          have topLevel := (topLevel_start initial).of_shapes shapes
          exact absurd ran (runProgram_silent world parsed.program topLevel value rest)
      | tooDeep =>
          cases failed
          exact absurd rfl notDepth
      | numeral fault => cases failed

end Runs

/-- Every error of a run on a new machine but that of running out of depth is blamed on a position,
which is known and that of a node of the script or of a file that has been imported. So is every
error of code on the way, and once an error is blamed on something it is handed on as it is to the
outcome, except that the import of the file that it is in reports it in an error of its own. -/
theorem errors_located (world : World) (initial sourcePath : Option String) {source : String}
    {parsed : Parsed} (read : Program.ofSource source world.nestingLimit = .ok parsed)
    (clean : parsed.diagnostics = []) :
    let machine := Machine.start initial
    let start := machine.entered world sourcePath
    let script : Origin := ⟨parsed.program, sourcePath.or initial⟩
    (∀ error, (machine.run world source sourcePath).1 = .failed error →
      error.fault.kind ≠ "StackOverflow" →
      ∃ position, error.position = some position ∧ position.IsKnown ∧
        Places world script start position) ∧
    (∀ moment error rest, Occurs world parsed.program start moment →
      (∀ callee arguments, moment.phrase ≠ .apply callee arguments) →
      moment.result world = .error (.error error) rest →
      ∃ position, error.position = some position ∧ position.IsKnown ∧
        Places world script start position) ∧
    (∀ whole part error position rest, Part world whole part →
      part.result world = .error (.error error) rest → error.position = some position →
      (∃ rest, whole.result world = .error (.error error) rest) ∨
        ∃ path real program rest, RunsFile world path real program whole part ∧
          whole.result world = .error (.error (RuntimeError.blame
            ⟨.importing path (.failed error.report), none⟩ whole.phrase.position)) rest) ∧
    ∀ phrase reached error position rest,
      Sequence (evaluate world world.evaluationLimit) topFrame
        (parsed.program.statements.map .stmt) start phrase reached →
      evaluate world world.evaluationLimit topFrame phrase reached = .error (.error error) rest →
      error.position = some position →
      (machine.run world source sourcePath).1 = .failed error := by
  intro machine start script
  have isRun : machine.run world source sourcePath =
      machine.execute world parsed.program sourcePath := run_eq_execute read clean _ _
  refine ⟨?_, ?_, fun _ _ _ _ _ isPart => isPart.error_kept, ?_⟩
  · intro error failed notDepth
    rw [isRun] at failed
    obtain ⟨position, isBlamed, places⟩ := execute_located read clean failed notDepth
    exact ⟨position, isBlamed, places.known read clean, places⟩
  · intro moment error rest occurs isCode failed
    obtain ⟨position, isBlamed, places⟩ := Occurs.located read clean occurs isCode failed
    exact ⟨position, isBlamed, places.known read clean, places⟩
  · intro phrase reached error position rest parts failed placed
    rw [isRun, execute_eq, runProgram,
      Eval.located_error (Eval.statements_stops parts failed .nil), Stop.blame,
      RuntimeError.blame_of_placed placed]
    rfl

end Machine

def Outcome.error? : Outcome → Option RuntimeError
  | .failed error => some error
  | _ => none

theorem Outcome.of_error? {outcome : Outcome} {error : RuntimeError}
    (isFailed : outcome.error? = some error) : outcome = .failed error := by
  cases outcome with
  | failed raised => rw [Option.some.inj isFailed]
  | _ => cases isFailed

/-- A division by zero in a function that is called on the next line. -/
theorem Machine.errors_located_division :
    let world : World := { files := ⟨[], []⟩, searchPath := [] }
    let source := "let f = fn() \x7b 1 / 0; \x7d;\nf();"
    let error : RuntimeError := ⟨.arithmetic .divisionByZero, some ⟨1, 18⟩⟩
    ∃ parsed, Program.ofSource source = .ok parsed ∧ parsed.diagnostics = [] ∧
      ((Machine.start none).run world source none).1 = .failed error ∧
      error.fault.kind ≠ "StackOverflow" ∧
      Places world ⟨parsed.program, none⟩ ((Machine.start none).entered world none) ⟨1, 18⟩ := by
  intro world source error
  have found : (Program.ofSource source).map Parsed.diagnostics = .ok [] := by
    dsimp only [source]
    rfl
  have failed : ((Machine.start none).run world source none).1 = .failed error :=
    Outcome.of_error? (by decide +kernel)
  cases accepted : Program.ofSource source with
  | error numeral =>
      rw [accepted] at found
      cases found
  | ok parsed =>
      rw [accepted] at found
      have clean : parsed.diagnostics = [] := Except.ok.inj found
      obtain ⟨located, -⟩ := errors_located world none none accepted clean
      obtain ⟨position, isBlamed, -, places⟩ := located error failed (by decide)
      cases isBlamed
      exact ⟨parsed, rfl, clean, failed, by decide, places⟩

end Monkey
