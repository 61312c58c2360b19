import Monkey.Proofs.Ast.Shape
import Monkey.Proofs.Eval.Respects
import Monkey.Proofs.Token.Division
import Monkey.Session

/-!
# Accepted programs do not get stuck

A machine that sessions can reach corresponds to itself: every function on it has a body that the
reader can give. Running an accepted program keeps that, and ends in a value, in an error of a named
kind or out of room; only a file with an integer too long to read can end it otherwise.
-/

set_option autoImplicit false

namespace Monkey

/-! ## Conclusions that correspond -/

namespace Correspondence

theorem increasing_id {frame other : FrameId} (before : frame < other) : id frame < id other :=
  before

/-- The comparison of a run with itself. -/
def itself : Correspondence := ⟨True, fun _ => True, id, @increasing_id, "", ""⟩

inductive Concludes (world : World) (between : Correspondence) : Outcome → Outcome → Prop
  | finished {value value' : Value} (values : between.Values value value') :
      Concludes world between (.finished value) (.finished value')
  | failed {error error' : RuntimeError} (faults : error.fault = error'.fault)
      (named : error.fault.IsNamed ∨ error.fault = .stackOverflow)
      (positions : between.exact → error.position = error'.position) :
      Concludes world between (.failed error) (.failed error')
  | crashed {crash crash' : Crash} (imported : world.ImportsNumeral crash.fault)
      (faults : crash.fault = crash'.fault) (same : between.exact → crash = crash') :
      Concludes world between (.crashed crash) (.crashed crash')

variable {world : World} {between : Correspondence}

theorem Stops.concludes {stop stop' : Stop} (stops : Stops world between stop stop') :
    Concludes world between (.ofStop stop) (.ofStop stop') := by
  cases stops with
  | error faults named positions => exact .failed faults (.inl named) positions
  | returned values => exact .failed rfl (.inl (by simp)) fun _ => rfl
  | tooDeep => exact .failed rfl (.inr rfl) fun _ => rfl
  | numeral imported faults crashes => exact .crashed imported faults crashes

theorem runProgram_runs (covered : between.covers topFrame)
    (renamed : between.rename topFrame = topFrame) {program program' : Program}
    (positions : between.exact → program.position = program'.position)
    (alike : List.Forall₂ (Stmt.Alike between.exact) program.statements program'.statements) :
    Runs world between between.Values (Machine.runProgram world program)
      (Machine.runProgram world program') := by
  have ran := statements_runs (evaluate_respects world world.evaluationLimit between) covered
    alike .nil
  rw [renamed] at ran
  refine .located (fun exact => ?_) ran
  rw [Program.site, Program.site, positions exact]

theorem Runs.whileRunning? {α : Type} {same : α → α → Prop} {run run' : Eval α}
    (path : Option RealPath) (runs : Runs world between same run run') :
    Runs world between same (Eval.whileRunning? path run) (Eval.whileRunning? path run') := by
  cases path with
  | none => exact runs
  | some path => exact runs.whileRunning path

end Correspondence

/-! ## Machines that sessions reach -/

/-- The machine corresponds to itself. -/
def Machine.Sound (machine : Machine) : Prop := Correspondence.itself.Machines machine machine

/-- A machine on which any texts have been run one after another, with any files around. -/
inductive Machine.Reachable : Machine → Prop
  | start (sourcePath : Option String) : Reachable (.start sourcePath)
  | run {machine : Machine} (reached : machine.Reachable) (world : World) (source : String)
      (sourcePath : Option String) : Reachable (machine.run world source sourcePath).2

namespace Machine.Sound

open Correspondence

variable {machine : Machine}

theorem start (sourcePath : Option String) : (Machine.start sourcePath).Sound := by
  have empty : itself.Machines ⟨#[], "", []⟩ ⟨#[], "", []⟩ :=
    .ofEmpty ⟨#[], "", []⟩ (fun id => ⟨trivial, (Nat.zero_add id).symm⟩) rfl rfl
  exact empty.push ⟨fun _ _ => trivial, rfl, .nil, rfl, rfl⟩

theorem withOutput (sound : machine.Sound) (output : String) :
    Machine.Sound { machine with output } :=
  ⟨sound.added, sound.frame, rfl, output, by simp [itself], by simp [itself]⟩

theorem prepare (sound : machine.Sound) (sourcePath : Option String) :
    (machine.prepare sourcePath).Sound := by
  cases sourcePath with
  | none => exact sound.withOutput ""
  | some path =>
      refine (sound.withOutput "").modify topFrame fun frame frame' frames => ?_
      exact ⟨frames.covered, frames.enclosing, frames.bindings, frames.isCall, rfl⟩

theorem execute (sound : machine.Sound) (world : World) {program : Program}
    (formed : program.WellFormed) (sourcePath : Option String) :
    Concludes world itself (machine.execute world program sourcePath).1
        (machine.execute world program sourcePath).1 ∧
      (machine.execute world program sourcePath).2.Sound := by
  have alike := forall₂_alike_self formed itself.exact
  have runs : Runs world itself itself.Values _ _ :=
    (runProgram_runs trivial rfl (fun _ => rfl) alike).whileRunning?
      (sourcePath.map world.files.realPath)
  have ends := runs _ _ (sound.prepare sourcePath)
  unfold Machine.execute
  dsimp only
  generalize Eval.whileRunning? _ _ (machine.prepare sourcePath) = result at ends ⊢
  cases ends with
  | ok values machines => exact ⟨.finished values, machines⟩
  | error stops machines => exact ⟨stops.concludes, machines⟩

end Machine.Sound

theorem Program.wellFormed_of_ofSource {limit : Nat} {source : String} {parsed : Parsed}
    (read : Program.ofSource source limit = .ok parsed) : parsed.program.WellFormed := by
  unfold Program.ofSource at read
  split at read
  · cases read
    exact nofun
  · exact wellFormed_of_ofTokens read

theorem Machine.run_eq_execute {world : World} {source : String} {parsed : Parsed}
    (accepted : Program.ofSource source world.nestingLimit = .ok parsed)
    (clean : parsed.diagnostics = []) (sourcePath : Option String) (machine : Machine) :
    machine.run world source sourcePath = machine.execute world parsed.program sourcePath := by
  unfold Machine.run
  rw [accepted]
  dsimp only
  rw [clean]

theorem Machine.execute_none (world : World) (program : Program) (machine : Machine) :
    machine.execute world program none =
      match runProgram world program { machine with output := "" } with
      | .ok value rest => (.finished value, rest)
      | .error stop rest => (.ofStop stop, rest) :=
  rfl

theorem Machine.Reachable.sound {machine : Machine} (reached : machine.Reachable) :
    machine.Sound := by
  induction reached with
  | start sourcePath => exact .start sourcePath
  | @run machine reached world source sourcePath ih =>
      cases read : Program.ofSource source world.nestingLimit with
      | error numeral =>
          rw [Machine.run, read]
          exact ih.withOutput ""
      | ok parsed =>
          cases found : parsed.diagnostics with
          | nil =>
              rw [Machine.run_eq_execute read found]
              exact (ih.execute world (Program.wellFormed_of_ofSource read) sourcePath).2
          | cons diagnostic rest =>
              rw [Machine.run, read]
              dsimp only
              rw [found]
              exact ih.withOutput ""

/-! ## Files that can be read -/

/-- No file that an import can mean has an integer with more digits than are read. -/
def World.ImportsReadable (world : World) : Prop :=
  ∀ sourcePath path real content, world.resolveImport sourcePath path = some (real, content) →
    ∀ source tokens, Text.fileText content = .ok source → tokenize source = .ok tokens →
      ∀ token ∈ tokens, token.kind = .integer → token.text.length ≤ Text.digitLimit

theorem FileSystem.mem_of_file? {files : FileSystem} {path : String} {real : RealPath}
    {content : List UInt8} (found : files.file? path = some (real, content)) :
    (real, .file content) ∈ files.entries := by
  unfold FileSystem.file? at found
  split at found
  · cases found
  split at found
  · next entry =>
    cases found
    unfold FileSystem.entry? at entry
    split at entry
    · next held =>
      cases entry
      obtain ⟨before, after, entries, -⟩ := List.lookup_eq_some_iff.mp held
      rw [entries]
      exact List.mem_append_right before List.mem_cons_self
    · split at entry <;> cases entry
  · cases found

/-- It is enough that all files there are can be read. -/
theorem World.ImportsReadable.of_files {world : World}
    (readable : ∀ real content, (real, .file content) ∈ world.files.entries →
      ∀ source tokens, Text.fileText content = .ok source → tokenize source = .ok tokens →
        ∀ token ∈ tokens, token.kind = .integer → token.text.length ≤ Text.digitLimit) :
    world.ImportsReadable := by
  intro sourcePath path real content found
  obtain ⟨candidate, -, isFile⟩ := List.exists_of_findSome?_eq_some found
  exact readable real content (FileSystem.mem_of_file? isFile)

theorem World.ImportsReadable.not_importsNumeral {world : World} (readable : world.ImportsReadable)
    (numeral : Text.NumeralFault) : ¬ world.ImportsNumeral numeral := by
  rintro ⟨sourcePath, path, real, content, crash, found, unreadable, -⟩
  unfold ModuleText.ofContent Program.ofSource at unreadable
  split at unreadable
  · cases unreadable
  next source decoded =>
  split at unreadable
  · next read =>
    split at read
    · cases read
    next tokens scanned =>
    have fits := readable sourcePath path real content found source tokens decoded scanned
    obtain ⟨parsed, isParsed⟩ := Program.ofTokens_ok world.nestingLimit tokens fun token member =>
      .of_isSpelt (tokenize_isSpelt scanned token member) (fits token member)
    rw [isParsed] at read
    cases read
  · split at unreadable <;> cases unreadable

/-- Running an accepted program, in any session and with files in which every integer can be read,
ends in a value, in an error of a named kind or out of room. Every node of its tree and of those of
the files it can import has the children that its evaluation takes. -/
theorem Machine.run_accepted {world : World} (readable : world.ImportsReadable) {machine : Machine}
    (reached : machine.Reachable) {source : String} {parsed : Parsed}
    (accepted : Program.ofSource source world.nestingLimit = .ok parsed)
    (clean : parsed.diagnostics = []) (sourcePath : Option String) :
    parsed.program.tree.Evaluable ∧
      (∀ content program, ModuleText.ofContent content world.nestingLimit = .program program →
        program.tree.Evaluable) ∧
      ((∃ value, (machine.run world source sourcePath).1 = .finished value) ∨
        ∃ error, (machine.run world source sourcePath).1 = .failed error ∧
          (error.fault.kind ∈ RuntimeFault.namedKinds ∨ error.fault = .stackOverflow)) := by
  have formed := Program.wellFormed_of_ofSource accepted
  refine ⟨Program.tree_evaluable formed, fun content program text => ?_, ?_⟩
  · exact Program.tree_evaluable (Correspondence.ModuleText.wellFormed text)
  · have concludes := (reached.sound.execute world formed sourcePath).1
    rw [Machine.run_eq_execute accepted clean]
    generalize (machine.execute world parsed.program sourcePath).1 = outcome at concludes
    cases concludes with
    | finished values => exact .inl ⟨_, rfl⟩
    | failed faults named positions => exact .inr ⟨_, rfl, named⟩
    | crashed imported => exact absurd imported (readable.not_importsNumeral _)

/-- A program that imports a file, adds to what the file binds and calls the result. -/
theorem Machine.run_accepted_import :
    let library : List UInt8 := [108, 101, 116, 32, 120, 32, 61, 32, 49, 59]
    let world : World := { files := ⟨[], [(["lib"], .file library)]⟩, searchPath := [] }
    let source := "let m = import(\"/lib\"); m[\"x\"](2);"
    Text.fileText library = .ok "let x = 1;" ∧ world.ImportsReadable ∧
      ∃ parsed, Program.ofSource source = .ok parsed ∧ parsed.diagnostics = [] ∧
        parsed.program.tree.Evaluable ∧
        ((∃ value, ((Machine.start none).run world source none).1 = .finished value) ∨
          ∃ error, ((Machine.start none).run world source none).1 = .failed error ∧
            (error.fault.kind ∈ RuntimeFault.namedKinds ∨ error.fault = .stackOverflow)) := by
  intro library world source
  have decoded : Text.fileText library = .ok "let x = 1;" := rfl
  have short : ∀ tokens, tokenize "let x = 1;" = .ok tokens →
      ∀ token ∈ tokens, token.kind = .integer → token.text.length ≤ Text.digitLimit := by
    intro tokens scanned
    cases scanned
    decide
  have readable : world.ImportsReadable := by
    refine .of_files fun real content member text tokens isText => ?_
    cases List.mem_singleton.mp member
    cases decoded.symm.trans isText
    exact short tokens
  have found : (Program.ofSource source).map Parsed.diagnostics = .ok [] := by
    dsimp only [source]
    rfl
  cases accepted : Program.ofSource source with
  | error numeral =>
      rw [accepted] at found
      cases found
  | ok parsed =>
      rw [accepted] at found
      have clean : parsed.diagnostics = [] := Except.ok.inj found
      obtain ⟨evaluable, -, ended⟩ := run_accepted readable (.start none) accepted clean none
      exact ⟨decoded, readable, parsed, rfl, clean, evaluable, ended⟩

end Monkey
