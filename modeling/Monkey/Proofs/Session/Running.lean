import Mathlib.Data.List.Dedup
import Mathlib.Data.List.Perm.Subperm
import Monkey.Proofs.Eval.Changes
import Monkey.Proofs.Eval.Stops
import Monkey.Proofs.Session.Returns

/-!
# Running files

The files that are running are those whose import an evaluation is part of, on top of the script
itself. A file is entered only if it is not among them, so none is there twice, and as each of them
is a file that there is, imports do not nest deeper than there are files. However an evaluation
ends, the files that were running before it are running after it.
-/

set_option autoImplicit false

namespace Monkey

/-- The real paths of all files. -/
def FileSystem.filePaths (files : FileSystem) : List RealPath :=
  files.entries.filterMap fun entry =>
    match entry.2 with
    | .file _ => some entry.1
    | _ => none

theorem FileSystem.mem_filePaths {files : FileSystem} {real : RealPath} {content : List UInt8}
    (member : (real, .file content) ∈ files.entries) : real ∈ files.filePaths :=
  List.mem_filterMap.mpr ⟨_, member, rfl⟩

theorem World.mem_filePaths {world : World} {sourcePath : Option String} {path : String}
    {real : RealPath} {content : List UInt8}
    (found : world.resolveImport sourcePath path = some (real, content)) :
    real ∈ world.files.filePaths := by
  obtain ⟨candidate, -, isFile⟩ := List.exists_of_findSome?_eq_some found
  exact FileSystem.mem_filePaths (FileSystem.mem_of_file? isFile)

theorem ModuleText.ofContent_ne_cyclic (content : List UInt8) (limit : Nat) :
    ModuleText.ofContent content limit ≠ .faulty .cyclic := by
  unfold ModuleText.ofContent
  split
  · exact nofun
  split
  · exact nofun
  · split <;> exact nofun

namespace Eval

theorem mapError_error {α : Type} {change : RuntimeError → RuntimeFault} {run : Eval α}
    {machine rest : Machine} {error : RuntimeError}
    (failed : mapError change run machine = .error (.error error) rest) :
    ∃ raised, error = ⟨change raised, none⟩ := by
  unfold mapError at failed
  cases ran : run machine with
  | ok value after =>
      rw [ran] at failed
      cases failed
  | error stop after =>
      rw [ran] at failed
      cases stop with
      | error raised =>
          cases failed
          exact ⟨raised, rfl⟩
      | _ => cases failed

theorem runModule_fault {inner : Evaluator} {real : RealPath} {path : String} {program : Program}
    {machine rest : Machine} {error : RuntimeError}
    (failed : runModule inner real path program machine = .error (.error error) rest) :
    ∃ report, error.fault = .importing path (.failed report) := by
  rw [runModule, bind_apply] at failed
  dsimp only [newFrame] at failed
  rw [bind_apply] at failed
  split at failed
  · cases failed
  next stopped =>
    cases failed
    obtain ⟨raised, rfl⟩ := mapError_error stopped
    exact ⟨raised.report, rfl⟩

/-- An import fails as cyclic if and only if the file that its path means is running. -/
theorem importFile_cyclic (world : World) (inner : Evaluator) (frame : FrameId) (path : String)
    (machine : Machine) :
    (∃ rest, importFile world inner frame path machine =
      .error (.error ⟨.importing path .cyclic, none⟩) rest) ↔
    ∃ real content, world.resolveImport (machine.frame frame).sourcePath path =
      some (real, content) ∧ real ∈ machine.running := by
  have isBound : importFile world inner frame path machine = _ := bind_ok rfl
  rw [isBound]
  cases found : world.resolveImport (machine.frame frame).sourcePath path with
  | none =>
      constructor
      · rintro ⟨rest, failed⟩
        cases failed
      · rintro ⟨real, content, isFound, -⟩
        cases isFound
  | some file =>
      obtain ⟨real, content⟩ := file
      dsimp only
      split
      next active =>
        exact ⟨fun _ => ⟨real, content, rfl, by simpa using active⟩, fun _ => ⟨machine, rfl⟩⟩
      next inactive =>
        constructor
        · rintro ⟨rest, failed⟩
          cases text : ModuleText.ofContent content world.nestingLimit with
          | unreadableNumeral crash =>
              rw [text] at failed
              cases failed
          | faulty fault =>
              rw [text] at failed
              cases failed
              exact absurd text (ModuleText.ofContent_ne_cyclic content _)
          | program program =>
              rw [text] at failed
              obtain ⟨report, isFailed⟩ := runModule_fault failed
              cases isFailed
        · rintro ⟨_, _, isFound, active⟩
          cases isFound
          exact absurd (by simpa using active) inactive

end Eval

namespace Machine

/-- An evaluation that takes place when a program is run from a machine on, with the files whose
imports it is part of, the innermost first. -/
inductive Importing (world : World) (program : Program) (start : Machine) :
    List RealPath → Moment → Prop
  | statement {phrase : Phrase} {reached : Machine}
      (parts : Sequence (evaluate world world.evaluationLimit) topFrame
        (program.statements.map .stmt) start phrase reached) :
      Importing world program start [] ⟨world.evaluationLimit, [], topFrame, phrase, reached⟩
  | nested {files : List RealPath} {moment part : Moment}
      (importing : Importing world program start files moment)
      (isNested : Nested world moment part) : Importing world program start files part
  | body {files : List RealPath} {moment part : Moment} {activation : Activation}
      (importing : Importing world program start files moment)
      (runs : RunsBody world activation moment part) : Importing world program start files part
  | file {files : List RealPath} {moment part : Moment} {path : String} {real : RealPath}
      {imported : Program} (importing : Importing world program start files moment)
      (runs : RunsFile world path real imported moment part) :
      Importing world program start (real :: files) part

theorem Occurs.importing {world : World} {program : Program} {start : Machine} {moment : Moment}
    (occurs : Occurs world program start moment) :
    ∃ files, Importing world program start files moment := by
  induction occurs with
  | statement parts => exact ⟨[], .statement parts⟩
  | part _ isPart ih =>
      obtain ⟨files, importing⟩ := ih
      rcases isPart.ways with nested | ⟨activation, runs⟩ | ⟨path, real, imported, runs⟩
      · exact ⟨files, importing.nested nested⟩
      · exact ⟨files, importing.body runs⟩
      · exact ⟨real :: files, importing.file runs⟩

end Machine

/-! ## The files that are running -/

section Ways

variable {world : World} {whole part : Moment}

theorem Nested.running_eq (nested : Nested world whole part) :
    part.machine.running = whole.machine.running := by
  cases nested with
  | operand parts => exact parts.becomes.running_eq
  | pair parts => exact parts.becomes.running_eq
  | block enters parts => exact parts.becomes.running_eq.trans enters.becomes.running_eq
  | returned => rfl
  | mapped makes parts => exact parts.becomes.running_eq.trans makes.becomes.running_eq

theorem RunsBody.running_eq {activation : Activation}
    (runs : RunsBody world activation whole part) :
    part.machine.running = whole.machine.running := by
  cases runs with
  | intro makes fits parts => exact parts.becomes.running_eq.trans makes.becomes.running_eq

theorem RunsFile.running_eq {path : String} {real : RealPath} {program : Program}
    (runs : RunsFile world path real program whole part) :
    part.machine.running = real :: whole.machine.running := by
  cases runs with
  | intro makes found free text parts =>
      rw [parts.becomes.running_eq, Machine.withModule, makes.becomes.running_eq]

theorem RunsFile.notRunning {path : String} {real : RealPath} {program : Program}
    (runs : RunsFile world path real program whole part) :
    real ∉ whole.machine.running ∧ real ∈ world.files.filePaths := by
  cases runs with
  | intro makes found free text parts =>
      refine ⟨?_, World.mem_filePaths found⟩
      rw [← makes.becomes.running_eq]
      simpa using free

end Ways

namespace Machine

variable {world : World} {program : Program} {start : Machine} {files : List RealPath}
  {moment : Moment}

theorem Importing.running_eq (importing : Importing world program start files moment) :
    moment.machine.running = files ++ start.running := by
  induction importing with
  | statement parts => exact parts.becomes.running_eq
  | nested _ isNested ih => exact isNested.running_eq.trans ih
  | body _ runs ih => exact runs.running_eq.trans ih
  | file _ runs ih => exact runs.running_eq.trans (congrArg _ ih)

theorem Importing.nodup (importing : Importing world program start files moment)
    (distinct : start.running.Nodup) : (files ++ start.running).Nodup := by
  induction importing with
  | statement => exact distinct
  | nested _ _ ih => exact ih
  | body _ _ ih => exact ih
  | file importing runs ih =>
      have apart := runs.notRunning.1
      rw [importing.running_eq] at apart
      exact List.nodup_cons.mpr ⟨apart, ih⟩

theorem Importing.length_le (importing : Importing world program start files moment)
    (distinct : start.running.Nodup) : files.length ≤ world.files.filePaths.dedup.length := by
  have areFiles : ∀ real ∈ files, real ∈ world.files.filePaths := by
    clear distinct
    induction importing with
    | statement => exact nofun
    | nested _ _ ih => exact ih
    | body _ _ ih => exact ih
    | file _ runs ih => exact List.forall_mem_cons.mpr ⟨runs.notRunning.2, ih⟩
  have apart := (List.nodup_append.mp (importing.nodup distinct)).1
  have within := apart.subperm fun real member => List.mem_dedup.mpr (areFiles real member)
  exact within.length_le

/-! ## Sessions -/

theorem running_prepare (machine : Machine) (sourcePath : Option String) :
    (machine.prepare sourcePath).running = machine.running := by
  cases sourcePath <;> rfl

theorem running_entered (machine : Machine) (world : World) (sourcePath : Option String) :
    (machine.entered world sourcePath).running =
      (sourcePath.map world.files.realPath).toList ++ machine.running := by
  cases sourcePath <;> rfl

theorem running_execute (world : World) (program : Program) (sourcePath : Option String)
    (machine : Machine) :
    (machine.execute world program sourcePath).2.running = machine.running := by
  have ran : (Eval.statements (evaluate world world.evaluationLimit) topFrame program.statements
      .nil).Changes :=
    Eval.statements_changes (evaluate_changes world world.evaluationLimit) topFrame _ _
  have becomes := ((ran.located program.site).whileRunning?
    (sourcePath.map world.files.realPath)) (machine.prepare sourcePath)
  rw [← machine.running_prepare sourcePath, ← becomes.running_eq]
  unfold execute runProgram
  dsimp only
  generalize Eval.whileRunning? _ _ _ = result
  cases result <;> rfl

/-- Running a text leaves the files that are running as they were, whatever it comes to. -/
theorem running_run (world : World) (source : String) (sourcePath : Option String)
    (machine : Machine) : (machine.run world source sourcePath).2.running = machine.running := by
  unfold run
  split
  · rfl
  split
  · exact running_execute world _ sourcePath machine
  · rfl

theorem Reachable.running_eq {machine : Machine} (reached : machine.Reachable) :
    machine.running = [] := by
  induction reached with
  | start => rfl
  | run _ world source sourcePath ih => exact (running_run world source sourcePath _).trans ih

/-- In any run of any session, the files that are running at an evaluation are those whose imports
it is part of, on top of the script. None of them is there twice, imports are not nested deeper than
there are files, and the same files are running when the evaluation has ended, however it does. So
they are after an import, which fails as cyclic if and only if the file that it means is running,
and after the run. -/
theorem running_disciplined {machine : Machine} (reached : machine.Reachable) (world : World)
    (sourcePath : Option String) :
    (∀ source, (machine.run world source sourcePath).2.running = machine.running) ∧
    (∀ program moment, Occurs world program (machine.entered world sourcePath) moment →
      ∃ files, Importing world program (machine.entered world sourcePath) files moment) ∧
    ∀ program files moment,
      Importing world program (machine.entered world sourcePath) files moment →
      moment.machine.running = files ++ (sourcePath.map world.files.realPath).toList ∧
      moment.machine.running.Nodup ∧
      files.length ≤ world.files.filePaths.dedup.length ∧
      (Eval.ended (moment.result world)).running = moment.machine.running ∧
      ∀ limit path called, moment.limit = limit + 1 →
        Calls (evaluate world limit) moment.frame moment.phrase moment.machine
          (.builtin .importFile) [.string path] called →
        let imported := Eval.importFile world (evaluate world limit) moment.frame path called
        called.running = moment.machine.running ∧
        (Eval.ended imported).running = called.running ∧
        ((∃ rest, imported = .error (.error ⟨.importing path .cyclic, none⟩) rest) ↔
          ∃ real content, world.resolveImport (called.frame moment.frame).sourcePath path =
            some (real, content) ∧ real ∈ called.running) := by
  refine ⟨fun source => running_run world source sourcePath machine,
    fun program moment occurs => occurs.importing, fun program files moment importing => ?_⟩
  have entered : (machine.entered world sourcePath).running =
      (sourcePath.map world.files.realPath).toList := by
    rw [running_entered, reached.running_eq, List.append_nil]
  have distinct : (machine.entered world sourcePath).running.Nodup := by
    rw [entered]
    cases sourcePath with
    | none => exact .nil
    | some path => exact List.nodup_singleton _
  have running := importing.running_eq
  refine ⟨by rw [running, entered], ?_, importing.length_le distinct, ?_, ?_⟩
  · rw [running]
    exact importing.nodup distinct
  · exact (evaluate_changes world moment.limit moment.frame moment.phrase _).running_eq
  · intro limit path called _ makes imported
    refine ⟨makes.becomes.running_eq, ?_, Eval.importFile_cyclic world _ moment.frame path called⟩
    exact (Eval.importFile_changes (evaluate_changes world limit) world moment.frame path
      called).running_eq

/-- A file that imports itself, imported by a script. -/
theorem running_disciplined_cycle :
    let library : List UInt8 := [105, 109, 112, 111, 114, 116, 40, 34, 47, 108, 105, 98, 34, 41]
    let world : World := { files := ⟨[], [(["lib"], .file library)]⟩, searchPath := [] }
    let call : Expr := .call (.leaf ⟨.identifier, "import", ⟨1, 1⟩⟩) ⟨1, 7⟩
      [.leaf ⟨.string, "/lib", ⟨1, 8⟩⟩]
    let program : Program := ⟨⟨1, 1⟩, [.expr ⟨1, 1⟩ call]⟩
    Text.fileText library = .ok "import(\"/lib\")" ∧
      ∃ inside rest,
        Importing world program ((Machine.start none).entered world none) [["lib"]]
          ⟨2997, [], 1, .expr call, inside⟩ ∧
        inside.running = [["lib"]] ∧ [["lib"]].length ≤ world.files.filePaths.dedup.length ∧
        Eval.importFile world (evaluate world 2996) 1 "/lib" inside =
          .error (.error ⟨.importing "/lib" .cyclic, none⟩) rest := by
  intro library world call program
  have statement : Importing world program ((Machine.start none).entered world none) [] _ :=
    .statement .first
  have imports := Importing.nested statement (.operand .first)
  have file : Importing world program _ [["lib"]] _ :=
    Importing.file imports (.intro (.expr rfl rfl) rfl rfl rfl .first)
  have inside := Importing.nested file (.operand .first)
  obtain ⟨running, -, bounded, -, called⟩ :=
    (running_disciplined (.start none) world none).2.2 program _ _ inside
  obtain ⟨-, -, cyclic⟩ := called 2996 "/lib" _ rfl (.expr rfl rfl)
  obtain ⟨rest, failed⟩ := cyclic.mpr ⟨["lib"], library, rfl, List.mem_singleton.mpr rfl⟩
  exact ⟨rfl, _, rest, inside, running, bounded, failed⟩

end Machine

end Monkey
