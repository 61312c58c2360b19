import Monkey.Proofs.Ast.Nodes
import Monkey.Proofs.Eval.Traces
import Monkey.Proofs.Session.Running

/-!
# The files that code is from

The code that an evaluation is of was read from the script or from a file that has been imported:
from the same as the code around it, and the body of a function from the same as the literal that
made the function, wherever it is called. A frame belongs to the file that the code run in it was
read from, so it is the directory of that file which a relative import is looked for in.
-/

set_option autoImplicit false

namespace Monkey

/-- A program and the path of the file that it was read from, if there is one. -/
structure Origin where
  program : Program
  sourcePath : Option String

/-! ## Code inside a program -/

/-- The phrase stands in the tree. A call that a built-in function makes is not written anywhere. -/
def Phrase.In (tree : Tree) : Phrase → Prop
  | .expr value => value.tree.Inside tree
  | .stmt value => value.tree.Inside tree
  | .apply _ _ => True

def Block.In (tree : Tree) (body : Block) : Prop := ∀ part ∈ body.phrases, part.In tree

section Parts

variable {tree : Tree} {phrase : Phrase}

theorem Phrase.in_statements {list : List Stmt}
    (inside : ∀ child ∈ list.map Stmt.tree, child.Inside tree) :
    ∀ part ∈ list.map Phrase.stmt, part.In tree := by
  intro part member
  obtain ⟨stmt, isStmt, rfl⟩ := List.mem_map.mp member
  exact inside _ (List.mem_map_of_mem isStmt)

theorem Block.in_of_tree (label : Label) {body : Block} (inside : (body.tree label).Inside tree) :
    body.In tree := by
  rw [Block.tree_eq] at inside
  exact Phrase.in_statements fun child => inside.descend

theorem Program.in_tree (program : Program) :
    ∀ part ∈ program.statements.map Phrase.stmt, part.In program.tree := by
  have top := Tree.Inside.whole program.tree
  nth_rewrite 1 [Program.tree_eq] at top
  exact Phrase.in_statements fun child => top.descend

theorem Phrase.In.operands (inside : phrase.In tree) : ∀ part ∈ phrase.operands, part.In tree := by
  have items : ∀ (label : Label) (position : Position) (list : List Expr),
      (Tree.node label position (Expr.trees list)).Inside tree →
      ∀ part ∈ list.map Phrase.expr, part.In tree := by
    intro label position list within part member
    obtain ⟨item, isItem, rfl⟩ := List.mem_map.mp member
    rw [Expr.trees_eq] at within
    exact within.descend (List.mem_map_of_mem isItem)
  cases phrase with
  | apply callee arguments => exact nofun
  | stmt stmt =>
      cases stmt with
      | binding position name value =>
          exact List.forall_mem_singleton.mpr (inside.descend (by simp))
      | expr position value => exact List.forall_mem_singleton.mpr (inside.descend (by simp))
      | _ => exact nofun
  | expr expr =>
      cases expr with
      | unary operator operand => exact List.forall_mem_singleton.mpr (inside.descend (by simp))
      | binary left operator right =>
          exact List.forall_mem_cons.mpr ⟨inside.descend (by simp),
            List.forall_mem_singleton.mpr (inside.descend (by simp))⟩
      | array position list => exact items _ _ _ inside
      | ifThen position condition consequence =>
          exact List.forall_mem_singleton.mpr (inside.descend (by simp))
      | ifElse position condition consequence alternative =>
          exact List.forall_mem_singleton.mpr (inside.descend (by simp))
      | call callee position arguments =>
          exact List.forall_mem_cons.mpr ⟨inside.descend (by simp),
            items .arguments position _ (inside.descend (by simp))⟩
      | index target position place =>
          exact List.forall_mem_cons.mpr ⟨inside.descend (by simp),
            List.forall_mem_singleton.mpr (inside.descend (by simp))⟩
      | _ => exact nofun

variable {inner : Evaluator} {frame : FrameId} {machine reached : Machine} {part : Phrase}

theorem Sequence.mem {phrases : List Phrase}
    (parts : Sequence inner frame phrases machine part reached) : part ∈ phrases := by
  induction parts with
  | first => exact List.mem_cons_self
  | later _ _ ih => exact List.mem_cons_of_mem _ ih

theorem PairSequence.in_tree {pairs : List Pair}
    (parts : PairSequence inner frame pairs machine part reached)
    (inside : ∀ child ∈ pairs.map Pair.tree, child.Inside tree) : part.In tree := by
  induction parts with
  | key => exact (inside _ List.mem_cons_self).descend (by simp)
  | value => exact (inside _ List.mem_cons_self).descend (by simp)
  | later _ _ _ _ ih => exact ih fun child member => inside child (List.mem_cons_of_mem _ member)

theorem Enters.in_tree {body : Block} {entered : Machine}
    (enters : Enters inner frame phrase machine body entered) (inside : phrase.In tree) :
    body.In tree := by
  cases enters with
  | expr => exact Block.in_of_tree _ inside
  | stmt => exact Block.in_of_tree _ inside
  | ifThen | consequence | alternative =>
      exact Block.in_of_tree .block (inside.descend (by simp))

end Parts

section Ways

variable {world : World} {whole part : Moment} {tree : Tree}

theorem Nested.in_tree (nested : Nested world whole part) (inside : whole.phrase.In tree) :
    part.phrase.In tree := by
  cases nested with
  | operand parts => exact inside.operands _ parts.mem
  | @pair _ _ _ position pairs _ _ _ parts =>
      refine parts.in_tree fun child member => ?_
      have within : (Tree.node .hash position (Pair.trees pairs)).Inside tree := inside
      rw [Pair.trees_eq] at within
      exact within.descend member
  | block enters parts => exact enters.in_tree inside _ parts.mem
  | returned => exact inside.descend (by simp)
  | mapped makes parts =>
      obtain ⟨item, -, isCall⟩ := List.mem_map.mp parts.mem
      rw [← isCall]
      trivial

end Ways

/-! ## The file of a frame -/

namespace Machine

/-- The frame is there, and the code run in it is from a file at the path, or from none. -/
structure Belongs (machine : Machine) (frame : FrameId) (sourcePath : Option String) : Prop where
  inside : frame < machine.frames.size
  sourcePath : (machine.frame frame).sourcePath = sourcePath

section Frames

variable {machine before after : Machine} {frame : FrameId} {sourcePath : Option String}

theorem Belongs.later (belongs : before.Belongs frame sourcePath) (grows : before.Grows after) :
    after.Belongs frame sourcePath where
  inside := Nat.lt_of_lt_of_le belongs.inside grows.size
  sourcePath := (grows.sourcePath frame belongs.inside).trans belongs.sourcePath

theorem belongs_push (machine : Machine) (added : Frame) (running : List RealPath) :
    Belongs { machine with frames := machine.frames.push added, running } machine.frames.size
      added.sourcePath := by
  refine ⟨by simp, congrArg Frame.sourcePath ?_⟩
  exact (machine.frame_pushed added machine.frames.size).trans (if_pos rfl)

theorem Belongs.withScope (belongs : machine.Belongs frame sourcePath)
    (bindings : List (String × Value)) (isCall : Bool) :
    (machine.withScope frame bindings isCall).Belongs machine.frames.size sourcePath := by
  rw [← belongs.sourcePath]
  exact machine.belongs_push _ machine.running

theorem belongs_withModule (machine : Machine) (real : RealPath) :
    (machine.withModule real).Belongs machine.frames.size (some (Path.ofNames real)) :=
  machine.belongs_push _ (real :: machine.running)

/-- The top frame of a new machine belongs to the script. -/
theorem belongs_entered (world : World) (initial sourcePath : Option String) :
    ((Machine.start initial).entered world sourcePath).Belongs topFrame
      (sourcePath.or initial) := by
  cases sourcePath <;> exact ⟨Nat.zero_lt_one, rfl⟩

end Frames

end Machine

theorem Nested.belongs {world : World} {whole part : Moment} {sourcePath : Option String}
    (nested : Nested world whole part) (belongs : whole.machine.Belongs whole.frame sourcePath) :
    part.machine.Belongs part.frame sourcePath := by
  cases nested with
  | operand parts => exact belongs.later parts.becomes.grows
  | pair parts => exact belongs.later parts.becomes.grows
  | block enters parts =>
      exact ((belongs.later enters.becomes.grows).withScope [] false).later parts.becomes.grows
  | returned => exact belongs
  | mapped makes parts => exact belongs.later (makes.becomes.trans parts.becomes).grows

theorem RunsBody.belongs {world : World} {activation : Activation} {whole part : Moment}
    {sourcePath : Option String} (runs : RunsBody world activation whole part)
    (belongs : activation.machine.Belongs activation.outer sourcePath) :
    part.machine.Belongs part.frame sourcePath := by
  cases runs with
  | intro makes fits parts => exact (belongs.withScope _ true).later parts.becomes.grows

theorem RunsBody.in_tree {world : World} {activation : Activation} {whole part : Moment}
    {tree : Tree} (runs : RunsBody world activation whole part)
    (inside : activation.body.In tree) : part.phrase.In tree := by
  cases runs with
  | intro makes fits parts => exact inside _ parts.mem

theorem RunsFile.belongs {world : World} {path : String} {real : RealPath} {program : Program}
    {whole part : Moment} (runs : RunsFile world path real program whole part) :
    part.machine.Belongs part.frame (some (Path.ofNames real)) := by
  cases runs with
  | intro makes found free text parts =>
      exact (Machine.belongs_withModule _ real).later parts.becomes.grows

/-- A file that is imported is what its path means to the file that the import is written in. -/
theorem RunsFile.found {world : World} {path : String} {real : RealPath} {program : Program}
    {whole part : Moment} {sourcePath : Option String}
    (runs : RunsFile world path real program whole part)
    (belongs : whole.machine.Belongs whole.frame sourcePath) :
    ∃ content, world.resolveImport sourcePath path = some (real, content) ∧
      ModuleText.ofContent content world.nestingLimit = .program program := by
  cases runs with
  | intro makes found free text parts =>
      rw [(belongs.later makes.becomes.grows).sourcePath] at found
      exact ⟨_, found, text⟩

theorem RunsFile.in_tree {world : World} {path : String} {real : RealPath} {program : Program}
    {whole part : Moment} (runs : RunsFile world path real program whole part) :
    part.phrase.In program.tree := by
  cases runs with
  | intro makes found free text parts => exact program.in_tree _ parts.mem

namespace Machine

/-! ## Code and where it was written -/

/-- An evaluation that takes place when a script is run from a machine on, with the program that the
code was read as part of. -/
inductive Written (world : World) (script : Origin) (start : Machine) : Origin → Moment → Prop
  | statement {phrase : Phrase} {reached : Machine}
      (parts : Sequence (evaluate world world.evaluationLimit) topFrame
        (script.program.statements.map .stmt) start phrase reached) :
      Written world script start script ⟨world.evaluationLimit, [], topFrame, phrase, reached⟩
  | nested {origin : Origin} {moment part : Moment}
      (written : Written world script start origin moment) (isNested : Nested world moment part) :
      Written world script start origin part
  /-- The body of a function is from where the literal is that has made the function, not from where
  the call is. -/
  | body {caller origin : Origin} {moment part : Moment} {activation : Activation} {limit : Nat}
      {calls : List Activation} {position parametersPosition : Position} {parameters : List Token}
      {earlier : Machine} (calling : Written world script start caller moment)
      (runs : RunsBody world activation moment part)
      (literal : Written world script start origin ⟨limit, calls, activation.outer,
        .expr (.function position parametersPosition parameters activation.body), earlier⟩)
      (names : activation.parameters = parameters.map Token.text)
      (before : earlier.Grows activation.machine) : Written world script start origin part
  | file {importer : Origin} {moment part : Moment} {path : String} {real : RealPath}
      {imported : Program} (importing : Written world script start importer moment)
      (runs : RunsFile world path real imported moment part) :
      Written world script start ⟨imported, some (Path.ofNames real)⟩ part

section Origins

variable {world : World} {script origin : Origin} {start : Machine} {moment : Moment}

theorem Written.occurs (written : Written world script start origin moment) :
    Occurs world script.program start moment := by
  induction written with
  | statement parts => exact .statement parts
  | nested _ isNested ih => exact ih.part isNested.isPart
  | body _ runs _ _ _ ih => exact ih.part runs.isPart
  | file _ runs ih => exact ih.part runs.isPart

/-- A file is imported with the text that it has. -/
theorem Written.isRead (written : Written world script start origin moment) :
    origin = script ∨ ∃ real content, (real, .file content) ∈ world.files.entries ∧
      ModuleText.ofContent content world.nestingLimit = .program origin.program ∧
      origin.sourcePath = some (Path.ofNames real) := by
  induction written with
  | statement => exact .inl rfl
  | nested _ _ ih => exact ih
  | body _ _ _ _ _ _ ih => exact ih
  | file _ runs =>
      cases runs with
      | intro makes found free text parts =>
          obtain ⟨candidate, -, isFile⟩ := List.exists_of_findSome?_eq_some found
          exact .inr ⟨_, _, FileSystem.mem_of_file? isFile, text, rfl⟩

theorem Written.in_tree (written : Written world script start origin moment) :
    moment.phrase.In origin.program.tree := by
  induction written with
  | statement parts => exact script.program.in_tree _ parts.mem
  | nested _ isNested ih => exact isNested.in_tree ih
  | body _ runs _ _ _ _ ih =>
      exact runs.in_tree (Block.in_of_tree .block (Tree.Inside.descend ih (by simp)))
  | file _ runs => exact runs.in_tree

/-- Code runs in a frame that belongs to the file it was read from. -/
theorem Written.belongs (written : Written world script start origin moment)
    (top : start.Belongs topFrame script.sourcePath) :
    moment.machine.Belongs moment.frame origin.sourcePath := by
  induction written with
  | statement parts => exact top.later parts.becomes.grows
  | nested _ isNested ih => exact isNested.belongs ih
  | body _ runs _ _ before _ ih => exact runs.belongs (ih.later before)
  | file _ runs => exact runs.belongs

/-- The position of a node of a program that is run. -/
def Places (world : World) (script : Origin) (start : Machine) (position : Position) : Prop :=
  ∃ (origin : Origin) (moment : Moment) (node : Tree),
    Written world script start origin moment ∧ node.Inside origin.program.tree ∧
      node.position = position

/-- Evaluations of code that is from somewhere, with the functions that literals in it have made. -/
def tracing (world : World) (script : Origin) (start : Machine) : Tracing world where
  holds moment := ∃ origin, Written world script start origin moment
  made machine parameters body frame :=
    ∃ origin limit calls position parametersPosition tokens earlier,
      Written world script start origin ⟨limit, calls, frame,
        .expr (.function position parametersPosition tokens body), earlier⟩ ∧
      parameters = tokens.map Token.text ∧ earlier.Grows machine
  offered _ := True
  placed := Places world script start
  later := by
    rintro before after parameters body frame develops
      ⟨origin, limit, calls, position, parametersPosition, tokens, earlier, literal, names, first⟩
    exact ⟨origin, limit, calls, position, parametersPosition, tokens, earlier, literal, names,
      first.trans develops.toGrows⟩
  literal := by
    rintro limit calls frame position parametersPosition tokens body machine ⟨origin, written⟩
    exact ⟨origin, limit, calls, position, parametersPosition, tokens, machine, written, rfl,
      .refl machine⟩
  named _ _ _ := trivial
  position := by
    rintro ⟨limit, calls, frame, phrase, machine⟩ ⟨origin, written⟩ known
    have inside := written.in_tree
    cases phrase with
    | expr value => exact ⟨origin, _, value.tree, written, inside, value.tree_position⟩
    | stmt value => exact ⟨origin, _, value.tree, written, inside, value.tree_position⟩
    | apply callee arguments => exact absurd rfl known
  nested := by
    rintro whole part ⟨origin, written⟩ nested
    exact ⟨origin, written.nested nested⟩
  body := by
    rintro activation whole part ⟨caller, calling⟩ runs
      ⟨origin, limit, calls, position, parametersPosition, tokens, earlier, literal, names, before⟩
    exact ⟨origin, .body calling runs literal names before⟩
  file := by
    rintro path real program whole part ⟨importer, importing⟩ - runs
    exact ⟨_, .file importing runs⟩

end Origins

/-- What holds of the statements of a program as they are run is followed into all evaluations. -/
theorem Occurs.followed {world : World} {tracing : Tracing world} {program : Program}
    {start : Machine}
    (holds : ∀ part reached, Sequence (evaluate world world.evaluationLimit) topFrame
        (program.statements.map .stmt) start part reached →
      tracing.holds ⟨world.evaluationLimit, [], topFrame, part, reached⟩)
    (knows : tracing.KnowsMachine start) {moment : Moment}
    (occurs : Occurs world program start moment) : tracing.Follows moment := by
  induction occurs with
  | statement parts =>
      exact Tracing.follows_sequence parts holds (fun _ _ _ follows => follows.ends)
        (Tracing.knowsPhrase_statements _ _) knows
  | part _ isPart ih => exact ih.part isPart

section Runs

variable (world : World) (initial sourcePath : Option String)

/-- Nothing is bound on a new machine. -/
theorem bindings_entered (id : FrameId) :
    (((Machine.start initial).entered world sourcePath).frame id).bindings = [] := by
  cases id with
  | zero => cases sourcePath <;> rfl
  | succ id =>
      rw [frame_outside]
      · rfl
      · cases sourcePath <;> exact Nat.le_add_left 1 id

theorem knowsMachine_entered (tracing : Tracing world) :
    tracing.KnowsMachine ((Machine.start initial).entered world sourcePath) := by
  intro id
  rw [bindings_entered]
  exact .nil

/-- In a run on a new machine, every evaluation is of code that was written somewhere. -/
theorem Occurs.follows {program : Program} {moment : Moment}
    (occurs : Occurs world program ((Machine.start initial).entered world sourcePath) moment) :
    (tracing world ⟨program, sourcePath.or initial⟩
      ((Machine.start initial).entered world sourcePath)).Follows moment := by
  refine occurs.followed (fun part reached parts => ?_)
    (knowsMachine_entered world initial sourcePath _)
  exact ⟨_, .statement parts⟩

/-- In a run on a new machine, every evaluation is of code that was written in the script or in a
file that has been imported. Its frame belongs to that file, whatever has called the function that
the code may be in and wherever that function has come from. So an import in it means what the path
means to the file that the import was written in. -/
theorem imports_lexical (program : Program) :
    let start := (Machine.start initial).entered world sourcePath
    let script : Origin := ⟨program, sourcePath.or initial⟩
    (∀ moment, Occurs world program start moment →
      ∃ origin, Written world script start origin moment) ∧
    ∀ origin moment, Written world script start origin moment →
      Occurs world program start moment ∧
      (origin = script ∨ ∃ real content, (real, .file content) ∈ world.files.entries ∧
        ModuleText.ofContent content world.nestingLimit = .program origin.program ∧
        origin.sourcePath = some (Path.ofNames real)) ∧
      moment.phrase.In origin.program.tree ∧
      moment.frame < moment.machine.frames.size ∧
      (moment.machine.frame moment.frame).sourcePath = origin.sourcePath ∧
      (∀ limit path called, moment.limit = limit + 1 →
        Calls (evaluate world limit) moment.frame moment.phrase moment.machine
          (.builtin .importFile) [.string path] called →
        (called.frame moment.frame).sourcePath = origin.sourcePath) ∧
      ∀ path real imported part, RunsFile world path real imported moment part →
        ∃ content, world.resolveImport origin.sourcePath path = some (real, content) ∧
          ModuleText.ofContent content world.nestingLimit = .program imported := by
  intro start script
  have top : start.Belongs topFrame script.sourcePath := belongs_entered world initial sourcePath
  refine ⟨fun moment occurs => (Occurs.follows world initial sourcePath occurs).holds, ?_⟩
  intro origin moment written
  have belongs := written.belongs top
  refine ⟨written.occurs, written.isRead, written.in_tree, belongs.inside, belongs.sourcePath, ?_,
    fun path real imported part runs => runs.found belongs⟩
  intro limit path called _ makes
  exact (belongs.later makes.becomes.grows).sourcePath

end Runs

end Machine

/-- The frame that a function is from, if it can be called without arguments to run something. -/
def Value.scope? : Value → Option FrameId
  | .function [] (.mk _ (_ :: _)) scope => some scope
  | _ => none

theorem Value.of_scope? {value : Value} {scope : FrameId} (isFrom : value.scope? = some scope) :
    ∃ position first others, value = .function [] (.mk position (first :: others)) scope := by
  unfold scope? at isFrom
  split at isFrom
  · cases isFrom
    exact ⟨_, _, _, rfl⟩
  · cases isFrom

/-- A script calls a function of a file, which imports another file from its own directory. -/
theorem Machine.imports_lexical_function :
    let library : List UInt8 := [108, 101, 116, 32, 102, 61, 102, 110, 40, 41, 123, 105, 109, 112,
      111, 114, 116, 40, 34, 98, 34, 41, 125, 59]
    let files : FileSystem := ⟨[], [(["d", "a"], .file library), (["d", "b"], .file [])]⟩
    let world : World := { files, searchPath := [] }
    let file : Expr := .call (.leaf ⟨.identifier, "import", ⟨1, 1⟩⟩) ⟨1, 7⟩
      [.leaf ⟨.string, "/d/a", ⟨1, 8⟩⟩]
    let call : Expr := .call (.index file ⟨1, 15⟩ (.leaf ⟨.string, "f", ⟨1, 16⟩⟩)) ⟨1, 20⟩ []
    let script : Origin := ⟨⟨⟨1, 1⟩, [.expr ⟨1, 1⟩ call]⟩, some "/main"⟩
    Text.fileText library = .ok "let f=fn()\x7bimport(\"b\")\x7d;" ∧
      ∃ origin moment,
        Written world script ((Machine.start none).entered world (some "/main")) origin moment ∧
        moment.calls ≠ [] ∧ origin.sourcePath = some "/d/a" ∧
        world.resolveImport origin.sourcePath "b" = some (["d", "b"], []) := by
  intro library files world file call script
  have statement : Occurs world script.program
      ((Machine.start none).entered world (some "/main")) _ := .statement .first
  have calls := Occurs.part statement (.operand .first)
  -- The function that is called is from the frame that the file was run in.
  obtain ⟨position, first, others, rest, ran, belongs⟩ : ∃ position first others rest,
      evaluate world 2998 topFrame (.expr (.index file ⟨1, 15⟩ (.leaf ⟨.string, "f", ⟨1, 16⟩⟩)))
        ((Machine.start none).entered world (some "/main")) =
          .ok (.function [] (.mk position (first :: others)) 1) rest ∧
        rest.Belongs 1 (some "/d/a") := by
    let found := evaluate world 2998 topFrame
      (.expr (.index file ⟨1, 15⟩ (.leaf ⟨.string, "f", ⟨1, 16⟩⟩)))
      ((Machine.start none).entered world (some "/main"))
    obtain ⟨isFrom, inside, isLibrary⟩ : (Eval.value? found).bind Value.scope? = some 1 ∧
        1 < (Eval.ended found).frames.size ∧
        ((Eval.ended found).frame 1).sourcePath = some "/d/a" := by decide +kernel
    obtain ⟨callee, gives, isFrom⟩ := Option.bind_eq_some_iff.mp isFrom
    obtain ⟨position, first, others, rfl⟩ := Value.of_scope? isFrom
    exact ⟨position, first, others, _, Eval.of_value? gives, inside, isLibrary⟩
  have makes : Calls (evaluate world 2998) topFrame (.expr call)
      ((Machine.start none).entered world (some "/main")) _ [] _ := .expr ran rfl
  have runs : RunsBody world _ ⟨2999, [], topFrame, .expr call, _⟩ _ := .intro makes rfl .first
  obtain ⟨written, lexical⟩ := imports_lexical world none (some "/main") script.program
  obtain ⟨origin, isWritten⟩ := written _ (calls.part runs.isPart)
  obtain ⟨-, -, -, -, path, -⟩ := lexical origin _ isWritten
  have isLibrary : origin.sourcePath = some "/d/a" :=
    path.symm.trans (runs.belongs belongs).sourcePath
  refine ⟨rfl, origin, _, isWritten, List.cons_ne_nil _ _, isLibrary, ?_⟩
  rw [isLibrary]
  rfl

end Monkey
