import Monkey.Proofs.Session.Origins

/-!
# Functions and the frames they are from

Every function that can be got at in a session is from a frame that is there, with all the frames
around it, and has a body that the reader can give. So it is whenever an evaluation begins or ends:
a function is made in the frame that its literal is evaluated in, and nothing takes frames away.
-/

set_option autoImplicit false

namespace Monkey

/-! ## Code that the reader can give -/

/-- The phrase is one that the reader can give. A call that a built-in function makes is of values
alone. -/
def Phrase.WellFormed : Phrase → Prop
  | .expr value => value.WellFormed
  | .stmt value => value.WellFormed
  | .apply _ _ => True

section Parts

variable {inner : Evaluator} {frame : FrameId} {machine reached : Machine} {phrase part : Phrase}

theorem Phrase.wellFormed_statements {list : List Stmt} (formed : ∀ stmt ∈ list, stmt.WellFormed) :
    ∀ part ∈ list.map Phrase.stmt, part.WellFormed := by
  intro part member
  obtain ⟨stmt, isStmt, rfl⟩ := List.mem_map.mp member
  exact formed stmt isStmt

theorem Block.WellFormed.phrases {body : Block} (formed : body.WellFormed) :
    ∀ part ∈ body.phrases, part.WellFormed := by
  obtain ⟨position, list⟩ := body
  exact Phrase.wellFormed_statements ((Stmt.allWellFormed_iff list).mp formed)

theorem Phrase.WellFormed.operands (formed : phrase.WellFormed) :
    ∀ part ∈ phrase.operands, part.WellFormed := by
  have items : ∀ list : List Expr, Expr.AllWellFormed list →
      ∀ part ∈ list.map Phrase.expr, part.WellFormed := by
    intro list all part member
    obtain ⟨item, isItem, rfl⟩ := List.mem_map.mp member
    exact (Expr.allWellFormed_iff list).mp all item isItem
  cases phrase with
  | apply callee arguments => exact nofun
  | stmt stmt =>
      cases stmt with
      | binding position name value => exact List.forall_mem_singleton.mpr formed.2
      | expr position value => exact List.forall_mem_singleton.mpr formed
      | _ => exact nofun
  | expr expr =>
      cases expr with
      | unary operator operand => exact List.forall_mem_singleton.mpr formed.2
      | binary left operator right =>
          exact List.forall_mem_cons.mpr ⟨formed.2.1, List.forall_mem_singleton.mpr formed.2.2⟩
      | array position list => exact items list formed
      | ifThen position condition consequence => exact List.forall_mem_singleton.mpr formed.1
      | ifElse position condition consequence alternative =>
          exact List.forall_mem_singleton.mpr formed.1
      | call callee position arguments =>
          exact List.forall_mem_cons.mpr ⟨formed.1, items arguments formed.2⟩
      | index target position place =>
          exact List.forall_mem_cons.mpr ⟨formed.1, List.forall_mem_singleton.mpr formed.2⟩
      | _ => exact nofun

theorem PairSequence.wellFormed {pairs : List Pair}
    (parts : PairSequence inner frame pairs machine part reached)
    (formed : Pair.AllWellFormed pairs) : part.WellFormed := by
  induction parts with
  | key => exact formed.1.1
  | value => exact formed.1.2
  | later _ _ _ _ ih => exact ih formed.2

theorem Enters.wellFormed {body : Block} {entered : Machine}
    (enters : Enters inner frame phrase machine body entered) (formed : phrase.WellFormed) :
    body.WellFormed := by
  cases enters with
  | expr | stmt => exact formed
  | ifThen => exact formed.2
  | consequence => exact formed.2.1
  | alternative => exact formed.2.2

theorem Nested.wellFormed {world : World} {whole part : Moment}
    (nested : Nested world whole part) (formed : whole.phrase.WellFormed) :
    part.phrase.WellFormed := by
  cases nested with
  | operand parts => exact formed.operands _ parts.mem
  | pair parts => exact parts.wellFormed formed
  | block enters parts => exact (enters.wellFormed formed).phrases _ parts.mem
  | returned => exact formed
  | mapped makes parts =>
      obtain ⟨item, -, isCall⟩ := List.mem_map.mp parts.mem
      rw [← isCall]
      trivial

end Parts

/-! ## Frames that are there -/

namespace Machine

/-- The frame is there, and so is each frame around it with those around that one. -/
inductive Anchored (machine : Machine) : FrameId → Prop
  | intro {frame : FrameId} (inside : frame < machine.frames.size)
      (around : ∀ outer ∈ (machine.frame frame).enclosing, Anchored machine outer) :
      Anchored machine frame

section Frames

variable {machine before after : Machine} {frame : FrameId}

theorem Anchored.inside (anchored : machine.Anchored frame) : frame < machine.frames.size := by
  cases anchored with
  | intro inside around => exact inside

theorem Anchored.scopes (anchored : machine.Anchored frame) :
    ∀ scope ∈ machine.scopes frame, machine.Anchored scope := by
  cases anchored with
  | intro inside around => exact List.forall_mem_cons.mpr ⟨.intro inside around, around⟩

theorem Anchored.mono (anchored : before.Anchored frame)
    (size : before.frames.size ≤ after.frames.size)
    (enclosing : ∀ id < before.frames.size,
      (after.frame id).enclosing = (before.frame id).enclosing) : after.Anchored frame := by
  induction anchored with
  | @intro frame inside _ ih =>
      refine .intro (Nat.lt_of_lt_of_le inside size) fun outer member => ih outer ?_
      rwa [← enclosing frame inside]

theorem Anchored.later (anchored : before.Anchored frame) (develops : before.Develops after) :
    after.Anchored frame :=
  anchored.mono develops.size develops.enclosing

theorem anchored_push {added : Frame} (around : ∀ outer ∈ added.enclosing, machine.Anchored outer)
    (running : List RealPath) :
    Anchored { machine with frames := machine.frames.push added, running }
      machine.frames.size := by
  have isAdded := machine.frame_pushed added machine.frames.size
  rw [if_pos rfl] at isAdded
  refine .intro (by simp) fun outer member => ?_
  have held : outer ∈ added.enclosing := isAdded ▸ member
  exact (around outer held).later (machine.develops_push added running)

theorem Anchored.withScope (anchored : machine.Anchored frame)
    (bindings : List (String × Value)) (isCall : Bool) :
    (machine.withScope frame bindings isCall).Anchored machine.frames.size :=
  anchored_push anchored.scopes machine.running

theorem anchored_withModule (machine : Machine) (real : RealPath) :
    (machine.withModule real).Anchored machine.frames.size :=
  anchored_push (fun _ member => absurd member List.not_mem_nil) (real :: machine.running)

end Frames

end Machine

section Ways

variable {world : World} {whole part : Moment}

theorem Nested.anchored (nested : Nested world whole part)
    (anchored : whole.machine.Anchored whole.frame) : part.machine.Anchored part.frame := by
  cases nested with
  | operand parts => exact anchored.later parts.becomes.develops
  | pair parts => exact anchored.later parts.becomes.develops
  | block enters parts =>
      have entered := (anchored.later enters.becomes.develops).withScope [] false
      exact entered.later parts.becomes.develops
  | returned => exact anchored
  | mapped makes parts => exact anchored.later (makes.becomes.trans parts.becomes).develops

theorem RunsBody.anchored {activation : Activation} (runs : RunsBody world activation whole part)
    (anchored : activation.machine.Anchored activation.outer) :
    part.machine.Anchored part.frame := by
  cases runs with
  | intro makes fits parts => exact (anchored.withScope _ true).later parts.becomes.develops

theorem RunsBody.wellFormed {activation : Activation} (runs : RunsBody world activation whole part)
    (formed : activation.body.WellFormed) : part.phrase.WellFormed := by
  cases runs with
  | intro makes fits parts => exact formed.phrases _ parts.mem

theorem RunsFile.anchored {path : String} {real : RealPath} {program : Program}
    (runs : RunsFile world path real program whole part) : part.machine.Anchored part.frame := by
  cases runs with
  | intro makes found free text parts =>
      exact (Machine.anchored_withModule _ real).later parts.becomes.develops

/-- Between the beginnings of an evaluation and of a part of it, nothing is taken away. -/
theorem Part.develops (isPart : Part world whole part) : whole.machine.Develops part.machine := by
  cases isPart with
  | operand parts => exact parts.becomes.develops
  | pair parts => exact parts.becomes.develops
  | block enters parts =>
      exact (enters.becomes.develops.trans (Machine.develops_push _ _ _)).trans
        parts.becomes.develops
  | returned => exact .refl _
  | body makes fits parts =>
      exact (makes.becomes.develops.trans (Machine.develops_push _ _ _)).trans
        parts.becomes.develops
  | mapped makes parts => exact (makes.becomes.trans parts.becomes).develops
  | imported makes found free text parts =>
      exact (makes.becomes.develops.trans (Machine.develops_push _ _ _)).trans
        parts.becomes.develops

theorem RunsFile.wellFormed {path : String} {real : RealPath} {program : Program}
    (runs : RunsFile world path real program whole part) : part.phrase.WellFormed := by
  cases runs with
  | intro makes found free text parts =>
      have formed := Correspondence.ModuleText.wellFormed text
      exact Phrase.wellFormed_statements formed _ parts.mem

end Ways

namespace Machine

/-! ## Values that a machine owns -/

/-- Each function in the value is from a frame that is there and has a body that the reader can
give. -/
def Owns (machine : Machine) (value : Value) : Prop :=
  value.Traced fun _ body frame => body.WellFormed ∧ machine.Anchored frame

/-- The top frame is there, and all values that are bound are owned. -/
structure Intact (machine : Machine) : Prop where
  top : machine.Anchored topFrame
  bound : ∀ id, ∀ entry ∈ (machine.frame id).bindings, machine.Owns entry.2

/-- Evaluations of code that the reader can give in frames that are there. -/
def anchoring (world : World) : Tracing world where
  holds moment := moment.phrase.WellFormed ∧ moment.machine.Anchored moment.frame
  made machine _ body frame := body.WellFormed ∧ machine.Anchored frame
  offered _ := True
  placed _ := True
  later develops made := ⟨made.1, made.2.later develops⟩
  literal holds := ⟨holds.1.2, holds.2⟩
  named _ _ _ := trivial
  position _ _ := trivial
  nested holds nested := ⟨nested.wellFormed holds.1, nested.anchored holds.2⟩
  body _ runs made := ⟨runs.wellFormed made.1, runs.anchored made.2⟩
  file _ _ runs := ⟨runs.wellFormed, runs.anchored⟩

theorem anchoring_knows {world : World} {machine : Machine} {value : Value} :
    (anchoring world).Knows machine value ↔ machine.Owns value :=
  Value.carries_iff_traced

theorem anchoring_knowsMachine {world : World} {machine : Machine} :
    (anchoring world).KnowsMachine machine ↔
      ∀ id, ∀ entry ∈ (machine.frame id).bindings, machine.Owns entry.2 :=
  forall_congr' fun _ => forall₂_congr fun _ _ => anchoring_knows

theorem intact_start (sourcePath : Option String) : (Machine.start sourcePath).Intact where
  top := .intro Nat.zero_lt_one fun _ member => absurd member List.not_mem_nil
  bound id entry member := by
    have nothing : ((Machine.start sourcePath).frame id).bindings = [] := by
      cases id with
      | zero => rfl
      | succ id =>
          rw [frame_outside _ (Nat.le_add_left 1 id)]
          rfl
    rw [nothing] at member
    cases member

section Runs

variable {machine before after : Machine} {world : World} {program : Program}

/-- It does not matter which files frames belong to, which files are running and what is printed. -/
theorem Intact.of_shapes (intact : before.Intact) (shapes : before.Shapes after)
    (same : ∀ id, (after.frame id).bindings = (before.frame id).bindings) : after.Intact where
  top := intact.top.mono shapes.size shapes.enclosing
  bound id entry member := by
    rw [same] at member
    refine (intact.bound id entry member).mono fun parameters body frame made => ?_
    exact ⟨made.1, made.2.mono shapes.size shapes.enclosing⟩

theorem Intact.withOutput (intact : machine.Intact) (output : String) :
    Intact { machine with output } :=
  intact.of_shapes (machine.shapes_withOutput output) fun _ => rfl

theorem bindings_prepare (machine : Machine) (sourcePath : Option String) (id : FrameId) :
    ((machine.prepare sourcePath).frame id).bindings = (machine.frame id).bindings := by
  cases sourcePath with
  | none => rfl
  | some path =>
      let cleared : Machine := { machine with output := "" }
      change ((cleared.modifyFrame topFrame _).frame id).bindings = (cleared.frame id).bindings
      by_cases inside : id < cleared.frames.size
      · rw [frame_modify _ _ _ _ inside]
        split <;> rfl
      · have outside := Nat.not_lt.mp inside
        rw [frame_outside _ (by rwa [size_modify]), frame_outside _ outside]

theorem Intact.entered (intact : machine.Intact) (world : World) (sourcePath : Option String) :
    (machine.entered world sourcePath).Intact := by
  refine intact.of_shapes (machine.shapes_entered world sourcePath) fun id => ?_
  rw [← machine.bindings_prepare sourcePath id]
  cases sourcePath <;> rfl

theorem Intact.exited (intact : machine.Intact) (sourcePath : Option String) :
    (machine.exited sourcePath).Intact := by
  cases sourcePath with
  | none => exact intact
  | some path => exact intact.of_shapes (machine.shapes_withRunning _) fun _ => rfl

/-- Every evaluation of a run is of code that the reader can give, on a machine that owns what it
works with. -/
theorem Occurs.anchored (intact : machine.Intact) (formed : program.WellFormed) {moment : Moment}
    (occurs : Occurs world program machine moment) : (anchoring world).Follows moment := by
  refine occurs.followed (fun part reached parts => ?_) (anchoring_knowsMachine.mpr intact.bound)
  exact ⟨Phrase.wellFormed_statements formed _ parts.mem,
    intact.top.later parts.becomes.develops⟩

theorem Occurs.develops {moment : Moment} (occurs : Occurs world program machine moment) :
    machine.Develops moment.machine := by
  induction occurs with
  | statement parts => exact parts.becomes.develops
  | part _ isPart ih => exact ih.trans isPart.develops

theorem Occurs.intact (intact : machine.Intact) (formed : program.WellFormed) {moment : Moment}
    (occurs : Occurs world program machine moment) : moment.machine.Intact :=
  ⟨intact.top.later (Occurs.develops occurs),
    anchoring_knowsMachine.mp (Occurs.anchored intact formed occurs).machine⟩

theorem Occurs.intact_ended (intact : machine.Intact) (formed : program.WellFormed)
    {moment : Moment} (occurs : Occurs world program machine moment) :
    (Eval.ended (moment.result world)).Intact := by
  have changes := evaluate_changes world moment.limit moment.frame moment.phrase moment.machine
  have ends := (Occurs.anchored intact formed occurs).ends
  exact ⟨(Occurs.intact intact formed occurs).top.later changes.develops,
    anchoring_knowsMachine.mp (Tracing.Ends.ended ends)⟩

theorem Intact.runProgram (intact : machine.Intact) (formed : program.WellFormed) :
    (Eval.ended (runProgram world program machine)).Intact := by
  have changes := Eval.statements_changes (evaluate_changes world world.evaluationLimit) topFrame
    program.statements .nil machine
  have ends : (anchoring world).Ends (anchoring world).Knows
      (Eval.statements (evaluate world world.evaluationLimit) topFrame program.statements .nil
        machine) :=
    Tracing.statements_ends (fun part reached parts =>
      (Occurs.anchored intact formed (.statement parts)).ends)
      (anchoring_knowsMachine.mpr intact.bound) .nil
  rw [Machine.runProgram, Eval.ended_located]
  exact ⟨intact.top.later changes.develops,
    anchoring_knowsMachine.mp (Tracing.Ends.ended ends)⟩

theorem Intact.execute (intact : machine.Intact) (world : World) (formed : program.WellFormed)
    (sourcePath : Option String) : (machine.execute world program sourcePath).2.Intact := by
  have ran : (Eval.ended (Machine.runProgram world program _)).Intact :=
    (intact.entered world sourcePath).runProgram formed
  rw [execute_eq]
  cases result : Machine.runProgram world program (machine.entered world sourcePath) with
  | ok value rest | error stop rest =>
      rw [result] at ran
      exact ran.exited sourcePath

theorem Reachable.intact (reached : machine.Reachable) : machine.Intact := by
  induction reached with
  | start sourcePath => exact intact_start sourcePath
  | @run machine reached world source sourcePath ih =>
      cases read : Program.ofSource source world.nestingLimit with
      | error numeral =>
          rw [Machine.run, read]
          exact ih.withOutput ""
      | ok parsed =>
          cases found : parsed.diagnostics with
          | nil =>
              rw [Machine.run_eq_execute read found]
              exact ih.execute world (Program.wellFormed_of_ofSource read) sourcePath
          | cons diagnostic rest =>
              rw [Machine.run, read]
              dsimp only
              rw [found]
              exact ih.withOutput ""

end Runs

/-! ## States of sessions -/

/-- A machine that a session has come to: between two runs, or where an evaluation of a run begins,
makes a call or has ended. -/
inductive Visited : Machine → Prop
  | session {machine : Machine} (reached : machine.Reachable) : Visited machine
  | begins {machine : Machine} (reached : machine.Reachable) {world : World} {source : String}
      {parsed : Parsed} (accepted : Program.ofSource source world.nestingLimit = .ok parsed)
      (clean : parsed.diagnostics = []) (sourcePath : Option String) {moment : Moment}
      (occurs : Occurs world parsed.program (machine.entered world sourcePath) moment) :
      Visited moment.machine
  | calls {machine : Machine} (reached : machine.Reachable) {world : World} {source : String}
      {parsed : Parsed} (accepted : Program.ofSource source world.nestingLimit = .ok parsed)
      (clean : parsed.diagnostics = []) (sourcePath : Option String) {limit : Nat}
      {active : List Activation} {frame : FrameId} {phrase : Phrase} {before called : Machine}
      (occurs : Occurs world parsed.program (machine.entered world sourcePath)
        ⟨limit + 1, active, frame, phrase, before⟩) {callee : Value} {arguments : List Value}
      (makes : Calls (evaluate world limit) frame phrase before callee arguments called) :
      Visited called
  | ended {machine : Machine} (reached : machine.Reachable) {world : World} {source : String}
      {parsed : Parsed} (accepted : Program.ofSource source world.nestingLimit = .ok parsed)
      (clean : parsed.diagnostics = []) (sourcePath : Option String) {moment : Moment}
      (occurs : Occurs world parsed.program (machine.entered world sourcePath) moment) :
      Visited (Eval.ended (moment.result world))

section States

variable {machine : Machine}

/-- What a call in a run is made of is owned where it is made. -/
theorem Occurs.owns_call {world : World} {program : Program} (intact : machine.Intact)
    (formed : program.WellFormed) {limit : Nat} {active : List Activation} {frame : FrameId}
    {phrase : Phrase} {before called : Machine} {callee : Value} {arguments : List Value}
    (occurs : Occurs world program machine ⟨limit + 1, active, frame, phrase, before⟩)
    (makes : Calls (evaluate world limit) frame phrase before callee arguments called) :
    (called.Anchored frame ∧ called.Owns callee ∧
      ∀ argument ∈ arguments, called.Owns argument) ∧ called.Intact := by
  have follows := Occurs.anchored intact formed occurs
  obtain ⟨⟨calleeOwned, argumentsOwned⟩, bound⟩ :=
    Tracing.calls_known (fun _ _ partFollows => partFollows.ends) follows makes
  have develops := makes.becomes.develops
  have anchored := follows.holds.2.later develops
  refine ⟨⟨anchored, anchoring_knows.mp calleeOwned, fun argument member =>
    anchoring_knows.mp (argumentsOwned argument member)⟩, ?_, anchoring_knowsMachine.mp bound⟩
  exact (intact.top.later (Occurs.develops occurs)).later develops

theorem Visited.intact (visited : machine.Visited) : machine.Intact := by
  cases visited with
  | session reached => exact reached.intact
  | @begins before reached world source parsed accepted clean sourcePath moment occurs =>
      exact Occurs.intact (reached.intact.entered world sourcePath)
        (Program.wellFormed_of_ofSource accepted) occurs
  | calls reached accepted clean sourcePath occurs makes =>
      exact (Occurs.owns_call (reached.intact.entered _ sourcePath)
        (Program.wellFormed_of_ofSource accepted) occurs makes).2
  | @ended before reached world source parsed accepted clean sourcePath moment occurs =>
      exact Occurs.intact_ended (reached.intact.entered world sourcePath)
        (Program.wellFormed_of_ofSource accepted) occurs

end States

end Machine

end Monkey
