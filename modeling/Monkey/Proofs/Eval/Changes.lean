import Monkey.Proofs.Eval.Moments

/-!
# How evaluation changes a machine

Whatever is evaluated, and however its evaluation ends, the machine changes in small steps only: a
frame is added, a name is bound, a text is printed, or a file counts as running for as long as other
such steps are taken. What every one of these steps preserves, evaluation preserves. So the files
that are running are the same afterwards, and the frames there were belong to the same files.
-/

set_option autoImplicit false

namespace Monkey

namespace Machine

/-- The first machine changes into the second by steps of evaluation. -/
inductive Becomes : Machine → Machine → Prop
  | refl (machine : Machine) : Becomes machine machine
  | trans {before between after : Machine} (first : Becomes before between)
      (second : Becomes between after) : Becomes before after
  | push (machine : Machine) (added : Frame) :
      Becomes machine { machine with frames := machine.frames.push added }
  | bind (machine : Machine) (id : FrameId) (name : String) (value : Value) :
      Becomes machine (machine.modifyFrame id fun frame =>
        { frame with bindings := Entries.put name value frame.bindings })
  | print (machine : Machine) (text : String) :
      Becomes machine { machine with output := machine.output ++ text }
  /-- The file that was entered last is the one that is left. -/
  | enter {machine rest : Machine} (path : RealPath)
      (inside : Becomes { machine with running := path :: machine.running } rest) :
      Becomes machine { rest with running := rest.running.tail }

variable {machine before between after : Machine}

theorem Becomes.running_eq (becomes : before.Becomes after) : after.running = before.running := by
  induction becomes with
  | refl => rfl
  | trans _ _ ihFirst ihSecond => exact ihSecond.trans ihFirst
  | push => rfl
  | bind => rfl
  | print => rfl
  | enter path _ ih => exact congrArg List.tail ih

/-- Frames have been added, and each of the others still belongs to the same file. -/
structure Grows (before after : Machine) : Prop where
  size : before.frames.size ≤ after.frames.size
  sourcePath : ∀ id < before.frames.size,
    (after.frame id).sourcePath = (before.frame id).sourcePath

theorem Grows.refl (machine : Machine) : machine.Grows machine := ⟨Nat.le_refl _, fun _ _ => rfl⟩

theorem Grows.trans (first : before.Grows between) (second : between.Grows after) :
    before.Grows after where
  size := Nat.le_trans first.size second.size
  sourcePath id inside :=
    (second.sourcePath id (Nat.lt_of_lt_of_le inside first.size)).trans (first.sourcePath id inside)

/-- What is printed and which files are running does not matter. -/
theorem Grows.of_frames (same : after.frames = before.frames) : before.Grows after :=
  ⟨Nat.le_of_eq (by rw [same]), fun id _ => by rw [frame, frame, same]⟩

theorem grows_push (machine : Machine) (added : Frame) (running : List RealPath) :
    machine.Grows { machine with frames := machine.frames.push added, running } :=
  ⟨by simp, fun _ inside => congrArg Frame.sourcePath (machine.frame_push added inside)⟩

theorem Becomes.grows (becomes : before.Becomes after) : before.Grows after := by
  induction becomes with
  | refl machine => exact .refl machine
  | trans _ _ ihFirst ihSecond => exact ihFirst.trans ihSecond
  | push machine added => exact machine.grows_push added machine.running
  | bind machine id name value =>
      refine ⟨Nat.le_of_eq (machine.size_modify id _).symm, fun other inside => ?_⟩
      rw [machine.frame_modify id other _ inside]
      split <;> rfl
  | print => exact .of_frames rfl
  | enter path _ ih => exact ⟨ih.size, ih.sourcePath⟩

/-- Frames have been added, and each of the others still belongs to the same file and has the same
frames around it. -/
structure Develops (before after : Machine) : Prop extends before.Grows after where
  enclosing : ∀ id < before.frames.size, (after.frame id).enclosing = (before.frame id).enclosing

theorem Develops.refl (machine : Machine) : machine.Develops machine :=
  ⟨.refl machine, fun _ _ => rfl⟩

theorem Develops.trans (first : before.Develops between) (second : between.Develops after) :
    before.Develops after where
  toGrows := first.toGrows.trans second.toGrows
  enclosing id inside :=
    (second.enclosing id (Nat.lt_of_lt_of_le inside first.size)).trans (first.enclosing id inside)

theorem Develops.of_frames (same : after.frames = before.frames) : before.Develops after :=
  ⟨.of_frames same, fun id _ => by rw [frame, frame, same]⟩

theorem develops_push (machine : Machine) (added : Frame) (running : List RealPath) :
    machine.Develops { machine with frames := machine.frames.push added, running } :=
  ⟨machine.grows_push added running,
    fun _ inside => congrArg Frame.enclosing (machine.frame_push added inside)⟩

theorem Becomes.develops (becomes : before.Becomes after) : before.Develops after := by
  refine ⟨becomes.grows, ?_⟩
  induction becomes with
  | refl machine => exact fun _ _ => rfl
  | trans first _ ihFirst ihSecond =>
      intro id inside
      exact (ihSecond id (Nat.lt_of_lt_of_le inside first.grows.size)).trans (ihFirst id inside)
  | push machine added => exact (machine.develops_push added machine.running).enclosing
  | bind machine id name value =>
      intro other inside
      rw [machine.frame_modify id other _ inside]
      split <;> rfl
  | print => exact fun _ _ => rfl
  | enter path _ ih => exact ih

end Machine

namespace Eval

variable {α β : Type}

/-- However the computation ends, it has changed the machine by steps of evaluation. -/
def Changes (run : Eval α) : Prop := ∀ machine : Machine, machine.Becomes (ended (run machine))

section Rules

variable {run : Eval α}

theorem Changes.pure (value : α) : (Pure.pure value : Eval α).Changes :=
  fun machine => .refl machine

theorem Changes.throw (stop : Stop) : (MonadExcept.throw stop : Eval α).Changes :=
  fun machine => .refl machine

theorem Changes.fail (fault : RuntimeFault) : (Eval.fail fault : Eval α).Changes := .throw _

theorem Changes.ofExcept (result : Except RuntimeFault α) : (Eval.ofExcept result).Changes := by
  cases result with
  | ok value => exact .pure value
  | error fault => exact .fail fault

theorem Changes.bind {next : α → Eval β} (first : run.Changes)
    (second : ∀ value, (next value).Changes) : (run >>= next).Changes := by
  intro machine
  have before := first machine
  rw [bind_apply]
  cases result : run machine with
  | error stop rest =>
      rw [result] at before
      exact before
  | ok value rest =>
      rw [result] at before
      exact before.trans (second value rest)

theorem Changes.get {next : Machine → Eval β} (second : ∀ machine, (next machine).Changes) :
    (MonadState.get >>= next).Changes :=
  fun machine => second machine machine

theorem Changes.of_ended {wrapped : Eval β}
    (same : ∀ machine, ended (wrapped machine) = ended (run machine)) (changes : run.Changes) :
    wrapped.Changes := by
  intro machine
  rw [same]
  exact changes machine

theorem Changes.located (site : Site) (changes : run.Changes) :
    (Eval.located site run).Changes :=
  changes.of_ended (ended_located site run)

theorem Changes.catchReturn {run : Eval Value} (changes : run.Changes) :
    (Eval.catchReturn run).Changes :=
  changes.of_ended (ended_catchReturn run)

theorem Changes.mapError (change : RuntimeError → RuntimeFault) (changes : run.Changes) :
    (Eval.mapError change run).Changes :=
  changes.of_ended (ended_mapError change run)

theorem Changes.whileRunning (path : RealPath) (changes : run.Changes) :
    (Eval.whileRunning path run).Changes := by
  intro machine
  have inside := Machine.Becomes.enter path
    (changes { machine with running := path :: machine.running })
  unfold Eval.whileRunning
  cases result : run { machine with running := path :: machine.running } with
  | ok value rest =>
      rw [result] at inside
      exact inside
  | error stop rest =>
      rw [result] at inside
      exact inside

theorem Changes.whileRunning? (path : Option RealPath) (changes : run.Changes) :
    (Eval.whileRunning? path run).Changes := by
  cases path with
  | none => exact changes
  | some path => exact changes.whileRunning path

theorem Changes.newFrame {added : Frame} {next : FrameId → Eval β}
    (second : ∀ id, (next id).Changes) : (Eval.newFrame added >>= next).Changes :=
  fun machine => (Machine.Becomes.push machine added).trans (second machine.frames.size _)

theorem Changes.newFrameIn {outer : FrameId} {bindings : List (String × Value)} {isCall : Bool}
    {next : FrameId → Eval β} (second : ∀ id, (next id).Changes) :
    (Eval.newFrameIn outer bindings isCall >>= next).Changes :=
  fun machine => Changes.newFrame second machine

theorem Changes.nameValue (id : FrameId) (name : String) : (Eval.nameValue id name).Changes := by
  intro machine
  unfold Eval.nameValue
  cases machine.lookup id name with
  | some value => exact .refl machine
  | none =>
      cases Builtin.ofName? name with
      | some callee => exact .refl machine
      | none => exact .refl machine

theorem Changes.print (text : String) : (Eval.print text).Changes :=
  fun machine => .print machine text

theorem Changes.define (id : FrameId) (name : String) (value : Value) :
    (Eval.define id name value).Changes :=
  fun machine => .bind machine id name value

theorem Changes.collect {item : α → Eval β} (each : ∀ value, (item value).Changes)
    (list : List α) (done : List β) : (Eval.collect item list done).Changes := by
  induction list generalizing done with
  | nil => exact .pure _
  | cons value rest ih =>
      apply Changes.bind (each value)
      intro result
      exact ih (result :: done)

end Rules

/-! ## Evaluators -/

section Phrases

variable {inner : Evaluator} (changes : ∀ frame phrase, (inner frame phrase).Changes)
include changes

theorem statements_changes (frame : FrameId) (list : List Stmt) (result : Value) :
    (statements inner frame list result).Changes := by
  induction list generalizing result with
  | nil => exact .pure _
  | cons stmt rest ih =>
      apply Changes.bind (changes frame (.stmt stmt))
      intro value
      exact ih value

theorem block_changes (frame : FrameId) (body : Block) : (block inner frame body).Changes :=
  .newFrameIn fun scope => statements_changes changes scope _ _

theorem exprs_changes (frame : FrameId) (items : List Expr) :
    (exprs inner frame items).Changes :=
  .collect (fun item => changes frame (.expr item)) items []

theorem pairs_changes (frame : FrameId) (list : List Pair) (done : List (Key × Value)) :
    (pairs inner frame list done).Changes := by
  induction list generalizing done with
  | nil => exact .pure _
  | cons pair rest ih =>
      obtain ⟨position, key, value⟩ := pair
      apply Changes.bind (changes frame (.expr key))
      intro keyValue
      cases keyValue.key? with
      | none => exact .located _ (.fail _)
      | some hashKey =>
          apply Changes.bind (changes frame (.expr value))
          intro held
          exact ih _

omit changes in
theorem leaf_changes (frame : FrameId) (token : Token) : (leaf frame token).Changes := by
  unfold leaf
  cases token.kind with
  | identifier => exact .nameValue frame token.text
  | integer =>
      cases Text.readInteger token.text with
      | ok n => exact .pure _
      | error numeral => exact .throw _
  | string | kwTrue | kwFalse | kwNil => exact .pure _
  | _ => exact .fail _

/-! ### Calls -/

theorem callFunction_changes (parameters : List String) (body : Block) (frame : FrameId)
    (arguments : List Value) : (callFunction inner parameters body frame arguments).Changes := by
  unfold callFunction
  split
  · exact .fail _
  · exact .newFrameIn fun scope => .catchReturn (statements_changes changes scope _ _)

theorem runModule_changes (real : RealPath) (path : String) (program : Program) :
    (runModule inner real path program).Changes := by
  apply Changes.newFrame
  intro scope
  have ran : (statements inner scope program.statements .nil).Changes :=
    statements_changes changes scope _ _
  apply Changes.bind (.mapError _ (.whileRunning real (.located _ ran)))
  intro last
  exact .get fun _ => .pure _

theorem importFile_changes (world : World) (frame : FrameId) (path : String) :
    (importFile world inner frame path).Changes := by
  apply Changes.get
  intro machine
  cases world.resolveImport (machine.frame frame).sourcePath path with
  | none => exact .fail _
  | some found =>
      obtain ⟨real, content⟩ := found
      dsimp only
      split
      · exact .fail _
      cases ModuleText.ofContent content world.nestingLimit with
      | program program => exact runModule_changes changes real path program
      | faulty fault => exact .fail _
      | unreadableNumeral crash => exact .throw _

theorem map_changes (frame : FrameId) (callee array : Value) :
    (do
      let items ← ofExcept (Value.arrayArgument .map array)
      let results ← collect (fun item => inner frame (.apply callee [item])) items []
      pure (.array results) : Eval Value).Changes := by
  apply Changes.bind (.ofExcept _)
  intro items
  have collected := Changes.collect (fun item => changes frame (.apply callee [item])) items []
  exact .bind collected fun _ => .pure _

theorem runBuiltin_changes (world : World) (frame : FrameId) (callee : Builtin)
    (arguments : List Value) : (runBuiltin world inner frame callee arguments).Changes := by
  unfold runBuiltin
  split
  case h_9 => exact map_changes changes frame _ _
  case h_10 =>
    split
    · exact .pure _
    · exact .fail _
  case h_11 => exact importFile_changes changes world frame _
  case h_15 => exact .bind (.print _) fun _ => .pure _
  all_goals first | exact .ofExcept _ | exact .pure _ | exact .fail _

theorem call_changes (world : World) (frame : FrameId) (callee : Value) (arguments : List Value) :
    (call world inner frame callee arguments).Changes := by
  cases callee with
  | function parameters body scope =>
      exact callFunction_changes changes parameters body scope arguments
  | builtin callee => exact runBuiltin_changes changes world frame callee arguments
  | _ => exact .fail _

/-! ### Phrases -/

theorem conditional_changes (frame : FrameId) (condition : Expr) (consequence : Block)
    {otherwise : Eval Value} (other : otherwise.Changes) :
    (conditional inner frame condition consequence otherwise).Changes := by
  apply Changes.bind (changes frame (.expr condition))
  intro held
  split
  · exact block_changes changes frame consequence
  · exact other

theorem expr_changes (world : World) (frame : FrameId) (value : Expr) :
    (expr world inner frame value).Changes := by
  cases value with
  | leaf token => exact leaf_changes frame token
  | unary operator operand => exact .bind (changes frame (.expr operand)) fun _ => .ofExcept _
  | binary left operator right =>
      apply Changes.bind (changes frame (.expr left))
      intro leftValue
      exact .bind (changes frame (.expr right)) fun _ => .ofExcept _
  | array position items => exact .bind (exprs_changes changes frame items) fun _ => .pure _
  | hash position entries => exact .bind (pairs_changes changes frame entries []) fun _ => .pure _
  | block body => exact block_changes changes frame body
  | ifThen position condition consequence =>
      exact conditional_changes changes frame condition consequence (.pure _)
  | ifElse position condition consequence alternative =>
      have other : (block inner frame alternative).Changes :=
        block_changes changes frame alternative
      exact conditional_changes changes frame condition consequence other
  | function position parametersPosition parameters body => exact .pure _
  | call callee position arguments =>
      apply Changes.bind (changes frame (.expr callee))
      intro calleeValue
      apply Changes.bind (exprs_changes changes frame arguments)
      intro values
      exact call_changes changes world frame calleeValue values
  | index target position place =>
      apply Changes.bind (changes frame (.expr target))
      intro targetValue
      exact .bind (changes frame (.expr place)) fun _ => .ofExcept _

omit changes in
theorem returning_changes (frame : FrameId) {value : Eval Value} (changes : value.Changes) :
    (returning frame value).Changes := by
  apply Changes.get
  intro machine
  split
  · exact .bind changes fun _ => .throw _
  · exact .fail _

theorem stmt_changes (frame : FrameId) (stmt : Stmt) : (Eval.stmt inner frame stmt).Changes := by
  cases stmt with
  | binding position name value =>
      apply Changes.bind (changes frame (.expr value))
      intro held
      exact .bind (.define frame name.text held) fun _ => .pure _
  | returnNil position => exact returning_changes frame (.pure _)
  | returnValue position value => exact returning_changes frame (changes frame (.expr value))
  | block body => exact block_changes changes frame body
  | expr position value => exact changes frame (.expr value)

end Phrases

end Eval

theorem evaluate_changes (world : World) (limit : Nat) (frame : FrameId) (phrase : Phrase) :
    (evaluate world limit frame phrase).Changes := by
  induction limit generalizing frame phrase with
  | zero => exact .throw _
  | succ limit ih =>
      refine .located _ ?_
      cases phrase with
      | expr value => exact Eval.expr_changes ih world frame value
      | stmt value => exact Eval.stmt_changes ih frame value
      | apply callee arguments => exact Eval.call_changes ih world frame callee arguments

/-! ## On the way to a part -/

section Parts

variable {world : World} {limit : Nat} {frame : FrameId} {machine reached : Machine}
  {part : Phrase}

theorem evaluate_becomes {phrase : Phrase} {value : Value} {rest : Machine}
    (ran : evaluate world limit frame phrase machine = .ok value rest) : machine.Becomes rest := by
  have becomes := evaluate_changes world limit frame phrase machine
  rwa [ran] at becomes

theorem Eval.exprs_becomes {items : List Expr} {values : List Value} {rest : Machine}
    (ran : Eval.exprs (evaluate world limit) frame items machine = .ok values rest) :
    machine.Becomes rest := by
  have becomes := exprs_changes (evaluate_changes world limit) frame items machine
  rwa [ran] at becomes

theorem Sequence.becomes {phrases : List Phrase}
    (parts : Sequence (evaluate world limit) frame phrases machine part reached) :
    machine.Becomes reached := by
  induction parts with
  | first => exact .refl _
  | later ran _ ih => exact (evaluate_becomes ran).trans ih

theorem PairSequence.becomes {pairs : List Pair}
    (parts : PairSequence (evaluate world limit) frame pairs machine part reached) :
    machine.Becomes reached := by
  induction parts with
  | key => exact .refl _
  | value ran => exact evaluate_becomes ran
  | later ran _ valueRan _ ih =>
      exact ((evaluate_becomes ran).trans (evaluate_becomes valueRan)).trans ih

theorem Enters.becomes {phrase : Phrase} {body : Block} {entered : Machine}
    (enters : Enters (evaluate world limit) frame phrase machine body entered) :
    machine.Becomes entered := by
  cases enters with
  | expr | stmt => exact .refl _
  | ifThen ran | consequence ran | alternative ran => exact evaluate_becomes ran

theorem Calls.becomes {phrase : Phrase} {callee : Value} {arguments : List Value}
    {called : Machine}
    (makes : Calls (evaluate world limit) frame phrase machine callee arguments called) :
    machine.Becomes called := by
  cases makes with
  | expr ran argumentsRan => exact (evaluate_becomes ran).trans (Eval.exprs_becomes argumentsRan)
  | apply => exact .refl _

end Parts

end Monkey
