import Monkey.Eval.Phrase

/-!
# Scopes that evaluation leaves alone

Evaluation binds names only in the frame its statement stands in, and every statement that an
expression runs, in a block, a call or an imported file, stands in a frame that was added for it. So
an expression changes no frame that was there before, however its evaluation ends, and a statement
changes at most the bindings of its own frame.
-/

set_option autoImplicit false

namespace Monkey

/-! ## Machines that keep frames -/

/-- The second machine still has the first so many frames as they are in the first machine, and no
fewer frames altogether. -/
structure Machine.Extends (count : Nat) (before after : Machine) : Prop where
  size : before.frames.size ≤ after.frames.size
  frame : ∀ id < count, after.frame id = before.frame id

namespace Machine

theorem Extends.refl (count : Nat) (machine : Machine) : machine.Extends count machine :=
  ⟨Nat.le_refl _, fun _ _ => rfl⟩

theorem Extends.trans {count : Nat} {before between after : Machine}
    (first : before.Extends count between) (second : between.Extends count after) :
    before.Extends count after :=
  ⟨Nat.le_trans first.size second.size,
    fun id inside => (second.frame id inside).trans (first.frame id inside)⟩

theorem frame_outside (machine : Machine) {id : FrameId} (outside : machine.frames.size ≤ id) :
    machine.frame id = default := by
  simp [frame, Nat.not_lt.mpr outside]

theorem frame_pushed (machine : Machine) (added : Frame) (id : FrameId) :
    ({ machine with frames := machine.frames.push added } : Machine).frame id =
      if id = machine.frames.size then added else machine.frame id := by
  simp only [frame, Array.getD_eq_getD_getElem?, Array.getElem?_push]
  split <;> rfl

theorem frame_push (machine : Machine) (added : Frame) {id : FrameId}
    (inside : id < machine.frames.size) :
    ({ machine with frames := machine.frames.push added } : Machine).frame id =
      machine.frame id := by
  rw [frame_pushed, if_neg (Nat.ne_of_lt inside)]

theorem frame_modify (machine : Machine) (id other : FrameId) (change : Frame → Frame)
    (inside : other < machine.frames.size) :
    (machine.modifyFrame id change).frame other =
      if id = other then change (machine.frame other) else machine.frame other := by
  simp only [frame, modifyFrame, Array.getD_eq_getD_getElem?, Array.getElem?_modify]
  split
  · rw [Array.getElem?_eq_getElem inside]
    rfl
  · rfl

@[simp] theorem size_modify (machine : Machine) (id : FrameId) (change : Frame → Frame) :
    (machine.modifyFrame id change).frames.size = machine.frames.size :=
  Array.size_modify

end Machine

namespace Eval

variable {α β : Type} {count : Nat}

def ended : EStateM.Result Stop Machine α → Machine
  | .ok _ rest | .error _ rest => rest

/-- The value that a computation gives, if it gives one. -/
def value? : EStateM.Result Stop Machine α → Option α
  | .ok value _ => some value
  | .error _ _ => none

theorem of_value? {result : EStateM.Result Stop Machine α} {value : α}
    (gives : value? result = some value) : result = .ok value (ended result) := by
  cases result with
  | ok given rest =>
      cases gives
      rfl
  | error stop rest => cases gives

/-- The computation changes none of the first so many frames, of a machine that has as many. -/
def Keeps (count : Nat) (run : Eval α) : Prop :=
  ∀ machine : Machine, count ≤ machine.frames.size → machine.Extends count (ended (run machine))

theorem bind_apply (run : Eval α) (next : α → Eval β) (machine : Machine) :
    (run >>= next) machine =
      match run machine with
      | .ok value rest => next value rest
      | .error stop rest => .error stop rest := by
  show EStateM.bind run next machine = _
  unfold EStateM.bind
  cases run machine <;> rfl

section Rules

variable {run : Eval α}

theorem Keeps.pure (value : α) : (Pure.pure value : Eval α).Keeps count :=
  fun machine _ => .refl count machine

theorem Keeps.throw (stop : Stop) : (MonadExcept.throw stop : Eval α).Keeps count :=
  fun machine _ => .refl count machine

theorem Keeps.fail (fault : RuntimeFault) : (Eval.fail fault : Eval α).Keeps count :=
  .throw _

theorem Keeps.ofExcept (result : Except RuntimeFault α) : (Eval.ofExcept result).Keeps count := by
  cases result with
  | ok value => exact .pure value
  | error fault => exact .fail fault

theorem Keeps.bind {next : α → Eval β} (first : run.Keeps count)
    (second : ∀ value, (next value).Keeps count) : (run >>= next).Keeps count := by
  intro machine enough
  have before := first machine enough
  rw [bind_apply]
  cases result : run machine with
  | error stop rest =>
      rw [result] at before
      exact before
  | ok value rest =>
      rw [result] at before
      exact before.trans (second value rest (Nat.le_trans enough before.size))

theorem Keeps.get {next : Machine → Eval β} (second : ∀ machine, (next machine).Keeps count) :
    (MonadState.get >>= next).Keeps count :=
  fun machine enough => second machine machine enough

/-- Keeping frames depends only on the machine in which a computation ends. -/
theorem Keeps.of_ended {wrapped : Eval β}
    (same : ∀ machine, ended (wrapped machine) = ended (run machine)) (keeps : run.Keeps count) :
    wrapped.Keeps count := by
  intro machine enough
  rw [same]
  exact keeps machine enough

theorem ended_located (site : Site) (run : Eval α) (machine : Machine) :
    ended (Eval.located site run machine) = ended (run machine) := by
  unfold Eval.located
  cases run machine with
  | ok value rest => rfl
  | error stop rest => cases stop <;> rfl

theorem ended_catchReturn (run : Eval Value) (machine : Machine) :
    ended (Eval.catchReturn run machine) = ended (run machine) := by
  unfold Eval.catchReturn
  cases run machine with
  | ok value rest => rfl
  | error stop rest => cases stop <;> rfl

theorem ended_mapError (change : RuntimeError → RuntimeFault) (run : Eval α) (machine : Machine) :
    ended (Eval.mapError change run machine) = ended (run machine) := by
  unfold Eval.mapError
  cases run machine with
  | ok value rest => rfl
  | error stop rest => cases stop <;> rfl

theorem Keeps.located (site : Site) (keeps : run.Keeps count) :
    (Eval.located site run).Keeps count :=
  keeps.of_ended (ended_located site run)

theorem Keeps.catchReturn {run : Eval Value} (keeps : run.Keeps count) :
    (Eval.catchReturn run).Keeps count :=
  keeps.of_ended (ended_catchReturn run)

theorem Keeps.mapError (change : RuntimeError → RuntimeFault) (keeps : run.Keeps count) :
    (Eval.mapError change run).Keeps count :=
  keeps.of_ended (ended_mapError change run)

theorem Keeps.whileRunning (path : RealPath) (keeps : run.Keeps count) :
    (Eval.whileRunning path run).Keeps count := by
  intro machine enough
  obtain ⟨size, frame⟩ := keeps { machine with running := path :: machine.running } enough
  unfold Eval.whileRunning
  cases result : run { machine with running := path :: machine.running } with
  | ok value rest =>
      rw [result] at size frame
      exact ⟨size, frame⟩
  | error stop rest =>
      rw [result] at size frame
      exact ⟨size, frame⟩

theorem Keeps.newFrame {added : Frame} {next : FrameId → Eval β}
    (second : ∀ id, count ≤ id → (next id).Keeps count) :
    (Eval.newFrame added >>= next).Keeps count := by
  intro machine enough
  have pushed : machine.Extends count { machine with frames := machine.frames.push added } :=
    ⟨by simp, fun id inside => machine.frame_push added (Nat.lt_of_lt_of_le inside enough)⟩
  exact pushed.trans (second machine.frames.size enough _ (Nat.le_trans enough pushed.size))

theorem Keeps.newFrameIn {outer : FrameId} {bindings : List (String × Value)} {isCall : Bool}
    {next : FrameId → Eval β} (second : ∀ id, count ≤ id → (next id).Keeps count) :
    (Eval.newFrameIn outer bindings isCall >>= next).Keeps count :=
  fun machine enough => Keeps.newFrame second machine enough

theorem Keeps.nameValue (id : FrameId) (name : String) : (Eval.nameValue id name).Keeps count := by
  intro machine _
  unfold Eval.nameValue
  cases machine.lookup id name with
  | some value => exact .refl count machine
  | none =>
      cases Builtin.ofName? name with
      | some callee => exact .refl count machine
      | none => exact .refl count machine

theorem Keeps.print (text : String) : (Eval.print text).Keeps count :=
  fun _ _ => ⟨Nat.le_refl _, fun _ _ => rfl⟩

theorem Keeps.collect {item : α → Eval β} (each : ∀ value, (item value).Keeps count)
    (list : List α) (done : List β) : (Eval.collect item list done).Keeps count := by
  induction list generalizing done with
  | nil => exact .pure _
  | cons value rest ih =>
      apply Keeps.bind (each value)
      intro result
      exact ih (result :: done)

theorem Keeps.define {id : FrameId} (later : count ≤ id) (name : String) (value : Value) :
    (Eval.define id name value).Keeps count := by
  intro machine enough
  refine ⟨Nat.le_of_eq (machine.size_modify id _).symm, fun other inside => ?_⟩
  have isOther : id ≠ other := Nat.ne_of_gt (Nat.lt_of_lt_of_le inside later)
  exact (machine.frame_modify id other _ (Nat.lt_of_lt_of_le inside enough)).trans (if_neg isOther)

end Rules

/-! ## Evaluators -/

/-- An evaluator whose statements change no frame but the one they stand in, and whose other phrases
change none. -/
structure EvaluatorKeeps (inner : Evaluator) : Prop where
  expr : ∀ count frame value, (inner frame (.expr value)).Keeps count
  apply : ∀ count frame callee arguments, (inner frame (.apply callee arguments)).Keeps count
  stmt : ∀ count frame stmt, count ≤ frame → (inner frame (.stmt stmt)).Keeps count

section Phrases

variable {inner : Evaluator}

theorem statements_keeps (keeps : EvaluatorKeeps inner) {frame : FrameId} (later : count ≤ frame)
    (list : List Stmt) (result : Value) : (statements inner frame list result).Keeps count := by
  induction list generalizing result with
  | nil => exact .pure _
  | cons stmt rest ih =>
      apply Keeps.bind (keeps.stmt count frame stmt later)
      intro value
      exact ih value

theorem block_keeps (keeps : EvaluatorKeeps inner) (frame : FrameId) (body : Block) :
    (block inner frame body).Keeps count := by
  apply Keeps.newFrameIn
  intro scope later
  exact statements_keeps keeps later _ _

theorem exprs_keeps (keeps : EvaluatorKeeps inner) (frame : FrameId) (items : List Expr) :
    (exprs inner frame items).Keeps count :=
  .collect (fun item => keeps.expr count frame item) items []

theorem pairs_keeps (keeps : EvaluatorKeeps inner) (frame : FrameId) (list : List Pair)
    (done : List (Key × Value)) : (pairs inner frame list done).Keeps count := by
  induction list generalizing done with
  | nil => exact .pure _
  | cons pair rest ih =>
      obtain ⟨position, key, value⟩ := pair
      apply Keeps.bind (keeps.expr count frame key)
      intro keyValue
      cases keyValue.key? with
      | none => exact .located _ (.fail _)
      | some hashKey =>
          apply Keeps.bind (keeps.expr count frame value)
          intro held
          exact ih _

theorem leaf_keeps (frame : FrameId) (token : Token) : (leaf frame token).Keeps count := by
  unfold leaf
  split
  · exact .nameValue frame token.text
  · cases Text.readInteger token.text with
    | ok n => exact .pure _
    | error numeral => exact .throw _
  · exact .pure _
  · exact .pure _
  · exact .pure _
  · exact .pure _
  · exact .fail _

/-! ### Calls -/

theorem callFunction_keeps (keeps : EvaluatorKeeps inner) (parameters : List String) (body : Block)
    (frame : FrameId) (arguments : List Value) :
    (callFunction inner parameters body frame arguments).Keeps count := by
  unfold callFunction
  split
  · exact .fail _
  · apply Keeps.newFrameIn
    intro scope later
    exact .catchReturn (statements_keeps keeps later _ _)

theorem runModule_keeps (keeps : EvaluatorKeeps inner) (real : RealPath) (path : String)
    (program : Program) : (runModule inner real path program).Keeps count := by
  apply Keeps.newFrame
  intro scope later
  have ran : (statements inner scope program.statements .nil).Keeps count :=
    statements_keeps keeps later _ _
  apply Keeps.bind (.mapError _ (.whileRunning real (.located _ ran)))
  intro last
  exact .get fun _ => .pure _

theorem importFile_keeps (keeps : EvaluatorKeeps inner) (world : World) (frame : FrameId)
    (path : String) : (importFile world inner frame path).Keeps count := by
  apply Keeps.get
  intro machine
  cases world.resolveImport (machine.frame frame).sourcePath path with
  | none => exact .fail _
  | some found =>
      obtain ⟨real, content⟩ := found
      dsimp only
      split
      · exact .fail _
      cases ModuleText.ofContent content world.nestingLimit with
      | program program => exact runModule_keeps keeps real path program
      | faulty fault => exact .fail _
      | unreadableNumeral crash => exact .throw _

theorem runBuiltin_keeps (keeps : EvaluatorKeeps inner) (world : World) (frame : FrameId)
    (callee : Builtin) (arguments : List Value) :
    (runBuiltin world inner frame callee arguments).Keeps count := by
  unfold runBuiltin
  split
  · exact .ofExcept _
  · exact .pure _
  · exact .ofExcept _
  · exact .ofExcept _
  · exact .ofExcept _
  · exact .ofExcept _
  · exact .ofExcept _
  · exact .ofExcept _
  · apply Keeps.bind (.ofExcept _)
    intro items
    exact .bind (.collect (fun item => keeps.apply count frame _ [item]) items []) fun _ => .pure _
  · split
    · exact .pure _
    · exact .fail _
  · exact importFile_keeps keeps world frame _
  · exact .fail _
  · exact .ofExcept _
  · exact .fail _
  · exact .bind (.print _) fun _ => .pure _
  · exact .fail _

theorem call_keeps (keeps : EvaluatorKeeps inner) (world : World) (frame : FrameId)
    (callee : Value) (arguments : List Value) :
    (call world inner frame callee arguments).Keeps count := by
  cases callee with
  | function parameters body scope => exact callFunction_keeps keeps parameters body scope arguments
  | builtin callee => exact runBuiltin_keeps keeps world frame callee arguments
  | nil => exact .fail _
  | bool b => exact .fail _
  | int n => exact .fail _
  | string s => exact .fail _
  | array items => exact .fail _
  | hash entries => exact .fail _

/-! ### Phrases -/

theorem conditional_keeps (keeps : EvaluatorKeeps inner) (frame : FrameId) (condition : Expr)
    (consequence : Block) {otherwise : Eval Value} (other : otherwise.Keeps count) :
    (conditional inner frame condition consequence otherwise).Keeps count := by
  apply Keeps.bind (keeps.expr count frame condition)
  intro held
  split
  · exact block_keeps keeps frame consequence
  · exact other

theorem expr_keeps (keeps : EvaluatorKeeps inner) (world : World) (frame : FrameId) (value : Expr) :
    (expr world inner frame value).Keeps count := by
  cases value with
  | leaf token => exact leaf_keeps frame token
  | unary operator operand =>
      exact .bind (keeps.expr count frame operand) fun _ => .ofExcept _
  | binary left operator right =>
      apply Keeps.bind (keeps.expr count frame left)
      intro leftValue
      exact .bind (keeps.expr count frame right) fun _ => .ofExcept _
  | array position items => exact .bind (exprs_keeps keeps frame items) fun _ => .pure _
  | hash position entries => exact .bind (pairs_keeps keeps frame entries []) fun _ => .pure _
  | block body => exact block_keeps keeps frame body
  | ifThen position condition consequence =>
      exact conditional_keeps keeps frame condition consequence (.pure _)
  | ifElse position condition consequence alternative =>
      have other : (block inner frame alternative).Keeps count :=
        block_keeps keeps frame alternative
      exact conditional_keeps keeps frame condition consequence other
  | function position parametersPosition parameters body => exact .pure _
  | call callee position arguments =>
      apply Keeps.bind (keeps.expr count frame callee)
      intro calleeValue
      apply Keeps.bind (exprs_keeps keeps frame arguments)
      intro values
      exact call_keeps keeps world frame calleeValue values
  | index target position place =>
      apply Keeps.bind (keeps.expr count frame target)
      intro targetValue
      exact .bind (keeps.expr count frame place) fun _ => .ofExcept _

theorem returning_keeps (frame : FrameId) {value : Eval Value} (keeps : value.Keeps count) :
    (returning frame value).Keeps count := by
  apply Keeps.get
  intro machine
  split
  · exact .bind keeps fun _ => .throw _
  · exact .fail _

/-- A statement other than a `let` changes no frame either. -/
theorem stmt_keeps (keeps : EvaluatorKeeps inner) (frame : FrameId) (stmt : Stmt)
    (notBinding : ∀ position name value, stmt = .binding position name value → count ≤ frame) :
    (Eval.stmt inner frame stmt).Keeps count := by
  cases stmt with
  | binding position name value =>
      have later := notBinding position name value rfl
      apply Keeps.bind (keeps.expr count frame value)
      intro held
      exact .bind (.define later name.text held) fun _ => .pure _
  | returnNil position => exact returning_keeps frame (.pure _)
  | returnValue position value => exact returning_keeps frame (keeps.expr count frame value)
  | block body => exact block_keeps keeps frame body
  | expr position value => exact keeps.expr count frame value

end Phrases

end Eval

theorem evaluate_keeps (world : World) (limit : Nat) :
    Eval.EvaluatorKeeps (evaluate world limit) := by
  -- The count stays free: a call or a block asks for that of the frames before its own.
  induction limit with
  | zero =>
      constructor
      · intro count frame value
        exact .throw _
      · intro count frame callee arguments
        exact .throw _
      · intro count frame stmt later
        exact .throw _
  | succ limit ih =>
      constructor
      · intro count frame value
        exact .located _ (Eval.expr_keeps ih world frame value)
      · intro count frame callee arguments
        exact .located _ (Eval.call_keeps ih world frame callee arguments)
      · intro count frame stmt later
        exact .located _ (Eval.stmt_keeps ih frame stmt fun _ _ _ _ => later)

/-! ## What evaluation may change -/

/-- The second machine has the frames of the first, except that a name has been bound in one. -/
structure Machine.Binds (frame : FrameId) (name : String) (value : Value)
    (before after : Machine) : Prop where
  size : before.frames.size ≤ after.frames.size
  others : ∀ id < before.frames.size, id ≠ frame → after.frame id = before.frame id
  bound : frame < before.frames.size → after.frame frame =
    { before.frame frame with
      bindings := Entries.put name value (before.frame frame).bindings }

/-- What a statement may do to the frames: a `let` that succeeds binds its name to its value in the
frame it stands in, and nothing else changes any frame. -/
def Stmt.MayChange (frame : FrameId) (before : Machine) :
    Stmt → EStateM.Result Stop Machine Value → Prop
  | .binding _ name _, .ok _ after => ∃ value, before.Binds frame name.text value after
  | _, result => before.Extends before.frames.size (Eval.ended result)

theorem Machine.Extends.binds {before between : Machine}
    (kept : before.Extends before.frames.size between) (frame : FrameId) (name : String)
    (value : Value) :
    before.Binds frame name value (between.modifyFrame frame fun held =>
      { held with bindings := Entries.put name value held.bindings }) where
  size := by
    rw [size_modify]
    exact kept.size
  others id inside notFrame := by
    rw [frame_modify _ _ _ _ (Nat.lt_of_lt_of_le inside kept.size), if_neg (Ne.symm notFrame)]
    exact kept.frame id inside
  bound inside := by
    rw [frame_modify _ _ _ _ (Nat.lt_of_lt_of_le inside kept.size), if_pos rfl,
      kept.frame frame inside]

theorem Eval.stmt_mayChange {inner : Evaluator} (keeps : EvaluatorKeeps inner) (frame : FrameId)
    (stmt : Stmt) (machine : Machine) :
    stmt.MayChange frame machine (Eval.stmt inner frame stmt machine) := by
  cases stmt with
  | binding position name value =>
      have kept := keeps.expr machine.frames.size frame value machine (Nat.le_refl _)
      rw [Eval.stmt, bind_apply]
      cases result : inner frame (.expr value) machine with
      | error stop rest =>
          rw [result] at kept
          exact kept
      | ok held rest =>
          rw [result] at kept
          exact ⟨held, kept.binds frame name.text held⟩
  | returnNil position =>
      exact stmt_keeps keeps frame (.returnNil position) (by simp) machine (Nat.le_refl _)
  | returnValue position value =>
      exact stmt_keeps keeps frame (.returnValue position value) (by simp) machine (Nat.le_refl _)
  | block body =>
      exact stmt_keeps keeps frame (.block body) (by simp) machine (Nat.le_refl _)
  | expr position value =>
      exact stmt_keeps keeps frame (.expr position value) (by simp) machine (Nat.le_refl _)

theorem Stmt.MayChange.located {frame : FrameId} {stmt : Stmt} {machine : Machine}
    {run : Eval Value} (site : Site)
    (changes : stmt.MayChange frame machine (run machine)) :
    stmt.MayChange frame machine (Eval.located site run machine) := by
  unfold Eval.located
  cases result : run machine with
  | ok value rest =>
      rw [result] at changes
      exact changes
  | error stop rest =>
      rw [result] at changes
      cases stmt <;> cases stop <;> exact changes

/-- However it ends, evaluating an expression leaves every frame there was as it is, and evaluating
a statement leaves every frame but its own as it is, and that one too unless it is a `let` that
succeeds; then the frame differs in the binding of its name alone. -/
theorem evaluate_frames (world : World) (limit : Nat) (frame : FrameId) (machine : Machine) :
    (∀ value, machine.Extends machine.frames.size
      (Eval.ended (evaluate world limit frame (.expr value) machine))) ∧
    ∀ stmt : Stmt,
      stmt.MayChange frame machine (evaluate world limit frame (.stmt stmt) machine) := by
  constructor
  · intro value
    exact (evaluate_keeps world limit).expr _ frame value machine (Nat.le_refl _)
  · intro stmt
    cases limit with
    | zero => cases stmt <;> exact .refl _ machine
    | succ limit =>
        have keeps := evaluate_keeps world limit
        exact .located _ (Eval.stmt_mayChange keeps frame stmt machine)

end Monkey
