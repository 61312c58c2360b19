import Monkey.Proofs.Eval.Moments

/-!
# Where a `return` ends

Whether a `return` is allowed is looked up in the frames around it, and where it ends is up to the
calls that are active. The two agree: at every moment either no frame around the phrase is that of a
call, and then no `return` comes out of its evaluation, or the nearest one is that of the innermost
active call, and a `return` that comes out of the evaluation ends that call. Both rest on frames
keeping what is around them and whether they are those of a call.
-/

set_option autoImplicit false

namespace Monkey

namespace Machine

/-- The nearest frame of a call among a frame and those around it. -/
def nearestCall (machine : Machine) (id : FrameId) : Option FrameId :=
  (machine.scopes id).find? fun scope => (machine.frame scope).isCall

/-! ## Frames keep their place -/

/-- Frames have been added, and what is bound in the others may have changed, but nothing else. -/
structure Shapes (before after : Machine) : Prop where
  size : before.frames.size ≤ after.frames.size
  enclosing : ∀ id < before.frames.size, (after.frame id).enclosing = (before.frame id).enclosing
  isCall : ∀ id < before.frames.size, (after.frame id).isCall = (before.frame id).isCall

variable {machine before between after : Machine}

theorem Shapes.refl (machine : Machine) : machine.Shapes machine :=
  ⟨Nat.le_refl _, fun _ _ => rfl, fun _ _ => rfl⟩

theorem Shapes.trans (first : before.Shapes between) (second : between.Shapes after) :
    before.Shapes after where
  size := Nat.le_trans first.size second.size
  enclosing id inside :=
    (second.enclosing id (Nat.lt_of_lt_of_le inside first.size)).trans (first.enclosing id inside)
  isCall id inside :=
    (second.isCall id (Nat.lt_of_lt_of_le inside first.size)).trans (first.isCall id inside)

theorem Extends.shapes (kept : before.Extends before.frames.size after) : before.Shapes after :=
  ⟨kept.size, fun id inside => congrArg Frame.enclosing (kept.frame id inside),
    fun id inside => congrArg Frame.isCall (kept.frame id inside)⟩

theorem Binds.shapes {frame : FrameId} {name : String} {value : Value}
    (binds : before.Binds frame name value after) : before.Shapes after := by
  have kept : ∀ id < before.frames.size,
      (after.frame id).enclosing = (before.frame id).enclosing ∧
        (after.frame id).isCall = (before.frame id).isCall := by
    intro id inside
    by_cases isBound : id = frame
    · subst isBound
      rw [binds.bound inside]
      exact ⟨rfl, rfl⟩
    · rw [binds.others id inside isBound]
      exact ⟨rfl, rfl⟩
  exact ⟨binds.size, fun id inside => (kept id inside).1, fun id inside => (kept id inside).2⟩

theorem shapes_push (machine : Machine) (added : Frame) (running : List RealPath) :
    machine.Shapes { machine with frames := machine.frames.push added, running } :=
  Extends.shapes ⟨by simp, fun _ inside => machine.frame_push added inside⟩

/-- Looking through frames that are there, the innermost first, finds this frame of a call, or
none. -/
inductive Finds (machine : Machine) : List FrameId → Option FrameId → Prop
  | none : Finds machine [] none
  | here {scope : FrameId} {rest : List FrameId} (inside : scope < machine.frames.size)
      (isCall : (machine.frame scope).isCall = true) : Finds machine (scope :: rest) (some scope)
  | further {scope : FrameId} {rest : List FrameId} {found : Option FrameId}
      (inside : scope < machine.frames.size) (notCall : (machine.frame scope).isCall = false)
      (others : Finds machine rest found) : Finds machine (scope :: rest) found

variable {scopes : List FrameId} {found : Option FrameId} {frame : FrameId}

theorem Finds.find?_eq (finds : machine.Finds scopes found) :
    scopes.find? (fun scope => (machine.frame scope).isCall) = found := by
  induction finds with
  | none => rfl
  | here _ isCall => exact List.find?_cons_of_pos isCall
  | further _ notCall _ ih => rw [List.find?_cons_of_neg (by simp [notCall]), ih]

theorem Finds.of_shapes (finds : before.Finds scopes found) (shapes : before.Shapes after) :
    after.Finds scopes found := by
  induction finds with
  | none => exact .none
  | here inside isCall =>
      exact .here (Nat.lt_of_lt_of_le inside shapes.size) ((shapes.isCall _ inside).trans isCall)
  | further inside notCall _ ih =>
      exact .further (Nat.lt_of_lt_of_le inside shapes.size)
        ((shapes.isCall _ inside).trans notCall) ih

theorem Finds.head_lt {id : FrameId} {rest : List FrameId}
    (finds : machine.Finds (id :: rest) found) : id < machine.frames.size := by
  cases finds with
  | here inside _ => exact inside
  | further inside _ _ => exact inside

/-- The frame of a call that the frames around a phrase lead to, if there is one. -/
def Leads (machine : Machine) (frame : FrameId) (found : Option FrameId) : Prop :=
  machine.Finds (machine.scopes frame) found

theorem Leads.nearestCall_eq (leads : machine.Leads frame found) :
    machine.nearestCall frame = found :=
  Finds.find?_eq leads

theorem Leads.inCall_eq (leads : machine.Leads frame found) :
    machine.inCall frame = found.isSome := by
  rw [← leads.nearestCall_eq, nearestCall, inCall, Bool.eq_iff_iff, List.any_eq_true,
    List.find?_isSome]

theorem Leads.of_shapes (leads : before.Leads frame found) (shapes : before.Shapes after) :
    after.Leads frame found := by
  have around : after.scopes frame = before.scopes frame := by
    rw [scopes, scopes, shapes.enclosing frame leads.head_lt]
  unfold Leads
  rw [around]
  exact Finds.of_shapes leads shapes

theorem leads_withScope (leads : machine.Leads frame found) (bindings : List (String × Value)) :
    (machine.withScope frame bindings false).Leads machine.frames.size found := by
  have others : (machine.withScope frame bindings false).Finds (machine.scopes frame) found :=
    Finds.of_shapes leads (shapes_push machine _ _)
  have added := machine.frame_pushed
    ⟨machine.scopes frame, bindings, false, (machine.frame frame).sourcePath⟩ machine.frames.size
  rw [if_pos rfl] at added
  unfold Leads scopes withScope
  rw [added]
  refine .further ?_ (congrArg Frame.isCall added) others
  simp

theorem leads_body (machine : Machine) (outer : FrameId) (bindings : List (String × Value)) :
    (machine.withScope outer bindings true).Leads machine.frames.size
      (some machine.frames.size) := by
  have added := machine.frame_pushed
    ⟨machine.scopes outer, bindings, true, (machine.frame outer).sourcePath⟩ machine.frames.size
  rw [if_pos rfl] at added
  refine .here ?_ (congrArg Frame.isCall added)
  simp [withScope]

theorem leads_withModule (machine : Machine) (real : RealPath) :
    (machine.withModule real).Leads machine.frames.size none := by
  have added := Machine.frame_pushed { machine with running := real :: machine.running }
    ⟨[], [], false, some (Path.ofNames real)⟩ machine.frames.size
  rw [if_pos rfl] at added
  unfold Leads scopes withModule
  rw [added]
  refine .further ?_ (congrArg Frame.isCall added) .none
  simp

end Machine

/-! ## Evaluation keeps frames in place -/

theorem Stmt.MayChange.shapes {frame : FrameId} {stmt : Stmt} {machine : Machine}
    {result : EStateM.Result Stop Machine Value} (changes : stmt.MayChange frame machine result) :
    machine.Shapes (Eval.ended result) := by
  cases stmt with
  | binding position name value =>
      cases result with
      | ok held rest =>
          obtain ⟨bound, binds⟩ := changes
          exact binds.shapes
      | error stop rest => exact Machine.Extends.shapes changes
  | _ => exact Machine.Extends.shapes changes

theorem evaluate_shapes (world : World) (limit : Nat) (frame : FrameId) (phrase : Phrase)
    (machine : Machine) :
    machine.Shapes (Eval.ended (evaluate world limit frame phrase machine)) := by
  cases limit with
  | zero => exact .refl machine
  | succ limit =>
      have keeps := evaluate_keeps world (limit + 1)
      cases phrase with
      | expr value => exact (keeps.expr _ frame value machine (Nat.le_refl _)).shapes
      | apply callee arguments =>
          exact (keeps.apply _ frame callee arguments machine (Nat.le_refl _)).shapes
      | stmt stmt =>
          have changes := Eval.stmt_mayChange (evaluate_keeps world limit) frame stmt machine
          exact (changes.located (Phrase.stmt stmt).site).shapes

namespace Eval

variable {α β : Type}

/-- No `return` comes out of the computation. -/
def Silent (result : EStateM.Result Stop Machine α) : Prop :=
  ∀ value rest, result ≠ .error (.returned value) rest

section Rules

variable {run : Eval α} {machine : Machine}

theorem Silent.ok (value : α) (rest : Machine) : Silent (.ok value rest) := nofun

theorem Silent.error (error : RuntimeError) (rest : Machine) :
    Silent (.error (.error error) rest : EStateM.Result Stop Machine α) := nofun

theorem Silent.bind {next : α → Eval β} (head : Silent (run machine))
    (tail : ∀ value rest, run machine = .ok value rest → Silent (next value rest)) :
    Silent ((run >>= next) machine) := by
  rw [bind_apply]
  cases ran : run machine with
  | ok value rest => exact tail value rest ran
  | error stop rest =>
      rintro value after isReturned
      cases isReturned
      exact head value rest ran

theorem Silent.ofExcept (result : Except RuntimeFault α) (machine : Machine) :
    Silent (Eval.ofExcept result machine) := by
  cases result with
  | ok value => exact nofun
  | error fault => exact nofun

theorem Silent.nameValue (id : FrameId) (name : String) (machine : Machine) :
    Silent (Eval.nameValue id name machine) := by
  unfold Eval.nameValue
  cases machine.lookup id name with
  | some value => exact nofun
  | none =>
      cases Builtin.ofName? name with
      | some callee => exact nofun
      | none => exact nofun

theorem located_returned {site : Site} {value : Value} {rest : Machine} :
    Eval.located site run machine = .error (.returned value) rest ↔
      run machine = .error (.returned value) rest := by
  unfold Eval.located
  cases run machine with
  | ok value rest => exact Iff.rfl
  | error stop rest => cases stop <;> simp

theorem Silent.located {site : Site} (silent : Silent (run machine)) :
    Silent (Eval.located site run machine) :=
  fun value rest isReturned => silent value rest (located_returned.mp isReturned)

theorem Silent.mapError {change : RuntimeError → RuntimeFault} (silent : Silent (run machine)) :
    Silent (Eval.mapError change run machine) := by
  unfold Eval.mapError
  cases ran : run machine with
  | ok value rest => exact nofun
  | error stop rest =>
      cases stop with
      | returned value => exact absurd ran (silent value rest)
      | error error => exact nofun
      | tooDeep => exact nofun
      | numeral fault => exact nofun

theorem Silent.whileRunning {path : RealPath}
    (silent : Silent (run { machine with running := path :: machine.running })) :
    Silent (Eval.whileRunning path run machine) := by
  unfold Eval.whileRunning
  cases ran : run { machine with running := path :: machine.running } with
  | ok value rest => exact nofun
  | error stop rest =>
      rintro value after isReturned
      cases isReturned
      exact silent value rest ran

theorem Silent.catchReturn (run : Eval Value) (machine : Machine) :
    Silent (Eval.catchReturn run machine) := by
  unfold Eval.catchReturn
  cases run machine with
  | ok value rest => exact nofun
  | error stop rest => cases stop <;> exact nofun

theorem catchReturn_returned {run : Eval Value} {value : Value} {rest : Machine}
    (returned : run machine = .error (.returned value) rest) :
    Eval.catchReturn run machine = .ok value rest := by
  unfold Eval.catchReturn
  rw [returned]

/-- Each item may rely on what the ones before it preserve. -/
theorem Silent.collect {item : α → Eval β} {holds : Machine → Prop}
    (each : ∀ value machine, holds machine → Silent (item value machine) ∧
      ∀ result rest, item value machine = .ok result rest → holds rest)
    (list : List α) (done : List β) (start : holds machine) :
    Silent (Eval.collect item list done machine) := by
  induction list generalizing done machine with
  | nil => exact nofun
  | cons value others ih =>
      obtain ⟨silent, kept⟩ := each value machine start
      exact .bind silent fun result rest ran => ih (result :: done) (kept result rest ran)

end Rules

/-- An evaluator that lets no `return` out of a phrase that no frame of a call is around, nor out of
a call. -/
structure Disciplined (inner : Evaluator) : Prop where
  shapes : ∀ frame phrase (machine : Machine), machine.Shapes (ended (inner frame phrase machine))
  apply : ∀ frame callee arguments (machine : Machine),
    Silent (inner frame (.apply callee arguments) machine)
  outside : ∀ frame phrase (machine : Machine), machine.Leads frame none →
    Silent (inner frame phrase machine)

section Constructs

variable {inner : Evaluator} (disciplined : Disciplined inner) {frame : FrameId} {machine : Machine}

include disciplined

theorem Disciplined.shapes_ok {phrase : Phrase} {value : Value} {rest : Machine}
    (ran : inner frame phrase machine = .ok value rest) : machine.Shapes rest := by
  have shapes := disciplined.shapes frame phrase machine
  rwa [ran] at shapes

/-! ### Calls and imports -/

omit disciplined in
theorem callFunction_silent (parameters : List String) (body : Block) (outer : FrameId)
    (arguments : List Value) :
    Silent (callFunction inner parameters body outer arguments machine) := by
  unfold callFunction
  split
  · exact nofun
  · exact .bind nofun fun _ _ _ => .catchReturn _ _

theorem statements_silent (leads : machine.Leads frame none) (list : List Stmt) (result : Value) :
    Silent (statements inner frame list result machine) := by
  induction list generalizing machine result with
  | nil => exact nofun
  | cons stmt others ih =>
      refine .bind (disciplined.outside frame _ machine leads) fun value rest ran => ?_
      exact ih (leads.of_shapes (disciplined.shapes_ok ran)) value

theorem runModule_silent (real : RealPath) (path : String) (program : Program) :
    Silent (runModule inner real path program machine) := by
  have ran : Silent (statements inner machine.frames.size program.statements .nil
      (machine.withModule real)) :=
    statements_silent disciplined (machine.leads_withModule real) _ _
  refine .bind nofun fun scope rest isNew => ?_
  cases isNew
  exact .bind (.mapError (.whileRunning (.located ran))) fun _ _ _ => nofun

theorem importFile_silent (world : World) (path : String) :
    Silent (importFile world inner frame path machine) := by
  refine .bind nofun fun current rest isCurrent => ?_
  cases isCurrent
  cases world.resolveImport (machine.frame frame).sourcePath path with
  | none => exact nofun
  | some file =>
      obtain ⟨real, content⟩ := file
      dsimp only
      split
      · exact nofun
      cases ModuleText.ofContent content world.nestingLimit with
      | faulty fault => exact nofun
      | unreadableNumeral crash => exact nofun
      | program program => exact runModule_silent disciplined real path program

theorem runBuiltin_silent (world : World) (callee : Builtin) (arguments : List Value) :
    Silent (runBuiltin world inner frame callee arguments machine) := by
  unfold runBuiltin
  split
  case h_9 =>
    refine .bind (.ofExcept _ _) fun items rest _ => .bind ?_ fun _ _ _ => nofun
    exact .collect (fun item machine (_ : True) =>
      ⟨disciplined.apply frame _ [item] machine, fun _ _ _ => trivial⟩) items [] trivial
  case h_11 => exact importFile_silent disciplined world _
  case h_10 => split <;> exact nofun
  case h_15 => exact .bind nofun fun _ _ _ => nofun
  all_goals first | exact .ofExcept _ _ | exact nofun

theorem call_silent (world : World) (callee : Value) (arguments : List Value) :
    Silent (call world inner frame callee arguments machine) := by
  cases callee with
  | function parameters body outer =>
      exact callFunction_silent parameters body outer arguments
  | builtin callee => exact runBuiltin_silent disciplined world callee arguments
  | _ => exact nofun

/-! ### Phrases outside calls -/

section Outside

variable (leads : machine.Leads frame none)
include leads

theorem operand_outside {phrase : Phrase} {next : Value → Eval β}
    (tail : ∀ value rest, rest.Leads frame none → Silent (next value rest)) :
    Silent ((inner frame phrase >>= next) machine) :=
  .bind (disciplined.outside frame phrase machine leads) fun value rest ran =>
    tail value rest (leads.of_shapes (disciplined.shapes_ok ran))

theorem exprs_outside (items : List Expr) : Silent (exprs inner frame items machine) := by
  have each : ∀ item machine, Machine.Leads machine frame none →
      Silent (inner frame (.expr item) machine) ∧
        ∀ result rest, inner frame (.expr item) machine = .ok result rest → rest.Leads frame none :=
    fun item machine leads => ⟨disciplined.outside frame _ machine leads,
      fun _ _ ran => leads.of_shapes (disciplined.shapes_ok ran)⟩
  exact .collect each items [] leads

theorem pairs_outside (list : List Pair) (done : List (Key × Value)) :
    Silent (pairs inner frame list done machine) := by
  induction list generalizing machine done with
  | nil => exact nofun
  | cons pair others ih =>
      obtain ⟨position, key, value⟩ := pair
      refine operand_outside disciplined leads fun keyValue rest leads => ?_
      cases keyValue.key? with
      | none => exact .located nofun
      | some hashKey =>
          exact operand_outside disciplined leads fun held rest leads => ih leads _

theorem block_outside (body : Block) : Silent (block inner frame body machine) := by
  refine .bind nofun fun scope rest isNew => ?_
  cases isNew
  exact statements_silent disciplined (machine.leads_withScope leads []) _ _

omit disciplined leads in
theorem leaf_silent (token : Token) : Silent (leaf frame token machine) := by
  unfold leaf
  cases token.kind with
  | identifier => exact .nameValue frame token.text machine
  | integer => cases Text.readInteger token.text <;> exact nofun
  | _ => exact nofun

theorem conditional_outside (condition : Expr) (consequence : Block) {otherwise : Eval Value}
    (other : ∀ rest : Machine, rest.Leads frame none → Silent (otherwise rest)) :
    Silent (conditional inner frame condition consequence otherwise machine) := by
  refine operand_outside disciplined leads fun held rest leads => ?_
  split
  · exact block_outside disciplined leads consequence
  · exact other rest leads

theorem expr_outside (world : World) (value : Expr) :
    Silent (expr world inner frame value machine) := by
  cases value with
  | leaf token => exact leaf_silent token
  | unary operator operand =>
      exact operand_outside disciplined leads fun _ rest _ => .ofExcept _ rest
  | binary left operator right =>
      refine operand_outside disciplined leads fun _ rest leads => ?_
      exact operand_outside disciplined leads fun _ rest _ => .ofExcept _ rest
  | array position items => exact .bind (exprs_outside disciplined leads items) fun _ _ _ => nofun
  | hash position pairs =>
      exact .bind (pairs_outside disciplined leads pairs []) fun _ _ _ => nofun
  | block body => exact block_outside disciplined leads body
  | ifThen position condition consequence =>
      exact conditional_outside disciplined leads condition consequence fun _ _ => nofun
  | ifElse position condition consequence alternative =>
      exact conditional_outside disciplined leads condition consequence fun rest leads =>
        block_outside disciplined leads alternative
  | function position parametersPosition parameters body => exact nofun
  | call callee position arguments =>
      refine operand_outside disciplined leads fun calleeValue rest leads => ?_
      exact .bind (exprs_outside disciplined leads arguments) fun values after _ =>
        call_silent disciplined world calleeValue values
  | index target position place =>
      refine operand_outside disciplined leads fun _ rest leads => ?_
      exact operand_outside disciplined leads fun _ rest _ => .ofExcept _ rest

omit disciplined in
theorem returning_outside (value : Eval Value) :
    returning frame value machine = .error (.error ⟨.returnOutsideFunction, none⟩) machine := by
  refine (bind_ok rfl).trans ?_
  rw [if_neg (by simp [leads.inCall_eq])]
  rfl

theorem stmt_outside (value : Stmt) : Silent (stmt inner frame value machine) := by
  cases value with
  | binding position name value =>
      exact operand_outside disciplined leads fun held rest _ => .ok _ _
  | returnNil position | returnValue position value =>
      rw [stmt, returning_outside leads]
      exact .error _ machine
  | block body => exact block_outside disciplined leads body
  | expr position value => exact disciplined.outside frame _ machine leads

end Outside

end Constructs

end Eval

theorem evaluate_disciplined (world : World) (limit : Nat) :
    Eval.Disciplined (evaluate world limit) := by
  induction limit with
  | zero => exact ⟨evaluate_shapes world 0, fun _ _ _ _ => nofun, fun _ _ _ _ => nofun⟩
  | succ limit ih =>
      refine ⟨evaluate_shapes world (limit + 1), fun frame callee arguments machine => ?_,
        fun frame phrase machine leads => ?_⟩
      · exact .located (Eval.call_silent ih world callee arguments)
      · cases phrase with
        | expr value => exact .located (Eval.expr_outside ih leads world value)
        | stmt value => exact .located (Eval.stmt_outside ih leads value)
        | apply callee arguments => exact .located (Eval.call_silent ih world callee arguments)

/-! ## Every moment of a run -/

theorem Sequence.shapes {world : World} {limit : Nat} {frame : FrameId} {phrases : List Phrase}
    {part : Phrase} {machine reached : Machine}
    (parts : Sequence (evaluate world limit) frame phrases machine part reached) :
    machine.Shapes reached := by
  induction parts with
  | first => exact .refl _
  | later ran _ ih => exact ((evaluate_disciplined world limit).shapes_ok ran).trans ih

theorem PairSequence.shapes {world : World} {limit : Nat} {frame : FrameId} {pairs : List Pair}
    {part : Phrase} {machine reached : Machine}
    (parts : PairSequence (evaluate world limit) frame pairs machine part reached) :
    machine.Shapes reached := by
  have disciplined := evaluate_disciplined world limit
  induction parts with
  | key => exact .refl _
  | value ran => exact disciplined.shapes_ok ran
  | later ran _ valueRan _ ih =>
      exact ((disciplined.shapes_ok ran).trans (disciplined.shapes_ok valueRan)).trans ih

theorem Enters.shapes {world : World} {limit : Nat} {frame : FrameId} {phrase : Phrase}
    {body : Block} {machine entered : Machine}
    (enters : Enters (evaluate world limit) frame phrase machine body entered) :
    machine.Shapes entered := by
  have disciplined := evaluate_disciplined world limit
  cases enters with
  | expr | stmt => exact .refl _
  | ifThen ran | consequence ran | alternative ran => exact disciplined.shapes_ok ran

theorem Eval.exprs_shapes {world : World} {limit : Nat} {frame : FrameId} {items : List Expr}
    {machine rest : Machine} {values : List Value}
    (ran : Eval.exprs (evaluate world limit) frame items machine = .ok values rest) :
    machine.Shapes rest := by
  have keeps := exprs_keeps (evaluate_keeps world limit) frame items machine (Nat.le_refl _)
  rw [ran] at keeps
  exact keeps.shapes

theorem Calls.shapes {world : World} {limit : Nat} {frame : FrameId} {phrase : Phrase}
    {callee : Value} {arguments : List Value} {machine called : Machine}
    (makes : Calls (evaluate world limit) frame phrase machine callee arguments called) :
    machine.Shapes called := by
  cases makes with
  | expr ran argumentsRan =>
      have shapes := (evaluate_disciplined world limit).shapes_ok ran
      exact shapes.trans (Eval.exprs_shapes argumentsRan)
  | apply => exact .refl _

/-- No frame of a call is around the phrase, or the nearest one is that of the innermost call that
is active, and a `return` that comes out of the phrase ends that call with its value. -/
inductive Moment.Guarded (world : World) (moment : Moment) : Prop
  | outside (leads : moment.machine.Leads moment.frame none)
  | inside {activation : Activation} {outer : List Activation}
      (calls : moment.calls = activation :: outer)
      (leads : moment.machine.Leads moment.frame (some activation.scope))
      (ends : ∀ value rest, moment.result world = .error (.returned value) rest →
        activation.result world = .ok value rest)

/-- A part in the same call is guarded if a `return` that comes out of it comes out of the whole. -/
theorem Moment.Guarded.part {world : World} {moment part : Moment} (guarded : moment.Guarded world)
    (calls : part.calls = moment.calls)
    (leads : ∀ found, moment.machine.Leads moment.frame found →
      part.machine.Leads part.frame found)
    (ends : ∀ value rest, part.result world = .error (.returned value) rest →
      moment.result world = .error (.returned value) rest) : part.Guarded world := by
  cases guarded with
  | outside outside => exact .outside (leads none outside)
  | inside active inside ended =>
      exact .inside (calls.trans active) (leads _ inside) fun value rest isReturned =>
        ended value rest (ends value rest isReturned)

theorem Part.guarded {world : World} {moment part : Moment} (isPart : Part world moment part)
    (guarded : moment.Guarded world) : part.Guarded world := by
  cases isPart with
  | operand parts =>
      refine guarded.part rfl (fun found leads => leads.of_shapes parts.shapes) ?_
      exact fun value rest ended => Eval.located_returned.mpr (Eval.operand_stops parts ended)
  | pair parts =>
      refine guarded.part rfl (fun found leads => leads.of_shapes parts.shapes) ?_
      exact fun value rest ended => Eval.located_returned.mpr
        (Eval.bind_error (Eval.pairs_stops parts ended []))
  | block enters parts =>
      refine guarded.part rfl (fun found leads => ?_) fun value rest ended => ?_
      · have entered := leads.of_shapes enters.shapes
        exact (Machine.leads_withScope entered []).of_shapes parts.shapes
      · have stopped := Eval.statements_stops parts ended .nil
        refine Eval.located_returned.mpr ((Eval.phrase_enters enters).trans ?_)
        exact (Eval.bind_ok rfl).trans stopped
  | returned inside =>
      refine guarded.part rfl (fun found leads => leads) fun value rest ended => ?_
      refine Eval.located_returned.mpr ((Eval.bind_ok rfl).trans ?_)
      rw [if_pos inside]
      exact Eval.bind_error ended
  | @body limit calls frame outer phrase part machine called reached parameters body arguments
      makes fits parts =>
      refine .inside rfl ?_ fun value rest ended => ?_
      · exact (called.leads_body outer _).of_shapes parts.shapes
      · have stopped := Eval.statements_stops parts ended .nil
        unfold Activation.result Eval.callFunction
        rw [if_neg (not_not_intro fits)]
        exact (Eval.bind_ok rfl).trans (Eval.catchReturn_returned stopped)
  | mapped makes parts =>
      have shapes := makes.shapes.trans parts.shapes
      refine guarded.part rfl (fun found leads => leads.of_shapes shapes) fun value rest ended => ?_
      refine Eval.located_returned.mpr ((Eval.phrase_calls makes).trans ?_)
      refine (Eval.bind_ok rfl).trans (Eval.bind_error ?_)
      exact Eval.collect_stops parts ended []
  | @imported limit calls frame phrase part machine called reached path real content program makes
      found free text parts =>
      exact .outside ((called.leads_withModule real).of_shapes parts.shapes)

/-! ## Statements that return -/

namespace Eval

/-- What a `return` computes its value with; other statements do not return. -/
def returned? (inner : Evaluator) (frame : FrameId) : Stmt → Option (Eval Value)
  | .returnNil _ => some (pure .nil)
  | .returnValue _ value => some (inner frame (.expr value))
  | _ => none

variable {world : World} {limit : Nat} {frame : FrameId} {stmt : Stmt} {value : Eval Value}
  {machine : Machine}

theorem stmt_of_returned? {inner : Evaluator} (returns : returned? inner frame stmt = some value) :
    Eval.stmt inner frame stmt = returning frame value := by
  cases stmt with
  | returnNil position | returnValue position value =>
      cases returns
      rfl
  | _ => cases returns

theorem evaluate_return_inside (returns : returned? (evaluate world limit) frame stmt = some value)
    {scope : FrameId} (leads : machine.Leads frame (some scope)) {result : Value} {rest : Machine}
    (ran : value machine = .ok result rest) :
    evaluate world (limit + 1) frame (.stmt stmt) machine = .error (.returned result) rest := by
  refine located_returned.mpr ?_
  rw [Eval.phrase, stmt_of_returned? returns]
  refine (bind_ok rfl).trans ?_
  rw [if_pos (by simp [leads.inCall_eq])]
  exact bind_ok ran

theorem evaluate_return_outside
    (returns : returned? (evaluate world limit) frame stmt = some value)
    (leads : machine.Leads frame none) :
    evaluate world (limit + 1) frame (.stmt stmt) machine =
      .error (.error (RuntimeError.blame ⟨.returnOutsideFunction, none⟩ stmt.position))
        machine := by
  show located (Phrase.stmt stmt).site (Eval.stmt (evaluate world limit) frame stmt) machine = _
  rw [stmt_of_returned? returns, located, returning_outside leads]
  rfl

/-- A `return` outside calls evaluates nothing, not even its value. -/
theorem not_part_of_return_outside {calls : List Activation} {part : Moment}
    (returns : returned? (evaluate world limit) frame stmt = some value)
    (leads : machine.Leads frame none) :
    ¬ Part world ⟨limit + 1, calls, frame, .stmt stmt, machine⟩ part := by
  intro isPart
  cases isPart with
  | operand parts =>
      cases stmt with
      | returnNil position | returnValue position value => cases parts
      | _ => cases returns
  | block enters parts =>
      cases enters
      cases returns
  | returned inside =>
      rw [leads.inCall_eq] at inside
      cases inside
  | body makes fits parts => cases makes
  | mapped makes parts => cases makes
  | imported makes found free text parts => cases makes

end Eval

end Monkey
