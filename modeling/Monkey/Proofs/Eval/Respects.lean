import Monkey.Proofs.Eval.Correspondence

/-!
# Evaluation respects correspondence

One lemma for each construct: given an evaluator that respects correspondence for the phrases
inside, so does the construct. The evaluators of all depths do, for every way of comparing two runs,
since an imported file is compared exactly whatever the code that imports it is compared by.
-/

set_option autoImplicit false

namespace Monkey

namespace Correspondence

variable {world : World} {between : Correspondence} {inner : Evaluator} {frame : FrameId}

section Constructs

variable (respects : Respects world between inner) (covered : between.covers frame)
include respects covered

theorem expr_runs {value value' : Expr} (alike : value.Alike between.exact value') :
    Runs world between between.Values (inner frame (.expr value))
      (inner (between.rename frame) (.expr value')) :=
  respects frame _ _ covered (.expr alike)

theorem statements_runs {list list' : List Stmt}
    (alike : List.Forall₂ (Stmt.Alike between.exact) list list') {result result' : Value}
    (results : between.Values result result') :
    Runs world between between.Values (Eval.statements inner frame list result)
      (Eval.statements inner (between.rename frame) list' result') := by
  induction alike generalizing result result' with
  | nil => exact .pure results
  | cons first _ ih => exact .bind (respects frame _ _ covered (.stmt first)) fun _ _ => ih

omit covered in
theorem body_runs {body body' : Block} (bodies : body.Alike between.exact body') {scope : FrameId}
    (inside : between.covers scope) :
    Runs world between between.Values (Eval.statements inner scope body.statements .nil)
      (Eval.statements inner (between.rename scope) body'.statements .nil) :=
  statements_runs respects inside bodies.statements .nil

theorem block_runs {body body' : Block} (bodies : body.Alike between.exact body') :
    Runs world between between.Values (Eval.block inner frame body)
      (Eval.block inner (between.rename frame) body') :=
  .newFrameIn covered .nil false fun _ inside => body_runs respects bodies inside

theorem exprs_runs {items items' : List Expr}
    (alike : List.Forall₂ (Expr.Alike between.exact) items items') :
    Runs world between (List.Forall₂ between.Values) (Eval.exprs inner frame items)
      (Eval.exprs inner (between.rename frame) items') :=
  .collect (fun _ _ same => expr_runs respects covered same) alike .nil

theorem pairs_runs {list list' : List Pair}
    (alike : List.Forall₂ (Pair.Alike between.exact) list list') {done done' : List (Key × Value)}
    (sofar : between.Bindings done done') :
    Runs world between between.Bindings (Eval.pairs inner frame list done)
      (Eval.pairs inner (between.rename frame) list' done') := by
  induction alike generalizing done done' with
  | nil => exact .pure sofar
  | @cons pair pair' _ _ first _ ih =>
      obtain ⟨position, key, value⟩ := pair
      obtain ⟨position', key', value', rfl, keys, values⟩ := first.parts
      refine .bind (expr_runs respects covered keys) fun held held' same => ?_
      rw [← same.key?_eq, ← same.type_eq]
      cases held.key? with
      | none =>
          refine .located (fun exact => ?_) (.fail (by simp))
          rw [keys.same exact]
      | some hashKey =>
          refine .bind (expr_runs respects covered values) fun item item' items => ?_
          exact ih (Entries.put_matches hashKey items sofar)

omit respects in
theorem leaf_runs {token token' : Token} (isOperand : token.IsOperand)
    (alike : token.Alike between.exact token') :
    Runs world between between.Values (Eval.leaf frame token)
      (Eval.leaf (between.rename frame) token') := by
  unfold Eval.leaf
  unfold Token.IsOperand at isOperand
  rw [← alike.kind, ← alike.text]
  cases kind : token.kind with
  | identifier => exact .nameValue covered token.text
  | integer =>
      rw [kind] at isOperand
      obtain ⟨value, read, -⟩ := isOperand
      dsimp only
      rw [read]
      exact .pure (.int value)
  | string => exact .pure (.string token.text)
  | kwTrue | kwFalse => exact .pure (.bool _)
  | kwNil => exact .pure .nil
  | _ =>
      rw [kind] at isOperand
      exact isOperand.elim

/-! ### Calls -/

omit respects covered in
theorem bindParameters_matches (parameters : List String) {arguments arguments' : List Value}
    (values : List.Forall₂ between.Values arguments arguments') :
    between.Bindings (Eval.bindParameters parameters arguments)
      (Eval.bindParameters parameters arguments') := by
  have bound : ∀ {held held' : List (String × Value)}, between.Bindings held held' →
      between.Bindings
        ((parameters.zip arguments).foldl (fun held entry => Entries.put entry.1 entry.2 held) held)
        ((parameters.zip arguments').foldl (fun held entry => Entries.put entry.1 entry.2 held)
          held') := by
    induction values generalizing parameters with
    | nil =>
        intro held held' matched
        simpa using matched
    | cons first _ ih =>
        intro held held' matched
        cases parameters with
        | nil => exact matched
        | cons name rest => exact ih rest (Entries.put_matches name first matched)
  exact bound .nil

omit covered in
theorem callFunction_runs (parameters : List String) {body body' : Block}
    (bodies : body.Alike between.exact body') {scope : FrameId} (inside : between.covers scope)
    {arguments arguments' : List Value}
    (values : List.Forall₂ between.Values arguments arguments') :
    Runs world between between.Values (Eval.callFunction inner parameters body scope arguments)
      (Eval.callFunction inner parameters body' (between.rename scope) arguments') := by
  unfold Eval.callFunction
  rw [← values.length_eq]
  split
  · exact .fail (by simp)
  · refine .newFrameIn inside (bindParameters_matches parameters values) true fun id within => ?_
    exact .catchReturn (body_runs respects bodies within)

end Constructs

/-! ### Imports -/

/-- The comparison of what two runs add from now on to the machines that they are on, exactly. -/
def above (between : Correspondence) (size : Nat) : Correspondence :=
  { between with exact := True, covers := fun id => size ≤ id ∧ between.covers id }

theorem Values.of_above {size : Nat} {value value' : Value}
    (values : (between.above size).Values value value') : between.Values value value' := by
  refine values.imp ?_ ?_
  · exact fun _ => trivial
  · exact fun _ covered => ⟨covered.2, rfl⟩

theorem Frames.of_above {size : Nat} {frame frame' : Frame}
    (frames : (between.above size).Frames frame frame') : between.Frames frame frame' := by
  obtain ⟨covered, enclosing, bindings, isCall, sourcePath⟩ := frames
  refine ⟨fun id member => (covered id member).2, enclosing, ?_, isCall, sourcePath⟩
  refine bindings.imp fun entry entry' same => ?_
  obtain ⟨key, values⟩ := same
  exact .intro key values.of_above

namespace Machines

variable {machine machine' rest rest' : Machine}

theorem above (machines : between.Machines machine machine') :
    (between.above machine.frames.size).Machines machine machine' where
  added count := ⟨⟨Nat.le_add_right _ _, (machines.added count).1⟩, (machines.added count).2⟩
  frame id covered := by
    have outside := Nat.not_lt.mp (mt machines.rename_lt.mp (Nat.not_lt.mpr covered.1))
    rw [machine.frame_outside covered.1]
    exact (machine'.frame_outside outside).symm ▸ .default
  running := machines.running
  output := machines.output

/-- Machines on which only frames have been added correspond as they did before if the frames that
have been added do. -/
theorem of_above (machines : between.Machines machine machine')
    (kept : machine.Extends machine.frames.size rest)
    (kept' : machine'.Extends machine'.frames.size rest')
    (ended : (between.above machine.frames.size).Machines rest rest') :
    between.Machines rest rest' where
  added count := ⟨(ended.added count).1.2, (ended.added count).2⟩
  frame id covered := by
    by_cases inside : id < machine.frames.size
    · rw [kept.frame id inside, kept'.frame _ (machines.rename_lt.mpr inside)]
      exact machines.frame id covered
    · exact (ended.frame id ⟨Nat.not_lt.mp inside, covered⟩).of_above
  running := ended.running
  output := ended.output

end Machines

theorem Stops.of_above {size : Nat} {stop stop' : Stop}
    (stops : Stops world (between.above size) stop stop') : Stops world between stop stop' := by
  cases stops with
  | error faults named positions => exact .error faults named fun _ => positions trivial
  | returned values => exact .returned values.of_above
  | tooDeep => exact .tooDeep
  | numeral imported faults crashes => exact .numeral imported faults fun _ => crashes trivial

/-- A computation that only adds frames may be compared by what it adds. -/
theorem Runs.of_above {run run' : Eval Value} (keeps : ∀ count, run.Keeps count)
    (keeps' : ∀ count, run'.Keeps count)
    (runs : ∀ size, Runs world (between.above size) (between.above size).Values run run') :
    Runs world between between.Values run run' := by
  intro machine machine' machines
  have ends := runs _ _ _ machines.above
  have kept := keeps _ machine (Nat.le_refl _)
  have kept' := keeps' _ machine' (Nat.le_refl _)
  generalize run machine = result, run' machine' = result' at ends kept kept'
  cases ends with
  | ok values ended => exact .ok values.of_above (machines.of_above kept kept' ended)
  | error stops ended => exact .error stops.of_above (machines.of_above kept kept' ended)

theorem forall₂_alike_self {list : List Stmt} (formed : ∀ stmt ∈ list, stmt.WellFormed)
    (exact : Prop) : List.Forall₂ (Stmt.Alike exact) list list :=
  List.forall₂_same.mpr fun stmt member => ⟨formed stmt member, rfl, fun _ => rfl⟩

/-- Where positions are compared, a file that is run gives the same report. -/
theorem runModule_runs (respects : Respects world between inner) (exact : between.exact)
    (real : RealPath) (path : String) {program : Program} (formed : program.WellFormed) :
    Runs world between between.Values (Eval.runModule inner real path program)
      (Eval.runModule inner real path program) := by
  have frames : between.Frames ⟨[], [], false, some (Path.ofNames real)⟩
      ⟨[], [], false, some (Path.ofNames real)⟩ :=
    ⟨fun _ member => absurd member List.not_mem_nil, rfl, .nil, rfl, rfl⟩
  refine .newFrame frames fun scope inside => ?_
  have ran := statements_runs respects inside (forall₂_alike_self formed _) .nil
  refine .bind (.mapError exact (fun _ => by simp)
    (.whileRunning real (.located (fun _ => rfl) ran))) fun _ _ _ => ?_
  refine .get fun machine machine' machines => .ok (.hash ?_) machines
  refine List.forall₂_map_left_iff.mpr (List.forall₂_map_right_iff.mpr ?_)
  refine (machines.frame scope inside).bindings.imp fun entry entry' same => ?_
  obtain ⟨name, values⟩ := same
  exact .intro (Key.string name) values

theorem ModuleText.wellFormed {content : List UInt8} {limit : Nat} {program : Program}
    (text : ModuleText.ofContent content limit = .program program) : program.WellFormed := by
  unfold ModuleText.ofContent Program.ofSource at text
  split at text
  · cases text
  split at text
  · cases text
  next parsed read =>
    split at text
    · cases text
      split at read
      · cases read
        exact nofun
      · exact Program.wellFormed_of_ofTokens read
    · cases text

section Calls

variable (keeps : Eval.EvaluatorKeeps inner)
  (modules : ∀ between : Correspondence, Respects world between inner)
  (covered : between.covers frame)
include keeps modules covered

theorem importFile_runs (path : String) :
    Runs world between between.Values (Eval.importFile world inner frame path)
      (Eval.importFile world inner (between.rename frame) path) := by
  refine .get fun machine machine' machines => ?_
  rw [← (machines.frame frame covered).sourcePath, ← machines.running]
  cases found : world.resolveImport (machine.frame frame).sourcePath path with
  | none =>
      have notFound : (RuntimeFault.importing path .notFound).IsNamed := by simp
      exact Runs.fail notFound _ _ machines
  | some file =>
      obtain ⟨real, content⟩ := file
      have failed : ∀ fault, (RuntimeFault.importing path fault).IsNamed :=
        fun _ => by simp
      dsimp only
      split
      · exact Runs.fail (failed _) _ _ machines
      cases text : ModuleText.ofContent content world.nestingLimit with
      | faulty fault => exact Runs.fail (failed _) _ _ machines
      | unreadableNumeral crash =>
          have imported : world.ImportsNumeral crash.fault :=
            ⟨_, path, real, content, crash, found, text, rfl⟩
          exact .error (.numeral imported rfl fun _ => rfl) machines
      | program program =>
          have added : ∀ count, (Eval.runModule inner real path program).Keeps count :=
            fun _ => Eval.runModule_keeps keeps real path program
          refine Runs.of_above added added (fun size => ?_) _ _ machines
          exact runModule_runs (modules _) trivial real path (ModuleText.wellFormed text)

omit keeps modules covered in
theorem wrongArity_runs (callee : Builtin) {arguments arguments' : List Value}
    (values : List.Forall₂ between.Values arguments arguments') :
    Runs world between between.Values
      (Eval.fail (.arity (callee.arity?.getD 0) arguments.length))
      (Eval.fail (.arity (callee.arity?.getD 0) arguments'.length)) := by
  rw [← values.length_eq]
  exact .fail (by simp)

omit keeps modules covered in
theorem puts_runs {arguments arguments' : List Value}
    (values : List.Forall₂ between.Values arguments arguments') :
    Runs world between between.Values (Eval.runBuiltin world inner frame .puts arguments)
      (Eval.runBuiltin world inner (between.rename frame) .puts arguments') := by
  have shown : arguments.map Value.printed = arguments'.map Value.printed := by
    induction values with
    | nil => rfl
    | cons first _ ih => rw [List.map_cons, List.map_cons, first.printed_eq, ih]
  cases values with
  | nil => exact .fail (by simp)
  | cons first rest =>
      dsimp only [Eval.runBuiltin]
      rw [shown]
      exact .bind (.print _) fun _ _ _ => .pure .nil

theorem unaryBuiltin_runs {callee : Builtin} (takes : callee.arity? = some 1) {value value' : Value}
    (values : between.Values value value') :
    Runs world between between.Values (Eval.runBuiltin world inner frame callee [value])
      (Eval.runBuiltin world inner (between.rename frame) callee [value']) := by
  cases callee with
  | len => exact .ofExcept (length_outcomes values)
  | type =>
      dsimp only [Eval.runBuiltin]
      rw [values.type_eq]
      exact .pure (.string _)
  | first => exact .ofExcept (first_outcomes values)
  | last => exact .ofExcept (last_outcomes values)
  | rest => exact .ofExcept (rest_outcomes values)
  | assert =>
      dsimp only [Eval.runBuiltin]
      rw [values.isTruthy_eq, values.display_eq]
      split
      · exact .pure .nil
      · exact .fail (by simp)
  | importFile =>
      cases values with
      | string path => exact importFile_runs keeps modules covered path
      | _ => exact .fail (by simp)
  | push | cons | get | map | puts | range => cases takes

omit keeps modules in
theorem binaryBuiltin_runs (respects : Respects world between inner) {callee : Builtin}
    (takes : callee.arity? = some 2) {left left' right right' : Value}
    (lefts : between.Values left left') (rights : between.Values right right') :
    Runs world between between.Values (Eval.runBuiltin world inner frame callee [left, right])
      (Eval.runBuiltin world inner (between.rename frame) callee [left', right']) := by
  cases callee with
  | push => exact .ofExcept (push_outcomes lefts rights)
  | cons => exact .ofExcept (cons_outcomes lefts rights)
  | get => exact .ofExcept (getAt_outcomes lefts rights)
  | map =>
      refine .bind (.ofExcept (arrayArgument_outcomes .map rights)) fun items items' same => ?_
      have applied : ∀ item item', between.Values item item' →
          Runs world between between.Values (inner frame (.apply left [item]))
            (inner (between.rename frame) (.apply left' [item'])) :=
        fun item item' values => respects frame _ _ covered (.apply lefts (.cons values .nil))
      exact .bind (.collect applied same .nil) fun _ _ results => .pure (.array results)
  | len | type | first | last | rest | assert | importFile | puts | range => cases takes

theorem runBuiltin_runs (respects : Respects world between inner) (callee : Builtin)
    {arguments arguments' : List Value}
    (values : List.Forall₂ between.Values arguments arguments') :
    Runs world between between.Values (Eval.runBuiltin world inner frame callee arguments)
      (Eval.runBuiltin world inner (between.rename frame) callee arguments') := by
  have wrongArity : Runs world between between.Values _ _ := wrongArity_runs callee values
  cases callee with
  | puts => exact puts_runs values
  | range => exact .ofExcept (range_outcomes values)
  | len | type | first | last | rest | assert =>
      rcases values with _ | ⟨first, _ | ⟨second, others⟩⟩
      · exact wrongArity
      · exact unaryBuiltin_runs keeps modules covered rfl first
      · exact wrongArity
  | importFile =>
      rcases values with _ | ⟨first, _ | ⟨second, others⟩⟩
      · exact wrongArity
      · exact unaryBuiltin_runs keeps modules covered rfl first
      · cases first <;> exact wrongArity
  | push | cons | get | map =>
      rcases values with _ | ⟨first, _ | ⟨second, _ | ⟨third, others⟩⟩⟩
      · exact wrongArity
      · exact wrongArity
      · exact binaryBuiltin_runs covered respects rfl first second
      · exact wrongArity

theorem call_runs (respects : Respects world between inner) {callee callee' : Value}
    (callees : between.Values callee callee') {arguments arguments' : List Value}
    (values : List.Forall₂ between.Values arguments arguments') :
    Runs world between between.Values (Eval.call world inner frame callee arguments)
      (Eval.call world inner (between.rename frame) callee' arguments') := by
  cases callees with
  | function bodies inside => exact callFunction_runs respects _ bodies inside values
  | builtin callee => exact runBuiltin_runs keeps modules covered respects callee values
  | _ => exact .fail (by simp)

end Calls

/-! ### Phrases -/

section Phrases

variable (respects : Respects world between inner) (covered : between.covers frame)
include respects covered

theorem conditional_runs {condition condition' : Expr}
    (conditions : condition.Alike between.exact condition') {consequence consequence' : Block}
    (consequences : consequence.Alike between.exact consequence')
    {otherwise otherwise' : Eval Value}
    (others : Runs world between between.Values otherwise otherwise') :
    Runs world between between.Values
      (Eval.conditional inner frame condition consequence otherwise)
      (Eval.conditional inner (between.rename frame) condition' consequence' otherwise') := by
  refine .bind (expr_runs respects covered conditions) fun held held' same => ?_
  rw [same.isTruthy_eq]
  split
  · exact block_runs respects covered consequences
  · exact others

theorem constructs_runs (keeps : Eval.EvaluatorKeeps inner)
    (modules : ∀ between : Correspondence, Respects world between inner)
    {value value' : Expr} (alike : value.Alike between.exact value') :
    Runs world between between.Values (Eval.expr world inner frame value)
      (Eval.expr world inner (between.rename frame) value') := by
  cases value with
  | leaf token =>
      obtain ⟨token', rfl, isOperand, tokens⟩ := alike.of_leaf
      exact leaf_runs covered isOperand tokens
  | unary operator operand =>
      obtain ⟨operator', operand', rfl, operators, operands⟩ := alike.of_unary
      refine .bind (expr_runs respects covered operands) fun held held' same => ?_
      exact .ofExcept (applyUnary_outcomes operators same)
  | binary left operator right =>
      obtain ⟨left', operator', right', rfl, lefts, operators, rights⟩ := alike.of_binary
      refine .bind (expr_runs respects covered lefts) fun held held' same => ?_
      refine .bind (expr_runs respects covered rights) fun other other' sameOther => ?_
      exact .ofExcept (applyBinary_outcomes operators same sameOther)
  | array position items =>
      obtain ⟨position', items', rfl, parts⟩ := alike.of_array
      exact .bind (exprs_runs respects covered parts) fun _ _ same => .pure (.array same)
  | hash position pairs =>
      obtain ⟨position', pairs', rfl, parts⟩ := alike.of_hash
      exact .bind (pairs_runs respects covered parts .nil) fun _ _ same => .pure (.hash same)
  | block body =>
      obtain ⟨body', rfl, bodies⟩ := alike.of_block
      exact block_runs respects covered bodies
  | ifThen position condition consequence =>
      obtain ⟨position', condition', consequence', rfl, conditions, consequences⟩ := alike.of_ifThen
      exact conditional_runs respects covered conditions consequences (.pure .nil)
  | ifElse position condition consequence alternative =>
      obtain ⟨position', condition', consequence', alternative', rfl, conditions, consequences,
        alternatives⟩ := alike.of_ifElse
      exact conditional_runs respects covered conditions consequences
        (block_runs respects covered alternatives)
  | function position parametersPosition parameters body =>
      obtain ⟨position', parametersPosition', parameters', body', rfl, names, bodies⟩ :=
        alike.of_function
      rw [Eval.expr, Eval.expr, names]
      exact .pure (.function bodies covered)
  | call callee position arguments =>
      obtain ⟨callee', position', arguments', rfl, callees, parts⟩ := alike.of_call
      refine .bind (expr_runs respects covered callees) fun held held' same => ?_
      refine .bind (exprs_runs respects covered parts) fun values values' sameValues => ?_
      exact call_runs keeps modules covered respects same sameValues
  | index target position place =>
      obtain ⟨target', position', place', rfl, targets, places⟩ := alike.of_index
      refine .bind (expr_runs respects covered targets) fun held held' same => ?_
      refine .bind (expr_runs respects covered places) fun other other' sameOther => ?_
      exact .ofExcept (atIndex_outcomes same sameOther)

omit respects in
theorem returning_runs {run run' : Eval Value}
    (runs : Runs world between between.Values run run') :
    Runs world between between.Values (Eval.returning frame run)
      (Eval.returning (between.rename frame) run') := by
  refine .get fun machine machine' machines => ?_
  rw [machines.inCall_eq covered]
  split
  · have thrown : Runs world between between.Values
        (do let result ← run; throw (.returned result))
        (do let result ← run'; throw (.returned result)) :=
      .bind runs fun _ _ same _ _ machines => .error (.returned same) machines
    exact thrown _ _ machines
  · have outside : RuntimeFault.returnOutsideFunction.IsNamed := by simp
    exact Runs.fail outside _ _ machines

theorem stmt_runs {stmt stmt' : Stmt} (alike : stmt.Alike between.exact stmt') :
    Runs world between between.Values (Eval.stmt inner frame stmt)
      (Eval.stmt inner (between.rename frame) stmt') := by
  cases stmt with
  | binding position name value =>
      obtain ⟨position', name', value', rfl, names, values⟩ := alike.of_binding
      refine .bind (expr_runs respects covered values) fun held held' same => ?_
      rw [names]
      exact .bind (.define _ same) fun _ _ _ => .pure .nil
  | returnNil position =>
      obtain ⟨position', rfl⟩ := alike.of_returnNil
      exact returning_runs covered (.pure .nil)
  | returnValue position value =>
      obtain ⟨position', value', rfl, values⟩ := alike.of_returnValue
      exact returning_runs covered (expr_runs respects covered values)
  | block body =>
      obtain ⟨body', rfl, bodies⟩ := alike.of_block
      exact block_runs respects covered bodies
  | expr position value =>
      obtain ⟨position', value', rfl, values⟩ := alike.of_expr
      exact expr_runs respects covered values

end Phrases

end Correspondence

/-- Evaluation does not tell corresponding phrases apart, however they are compared. -/
theorem evaluate_respects (world : World) (limit : Nat) (between : Correspondence) :
    Correspondence.Respects world between (evaluate world limit) := by
  -- The comparison stays free: an imported file is compared by the one that is exact.
  induction limit generalizing between with
  | zero => exact fun _ _ _ _ _ _ _ machines => .error .tooDeep machines
  | succ limit ih =>
      intro frame phrase phrase' covered phrases
      refine .located phrases.site_eq ?_
      have keeps := evaluate_keeps world limit
      cases phrases with
      | expr alike =>
          exact Correspondence.constructs_runs (ih between) covered keeps ih alike
      | stmt alike => exact Correspondence.stmt_runs (ih between) covered alike
      | apply callees values =>
          exact Correspondence.call_runs keeps ih covered (ih between) callees values

end Monkey
