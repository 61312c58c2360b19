import Monkey.Proofs.Eval.Changes
import Monkey.Proofs.Eval.Stops
import Monkey.Proofs.Value.Functions

/-!
# Following evaluations

No function comes up in an evaluation but those that were there before, those that function literals
make and the built-in ones that are named, and no error is blamed on anything but a phrase that is
evaluated. So a property of
evaluations spreads from one to all inside it if it does to the parts in the same code, to the
bodies of the functions that literals have made and to imported files. That is shown of how an
evaluation ends from its parts, and then of the parts.
-/

set_option autoImplicit false

namespace Monkey

/-- Evaluations that are followed, the functions that have been made in them so far, the built-in
functions that they name and where they blame errors. -/
structure Tracing (world : World) where
  holds : Moment → Prop
  made : Machine → List String → Block → FrameId → Prop
  offered : Builtin → Prop
  placed : Position → Prop
  later : ∀ {before after : Machine} {parameters : List String} {body : Block} {frame : FrameId},
    before.Develops after → made before parameters body frame → made after parameters body frame
  literal : ∀ {limit : Nat} {calls : List Activation} {frame : FrameId}
    {position parametersPosition : Position} {parameters : List Token} {body : Block}
    {machine : Machine},
    holds ⟨limit, calls, frame, .expr (.function position parametersPosition parameters body),
      machine⟩ → made machine (parameters.map Token.text) body frame
  named : ∀ {limit : Nat} {calls : List Activation} {frame : FrameId} {token : Token}
    {machine : Machine} {callee : Builtin}, holds ⟨limit, calls, frame, .expr (.leaf token),
      machine⟩ → token.kind = .identifier → Builtin.ofName? token.text = some callee →
    offered callee
  position : ∀ {moment : Moment}, holds moment → moment.phrase.position.IsKnown →
    placed moment.phrase.position
  nested : ∀ {whole part : Moment}, holds whole → Nested world whole part → holds part
  body : ∀ {activation : Activation} {whole part : Moment}, holds whole →
    RunsBody world activation whole part →
    made activation.machine activation.parameters activation.body activation.outer → holds part
  file : ∀ {path : String} {real : RealPath} {program : Program} {whole part : Moment},
    holds whole → offered .importFile → RunsFile world path real program whole part → holds part

namespace Tracing

variable {world : World} (tracing : Tracing world)

/-- Every function in the value has been made before the machine was reached, or is built in and
offered. -/
def Knows (machine : Machine) (value : Value) : Prop :=
  value.Carries (tracing.made machine) tracing.offered

def KnowsAll (machine : Machine) (values : List Value) : Prop :=
  ∀ value ∈ values, tracing.Knows machine value

def KnowsBindings (machine : Machine) (bindings : List (String × Value)) : Prop :=
  ∀ entry ∈ bindings, tracing.Knows machine entry.2

def KnowsMachine (machine : Machine) : Prop :=
  ∀ id, tracing.KnowsBindings machine (machine.frame id).bindings

def KnowsPhrase (machine : Machine) : Phrase → Prop
  | .apply callee arguments => tracing.Knows machine callee ∧ tracing.KnowsAll machine arguments
  | _ => True

/-- Every function in the value that is returned has been made, or the error is blamed on nothing
else than what is evaluated. -/
def KnowsStop (machine : Machine) : Stop → Prop
  | .returned value => tracing.Knows machine value
  | .error error => ∀ position, error.position = some position → tracing.placed position
  | _ => True

/-- The evaluation is followed, and all functions that it begins with have been made. -/
structure Follows (moment : Moment) : Prop where
  holds : tracing.holds moment
  phrase : tracing.KnowsPhrase moment.machine moment.phrase
  machine : tracing.KnowsMachine moment.machine

variable {tracing}

section Machines

variable {machine before after : Machine}

theorem Knows.later {value : Value} (knows : tracing.Knows before value)
    (develops : before.Develops after) : tracing.Knows after value :=
  Value.Carries.mono knows fun _ _ _ => tracing.later develops

theorem KnowsAll.later {values : List Value} (knows : tracing.KnowsAll before values)
    (develops : before.Develops after) : tracing.KnowsAll after values :=
  fun value member => (knows value member).later develops

theorem KnowsStop.later {stop : Stop} (knows : tracing.KnowsStop before stop)
    (develops : before.Develops after) : tracing.KnowsStop after stop := by
  cases stop with
  | returned value => exact Knows.later knows develops
  | _ => exact knows

theorem KnowsStop.imported {stop : Stop} (knows : tracing.KnowsStop machine stop) (path : String)
    (program : Program) : tracing.KnowsStop machine (stop.imported path program) := by
  cases stop with
  | error error => exact nofun
  | _ => exact knows

theorem KnowsBindings.nil : tracing.KnowsBindings machine [] :=
  fun _ member => absurd member List.not_mem_nil

theorem KnowsBindings.later {bindings : List (String × Value)}
    (knows : tracing.KnowsBindings before bindings) (develops : before.Develops after) :
    tracing.KnowsBindings after bindings :=
  fun entry member => (knows entry member).later develops

theorem KnowsBindings.put {bindings : List (String × Value)}
    (knows : tracing.KnowsBindings machine bindings) (name : String) {value : Value}
    (valueKnown : tracing.Knows machine value) :
    tracing.KnowsBindings machine (Entries.put name value bindings) := by
  intro entry member
  rcases Entries.mem_put member with rfl | old
  · exact valueKnown
  · exact knows entry old

/-- The bindings of a file as a hash. -/
theorem KnowsBindings.hash {bindings : List (String × Value)}
    (knows : tracing.KnowsBindings machine bindings) :
    tracing.Knows machine (.hash (bindings.map fun entry => (.string entry.1, entry.2))) := by
  refine .hash fun pair member => ?_
  obtain ⟨entry, isEntry, rfl⟩ := List.mem_map.mp member
  exact knows entry isEntry

theorem knowsBindings_parameters (parameters : List String) {arguments : List Value}
    (knows : tracing.KnowsAll machine arguments) :
    tracing.KnowsBindings machine (Eval.bindParameters parameters arguments) := by
  have entries : ∀ entry ∈ parameters.zip arguments, tracing.Knows machine entry.2 :=
    fun entry member => knows _ (List.of_mem_zip member).2
  unfold Eval.bindParameters
  generalize parameters.zip arguments = list at entries
  suffices ∀ bound, tracing.KnowsBindings machine bound →
      tracing.KnowsBindings machine
        (list.foldl (fun bound entry => Entries.put entry.1 entry.2 bound) bound) from
    this [] .nil
  induction list with
  | nil => exact fun bound isKnown => isKnown
  | cons entry rest ih =>
      intro bound isKnown
      obtain ⟨first, others⟩ := List.forall_mem_cons.mp entries
      exact ih others _ (isKnown.put entry.1 first)

theorem KnowsMachine.push (knows : tracing.KnowsMachine machine) {added : Frame}
    (bindings : tracing.KnowsBindings machine added.bindings) (running : List RealPath) :
    tracing.KnowsMachine { machine with frames := machine.frames.push added, running } := by
  intro id
  have develops := machine.develops_push added running
  have isFrame : Machine.frame { machine with frames := machine.frames.push added, running } id =
      if id = machine.frames.size then added else machine.frame id := machine.frame_pushed added id
  rw [isFrame]
  split
  · exact bindings.later develops
  · exact (knows id).later develops

theorem KnowsMachine.withScope (knows : tracing.KnowsMachine machine) (outer : FrameId)
    {bindings : List (String × Value)} (added : tracing.KnowsBindings machine bindings)
    (isCall : Bool) : tracing.KnowsMachine (machine.withScope outer bindings isCall) :=
  knows.push added machine.running

theorem KnowsMachine.withModule (knows : tracing.KnowsMachine machine) (real : RealPath) :
    tracing.KnowsMachine (machine.withModule real) :=
  knows.push .nil (real :: machine.running)

theorem KnowsMachine.define (knows : tracing.KnowsMachine machine) (id : FrameId) (name : String)
    {value : Value} (valueKnown : tracing.Knows machine value) :
    tracing.KnowsMachine (machine.modifyFrame id fun frame =>
      { frame with bindings := Entries.put name value frame.bindings }) := by
  have develops := (Machine.Becomes.bind machine id name value).develops
  intro other
  by_cases inside : other < machine.frames.size
  · rw [machine.frame_modify _ _ _ inside]
    split
    · exact ((knows other).put name valueKnown).later develops
    · exact (knows other).later develops
  · rw [Machine.frame_outside _ (by rw [Machine.size_modify]; exact Nat.not_lt.mp inside)]
    exact .nil

theorem KnowsMachine.of_frames (knows : tracing.KnowsMachine before)
    (same : after.frames = before.frames) : tracing.KnowsMachine after := by
  intro id
  rw [Machine.frame, same]
  exact (knows id).later (.of_frames same)

theorem KnowsMachine.lookup (knows : tracing.KnowsMachine machine) {id : FrameId} {name : String}
    {value : Value} (found : machine.lookup id name = some value) :
    tracing.Knows machine value := by
  obtain ⟨scope, -, held⟩ := List.exists_of_findSome?_eq_some found
  exact knows scope _ (Entries.mem_of_get? held)

end Machines

/-! ## How evaluations end -/

variable {α β : Type} {machine : Machine} {limit : Nat} {frame : FrameId}

/-- A value in which a computation ends is as described, and no other functions are left behind than
have been made. -/
def Ends (tracing : Tracing world) (good : Machine → α → Prop) :
    EStateM.Result Stop Machine α → Prop
  | .ok value rest => good rest value ∧ tracing.KnowsMachine rest
  | .error stop rest => tracing.KnowsStop rest stop ∧ tracing.KnowsMachine rest

section Rules

variable {good : Machine → α → Prop} {run : Eval α}

theorem Ends.ok {result : EStateM.Result Stop Machine α} (ends : tracing.Ends good result)
    {value : α} {rest : Machine} (isOk : result = .ok value rest) :
    good rest value ∧ tracing.KnowsMachine rest := by
  rwa [isOk] at ends

theorem Ends.ended {result : EStateM.Result Stop Machine α} (ends : tracing.Ends good result) :
    tracing.KnowsMachine (Eval.ended result) := by
  cases result <;> exact ends.2

theorem Ends.bind {next : α → Eval β} {good' : Machine → β → Prop}
    (head : tracing.Ends good (run machine))
    (tail : ∀ value rest, run machine = .ok value rest → good rest value →
      tracing.KnowsMachine rest → tracing.Ends good' (next value rest)) :
    tracing.Ends good' ((run >>= next) machine) := by
  rw [Eval.bind_apply]
  cases ran : run machine with
  | ok value rest =>
      rw [ran] at head
      exact tail value rest ran head.1 head.2
  | error stop rest =>
      rw [ran] at head
      exact head

theorem Ends.of_ok {next : α → Eval β} {good : Machine → β → Prop} {value : α} {rest : Machine}
    (ran : run machine = .ok value rest) (ends : tracing.Ends good (next value rest)) :
    tracing.Ends good ((run >>= next) machine) := by
  rw [Eval.bind_ok ran]
  exact ends

theorem Ends.fail (fault : RuntimeFault) (knows : tracing.KnowsMachine machine) :
    tracing.Ends good (Eval.fail fault machine) :=
  ⟨nofun, knows⟩

theorem Ends.ofExcept {result : Value.Result}
    (carries : result.Carries (tracing.made machine) tracing.offered)
    (knows : tracing.KnowsMachine machine) :
    tracing.Ends tracing.Knows (Eval.ofExcept result machine) := by
  cases result with
  | ok value => exact ⟨carries value rfl, knows⟩
  | error fault => exact .fail fault knows

theorem Ends.located {site : Site}
    (placed : site.position.IsKnown → tracing.placed site.position)
    (ends : tracing.Ends good (run machine)) :
    tracing.Ends good (Eval.located site run machine) := by
  cases ran : run machine with
  | ok value rest =>
      rw [ran] at ends
      rw [Eval.located, ran]
      exact ends
  | error stop rest =>
      rw [ran] at ends
      rw [Eval.located_error ran]
      refine ⟨?_, ends.2⟩
      cases stop with
      | error error =>
          intro blamed isBlamed
          unfold RuntimeError.blame at isBlamed
          split at isBlamed
          · exact ends.1 blamed isBlamed
          split at isBlamed
          · next known =>
            cases isBlamed
            exact placed known
          · exact ends.1 blamed isBlamed
      | _ => exact ends.1

theorem Ends.catchReturn {run : Eval Value} (ends : tracing.Ends tracing.Knows (run machine)) :
    tracing.Ends tracing.Knows (Eval.catchReturn run machine) := by
  unfold Eval.catchReturn
  generalize run machine = result at ends ⊢
  cases result with
  | ok value rest => exact ends
  | error stop rest =>
      cases stop with
      | returned value => exact ends
      | _ => exact ends

theorem Ends.nameValue (id : FrameId) {name : String} (knows : tracing.KnowsMachine machine)
    (named : ∀ callee, Builtin.ofName? name = some callee → tracing.offered callee) :
    tracing.Ends tracing.Knows (Eval.nameValue id name machine) := by
  unfold Eval.nameValue
  cases found : machine.lookup id name with
  | some value => exact ⟨knows.lookup found, knows⟩
  | none =>
      cases isBuiltin : Builtin.ofName? name with
      | some callee => exact ⟨.builtin (named callee isBuiltin), knows⟩
      | none => exact .fail _ knows

theorem Ends.leaf (frame : FrameId) {token : Token} (knows : tracing.KnowsMachine machine)
    (named : ∀ callee, token.kind = .identifier → Builtin.ofName? token.text = some callee →
      tracing.offered callee) :
    tracing.Ends tracing.Knows (Eval.leaf frame token machine) := by
  unfold Eval.leaf
  cases isKind : token.kind with
  | identifier => exact .nameValue frame knows fun callee => named callee isKind
  | integer =>
      cases Text.readInteger token.text with
      | ok n => exact ⟨.int n, knows⟩
      | error numeral => exact ⟨trivial, knows⟩
  | string => exact ⟨.string _, knows⟩
  | kwTrue | kwFalse => exact ⟨.bool _, knows⟩
  | kwNil => exact ⟨.nil, knows⟩
  | _ => exact .fail _ knows

end Rules

/-! ### Phrases one after another -/

/-- All of the phrases that evaluating them one after another comes to end as described. -/
def EndsOn (tracing : Tracing world) (limit : Nat) (frame : FrameId) (phrases : List Phrase)
    (machine : Machine) : Prop :=
  ∀ part reached, Sequence (evaluate world limit) frame phrases machine part reached →
    tracing.Ends tracing.Knows (evaluate world limit frame part reached)

theorem EndsOn.bind {phrase : Phrase} {rest : List Phrase} {next : Value → Eval β}
    {good : Machine → β → Prop} (ends : tracing.EndsOn limit frame (phrase :: rest) machine)
    (tail : ∀ value after, evaluate world limit frame phrase machine = .ok value after →
      tracing.Knows after value → tracing.KnowsMachine after →
      tracing.EndsOn limit frame rest after → tracing.Ends good (next value after)) :
    tracing.Ends good ((evaluate world limit frame phrase >>= next) machine) :=
  Ends.bind (ends phrase machine .first) fun value after ran knows afterKnown =>
    tail value after ran knows afterKnown fun part reached parts =>
      ends part reached (.later ran parts)

theorem collect_ends {α : Type} {phrase : α → Phrase} {items : List α}
    (ends : tracing.EndsOn limit frame (items.map phrase) machine)
    (knows : tracing.KnowsMachine machine) {done : List Value}
    (doneKnown : tracing.KnowsAll machine done) :
    tracing.Ends tracing.KnowsAll
      (Eval.collect (fun item => evaluate world limit frame (phrase item)) items done machine) := by
  induction items generalizing machine done with
  | nil => exact ⟨fun value member => doneKnown value (List.mem_reverse.mp member), knows⟩
  | cons item others ih =>
      refine ends.bind fun value after ran valueKnown afterKnown ends => ih ends afterKnown ?_
      exact List.forall_mem_cons.mpr ⟨valueKnown, doneKnown.later (evaluate_becomes ran).develops⟩

theorem statements_ends {list : List Stmt}
    (ends : tracing.EndsOn limit frame (list.map .stmt) machine)
    (knows : tracing.KnowsMachine machine) {result : Value}
    (resultKnown : tracing.Knows machine result) :
    tracing.Ends tracing.Knows
      (Eval.statements (evaluate world limit) frame list result machine) := by
  induction list generalizing machine result with
  | nil => exact ⟨resultKnown, knows⟩
  | cons stmt others ih =>
      exact ends.bind fun value after _ valueKnown afterKnown ends => ih ends afterKnown valueKnown

theorem pairs_ends {list : List Pair}
    (ends : ∀ part reached, PairSequence (evaluate world limit) frame list machine part reached →
      (part.position.IsKnown → tracing.placed part.position) ∧
        tracing.Ends tracing.Knows (evaluate world limit frame part reached))
    (knows : tracing.KnowsMachine machine) {done : List (Key × Value)}
    (doneKnown : tracing.Knows machine (.hash done)) :
    tracing.Ends (fun rest held => tracing.Knows rest (.hash held))
      (Eval.pairs (evaluate world limit) frame list done machine) := by
  induction list generalizing machine done with
  | nil => exact ⟨doneKnown, knows⟩
  | cons pair others ih =>
      obtain ⟨position, key, value⟩ := pair
      refine .bind (ends _ _ .key).2 fun keyValue after ran _ afterKnown => ?_
      cases hashable : keyValue.key? with
      | none => exact .located (ends _ _ .key).1 (.fail _ afterKnown)
      | some hashKey =>
          have second := (ends _ _ (.value ran hashable)).2
          refine .bind second fun held rest valueRan heldKnown known => ?_
          have develops := ((evaluate_becomes ran).trans (evaluate_becomes valueRan)).develops
          exact ih (fun part reached parts => ends part reached
            (.later ran hashable valueRan parts)) known
            (Value.Carries.put (doneKnown.later develops) hashKey heldKnown)

/-! ## The whole from its parts -/

section Parts

variable {calls : List Activation} {phrase : Phrase}
  (ends : ∀ part, Part world ⟨limit + 1, calls, frame, phrase, machine⟩ part →
    tracing.Ends tracing.Knows (part.result world))
include ends

theorem operands_end : tracing.EndsOn limit frame phrase.operands machine :=
  fun _ _ parts => ends _ (.operand parts)

theorem block_ends {body : Block} {entered : Machine}
    (enters : Enters (evaluate world limit) frame phrase machine body entered)
    (knows : tracing.KnowsMachine entered) :
    tracing.Ends tracing.Knows (Eval.block (evaluate world limit) frame body entered) := by
  have ran : tracing.EndsOn limit entered.frames.size body.phrases
      (entered.withScope frame [] false) :=
    fun part reached parts => ends _ (.block enters parts)
  exact statements_ends ran (knows.withScope frame .nil false) .nil

theorem importFile_ends {path : String} {called : Machine}
    (makes : Calls (evaluate world limit) frame phrase machine (.builtin .importFile)
      [.string path] called) (knows : tracing.KnowsMachine called) :
    tracing.Ends tracing.Knows
      (Eval.importFile world (evaluate world limit) frame path called) := by
  refine .of_ok rfl ?_
  cases found : world.resolveImport (called.frame frame).sourcePath path with
  | none => exact .fail _ knows
  | some file =>
      obtain ⟨real, content⟩ := file
      dsimp only
      split
      · exact .fail _ knows
      next entered =>
      cases text : ModuleText.ofContent content world.nestingLimit with
      | faulty fault => exact .fail _ knows
      | unreadableNumeral crash => exact ⟨trivial, knows⟩
      | program program =>
          have free : called.running.contains real = false := by simpa using entered
          have ran : tracing.EndsOn limit called.frames.size (program.statements.map .stmt)
              (called.withModule real) :=
            fun part reached parts => ends _ (.imported makes found free text parts)
          have finished := statements_ends ran (knows.withModule real) .nil
          dsimp only
          rw [Eval.runModule_eq]
          generalize Eval.statements _ _ _ _ _ = result at finished
          cases result with
          | ok value rest =>
              have left : tracing.KnowsMachine { rest with running := rest.running.tail } :=
                finished.2.of_frames rfl
              exact ⟨(left called.frames.size).hash, left⟩
          | error stop rest =>
              exact ⟨(finished.1.imported path program).later (.of_frames rfl),
                finished.2.of_frames rfl⟩

theorem map_ends {callee : Value} {items : List Value} {called : Machine}
    (makes : Calls (evaluate world limit) frame phrase machine (.builtin .map)
      [callee, .array items] called) (knows : tracing.KnowsMachine called) :
    tracing.Ends tracing.Knows (Eval.runBuiltin world (evaluate world limit) frame .map
      [callee, .array items] called) := by
  have ran : tracing.EndsOn limit frame (items.map fun item => .apply callee [item]) called :=
    fun part reached parts => ends _ (.mapped makes parts)
  refine .of_ok rfl (.bind (collect_ends ran knows nofun) ?_)
  exact fun values after _ all afterKnown => ⟨.array all, afterKnown⟩

theorem runBuiltin_ends {callee : Builtin} {arguments : List Value} {called : Machine}
    (makes : Calls (evaluate world limit) frame phrase machine (.builtin callee) arguments called)
    (all : tracing.KnowsAll called arguments) (knows : tracing.KnowsMachine called) :
    tracing.Ends tracing.Knows
      (Eval.runBuiltin world (evaluate world limit) frame callee arguments called) := by
  unfold Eval.runBuiltin
  split
  · exact .ofExcept (Value.length_carries _) knows
  · exact ⟨.string _, knows⟩
  · exact .ofExcept (Value.first_carries (all _ (by simp))) knows
  · exact .ofExcept (Value.last_carries (all _ (by simp))) knows
  · exact .ofExcept (Value.rest_carries (all _ (by simp))) knows
  · exact .ofExcept (Value.push_carries (all _ (by simp)) (all _ (by simp))) knows
  · exact .ofExcept (Value.cons_carries (all _ (by simp)) (all _ (by simp))) knows
  · exact .ofExcept (Value.getAt_carries (all _ (by simp)) _) knows
  · next mapped array =>
    cases array with
    | array items => exact map_ends ends makes knows
    | _ => exact .fail _ knows
  · split
    · exact ⟨.nil, knows⟩
    · exact .fail _ knows
  · exact importFile_ends ends makes knows
  · exact .fail _ knows
  · exact .ofExcept (Value.range_carries _) knows
  · exact .fail _ knows
  · exact ⟨.nil, knows.of_frames rfl⟩
  · exact .fail _ knows

theorem call_ends {callee : Value} {arguments : List Value} {called : Machine}
    (makes : Calls (evaluate world limit) frame phrase machine callee arguments called)
    (all : tracing.KnowsAll called arguments) (knows : tracing.KnowsMachine called) :
    tracing.Ends tracing.Knows
      (Eval.call world (evaluate world limit) frame callee arguments called) := by
  cases callee with
  | function parameters body outer =>
      unfold Eval.call Eval.callFunction
      dsimp only
      split
      · exact .fail _ knows
      · next fits =>
        have ran : tracing.EndsOn limit called.frames.size body.phrases
            (called.withScope outer (Eval.bindParameters parameters arguments) true) :=
          fun part reached parts => ends _ (.body makes (Decidable.not_not.mp fits) parts)
        have entered := knows.withScope outer (knowsBindings_parameters parameters all) true
        exact .catchReturn (statements_ends ran entered .nil)
  | builtin callee => exact runBuiltin_ends ends makes all knows
  | _ => exact .fail _ knows

theorem conditional_ends {condition : Expr} {consequence : Block} {otherwise : Eval Value}
    (operands : tracing.EndsOn limit frame [.expr condition] machine)
    (holds : ∀ held after, evaluate world limit frame (.expr condition) machine = .ok held after →
      held.isTruthy = true → Enters (evaluate world limit) frame phrase machine consequence after)
    (fails : ∀ held after, evaluate world limit frame (.expr condition) machine = .ok held after →
      held.isTruthy = false → tracing.KnowsMachine after →
      tracing.Ends tracing.Knows (otherwise after)) :
    tracing.Ends tracing.Knows
      (Eval.conditional (evaluate world limit) frame condition consequence otherwise machine) := by
  refine operands.bind fun held after ran _ afterKnown _ => ?_
  cases truthy : held.isTruthy with
  | true => exact block_ends ends (holds held after ran truthy) afterKnown
  | false => exact fails held after ran truthy afterKnown

/-- If the parts of a phrase that is followed end as described, so does the phrase. -/
theorem phrase_ends (follows : tracing.Follows ⟨limit + 1, calls, frame, phrase, machine⟩) :
    tracing.Ends tracing.Knows
      (Eval.phrase world (evaluate world limit) frame phrase machine) := by
  have operands := operands_end ends
  have knows : tracing.KnowsMachine machine := follows.machine
  cases phrase with
  | apply callee arguments => exact call_ends ends .apply follows.phrase.2 knows
  | stmt stmt =>
      cases stmt with
      | binding position name value =>
          refine operands.bind fun held after _ heldKnown afterKnown _ => ?_
          exact ⟨.nil, afterKnown.define frame name.text heldKnown⟩
      | returnNil position =>
          refine .of_ok rfl ?_
          split
          · exact ⟨.nil, knows⟩
          · exact .fail _ knows
      | returnValue position value =>
          refine .of_ok rfl ?_
          split
          · next inside =>
            exact .bind (ends _ (.returned inside)) fun held after _ heldKnown afterKnown =>
              ⟨heldKnown, afterKnown⟩
          · exact .fail _ knows
      | block body => exact block_ends ends .stmt knows
      | expr position value => exact operands _ _ .first
  | expr expr =>
      cases expr with
      | leaf token => exact .leaf frame knows fun _ => tracing.named follows.holds
      | unary operator operand =>
          refine operands.bind fun value after _ _ afterKnown _ => ?_
          exact .ofExcept (Value.applyUnary_carries operator value) afterKnown
      | binary left operator right =>
          refine operands.bind fun leftValue after _ _ _ operands => ?_
          refine operands.bind fun rightValue rest _ _ restKnown _ => ?_
          exact .ofExcept (Value.applyBinary_carries operator leftValue rightValue) restKnown
      | array position items =>
          refine .bind (collect_ends operands knows nofun) ?_
          exact fun values after _ all afterKnown => ⟨.array all, afterKnown⟩
      | hash position pairs =>
          have none : tracing.Knows machine (.hash []) := .hash nofun
          have ran := pairs_ends (fun part reached parts =>
            ⟨tracing.position (tracing.nested follows.holds (.pair parts)), ends _ (.pair parts)⟩)
            knows none
          exact .bind ran fun held after _ heldKnown afterKnown => ⟨heldKnown, afterKnown⟩
      | block body => exact block_ends ends .expr knows
      | ifThen position condition consequence =>
          exact conditional_ends ends operands (fun _ _ ran truthy => .ifThen ran truthy)
            fun _ _ _ _ afterKnown => ⟨.nil, afterKnown⟩
      | ifElse position condition consequence alternative =>
          exact conditional_ends ends operands (fun _ _ ran truthy => .consequence ran truthy)
            fun _ _ ran falsy afterKnown => block_ends ends (.alternative ran falsy) afterKnown
      | function position parametersPosition parameters body =>
          exact ⟨.function (tracing.literal follows.holds), knows⟩
      | call callee position arguments =>
          refine operands.bind fun value after ran _ afterKnown operands => ?_
          refine .bind (collect_ends operands afterKnown nofun) ?_
          intro values called argumentsRan all calledKnown
          exact call_ends ends (.expr ran argumentsRan) all calledKnown
      | index target position place =>
          refine operands.bind fun targetValue after _ targetKnown _ operands => ?_
          refine operands.bind fun placeValue rest ran _ restKnown _ => ?_
          have stillKnown := targetKnown.later (evaluate_becomes ran).develops
          exact .ofExcept (Value.atIndex_carries stillKnown placeValue) restKnown

end Parts

/-! ## The parts from the whole -/

section Wholes

variable {reached : Machine} {part : Phrase}

theorem KnowsPhrase.later {before after : Machine} {phrase : Phrase}
    (knows : tracing.KnowsPhrase before phrase) (develops : before.Develops after) :
    tracing.KnowsPhrase after phrase := by
  cases phrase with
  | apply callee arguments => exact ⟨Knows.later knows.1 develops, KnowsAll.later knows.2 develops⟩
  | _ => exact knows

theorem knowsPhrase_operands (machine : Machine) (phrase : Phrase) :
    ∀ part ∈ phrase.operands, tracing.KnowsPhrase machine part := by
  cases phrase with
  | apply callee arguments => exact nofun
  | stmt stmt => cases stmt <;> simp [Phrase.operands, KnowsPhrase]
  | expr expr => cases expr <;> simp [Phrase.operands, KnowsPhrase]

theorem knowsPhrase_statements (machine : Machine) (list : List Stmt) :
    ∀ part ∈ list.map Phrase.stmt, tracing.KnowsPhrase machine part := by
  simp [KnowsPhrase]

/-- Each part is followed as the ones before it are and end as described. -/
theorem follows_sequence {calls : List Activation} {phrases : List Phrase}
    (parts : Sequence (evaluate world limit) frame phrases machine part reached)
    (holds : ∀ part reached, Sequence (evaluate world limit) frame phrases machine part reached →
      tracing.holds ⟨limit, calls, frame, part, reached⟩)
    (ends : ∀ part reached, Sequence (evaluate world limit) frame phrases machine part reached →
      tracing.Follows ⟨limit, calls, frame, part, reached⟩ →
      tracing.Ends tracing.Knows (evaluate world limit frame part reached))
    (all : ∀ phrase ∈ phrases, tracing.KnowsPhrase machine phrase)
    (knows : tracing.KnowsMachine machine) :
    tracing.Follows ⟨limit, calls, frame, part, reached⟩ := by
  induction parts with
  | first => exact ⟨holds _ _ .first, all _ List.mem_cons_self, knows⟩
  | later ran _ ih =>
      obtain ⟨first, others⟩ := List.forall_mem_cons.mp all
      have ended := (ends _ _ .first ⟨holds _ _ .first, first, knows⟩).ok ran
      have develops := (evaluate_becomes ran).develops
      exact ih (fun part reached parts => holds part reached (.later ran parts))
        (fun part reached parts => ends part reached (.later ran parts))
        (fun phrase member => (others phrase member).later develops) ended.2

theorem follows_pairs {calls : List Activation} {pairs : List Pair}
    (parts : PairSequence (evaluate world limit) frame pairs machine part reached)
    (holds : ∀ part reached, PairSequence (evaluate world limit) frame pairs machine part reached →
      tracing.holds ⟨limit, calls, frame, part, reached⟩)
    (ends : ∀ part reached, PairSequence (evaluate world limit) frame pairs machine part reached →
      tracing.Follows ⟨limit, calls, frame, part, reached⟩ →
      tracing.Ends tracing.Knows (evaluate world limit frame part reached))
    (knows : tracing.KnowsMachine machine) :
    tracing.Follows ⟨limit, calls, frame, part, reached⟩ := by
  induction parts with
  | key => exact ⟨holds _ _ .key, trivial, knows⟩
  | value ran hashable =>
      have ended := (ends _ _ .key ⟨holds _ _ .key, trivial, knows⟩).ok ran
      exact ⟨holds _ _ (.value ran hashable), trivial, ended.2⟩
  | later ran hashable valueRan _ ih =>
      have ended := (ends _ _ .key ⟨holds _ _ .key, trivial, knows⟩).ok ran
      have valueHolds := holds _ _ (.value ran hashable)
      have valueEnded := (ends _ _ (.value ran hashable) ⟨valueHolds, trivial, ended.2⟩).ok valueRan
      exact ih (fun part reached parts => holds part reached (.later ran hashable valueRan parts))
        (fun part reached parts => ends part reached (.later ran hashable valueRan parts))
        valueEnded.2

end Wholes

section Parts

variable {calls : List Activation} {phrase : Phrase}
  (ends : ∀ part, Part world ⟨limit + 1, calls, frame, phrase, machine⟩ part →
    tracing.Follows part → tracing.Ends tracing.Knows (part.result world))
  (follows : tracing.Follows ⟨limit + 1, calls, frame, phrase, machine⟩)
include ends follows

theorem follows_operand {part : Phrase} {reached : Machine}
    (parts : Sequence (evaluate world limit) frame phrase.operands machine part reached) :
    tracing.Follows ⟨limit, calls, frame, part, reached⟩ :=
  follows_sequence parts (fun _ _ parts => tracing.nested follows.holds (.operand parts))
    (fun _ _ parts => ends _ (.operand parts)) (knowsPhrase_operands machine phrase)
    follows.machine

theorem operands_endOn : tracing.EndsOn limit frame phrase.operands machine :=
  fun _ _ parts => ends _ (.operand parts) (follows_operand ends follows parts)

theorem enters_known {body : Block} {entered : Machine}
    (enters : Enters (evaluate world limit) frame phrase machine body entered) :
    tracing.KnowsMachine entered := by
  have operands := operands_endOn ends follows
  cases enters with
  | expr | stmt => exact follows.machine
  | ifThen ran | consequence ran | alternative ran => exact ((operands _ _ .first).ok ran).2

theorem calls_known {callee : Value} {arguments : List Value} {called : Machine}
    (makes : Calls (evaluate world limit) frame phrase machine callee arguments called) :
    (tracing.Knows called callee ∧ tracing.KnowsAll called arguments) ∧
      tracing.KnowsMachine called := by
  have operands := operands_endOn ends follows
  cases makes with
  | apply => exact ⟨follows.phrase, follows.machine⟩
  | expr ran argumentsRan =>
      have ended := (operands _ _ .first).ok ran
      have others : tracing.Ends tracing.KnowsAll
          (Eval.exprs (evaluate world limit) frame _ _) :=
        collect_ends (fun part reached parts => operands _ _ (.later ran parts)) ended.2 nofun
      obtain ⟨all, known⟩ := others.ok argumentsRan
      exact ⟨⟨ended.1.later (Eval.exprs_becomes argumentsRan).develops, all⟩, known⟩

end Parts

/-- A part of an evaluation that is followed is followed, if the parts before it end as
described. -/
theorem follows_of_ends {whole part : Moment} (isPart : Part world whole part)
    (ends : ∀ part, Part world whole part → tracing.Follows part →
      tracing.Ends tracing.Knows (part.result world)) (follows : tracing.Follows whole) :
    tracing.Follows part := by
  have holds := follows.holds
  cases isPart with
  | operand parts => exact follows_operand ends follows parts
  | pair parts =>
      exact follows_pairs parts (fun _ _ parts => tracing.nested holds (.pair parts))
        (fun _ _ parts => ends _ (.pair parts)) follows.machine
  | @block _ _ frame _ _ _ _ _ _ enters parts =>
      have entered := enters_known ends follows enters
      exact follows_sequence parts (fun _ _ parts => tracing.nested holds (.block enters parts))
        (fun _ _ parts => ends _ (.block enters parts)) (knowsPhrase_statements _ _)
        (entered.withScope frame .nil false)
  | returned inside => exact ⟨tracing.nested holds (.returned inside), trivial, follows.machine⟩
  | @body _ _ _ outer _ _ _ _ _ parameters _ _ makes fits parts =>
      obtain ⟨⟨callee, arguments⟩, called⟩ := calls_known ends follows makes
      have entered := called.withScope outer (knowsBindings_parameters parameters arguments) true
      have made := Value.Carries.isMade callee
      exact follows_sequence parts
        (fun _ _ parts => tracing.body holds (.intro makes fits parts) made)
        (fun _ _ parts => ends _ (.body makes fits parts)) (knowsPhrase_statements _ _) entered
  | @mapped _ _ _ _ _ _ _ _ callee items makes parts =>
      obtain ⟨⟨-, arguments⟩, called⟩ := calls_known ends follows makes
      have calleeKnown := arguments callee (by simp)
      have itemsKnown := Value.Carries.items (arguments (.array items) (by simp))
      refine follows_sequence parts (fun _ _ parts => tracing.nested holds (.mapped makes parts))
        (fun _ _ parts => ends _ (.mapped makes parts)) (fun phrase member => ?_) called
      obtain ⟨item, isItem, rfl⟩ := List.mem_map.mp member
      exact ⟨calleeKnown, List.forall_mem_singleton.mpr (itemsKnown item isItem)⟩
  | imported makes found free text parts =>
      obtain ⟨⟨callee, -⟩, called⟩ := calls_known ends follows makes
      have offered := Value.Carries.isOffered callee
      exact follows_sequence parts
        (fun _ _ parts => tracing.file holds offered (.intro makes found free text parts))
        (fun _ _ parts => ends _ (.imported makes found free text parts))
        (knowsPhrase_statements _ _) (called.withModule _)

/-! ## Runs -/

theorem Follows.ends {moment : Moment} (follows : tracing.Follows moment) :
    tracing.Ends tracing.Knows (moment.result world) := by
  -- On the depth: a part has less of it left, so it ends as described once it is followed.
  induction isLimit : moment.limit generalizing moment with
  | zero =>
      obtain ⟨_, calls, frame, phrase, machine⟩ := moment
      subst isLimit
      exact ⟨trivial, follows.machine⟩
  | succ limit ih =>
      obtain ⟨_, calls, frame, phrase, machine⟩ := moment
      subst isLimit
      have parts : ∀ part, Part world ⟨limit + 1, calls, frame, phrase, machine⟩ part →
          tracing.Follows part → tracing.Ends tracing.Knows (part.result world) :=
        fun part isPart partFollows => ih partFollows (Nat.succ.inj isPart.limit_eq.symm)
      refine .located (tracing.position follows.holds) (phrase_ends (fun part isPart => ?_) follows)
      exact parts part isPart (follows_of_ends isPart parts follows)

theorem Follows.part {whole part : Moment} (follows : tracing.Follows whole)
    (isPart : Part world whole part) : tracing.Follows part :=
  follows_of_ends isPart (fun _ _ partFollows => partFollows.ends) follows

end Tracing

end Monkey
