import Monkey.Proofs.Eval.Stops

/-!
# Nothing else takes place

The evaluation of a phrase depends on no evaluation but its parts, so whatever does not run out of
depth ends in the same way with more of it. It does not depend on all of the machine either: it
comes to the same on machines that are looked at in some other way, as long as bindings, scopes and
the text printed so far can be told. An import is the exception, since it looks at the file of a
frame and at the files that are running.
-/

set_option autoImplicit false

namespace Monkey

namespace Eval

/-- How a computation ends, with another look at the machine that it leaves. -/
def viewed {α : Type} (look : Machine → Machine) :
    EStateM.Result Stop Machine α → EStateM.Result Stop Machine α
  | .ok value rest => .ok value (look rest)
  | .error stop rest => .error stop (look rest)

end Eval

/-- A way of looking at machines under which what a phrase does with a machine stays the same. -/
structure View where
  look : Machine → Machine
  inCall : ∀ machine id, (look machine).inCall id = machine.inCall id
  nameValue : ∀ machine id name,
    Eval.nameValue id name (look machine) = Eval.viewed look (Eval.nameValue id name machine)
  newFrameIn : ∀ machine outer bindings isCall,
    Eval.newFrameIn outer bindings isCall (look machine) =
      Eval.viewed look (Eval.newFrameIn outer bindings isCall machine)
  define : ∀ machine id name value,
    Eval.define id name value (look machine) = Eval.viewed look (Eval.define id name value machine)
  print : ∀ machine text,
    Eval.print text (look machine) = Eval.viewed look (Eval.print text machine)

namespace Eval

@[simp] theorem viewed_id {α : Type} (result : EStateM.Result Stop Machine α) :
    viewed (fun machine => machine) result = result := by
  cases result <;> rfl

end Eval

/-- The view of a machine as it is. -/
def View.plain : View where
  look machine := machine
  inCall _ _ := rfl
  nameValue _ _ _ := (Eval.viewed_id _).symm
  newFrameIn _ _ _ _ := rfl
  define _ _ _ _ := rfl
  print _ _ := rfl

namespace Eval

variable {world : World} {view : View} {inner inner' : Evaluator} {frame : FrameId}
  {machine : Machine}

/-! ## Computations -/

section Computations

variable {α β : Type}

theorem bind_viewed {run run' : Eval α} {next next' : α → Eval β}
    (head : run' (view.look machine) = viewed view.look (run machine))
    (tail : ∀ value after, run machine = .ok value after →
      next' value (view.look after) = viewed view.look (next value after)) :
    (run' >>= next') (view.look machine) = viewed view.look ((run >>= next) machine) := by
  rw [bind_apply, bind_apply, head]
  cases ran : run machine with
  | error stop after => rfl
  | ok value after => exact tail value after ran

theorem ofExcept_viewed (result : Except RuntimeFault α) :
    ofExcept result (view.look machine) = viewed view.look (ofExcept result machine) := by
  cases result <;> rfl

theorem located_viewed {run run' : Eval α}
    (same : run' (view.look machine) = viewed view.look (run machine)) (site : Site) :
    located site run' (view.look machine) = viewed view.look (located site run machine) := by
  rw [located, located, same]
  rcases run machine with _ | ⟨_ | _ | _ | _, _⟩ <;> rfl

theorem catchReturn_viewed {run run' : Eval Value}
    (same : run' (view.look machine) = viewed view.look (run machine)) :
    catchReturn run' (view.look machine) = viewed view.look (catchReturn run machine) := by
  rw [catchReturn, catchReturn, same]
  rcases run machine with _ | ⟨_ | _ | _ | _, _⟩ <;> rfl

theorem leaf_viewed (frame : FrameId) (token : Token) :
    leaf frame token (view.look machine) = viewed view.look (leaf frame token machine) := by
  unfold leaf
  cases token.kind with
  | identifier => exact view.nameValue machine frame token.text
  | integer => cases Text.readInteger token.text <;> rfl
  | _ => rfl

theorem returning_viewed {run run' : Eval Value}
    (same : machine.inCall frame = true →
      run' (view.look machine) = viewed view.look (run machine)) :
    returning frame run' (view.look machine) = viewed view.look (returning frame run machine) := by
  have unfolded : ∀ (run : Eval Value) (machine : Machine), returning frame run machine =
      (if machine.inCall frame then (do throw (.returned (← run)))
        else fail .returnOutsideFunction : Eval Value) machine :=
    fun _ _ => rfl
  rw [unfolded, unfolded, view.inCall]
  cases inside : machine.inCall frame with
  | true => exact bind_viewed (same inside) fun _ _ _ => rfl
  | false => rfl

end Computations

/-! ## Phrases inside -/

/-- An evaluator takes the place of another one for the phrases that evaluating these one after
another comes to, on machines as they are viewed. -/
def Stands (view : View) (inner inner' : Evaluator) (frame : FrameId) (phrases : List Phrase)
    (machine : Machine) : Prop :=
  ∀ part reached, Sequence inner frame phrases machine part reached →
    inner' frame part (view.look reached) = viewed view.look (inner frame part reached)

theorem Stands.bind {β : Type} {phrase : Phrase} {rest : List Phrase} {next next' : Value → Eval β}
    (stands : Stands view inner inner' frame (phrase :: rest) machine)
    (tail : ∀ value after, inner frame phrase machine = .ok value after →
      Stands view inner inner' frame rest after →
      next' value (view.look after) = viewed view.look (next value after)) :
    (inner' frame phrase >>= next') (view.look machine) =
      viewed view.look ((inner frame phrase >>= next) machine) :=
  bind_viewed (stands phrase machine .first) fun value after ran =>
    tail value after ran fun part reached parts => stands part reached (.later ran parts)

theorem collect_viewed {α : Type} {phrase : α → Phrase} {items : List α}
    (stands : Stands view inner inner' frame (items.map phrase) machine) (done : List Value) :
    collect (fun item => inner' frame (phrase item)) items done (view.look machine) =
      viewed view.look (collect (fun item => inner frame (phrase item)) items done machine) := by
  induction items generalizing machine done with
  | nil => rfl
  | cons item others ih => exact stands.bind fun value after _ stands => ih stands (value :: done)

theorem statements_viewed {list : List Stmt}
    (stands : Stands view inner inner' frame (list.map .stmt) machine) (result : Value) :
    statements inner' frame list result (view.look machine) =
      viewed view.look (statements inner frame list result machine) := by
  induction list generalizing machine result with
  | nil => rfl
  | cons stmt others ih => exact stands.bind fun value after _ stands => ih stands value

theorem pairs_viewed {list : List Pair}
    (stands : ∀ part reached, PairSequence inner frame list machine part reached →
      inner' frame part (view.look reached) = viewed view.look (inner frame part reached))
    (done : List (Key × Value)) :
    pairs inner' frame list done (view.look machine) =
      viewed view.look (pairs inner frame list done machine) := by
  induction list generalizing machine done with
  | nil => rfl
  | cons pair others ih =>
      obtain ⟨position, key, value⟩ := pair
      refine bind_viewed (stands _ _ .key) fun keyValue after ran => ?_
      cases hashable : keyValue.key? with
      | none => exact located_viewed rfl (Phrase.expr key).site
      | some hashKey =>
          refine bind_viewed (stands _ _ (.value ran hashable)) fun held rest valueRan => ?_
          exact ih (fun part reached parts =>
            stands part reached (.later ran hashable valueRan parts)) _

/-! ## Phrases from their parts -/

section Parts

variable {limit : Nat} {calls : List Activation} {phrase : Phrase}
  (same : ∀ part, Part world ⟨limit + 1, calls, frame, phrase, machine⟩ part →
    inner' part.frame part.phrase (view.look part.machine) =
      viewed view.look (part.result world))
  (imports : ∀ path called, Calls (evaluate world limit) frame phrase machine (.builtin .importFile)
      [.string path] called →
    importFile world inner' frame path (view.look called) =
      viewed view.look (importFile world (evaluate world limit) frame path called))
include same

theorem operands_stand :
    Stands view (evaluate world limit) inner' frame phrase.operands machine :=
  fun _ _ parts => same _ (.operand parts)

theorem block_viewed {body : Block} {entered : Machine}
    (enters : Enters (evaluate world limit) frame phrase machine body entered) :
    block inner' frame body (view.look entered) =
      viewed view.look (block (evaluate world limit) frame body entered) := by
  refine bind_viewed (view.newFrameIn entered frame [] false) fun scope after isNew => ?_
  cases isNew
  exact statements_viewed (fun part reached parts => same _ (.block enters parts)) .nil

theorem map_viewed {callee array : Value} {called : Machine}
    (makes : Calls (evaluate world limit) frame phrase machine (.builtin .map) [callee, array]
      called) :
    runBuiltin world inner' frame .map [callee, array] (view.look called) =
      viewed view.look (runBuiltin world (evaluate world limit) frame .map [callee, array]
        called) := by
  cases array with
  | array items =>
      refine bind_viewed (ofExcept_viewed _) fun list after isItems => ?_
      cases isItems
      refine bind_viewed ?_ fun _ _ _ => rfl
      have stands : Stands view (evaluate world limit) inner' frame
          (items.map fun item => .apply callee [item]) called :=
        fun part reached parts => same _ (.mapped makes parts)
      exact collect_viewed stands []
  | _ => rfl

include imports

theorem runBuiltin_viewed {callee : Builtin} {arguments : List Value} {called : Machine}
    (makes : Calls (evaluate world limit) frame phrase machine (.builtin callee) arguments
      called) :
    runBuiltin world inner' frame callee arguments (view.look called) =
      viewed view.look (runBuiltin world (evaluate world limit) frame callee arguments called) := by
  cases callee with
  | importFile =>
      rcases arguments with _ | ⟨first, _ | ⟨second, others⟩⟩
      · rfl
      · cases first with
        | string path => exact imports path called makes
        | _ => rfl
      · cases first <;> rfl
  | map =>
      rcases arguments with _ | ⟨first, _ | ⟨second, _ | ⟨third, others⟩⟩⟩
      · rfl
      · rfl
      · exact map_viewed same makes
      · rfl
  | range => exact ofExcept_viewed _
  | puts =>
      cases arguments with
      | nil => rfl
      | cons first others => exact bind_viewed (view.print called _) fun _ _ _ => rfl
  | assert =>
      rcases arguments with _ | ⟨first, _ | ⟨second, others⟩⟩
      · rfl
      · dsimp only [runBuiltin]
        split <;> rfl
      · rfl
  | type => rcases arguments with _ | ⟨first, _ | ⟨second, others⟩⟩ <;> rfl
  | len | first | last | rest =>
      rcases arguments with _ | ⟨first, _ | ⟨second, others⟩⟩
      · rfl
      · exact ofExcept_viewed _
      · rfl
  | push | cons | get =>
      rcases arguments with _ | ⟨first, _ | ⟨second, _ | ⟨third, others⟩⟩⟩
      · rfl
      · rfl
      · exact ofExcept_viewed _
      · rfl

theorem call_viewed {callee : Value} {arguments : List Value} {called : Machine}
    (makes : Calls (evaluate world limit) frame phrase machine callee arguments called) :
    call world inner' frame callee arguments (view.look called) =
      viewed view.look (call world (evaluate world limit) frame callee arguments called) := by
  cases callee with
  | function parameters body outer =>
      unfold call callFunction
      dsimp only
      split
      · rfl
      · next fits =>
        refine bind_viewed (view.newFrameIn called outer _ true) fun scope after isNew => ?_
        cases isNew
        refine catchReturn_viewed (statements_viewed (fun part reached parts => ?_) .nil)
        exact same _ (.body makes (Decidable.not_not.mp fits) parts)
  | builtin callee => exact runBuiltin_viewed same imports makes
  | _ => rfl

omit imports in
theorem conditional_viewed {condition : Expr} {consequence : Block}
    {otherwise otherwise' : Eval Value}
    (stands : Stands view (evaluate world limit) inner' frame [.expr condition] machine)
    (holds : ∀ held after, evaluate world limit frame (.expr condition) machine = .ok held after →
      held.isTruthy = true → Enters (evaluate world limit) frame phrase machine consequence after)
    (fails : ∀ held after, evaluate world limit frame (.expr condition) machine = .ok held after →
      held.isTruthy = false →
      otherwise' (view.look after) = viewed view.look (otherwise after)) :
    conditional inner' frame condition consequence otherwise' (view.look machine) =
      viewed view.look
        (conditional (evaluate world limit) frame condition consequence otherwise machine) := by
  refine stands.bind fun held after ran _ => ?_
  cases truthy : held.isTruthy with
  | true => exact block_viewed same (holds held after ran truthy)
  | false => exact fails held after ran truthy

/-- The evaluation of a phrase depends on no evaluation but its parts. -/
theorem phrase_viewed :
    Eval.phrase world inner' frame phrase (view.look machine) =
      viewed view.look (Eval.phrase world (evaluate world limit) frame phrase machine) := by
  have stands := operands_stand same
  cases phrase with
  | apply callee arguments => exact call_viewed same imports .apply
  | stmt stmt =>
      cases stmt with
      | binding position name value =>
          exact stands.bind fun held after _ _ =>
            bind_viewed (view.define after frame name.text held) fun _ _ _ => rfl
      | returnNil position => exact returning_viewed fun _ => rfl
      | returnValue position value => exact returning_viewed fun inside => same _ (.returned inside)
      | block body => exact block_viewed same .stmt
      | expr position value => exact stands _ _ .first
  | expr expr =>
      cases expr with
      | leaf token => exact leaf_viewed frame token
      | unary operator operand => exact stands.bind fun _ _ _ _ => ofExcept_viewed _
      | binary left operator right =>
          exact stands.bind fun _ _ _ stands => stands.bind fun _ _ _ _ => ofExcept_viewed _
      | array position items => exact bind_viewed (collect_viewed stands []) fun _ _ _ => rfl
      | hash position pairs =>
          refine bind_viewed (pairs_viewed (fun part reached parts => ?_) []) fun _ _ _ => rfl
          exact same _ (.pair parts)
      | block body => exact block_viewed same .expr
      | ifThen position condition consequence =>
          exact conditional_viewed same stands (fun _ _ ran truthy => .ifThen ran truthy)
            fun _ _ _ _ => rfl
      | ifElse position condition consequence alternative =>
          exact conditional_viewed same stands (fun _ _ ran truthy => .consequence ran truthy)
            fun _ _ ran falsy => block_viewed same (.alternative ran falsy)
      | function position parametersPosition parameters body => rfl
      | call callee position arguments =>
          refine stands.bind fun value after ran stands => ?_
          refine bind_viewed (collect_viewed stands []) fun values called argumentsRan => ?_
          exact call_viewed same imports (.expr ran argumentsRan)
      | index target position place =>
          exact stands.bind fun _ _ _ stands => stands.bind fun _ _ _ _ => ofExcept_viewed _

end Parts

/-! ## Machines as they are -/

theorem statements_plain {list : List Stmt}
    (agree : ∀ part reached, Sequence inner frame (list.map .stmt) machine part reached →
      inner' frame part reached = inner frame part reached) (result : Value) :
    statements inner' frame list result machine = statements inner frame list result machine := by
  have stands : Stands .plain inner inner' frame (list.map .stmt) machine :=
    fun part reached parts => (agree part reached parts).trans (viewed_id _).symm
  exact (statements_viewed stands result).trans (viewed_id _)

/-- What stands for the parts of an import stands for the import, on the same machines. -/
theorem importFile_plain {limit : Nat} {calls : List Activation} {phrase : Phrase}
    (same : ∀ part, Part world ⟨limit + 1, calls, frame, phrase, machine⟩ part →
      inner' part.frame part.phrase part.machine = part.result world)
    {path : String} {called : Machine}
    (makes : Calls (evaluate world limit) frame phrase machine (.builtin .importFile)
      [.string path] called) :
    importFile world inner' frame path called =
      importFile world (evaluate world limit) frame path called := by
  refine (bind_ok rfl).trans (.trans ?_ (bind_ok rfl).symm)
  cases found : world.resolveImport (called.frame frame).sourcePath path with
  | none => rfl
  | some file =>
      obtain ⟨real, content⟩ := file
      cases free : called.running.contains real with
      | true => simp only [free, if_true]
      | false =>
          simp only [free]
          cases text : ModuleText.ofContent content world.nestingLimit with
          | faulty fault => rfl
          | unreadableNumeral crash => rfl
          | program program =>
              have ran := statements_plain (fun part reached parts =>
                same _ (.imported makes found free text parts)) .nil
              refine (runModule_eq ..).trans (.trans ?_ (runModule_eq ..).symm)
              rw [ran]

end Eval

/-- Whatever gives the parts of an evaluation their results gives the evaluation its own. -/
theorem Moment.result_eq {world : World} {limit : Nat} {calls : List Activation} {frame : FrameId}
    {phrase : Phrase} {machine : Machine} {inner : Evaluator}
    (same : ∀ part, Part world ⟨limit + 1, calls, frame, phrase, machine⟩ part →
      inner part.frame part.phrase part.machine = part.result world) :
    Moment.result world ⟨limit + 1, calls, frame, phrase, machine⟩ =
      Eval.located phrase.site (Eval.phrase world inner frame phrase) machine := by
  have viewed := @Eval.phrase_viewed world .plain inner frame machine limit calls phrase
    (fun part isPart => (same part isPart).trans (Eval.viewed_id _).symm)
    (fun path called makes => (Eval.importFile_plain same makes).trans (Eval.viewed_id _).symm)
  exact ((Eval.located_viewed viewed phrase.site).trans (Eval.viewed_id _)).symm

/-! ## More depth -/

/-- The evaluation does not come to its depth limit. -/
def Moment.Fathoms (world : World) (moment : Moment) : Prop :=
  ∀ rest, moment.result world ≠ .error .tooDeep rest

/-- With more depth than it needs, an evaluation ends as it does with what it needs. -/
theorem Moment.Fathoms.deeper {world : World} {moment : Moment} (fathoms : moment.Fathoms world)
    {limit : Nat} (deeper : moment.limit ≤ limit) :
    evaluate world limit moment.frame moment.phrase moment.machine = moment.result world := by
  induction isLimit : moment.limit generalizing moment limit with
  | zero =>
      obtain ⟨_, calls, frame, phrase, machine⟩ := moment
      subst isLimit
      exact absurd rfl (fathoms machine)
  | succ less ih =>
      obtain ⟨_, calls, frame, phrase, machine⟩ := moment
      subst isLimit
      obtain ⟨limit, rfl⟩ := Nat.exists_eq_add_of_lt deeper
      have parts : ∀ part, Part world ⟨less + 1, calls, frame, phrase, machine⟩ part →
          evaluate world (less + limit) part.frame part.phrase part.machine =
            part.result world := by
        intro part isPart
        have isLess : part.limit = less := Nat.succ.inj isPart.limit_eq.symm
        refine ih (fun rest stopped => ?_) (by omega) isLess
        obtain ⟨after, stopped⟩ := isPart.tooDeep stopped
        exact fathoms after stopped
      exact (Moment.result_eq parts).symm

namespace Eval

variable {world : World} {limit deeper : Nat} {frame : FrameId}

theorem statements_deeper {list : List Stmt} {result : Value} {machine : Machine}
    (fathoms : ∀ rest, statements (evaluate world limit) frame list result machine ≠
      .error .tooDeep rest) (enough : limit ≤ deeper) :
    statements (evaluate world deeper) frame list result machine =
      statements (evaluate world limit) frame list result machine := by
  refine statements_plain (fun part reached parts => ?_) result
  have shallow : Moment.Fathoms world ⟨limit, [], frame, part, reached⟩ :=
    fun rest stopped => fathoms rest (statements_stops parts stopped result)
  exact shallow.deeper enough

end Eval

end Monkey
