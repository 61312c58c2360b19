import Monkey.Proofs.Eval.Correspondence
import Monkey.Proofs.Eval.Returns
import Monkey.Proofs.Program.Numerals
import Monkey.Proofs.Value.Validity

/-!
# Evaluation of valid values

A machine is valid if all values bound in its frames are and no frame binds a name twice, and a
phrase is if the integers written in it are in range. On a valid machine a valid phrase evaluates to
a valid value, if it gives or returns one, and leaves a valid machine behind, provided that `len` is
called with nothing too long. That is first shown of one phrase from its parts, and then of the
parts, each of which is a valid phrase on a valid machine.
-/

set_option autoImplicit false

namespace Monkey

/-! ## Programs -/

theorem Token.IsBounded.inRange {token : Token} (bounded : token.IsBounded)
    (isSpelt : token.IsSpelt) : token.InRange := by
  intro isInteger n read
  have inRange := (bounded.magnitude_le isSpelt isInteger).2
  rw [isSpelt.readInteger isInteger] at read
  split at read
  · cases read
  · cases read
    refine ⟨?_, inRange⟩
    unfold Token.magnitude Integer.smallest
    omega

theorem Program.allInRange_of_ofSource {limit : Nat} {source : String} {parsed : Parsed}
    (read : Program.ofSource source limit = .ok parsed) :
    AllInRange parsed.program.tree.leaves := by
  unfold ofSource at read
  split at read
  · cases read
    exact allInRange_nil
  next tokens scanned =>
    have bounded := leaves_bounded (wellFormed_of_ofTokens read)
    obtain ⟨kept, -⟩ := ofTokens_kept read
    intro token member
    have isToken : token ∈ tokens := List.takeWhile_subset _ (kept.subset member)
    exact (bounded token member).inRange (tokenize_isSpelt scanned token isToken)

theorem ModuleText.allInRange {content : List UInt8} {limit : Nat} {program : Program}
    (text : ModuleText.ofContent content limit = .program program) :
    AllInRange program.tree.leaves := by
  unfold ModuleText.ofContent at text
  split at text
  · cases text
  split at text
  · cases text
  next read =>
    split at text
    · cases text
      exact Program.allInRange_of_ofSource read
    · cases text

/-! ## Machines and phrases -/

/-- The values bound are valid, and no name is bound twice. -/
structure ValidBindings (bindings : List (String × Value)) : Prop where
  values : ∀ entry ∈ bindings, entry.2.Valid
  distinct : (Entries.keys bindings).Nodup

theorem ValidBindings.nil : ValidBindings [] := ⟨nofun, .nil⟩

theorem ValidBindings.put {bindings : List (String × Value)} (valid : ValidBindings bindings)
    (name : String) {value : Value} (valueValid : value.Valid) :
    ValidBindings (Entries.put name value bindings) where
  values entry member := by
    rcases Entries.mem_put member with rfl | old
    · exact valueValid
    · exact valid.values entry old
  distinct := Entries.nodup_keys_put valid.distinct name value

/-- The bindings of a file as a hash. -/
theorem ValidBindings.hash {bindings : List (String × Value)} (valid : ValidBindings bindings) :
    (Value.hash (bindings.map fun entry => (.string entry.1, entry.2))).Valid := by
  have keys : Entries.keys (bindings.map fun entry => (Key.string entry.1, entry.2)) =
      (Entries.keys bindings).map .string := by
    simp [Entries.keys]
  refine .hash ?_ ?_ fun pair member => ?_
  · rw [keys]
    rintro key member n rfl
    simp at member
  · rw [keys]
    exact List.Pairwise.map Key.string (fun _ _ => mt Key.string.inj) valid.distinct
  · obtain ⟨entry, isEntry, rfl⟩ := List.mem_map.mp member
    exact valid.values entry isEntry

theorem bindParameters_valid (parameters : List String) {arguments : List Value}
    (valid : ∀ argument ∈ arguments, argument.Valid) :
    ValidBindings (Eval.bindParameters parameters arguments) := by
  have entries : ∀ entry ∈ parameters.zip arguments, entry.2.Valid :=
    fun entry member => valid _ (List.of_mem_zip member).2
  unfold Eval.bindParameters
  generalize parameters.zip arguments = list at entries
  suffices ∀ bound, ValidBindings bound →
      ValidBindings (list.foldl (fun bound entry => Entries.put entry.1 entry.2 bound) bound) from
    this [] .nil
  induction list with
  | nil => exact fun bound isValid => isValid
  | cons entry rest ih =>
      intro bound isValid
      obtain ⟨first, others⟩ := List.forall_mem_cons.mp entries
      exact ih others _ (isValid.put entry.1 first)

def Machine.Valid (machine : Machine) : Prop := ∀ id, ValidBindings (machine.frame id).bindings

def Stop.Valid : Stop → Prop
  | .returned value => value.Valid
  | _ => True

def Phrase.Valid : Phrase → Prop
  | .expr value => AllInRange value.leaves
  | .stmt value => AllInRange value.leaves
  | .apply callee arguments => callee.Valid ∧ ∀ argument ∈ arguments, argument.Valid

theorem Phrase.Valid.operands {phrase : Phrase} (valid : phrase.Valid) :
    ∀ part ∈ phrase.operands, part.Valid := by
  cases phrase with
  | apply callee arguments => exact nofun
  | stmt stmt => cases stmt <;> simp_all [Phrase.Valid, Phrase.operands]
  | expr expr =>
      cases expr <;> simp_all [Phrase.Valid, Phrase.operands]

theorem Phrase.statements_valid {list : List Stmt} (valid : AllInRange (list.flatMap Stmt.leaves)) :
    ∀ part ∈ list.map Phrase.stmt, part.Valid := by
  intro part member
  obtain ⟨stmt, isStmt, rfl⟩ := List.mem_map.mp member
  exact (allInRange_flatMap _ _).mp valid stmt isStmt

namespace Machine

variable {machine : Machine}

theorem Valid.push (valid : machine.Valid) {added : Frame} (bindings : ValidBindings added.bindings)
    (running : List RealPath) :
    Machine.Valid { machine with frames := machine.frames.push added, running } := by
  intro id
  have isFrame : Machine.frame { machine with frames := machine.frames.push added, running } id =
      if id = machine.frames.size then added else machine.frame id := machine.frame_pushed added id
  rw [isFrame]
  split
  · exact bindings
  · exact valid id

theorem Valid.withScope (valid : machine.Valid) (outer : FrameId)
    {bindings : List (String × Value)} (added : ValidBindings bindings) (isCall : Bool) :
    (machine.withScope outer bindings isCall).Valid :=
  valid.push added machine.running

theorem Valid.withModule (valid : machine.Valid) (real : RealPath) :
    (machine.withModule real).Valid :=
  valid.push .nil (real :: machine.running)

theorem Valid.modifyFrame (valid : machine.Valid) (id : FrameId) {change : Frame → Frame}
    (keeps : ∀ frame, ValidBindings frame.bindings → ValidBindings (change frame).bindings) :
    (machine.modifyFrame id change).Valid := by
  intro other
  by_cases inside : other < machine.frames.size
  · rw [frame_modify _ _ _ _ inside]
    split
    · exact keeps _ (valid other)
    · exact valid other
  · rw [frame_outside _ (by rw [size_modify]; exact Nat.not_lt.mp inside)]
    exact .nil

theorem Valid.lookup (valid : machine.Valid) {id : FrameId} {name : String} {value : Value}
    (found : machine.lookup id name = some value) : value.Valid := by
  obtain ⟨scope, -, held⟩ := List.exists_of_findSome?_eq_some found
  exact (valid scope).values _ (Entries.mem_of_get? held)

end Machine

/-! ## Computations -/

namespace Eval

variable {α β : Type} {machine : Machine}

/-- A value in which a computation ends is as described, one that it returns is valid, and so is the
machine that it leaves. -/
def Ends (good : α → Prop) : EStateM.Result Stop Machine α → Prop
  | .ok value rest => good value ∧ rest.Valid
  | .error stop rest => stop.Valid ∧ rest.Valid

section Rules

variable {good : α → Prop} {run : Eval α}

theorem Ends.ok {result : EStateM.Result Stop Machine α} (ends : Ends good result) {value : α}
    {rest : Machine} (isOk : result = .ok value rest) : good value ∧ rest.Valid := by
  rwa [isOk] at ends

theorem Ends.bind {next : α → Eval β} {good' : β → Prop} (head : Ends good (run machine))
    (tail : ∀ value rest, run machine = .ok value rest → good value → rest.Valid →
      Ends good' (next value rest)) : Ends good' ((run >>= next) machine) := by
  rw [bind_apply]
  cases ran : run machine with
  | ok value rest =>
      rw [ran] at head
      exact tail value rest ran head.1 head.2
  | error stop rest =>
      rw [ran] at head
      exact head

theorem Ends.of_ok {next : α → Eval β} {good : β → Prop} {value : α} {rest : Machine}
    (ran : run machine = .ok value rest) (ends : Ends good (next value rest)) :
    Ends good ((run >>= next) machine) := by
  rw [bind_ok ran]
  exact ends

theorem Ends.fail (fault : RuntimeFault) (valid : machine.Valid) :
    Ends good (Eval.fail fault machine) :=
  ⟨trivial, valid⟩

theorem Ends.ofExcept {result : Value.Result} (resultValid : result.Valid)
    (valid : machine.Valid) : Ends Value.Valid (Eval.ofExcept result machine) := by
  cases result with
  | ok value => exact ⟨resultValid value rfl, valid⟩
  | error fault => exact .fail fault valid

theorem Ends.located (site : Site) (ends : Ends good (run machine)) :
    Ends good (Eval.located site run machine) := by
  unfold Eval.located
  generalize run machine = result at ends ⊢
  cases result with
  | ok value rest => exact ends
  | error stop rest =>
      cases stop with
      | error error => exact ⟨trivial, ends.2⟩
      | numeral crash => exact ⟨trivial, ends.2⟩
      | _ => exact ends

theorem Ends.mapError (change : RuntimeError → RuntimeFault) (ends : Ends good (run machine)) :
    Ends good (Eval.mapError change run machine) := by
  unfold Eval.mapError
  generalize run machine = result at ends ⊢
  cases result with
  | ok value rest => exact ends
  | error stop rest =>
      cases stop with
      | error error => exact ⟨trivial, ends.2⟩
      | _ => exact ends

theorem Ends.catchReturn {run : Eval Value} (ends : Ends Value.Valid (run machine)) :
    Ends Value.Valid (Eval.catchReturn run machine) := by
  unfold Eval.catchReturn
  generalize run machine = result at ends ⊢
  cases result with
  | ok value rest => exact ends
  | error stop rest =>
      cases stop with
      | returned value => exact ends
      | _ => exact ends

theorem Ends.whileRunning {path : RealPath}
    (ends : Ends good (run { machine with running := path :: machine.running })) :
    Ends good (Eval.whileRunning path run machine) := by
  unfold Eval.whileRunning
  generalize run { machine with running := path :: machine.running } = result at ends ⊢
  cases result with
  | ok value rest => exact ends
  | error stop rest => exact ends

theorem Ends.nameValue (id : FrameId) (name : String) (valid : machine.Valid) :
    Ends Value.Valid (Eval.nameValue id name machine) := by
  unfold Eval.nameValue
  cases found : machine.lookup id name with
  | some value => exact ⟨valid.lookup found, valid⟩
  | none =>
      cases Builtin.ofName? name with
      | some callee => exact ⟨.builtin callee, valid⟩
      | none => exact .fail _ valid

end Rules

/-! ### Phrases one after another -/

section Sequences

variable {world : World} {inner : Evaluator} {frame : FrameId}

/-- All of the phrases that evaluating them one after another comes to end well. -/
def EndsOn (inner : Evaluator) (frame : FrameId) (phrases : List Phrase) (machine : Machine) :
    Prop :=
  ∀ part reached, Sequence inner frame phrases machine part reached →
    Ends Value.Valid (inner frame part reached)

theorem EndsOn.bind {phrase : Phrase} {rest : List Phrase} {next : Value → Eval β}
    {good : β → Prop} (ends : EndsOn inner frame (phrase :: rest) machine)
    (tail : ∀ value after, inner frame phrase machine = .ok value after → value.Valid →
      after.Valid → EndsOn inner frame rest after → Ends good (next value after)) :
    Ends good ((inner frame phrase >>= next) machine) :=
  Ends.bind (ends phrase machine .first) fun value after ran isValid afterValid =>
    tail value after ran isValid afterValid fun part reached parts =>
      ends part reached (.later ran parts)

theorem collect_ends {α : Type} {phrase : α → Phrase} {items : List α}
    (ends : EndsOn inner frame (items.map phrase) machine) (valid : machine.Valid)
    {done : List Value} (doneValid : ∀ value ∈ done, value.Valid) :
    Ends (fun values => ∀ value ∈ values, value.Valid)
      (collect (fun item => inner frame (phrase item)) items done machine) := by
  induction items generalizing machine done with
  | nil => exact ⟨fun value member => doneValid value (List.mem_reverse.mp member), valid⟩
  | cons item others ih =>
      exact ends.bind fun value after _ isValid afterValid ends =>
        ih ends afterValid (List.forall_mem_cons.mpr ⟨isValid, doneValid⟩)

theorem statements_ends {list : List Stmt}
    (ends : EndsOn inner frame (list.map .stmt) machine) (valid : machine.Valid) {result : Value}
    (resultValid : result.Valid) :
    Ends Value.Valid (statements inner frame list result machine) := by
  induction list generalizing machine result with
  | nil => exact ⟨resultValid, valid⟩
  | cons stmt others ih =>
      exact ends.bind fun value after _ isValid afterValid ends => ih ends afterValid isValid

theorem pairs_ends {list : List Pair}
    (ends : ∀ part reached, PairSequence inner frame list machine part reached →
      Ends Value.Valid (inner frame part reached)) (valid : machine.Valid)
    {done : List (Key × Value)} (doneValid : (Value.hash done).Valid) :
    Ends (fun held => (Value.hash held).Valid) (pairs inner frame list done machine) := by
  induction list generalizing machine done with
  | nil => exact ⟨doneValid, valid⟩
  | cons pair others ih =>
      obtain ⟨position, key, value⟩ := pair
      refine .bind (ends _ _ .key) fun keyValue after ran keyValid afterValid => ?_
      cases hashable : keyValue.key? with
      | none => exact .located _ (.fail _ afterValid)
      | some hashKey =>
          refine .bind (ends _ _ (.value ran hashable)) fun held rest valueRan isValid valid => ?_
          exact ih (fun part reached parts => ends part reached
            (.later ran hashable valueRan parts)) valid
            (doneValid.put (keyValid.key hashable) isValid)

end Sequences

theorem leaf_ends (frame : FrameId) {token : Token} (inRange : token.InRange)
    (valid : machine.Valid) : Ends Value.Valid (leaf frame token machine) := by
  unfold leaf
  cases isKind : token.kind with
  | identifier => exact .nameValue frame token.text valid
  | integer =>
      cases read : Text.readInteger token.text with
      | ok n => exact ⟨.int (inRange isKind n read), valid⟩
      | error numeral => exact ⟨trivial, valid⟩
  | string => exact ⟨.string _, valid⟩
  | kwTrue | kwFalse => exact ⟨.bool _, valid⟩
  | kwNil => exact ⟨.nil, valid⟩
  | _ => exact .fail _ valid

end Eval

/-! ## The whole from its parts -/

/-- How the evaluation ends is valid. -/
def Moment.Ends (world : World) (moment : Moment) : Prop :=
  Eval.Ends Value.Valid (moment.result world)

/-- If the evaluation comes to calling `len`, the argument is not too long. -/
def Moment.Measured (world : World) (moment : Moment) : Prop :=
  ∀ limit value called, moment.limit = limit + 1 →
    Calls (evaluate world limit) moment.frame moment.phrase moment.machine (.builtin .len) [value]
      called → value.Fits

namespace Eval

section Parts

variable {world : World} {limit : Nat} {calls : List Activation} {frame : FrameId}
  {phrase : Phrase} {machine : Machine}
  (ends : ∀ part, Part world ⟨limit + 1, calls, frame, phrase, machine⟩ part → part.Ends world)
include ends

theorem operands_end : EndsOn (evaluate world limit) frame phrase.operands machine :=
  fun _ _ parts => ends _ (.operand parts)

theorem block_ends {body : Block} {entered : Machine}
    (enters : Enters (evaluate world limit) frame phrase machine body entered)
    (valid : entered.Valid) :
    Ends Value.Valid (block (evaluate world limit) frame body entered) := by
  have ran : EndsOn (evaluate world limit) entered.frames.size body.phrases
      (entered.withScope frame [] false) :=
    fun part reached parts => ends _ (.block enters parts)
  exact statements_ends ran (valid.withScope frame .nil false) .nil

theorem importFile_ends {path : String} {called : Machine}
    (makes : Calls (evaluate world limit) frame phrase machine (.builtin .importFile)
      [.string path] called) (valid : called.Valid) :
    Ends Value.Valid (importFile world (evaluate world limit) frame path called) := by
  refine .of_ok rfl ?_
  cases found : world.resolveImport (called.frame frame).sourcePath path with
  | none => exact .fail _ valid
  | some file =>
      obtain ⟨real, content⟩ := file
      dsimp only
      split
      · exact .fail _ valid
      next entered =>
      cases text : ModuleText.ofContent content world.nestingLimit with
      | faulty fault => exact .fail _ valid
      | unreadableNumeral crash => exact ⟨trivial, valid⟩
      | program program =>
          have free : called.running.contains real = false := by simpa using entered
          have ran : EndsOn (evaluate world limit) called.frames.size
              (program.statements.map .stmt) (called.withModule real) :=
            fun part reached parts => ends _ (.imported makes found free text parts)
          have finished := statements_ends ran (valid.withModule real) .nil
          refine .of_ok rfl (.bind (.mapError _ (.whileRunning (.located _ finished))) ?_)
          exact fun _ rest _ _ restValid => ⟨(restValid called.frames.size).hash, restValid⟩

theorem map_ends {callee : Value} {items : List Value} {called : Machine}
    (makes : Calls (evaluate world limit) frame phrase machine (.builtin .map)
      [callee, .array items] called) (valid : called.Valid) :
    Ends Value.Valid (runBuiltin world (evaluate world limit) frame .map [callee, .array items]
      called) := by
  have ran : EndsOn (evaluate world limit) frame (items.map fun item => .apply callee [item])
      called :=
    fun part reached parts => ends _ (.mapped makes parts)
  refine .of_ok rfl (.bind (collect_ends ran valid (List.forall_mem_nil _)) ?_)
  exact fun values after _ all afterValid => ⟨.array all, afterValid⟩

theorem runBuiltin_ends {callee : Builtin} {arguments : List Value} {called : Machine}
    (makes : Calls (evaluate world limit) frame phrase machine (.builtin callee) arguments called)
    (short : ∀ value, callee = .len → arguments = [value] → value.Fits)
    (all : ∀ argument ∈ arguments, argument.Valid) (valid : called.Valid) :
    Ends Value.Valid (runBuiltin world (evaluate world limit) frame callee arguments called) := by
  unfold runBuiltin
  split
  · exact .ofExcept (Value.length_valid (short _ rfl rfl)) valid
  · exact ⟨.string _, valid⟩
  · exact .ofExcept (Value.first_valid (all _ (by simp))) valid
  · exact .ofExcept (Value.last_valid (all _ (by simp))) valid
  · exact .ofExcept (Value.rest_valid (all _ (by simp))) valid
  · exact .ofExcept (Value.push_valid (all _ (by simp)) (all _ (by simp))) valid
  · exact .ofExcept (Value.cons_valid (all _ (by simp)) (all _ (by simp))) valid
  · exact .ofExcept (Value.getAt_valid (all _ (by simp)) _) valid
  · next mapped array =>
    cases array with
    | array items => exact map_ends ends makes valid
    | _ => exact .fail _ valid
  · split
    · exact ⟨.nil, valid⟩
    · exact .fail _ valid
  · exact importFile_ends ends makes valid
  · exact .fail _ valid
  · exact .ofExcept (Value.range_valid all) valid
  · exact .fail _ valid
  · exact ⟨.nil, valid⟩
  · exact .fail _ valid

theorem call_ends {callee : Value} {arguments : List Value} {called : Machine}
    (makes : Calls (evaluate world limit) frame phrase machine callee arguments called)
    (short : ∀ value, callee = .builtin .len → arguments = [value] → value.Fits)
    (all : ∀ argument ∈ arguments, argument.Valid) (valid : called.Valid) :
    Ends Value.Valid (call world (evaluate world limit) frame callee arguments called) := by
  cases callee with
  | function parameters body outer =>
      unfold call callFunction
      dsimp only
      split
      · exact .fail _ valid
      · next fits =>
        have ran : EndsOn (evaluate world limit) called.frames.size body.phrases
            (called.withScope outer (bindParameters parameters arguments) true) :=
          fun part reached parts => ends _ (.body makes (Decidable.not_not.mp fits) parts)
        have entered := valid.withScope outer (bindParameters_valid parameters all) true
        exact .catchReturn (statements_ends ran entered .nil)
  | builtin callee =>
      exact runBuiltin_ends ends makes (fun value isLen => short value (isLen ▸ rfl)) all valid
  | _ => exact .fail _ valid

theorem conditional_ends {condition : Expr} {consequence : Block} {otherwise : Eval Value}
    (operands : EndsOn (evaluate world limit) frame [.expr condition] machine)
    (holds : ∀ held after, evaluate world limit frame (.expr condition) machine = .ok held after →
      held.isTruthy = true → Enters (evaluate world limit) frame phrase machine consequence after)
    (fails : ∀ held after, evaluate world limit frame (.expr condition) machine = .ok held after →
      held.isTruthy = false → after.Valid → Ends Value.Valid (otherwise after)) :
    Ends Value.Valid
      (conditional (evaluate world limit) frame condition consequence otherwise machine) := by
  refine operands.bind fun held after ran _ afterValid _ => ?_
  cases truthy : held.isTruthy with
  | true => exact block_ends ends (holds held after ran truthy) afterValid
  | false => exact fails held after ran truthy afterValid

/-- If the parts of a valid phrase end well, so does the phrase. -/
theorem phrase_ends
    (measured : Moment.Measured world ⟨limit + 1, calls, frame, phrase, machine⟩)
    (phraseValid : phrase.Valid) (valid : machine.Valid) :
    Ends Value.Valid (Eval.phrase world (evaluate world limit) frame phrase machine) := by
  have operands := operands_end ends
  cases phrase with
  | apply callee arguments =>
      refine call_ends ends .apply ?_ phraseValid.2 valid
      rintro value rfl rfl
      exact measured limit value machine rfl .apply
  | stmt stmt =>
      cases stmt with
      | binding position name value =>
          refine operands.bind fun held after _ isValid afterValid _ => ?_
          exact ⟨.nil, afterValid.modifyFrame frame fun _ bound => bound.put name.text isValid⟩
      | returnNil position =>
          refine .of_ok rfl ?_
          split
          · exact ⟨.nil, valid⟩
          · exact .fail _ valid
      | returnValue position value =>
          refine .of_ok rfl ?_
          split
          · next inside =>
            exact .bind (ends _ (.returned inside)) fun held after _ isValid afterValid =>
              ⟨isValid, afterValid⟩
          · exact .fail _ valid
      | block body => exact block_ends ends .stmt valid
      | expr position value => exact operands _ _ .first
  | expr expr =>
      cases expr with
      | leaf token => exact leaf_ends frame ((allInRange_cons ..).mp phraseValid).1 valid
      | unary operator operand =>
          refine operands.bind fun value after _ _ afterValid _ => ?_
          exact .ofExcept (Value.applyUnary_valid operator value) afterValid
      | binary left operator right =>
          refine operands.bind fun leftValue after _ _ _ operands => ?_
          refine operands.bind fun rightValue rest _ isValid restValid _ => ?_
          exact .ofExcept (Value.applyBinary_valid operator leftValue isValid) restValid
      | array position items =>
          refine .bind (collect_ends operands valid (List.forall_mem_nil _)) ?_
          exact fun values after _ all afterValid => ⟨.array all, afterValid⟩
      | hash position pairs =>
          have empty : (Value.hash []).Valid := .hash nofun .nil nofun
          have ran := pairs_ends (fun part reached parts => ends _ (.pair parts)) valid empty
          exact .bind ran fun held after _ isValid afterValid => ⟨isValid, afterValid⟩
      | block body => exact block_ends ends .expr valid
      | ifThen position condition consequence =>
          exact conditional_ends ends operands (fun _ _ ran truthy => .ifThen ran truthy)
            fun _ _ _ _ afterValid => ⟨.nil, afterValid⟩
      | ifElse position condition consequence alternative =>
          exact conditional_ends ends operands (fun _ _ ran truthy => .consequence ran truthy)
            fun _ _ ran falsy afterValid => block_ends ends (.alternative ran falsy) afterValid
      | function position parametersPosition parameters body =>
          have bounded : AllInRange (parameters ++ body.leaves) := by
            simpa [Phrase.Valid] using phraseValid
          exact ⟨.function ((allInRange_append ..).mp bounded).2, valid⟩
      | call callee position arguments =>
          refine operands.bind fun value after ran _ afterValid operands => ?_
          refine .bind (collect_ends operands afterValid (List.forall_mem_nil _)) ?_
          intro values called argumentsRan all calledValid
          have makes : Calls (evaluate world limit) frame (.expr (.call callee position arguments))
              machine value values called := .expr ran argumentsRan
          refine call_ends ends makes ?_ all calledValid
          rintro value rfl rfl
          exact measured limit value called rfl makes
      | index target position place =>
          refine operands.bind fun targetValue after _ isValid _ operands => ?_
          refine operands.bind fun placeValue rest _ _ restValid _ => ?_
          exact .ofExcept (Value.atIndex_valid isValid placeValue) restValid

end Parts

end Eval

theorem Moment.ends_of_parts {world : World} {moment : Moment}
    (ends : ∀ part, Part world moment part → part.Ends world)
    (measured : moment.Measured world) (phraseValid : moment.phrase.Valid)
    (valid : moment.machine.Valid) : moment.Ends world := by
  obtain ⟨limit, calls, frame, phrase, machine⟩ := moment
  cases limit with
  | zero => exact ⟨trivial, valid⟩
  | succ limit => exact .located _ (Eval.phrase_ends ends measured phraseValid valid)

/-! ## The parts from the whole -/

section Wholes

variable {inner : Evaluator} {frame : FrameId} {machine reached : Machine} {part : Phrase}

/-- Each part is valid as the ones before it are and end well. -/
theorem Sequence.valid {phrases : List Phrase}
    (parts : Sequence inner frame phrases machine part reached)
    (ends : ∀ part reached, Sequence inner frame phrases machine part reached → part.Valid →
      reached.Valid → Eval.Ends Value.Valid (inner frame part reached))
    (all : ∀ phrase ∈ phrases, phrase.Valid) (valid : machine.Valid) :
    part.Valid ∧ reached.Valid := by
  induction parts with
  | first => exact ⟨all _ List.mem_cons_self, valid⟩
  | later ran _ ih =>
      obtain ⟨first, others⟩ := List.forall_mem_cons.mp all
      have ended := (ends _ _ .first first valid).ok ran
      exact ih (fun part reached parts => ends part reached (.later ran parts)) others ended.2

theorem PairSequence.valid {pairs : List Pair}
    (parts : PairSequence inner frame pairs machine part reached)
    (ends : ∀ part reached, PairSequence inner frame pairs machine part reached → part.Valid →
      reached.Valid → Eval.Ends Value.Valid (inner frame part reached))
    (all : AllInRange (pairs.flatMap Pair.leaves)) (valid : machine.Valid) :
    part.Valid ∧ reached.Valid := by
  induction parts with
  | key =>
      simp only [List.flatMap_cons, Pair.leaves_mk, allInRange_append] at all
      exact ⟨all.1.1, valid⟩
  | value ran hashable =>
      simp only [List.flatMap_cons, Pair.leaves_mk, allInRange_append] at all
      have ended := (ends _ _ .key all.1.1 valid).ok ran
      exact ⟨all.1.2, ended.2⟩
  | later ran hashable valueRan _ ih =>
      simp only [List.flatMap_cons, Pair.leaves_mk, allInRange_append] at all
      have ended := (ends _ _ .key all.1.1 valid).ok ran
      have valueEnded := (ends _ _ (.value ran hashable) all.1.2 ended.2).ok valueRan
      exact ih (fun part reached parts => ends part reached
        (.later ran hashable valueRan parts)) all.2 valueEnded.2

end Wholes

namespace Part

section Parts

variable {world : World} {limit : Nat} {calls : List Activation} {frame : FrameId}
  {phrase : Phrase} {machine : Machine}
  (ends : ∀ part, Part world ⟨limit + 1, calls, frame, phrase, machine⟩ part → part.phrase.Valid →
    part.machine.Valid → part.Ends world)
  (phraseValid : phrase.Valid) (valid : machine.Valid)
include ends phraseValid valid

theorem operands_valid {part : Phrase} {reached : Machine}
    (parts : Sequence (evaluate world limit) frame phrase.operands machine part reached) :
    part.Valid ∧ reached.Valid :=
  parts.valid (fun _ _ parts => ends _ (.operand parts)) phraseValid.operands valid

theorem operands_end : Eval.EndsOn (evaluate world limit) frame phrase.operands machine := by
  intro part reached parts
  obtain ⟨partValid, reachedValid⟩ := operands_valid ends phraseValid valid parts
  exact ends _ (.operand parts) partValid reachedValid

theorem enters_valid {body : Block} {entered : Machine}
    (enters : Enters (evaluate world limit) frame phrase machine body entered) :
    AllInRange body.leaves ∧ entered.Valid := by
  have operands := operands_end ends phraseValid valid
  cases enters with
  | expr | stmt => exact ⟨by simpa [Phrase.Valid] using phraseValid, valid⟩
  | ifThen ran =>
      have ended := (operands _ _ .first).ok ran
      simp only [Phrase.Valid, Expr.leaves_ifThen, allInRange_append] at phraseValid
      exact ⟨phraseValid.2, ended.2⟩
  | consequence ran =>
      have ended := (operands _ _ .first).ok ran
      simp only [Phrase.Valid, Expr.leaves_ifElse, allInRange_append] at phraseValid
      exact ⟨phraseValid.1.2, ended.2⟩
  | alternative ran =>
      have ended := (operands _ _ .first).ok ran
      simp only [Phrase.Valid, Expr.leaves_ifElse, allInRange_append] at phraseValid
      exact ⟨phraseValid.2, ended.2⟩

theorem calls_valid {callee : Value} {arguments : List Value} {called : Machine}
    (makes : Calls (evaluate world limit) frame phrase machine callee arguments called) :
    (callee.Valid ∧ ∀ argument ∈ arguments, argument.Valid) ∧ called.Valid := by
  have operands := operands_end ends phraseValid valid
  cases makes with
  | apply => exact ⟨phraseValid, valid⟩
  | expr ran argumentsRan =>
      have ended := (operands _ _ .first).ok ran
      have others := Eval.collect_ends (fun part reached parts => operands _ _ (.later ran parts))
        ended.2 (List.forall_mem_nil _)
      obtain ⟨all, called⟩ := others.ok argumentsRan
      exact ⟨⟨ended.1, all⟩, called⟩

end Parts

/-- A part of a valid phrase on a valid machine is one, if the parts before it end well. -/
theorem valid {world : World} {whole part : Moment} (isPart : Part world whole part)
    (ends : ∀ part, Part world whole part → part.phrase.Valid → part.machine.Valid →
      part.Ends world)
    (phraseValid : whole.phrase.Valid) (valid : whole.machine.Valid) :
    part.phrase.Valid ∧ part.machine.Valid := by
  cases isPart with
  | operand parts => exact operands_valid ends phraseValid valid parts
  | pair parts =>
      refine parts.valid (fun _ _ parts => ends _ (.pair parts)) ?_ valid
      simpa [Phrase.Valid] using phraseValid
  | block enters parts =>
      obtain ⟨bounded, entered⟩ := enters_valid ends phraseValid valid enters
      exact parts.valid (fun _ _ parts => ends _ (.block enters parts))
        (Phrase.statements_valid bounded) (entered.withScope _ .nil false)
  | returned inside => exact ⟨by simpa [Phrase.Valid] using phraseValid, valid⟩
  | body makes fits parts =>
      obtain ⟨⟨callee, arguments⟩, called⟩ := calls_valid ends phraseValid valid makes
      exact parts.valid (fun _ _ parts => ends _ (.body makes fits parts))
        (Phrase.statements_valid callee.bounded)
        (called.withScope _ (bindParameters_valid _ arguments) true)
  | @mapped _ _ _ _ _ _ _ _ callee items makes parts =>
      obtain ⟨⟨-, arguments⟩, called⟩ := calls_valid ends phraseValid valid makes
      refine parts.valid (fun _ _ parts => ends _ (.mapped makes parts)) ?_ called
      have all := Value.Valid.items (arguments (.array items) (by simp))
      intro phrase member
      obtain ⟨item, isItem, rfl⟩ := List.mem_map.mp member
      exact ⟨arguments callee (by simp), List.forall_mem_singleton.mpr (all item isItem)⟩
  | imported makes found free text parts =>
      obtain ⟨-, called⟩ := calls_valid ends phraseValid valid makes
      have inRange := ModuleText.allInRange text
      rw [Program.tree_leaves] at inRange
      exact parts.valid (fun _ _ parts => ends _ (.imported makes found free text parts))
        (Phrase.statements_valid inRange) (called.withModule _)

end Part

end Monkey
