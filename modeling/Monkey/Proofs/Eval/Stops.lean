import Monkey.Proofs.Eval.Moments

/-!
# Parts that stop

An evaluation takes place inside another one in one of three ways: in the same code, in the body of
a function that is called, or in a file that is imported. Only the second ends a `return`, and only
the third makes something else of an error. All other stops go through to the outermost evaluation
as they are, but for being blamed on its position if they are errors blamed on none.
-/

set_option autoImplicit false

namespace Monkey

/-! ## Ways of being a part -/

/-- The second evaluation takes place directly inside the first, in the same code. -/
inductive Nested (world : World) : Moment → Moment → Prop
  | operand {limit : Nat} {calls : List Activation} {frame : FrameId} {phrase part : Phrase}
      {machine reached : Machine}
      (parts : Sequence (evaluate world limit) frame phrase.operands machine part reached) :
      Nested world ⟨limit + 1, calls, frame, phrase, machine⟩ ⟨limit, calls, frame, part, reached⟩
  | pair {limit : Nat} {calls : List Activation} {frame : FrameId} {position : Position}
      {pairs : List Pair} {part : Phrase} {machine reached : Machine}
      (parts : PairSequence (evaluate world limit) frame pairs machine part reached) :
      Nested world ⟨limit + 1, calls, frame, .expr (.hash position pairs), machine⟩
        ⟨limit, calls, frame, part, reached⟩
  | block {limit : Nat} {calls : List Activation} {frame : FrameId} {phrase part : Phrase}
      {machine entered reached : Machine} {body : Block}
      (enters : Enters (evaluate world limit) frame phrase machine body entered)
      (parts : Sequence (evaluate world limit) entered.frames.size body.phrases
        (entered.withScope frame [] false) part reached) :
      Nested world ⟨limit + 1, calls, frame, phrase, machine⟩
        ⟨limit, calls, entered.frames.size, part, reached⟩
  | returned {limit : Nat} {calls : List Activation} {frame : FrameId} {position : Position}
      {value : Expr} {machine : Machine} (inside : machine.inCall frame = true) :
      Nested world ⟨limit + 1, calls, frame, .stmt (.returnValue position value), machine⟩
        ⟨limit, calls, frame, .expr value, machine⟩
  /-- The call that `map` makes stands for the call of `map`. -/
  | mapped {limit : Nat} {calls : List Activation} {frame : FrameId} {phrase part : Phrase}
      {machine called reached : Machine} {callee : Value} {items : List Value}
      (makes : Calls (evaluate world limit) frame phrase machine (.builtin .map)
        [callee, .array items] called)
      (parts : Sequence (evaluate world limit) frame (items.map fun item => .apply callee [item])
        called part reached) :
      Nested world ⟨limit + 1, calls, frame, phrase, machine⟩ ⟨limit, calls, frame, part, reached⟩

/-- The first evaluation calls a function, and the second is that of a statement of its body. -/
inductive RunsBody (world : World) : Activation → Moment → Moment → Prop
  | intro {limit : Nat} {calls : List Activation} {frame outer : FrameId} {phrase part : Phrase}
      {machine called reached : Machine} {parameters : List String} {body : Block}
      {arguments : List Value}
      (makes : Calls (evaluate world limit) frame phrase machine
        (.function parameters body outer) arguments called)
      (fits : arguments.length = parameters.length)
      (parts : Sequence (evaluate world limit) called.frames.size body.phrases
        (called.withScope outer (Eval.bindParameters parameters arguments) true) part reached) :
      RunsBody world ⟨limit, parameters, body, outer, arguments, called⟩
        ⟨limit + 1, calls, frame, phrase, machine⟩
        ⟨limit, ⟨limit, parameters, body, outer, arguments, called⟩ :: calls, called.frames.size,
          part, reached⟩

/-- The first evaluation imports the file that a path means, and the second is that of a statement
of the file. -/
inductive RunsFile (world : World) : String → RealPath → Program → Moment → Moment → Prop
  | intro {limit : Nat} {calls : List Activation} {frame : FrameId} {phrase part : Phrase}
      {machine called reached : Machine} {path : String} {real : RealPath} {content : List UInt8}
      {program : Program}
      (makes : Calls (evaluate world limit) frame phrase machine (.builtin .importFile)
        [.string path] called)
      (found : world.resolveImport (called.frame frame).sourcePath path = some (real, content))
      (free : called.running.contains real = false)
      (text : ModuleText.ofContent content world.nestingLimit = .program program)
      (parts : Sequence (evaluate world limit) called.frames.size
        (program.statements.map .stmt) (called.withModule real) part reached) :
      RunsFile world path real program ⟨limit + 1, calls, frame, phrase, machine⟩
        ⟨limit, calls, called.frames.size, part, reached⟩

section Ways

variable {world : World} {whole part : Moment}

theorem Nested.isPart (nested : Nested world whole part) : Part world whole part := by
  cases nested with
  | operand parts => exact .operand parts
  | pair parts => exact .pair parts
  | block enters parts => exact .block enters parts
  | returned inside => exact .returned inside
  | mapped makes parts => exact .mapped makes parts

theorem RunsBody.isPart {activation : Activation} (runs : RunsBody world activation whole part) :
    Part world whole part := by
  cases runs with
  | intro makes fits parts => exact .body makes fits parts

theorem RunsFile.isPart {path : String} {real : RealPath} {program : Program}
    (runs : RunsFile world path real program whole part) : Part world whole part := by
  cases runs with
  | intro makes found free text parts => exact .imported makes found free text parts

theorem Part.ways (isPart : Part world whole part) :
    Nested world whole part ∨ (∃ activation, RunsBody world activation whole part) ∨
      ∃ path real program, RunsFile world path real program whole part := by
  cases isPart with
  | operand parts => exact .inl (.operand parts)
  | pair parts => exact .inl (.pair parts)
  | block enters parts => exact .inl (.block enters parts)
  | returned inside => exact .inl (.returned inside)
  | body makes fits parts => exact .inr (.inl ⟨_, .intro makes fits parts⟩)
  | mapped makes parts => exact .inl (.mapped makes parts)
  | imported makes found free text parts =>
      exact .inr (.inr ⟨_, _, _, .intro makes found free text parts⟩)

end Ways

/-! ## How stops go through -/

/-- A stop as it comes out of a site: an error is blamed on the site, and a crash has been there. -/
def Stop.blame (site : Site) : Stop → Stop
  | .error blamed => .error (blamed.blame site.position)
  | .numeral crash => .numeral (crash.within site.activity)
  | stop => stop

/-- What an import makes of a stop of the program that it runs. -/
def Stop.imported (path : String) (program : Program) : Stop → Stop
  | .error raised => .error ⟨.importing path (.failed (raised.blame program.position).report), none⟩
  | .numeral crash => .numeral (crash.within .program)
  | stop => stop

/-- An error that has been blamed on a position keeps it. -/
theorem RuntimeError.blame_of_placed {error : RuntimeError} {position : Position}
    (placed : error.position = some position) (later : Position) : error.blame later = error := by
  rw [blame, placed]

namespace Eval

variable {α : Type} {run : Eval α} {machine rest : Machine} {stop : Stop}

theorem located_error (ran : run machine = .error stop rest) (site : Site) :
    located site run machine = .error (stop.blame site) rest := by
  rw [located, ran]
  cases stop <;> rfl

/-- A stop that comes out of a run is the one the run has ended in, but for the blame. -/
theorem stop_of_located {site : Site}
    (stopped : located site run machine = .error stop rest) :
    ∃ first, run machine = .error first rest ∧ stop = first.blame site := by
  cases ran : run machine with
  | ok value after =>
      rw [located, ran] at stopped
      cases stopped
  | error first after =>
      rw [located_error ran] at stopped
      cases stopped
      exact ⟨first, rfl, rfl⟩

theorem catchReturn_error {run : Eval Value} (ran : run machine = .error stop rest)
    (notReturned : ∀ value, stop ≠ .returned value) :
    catchReturn run machine = .error stop rest := by
  rw [catchReturn, ran]
  cases stop with
  | returned value => exact absurd rfl (notReturned value)
  | _ => rfl

/-- Importing a file is running its program in a new frame, with the end of that turned into the
value or the fault of the import. -/
theorem runModule_eq (inner : Evaluator) (real : RealPath) (path : String) (program : Program)
    (machine : Machine) :
    runModule inner real path program machine =
      match statements inner machine.frames.size program.statements .nil
          (machine.withModule real) with
      | .ok _ rest =>
          .ok (.hash ((rest.frame machine.frames.size).bindings.map fun entry =>
            (.string entry.1, entry.2))) { rest with running := rest.running.tail }
      | .error stop rest =>
          .error (stop.imported path program) { rest with running := rest.running.tail } := by
  refine (bind_ok rfl).trans ?_
  rw [bind_apply]
  unfold mapError whileRunning located
  dsimp only [Machine.withModule]
  generalize statements inner machine.frames.size program.statements .nil _ = result
  cases result with
  | ok value rest => rfl
  | error stop rest => cases stop <;> rfl

end Eval

section Parts

variable {world : World} {whole part : Moment} {stop : Stop} {rest : Machine}

/-- What stops in the same code stops the whole. -/
theorem Nested.stops (nested : Nested world whole part)
    (stopped : part.result world = .error stop rest) :
    whole.result world = .error (stop.blame whole.phrase.site) rest := by
  cases nested with
  | operand parts => exact Eval.located_error (Eval.operand_stops parts stopped) _
  | pair parts => exact Eval.located_error (Eval.bind_error (Eval.pairs_stops parts stopped [])) _
  | block enters parts =>
      refine Eval.located_error ((Eval.phrase_enters enters).trans ?_) _
      exact (Eval.bind_ok rfl).trans (Eval.statements_stops parts stopped .nil)
  | returned inside =>
      refine Eval.located_error ((Eval.bind_ok rfl).trans ?_) _
      rw [if_pos inside]
      exact Eval.bind_error stopped
  | mapped makes parts =>
      refine Eval.located_error ((Eval.phrase_calls makes).trans ?_) _
      exact (Eval.bind_ok rfl).trans (Eval.bind_error (Eval.collect_stops parts stopped []))

/-- What stops in the body of a function stops the caller, unless it is a `return`. -/
theorem RunsBody.stops {activation : Activation} (runs : RunsBody world activation whole part)
    (stopped : part.result world = .error stop rest)
    (notReturned : ∀ value, stop ≠ .returned value) :
    whole.result world = .error (stop.blame whole.phrase.site) rest := by
  cases runs with
  | intro makes fits parts =>
      refine Eval.located_error ((Eval.phrase_calls makes).trans ?_) _
      unfold Eval.call Eval.callFunction
      dsimp only
      rw [if_neg (not_not_intro fits)]
      refine (Eval.bind_ok rfl).trans (Eval.catchReturn_error ?_ notReturned)
      exact Eval.statements_stops parts stopped .nil

/-- An error in a file becomes the error that the file cannot be imported. -/
theorem RunsFile.stops {path : String} {real : RealPath} {program : Program}
    (runs : RunsFile world path real program whole part)
    (stopped : part.result world = .error stop rest) :
    whole.result world =
      .error ((stop.imported path program).blame whole.phrase.site)
        { rest with running := rest.running.tail } := by
  cases runs with
  | intro makes found free text parts =>
      refine Eval.located_error ((Eval.phrase_calls makes).trans ?_) _
      refine (Eval.bind_ok rfl).trans ?_
      simp only [found, free, text]
      refine (Eval.runModule_eq ..).trans ?_
      rw [Eval.statements_stops parts stopped .nil]

/-- An evaluation that comes to its depth limit takes all those around it along. -/
theorem Part.tooDeep (isPart : Part world whole part)
    (stopped : part.result world = .error .tooDeep rest) :
    ∃ rest, whole.result world = .error .tooDeep rest := by
  rcases isPart.ways with nested | ⟨activation, runs⟩ | ⟨path, real, program, runs⟩
  · exact ⟨_, nested.stops stopped⟩
  · exact ⟨_, runs.stops stopped nofun⟩
  · exact ⟨_, runs.stops stopped⟩

end Parts

end Monkey
