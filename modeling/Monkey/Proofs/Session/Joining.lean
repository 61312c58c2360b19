import Monkey.Proofs.Program.Joining
import Monkey.Proofs.Session.Accepted

/-!
# Texts run one after another

Running two texts one after another on a machine is running them as one text, but for the positions
that come with their tokens and for when the machine is asked what has been printed. So the second
run is compared with the rest of the joined one: both go on from the same frames, but the joined run
has printed something already.
-/

set_option autoImplicit false

namespace Monkey

/-! ## Programs in parts -/

namespace Eval

variable {α β : Type}

theorem statements_append (inner : Evaluator) (frame : FrameId) (list more : List Stmt)
    (result : Value) :
    statements inner frame (list ++ more) result =
      (do
        let reached ← statements inner frame list result
        statements inner frame more reached) := by
  induction list generalizing result with
  | nil => rfl
  | cons stmt rest ih =>
      rw [List.cons_append, statements, statements, bind_assoc]
      exact congrArg _ (funext ih)

/-- Only no statements at all have the result they are given. -/
theorem statements_result (inner : Evaluator) (frame : FrameId) {list : List Stmt}
    (nonempty : list ≠ []) (result result' : Value) :
    statements inner frame list result = statements inner frame list result' := by
  cases list with
  | nil => exact absurd rfl nonempty
  | cons stmt rest => rfl

theorem located_bind (site : Site) (run : Eval α) (next : α → Eval β) :
    located site (run >>= next) =
      (do
        let value ← located site run
        located site (next value)) := by
  funext machine
  rw [bind_apply]
  unfold located
  rw [bind_apply]
  cases run machine with
  | ok value rest => rfl
  | error stop rest => cases stop <;> rfl

end Eval

theorem Machine.runProgram_append (world : World) (position : Position) (first : List Stmt)
    {second : List Stmt} (nonempty : second ≠ []) :
    runProgram world ⟨position, first ++ second⟩ =
      (do
        let _ ← runProgram world ⟨position, first⟩
        runProgram world ⟨position, second⟩) := by
  unfold runProgram
  rw [Eval.statements_append, Eval.located_bind]
  refine congrArg _ (funext fun reached => ?_)
  rw [Eval.statements_result _ _ nonempty reached .nil]
  rfl

/-! ## Going on where a run has ended -/

namespace Correspondence

/-- The comparison of a run that starts with nothing printed with one that goes on after something
has been. The texts that they run may be in different places. -/
def resumed (printed : String) : Correspondence :=
  ⟨False, fun _ => True, id, @increasing_id, "", printed⟩

theorem Machines.output_resumed {printed : String} {here there : Machine}
    (machines : (resumed printed).Machines here there) : there.output = printed ++ here.output := by
  obtain ⟨text, output, output'⟩ := machines.output
  rw [output, output']
  simp [resumed]

theorem Frames.imp {between other : Correspondence} {frame frame' : Frame}
    (frames : between.Frames frame frame') (exact : other.exact → between.exact)
    (covers : ∀ id, between.covers id → other.covers id ∧ other.rename id = between.rename id) :
    other.Frames frame frame' where
  covered id member := (covers id (frames.covered id member)).1
  enclosing := by
    rw [frames.enclosing, List.map_inj_left]
    exact fun id member => (covers id (frames.covered id member)).2.symm
  bindings := frames.bindings.imp fun _ _ entries => by
    obtain ⟨key, values⟩ := entries
    exact .intro key (values.imp exact covers)
  isCall := frames.isCall
  sourcePath := frames.sourcePath

end Correspondence

open Correspondence

theorem Machine.Sound.resumed {machine : Machine} (sound : machine.Sound) :
    (Correspondence.resumed machine.output).Machines { machine with output := "" } machine where
  added _ := ⟨trivial, rfl⟩
  frame id _ := by
    have frames : itself.Frames (machine.frame id) (machine.frame id) := sound.frame id trivial
    exact frames.imp False.elim fun _ _ => ⟨trivial, rfl⟩
  running := rfl
  output := ⟨"", rfl, String.append_empty.symm⟩

/-- A session is the whole file. If the first of two texts runs to its end, running both as one text
prints what running them in turn prints, concludes as the second does and leaves machines whose
frames have the same bindings in the same order; but for the positions of errors and in the bodies
of functions. If it does not, running both as one text is running the first. -/
theorem Machine.run_joined (world : World) {machine : Machine} (reached : machine.Reachable)
    {source source' : String} {tokens : List Token} {parsed parsed' : Parsed}
    (scanned : tokenize source = .ok tokens) (ends : EndsInSemicolon tokens.dropLast)
    (accepted : Program.ofSource source world.nestingLimit = .ok parsed)
    (clean : parsed.diagnostics = [])
    (accepted' : Program.ofSource source' world.nestingLimit = .ok parsed')
    (clean' : parsed'.diagnostics = []) (nonempty : parsed'.program.statements ≠ []) :
    let first := machine.run world source none
    let second := first.2.run world source' none
    let joined := machine.run world (source ++ "\n" ++ source') none
    (∀ value, first.1 = .finished value →
      joined.2.output = first.2.output ++ second.2.output ∧
        (resumed first.2.output).Concludes world second.1 joined.1 ∧
        ∀ id, (resumed first.2.output).Frames (second.2.frame id) (joined.2.frame id)) ∧
    ((∀ value, first.1 ≠ .finished value) → joined = first) := by
  intro first second joined
  obtain ⟨placed, together, statements, placedClean⟩ :=
    Program.ofSource_joined scanned ends accepted clean accepted' clean'
  have placedNonempty : placed.program.statements ≠ [] := by
    intro empty
    rw [empty] at statements
    exact nonempty (List.forall₂_nil_right_iff.mp statements)
  have isFirst : first = machine.execute world parsed.program none :=
    run_eq_execute accepted clean none machine
  have isSecond : second = first.2.execute world parsed'.program none :=
    run_eq_execute accepted' clean' none first.2
  have allClean : (parsed.append placed).diagnostics = [] := by
    rw [Parsed.append, clean, placedClean]
    rfl
  have isJoined : joined = machine.execute world (parsed.append placed).program none :=
    run_eq_execute together allClean none machine
  have inParts := runProgram_append world parsed.program.position parsed.program.statements
    placedNonempty
  have sound : first.2.Sound := (reached.run world source none).sound
  rw [execute_none] at isFirst isSecond isJoined
  rw [Parsed.append, inParts, Eval.bind_apply] at isJoined
  cases ran : runProgram world parsed.program { machine with output := "" } with
  | error stop rest =>
      rw [ran] at isFirst isJoined
      rw [isJoined, isFirst]
      refine ⟨fun value finished => ?_, fun _ => rfl⟩
      cases stop <;> cases finished
  | ok value rest =>
      rw [ran] at isFirst isJoined
      dsimp only at isFirst isJoined
      rw [isFirst] at isSecond sound ⊢
      refine ⟨fun _ _ => ?_, fun unfinished => absurd rfl (unfinished value)⟩
      have runs : Runs world (resumed rest.output) (resumed rest.output).Values
          (runProgram world parsed'.program)
          (runProgram world ⟨parsed.program.position, placed.program.statements⟩) :=
        runProgram_runs trivial rfl False.elim statements
      have ended := runs _ _ sound.resumed
      rw [isSecond, isJoined]
      generalize runProgram world parsed'.program { rest with output := "" } = here,
        runProgram world ⟨parsed.program.position, placed.program.statements⟩ rest = there at ended
      cases ended with
      | ok values machines =>
          exact ⟨machines.output_resumed, .finished values, fun id => machines.frame id trivial⟩
      | error stops machines =>
          exact ⟨machines.output_resumed, stops.concludes, fun id => machines.frame id trivial⟩

/-- A function made and called before the join, and called again after it. -/
theorem Machine.run_joined_function :
    let world : World := { files := ⟨[], []⟩, searchPath := [] }
    let source := "let f = fn(x) { puts(x); x + 1 }; f(1);"
    let source' := "f(2)"
    let first := (Machine.start none).run world source none
    let second := first.2.run world source' none
    let joined := (Machine.start none).run world (source ++ "\n" ++ source') none
    first.1 = .finished (.int 2) ∧ joined.2.output = first.2.output ++ second.2.output ∧
      (resumed first.2.output).Concludes world second.1 joined.1 ∧
      ∀ id, (resumed first.2.output).Frames (second.2.frame id) (joined.2.frame id) := by
  intro world source source' first second joined
  have finished : first.1 = .finished (.int 2) := by
    dsimp only [first, source]
    rfl
  obtain ⟨tokens, scanned, ends⟩ :
      ∃ tokens, tokenize source = .ok tokens ∧ EndsInSemicolon tokens.dropLast := by
    dsimp only [source]
    exact ⟨_, rfl, rfl⟩
  obtain ⟨parsed, accepted, clean⟩ :
      ∃ parsed, Program.ofSource source = .ok parsed ∧ parsed.diagnostics = [] := by
    dsimp only [source]
    exact ⟨_, rfl, rfl⟩
  obtain ⟨parsed', accepted', clean', nonempty⟩ :
      ∃ parsed, Program.ofSource source' = .ok parsed ∧ parsed.diagnostics = [] ∧
        parsed.program.statements ≠ [] := by
    dsimp only [source']
    exact ⟨_, rfl, rfl, List.cons_ne_nil _ _⟩
  have joins := run_joined world (.start none) scanned ends accepted clean accepted' clean' nonempty
  exact ⟨finished, joins.1 _ finished⟩

end Monkey
