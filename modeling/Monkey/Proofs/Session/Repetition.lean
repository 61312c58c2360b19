import Monkey.Proofs.Eval.Views
import Monkey.Proofs.Session.Ownership

/-!
# Calls made twice

What a call does depends on nothing that an earlier call has done: it finds the frames it reads as
they were, and the frames it adds only come after more frames. So the second of two equal calls ends
as the first and prints the same text, and what `map` makes of an item is what calling the function
on the item alone gives.
-/

set_option autoImplicit false

namespace Monkey

/-- Two computations end in the same way as far as it can be shown: in values that are shown alike,
in the same error at the same position, at the depth limit or at the same integer. -/
inductive Eval.SameEnd :
    EStateM.Result Stop Machine Value → EStateM.Result Stop Machine Value → Prop
  | ok {value value' : Value} {rest rest' : Machine} (shown : value.display = value'.display) :
      SameEnd (.ok value rest) (.ok value' rest')
  | error (error : RuntimeError) {rest rest' : Machine} :
      SameEnd (.error (.error error) rest) (.error (.error error) rest')
  | tooDeep {rest rest' : Machine} : SameEnd (.error .tooDeep rest) (.error .tooDeep rest')
  | numeral (crash : Crash) {rest rest' : Machine} :
      SameEnd (.error (.numeral crash) rest) (.error (.numeral crash) rest')

/-- A number moved up by a gap if it is not below a bound. -/
def moveUp (bound gap number : Nat) : Nat := if number < bound then number else number + gap

theorem moveUp_below {bound number : Nat} (gap : Nat) (below : number < bound) :
    moveUp bound gap number = number :=
  if_pos below

theorem moveUp_above {bound number : Nat} (gap : Nat) (above : bound ≤ number) :
    moveUp bound gap number = number + gap :=
  if_neg (Nat.not_lt.mpr above)

theorem moveUp_lt (bound gap : Nat) {number other : Nat} (less : number < other) :
    moveUp bound gap number < moveUp bound gap other := by
  unfold moveUp
  split <;> split <;> omega

namespace Correspondence

/-- The comparison of runs on a machine and on one to which frames have been added since: new frames
come after those. -/
def moved (before after : Machine) : Correspondence where
  exact := True
  covers id := before.Anchored id ∨ before.frames.size ≤ id
  rename := moveUp before.frames.size (after.frames.size - before.frames.size)
  increasing := moveUp_lt _ _
  printed := before.output
  printed' := after.output

variable {before after : Machine}

theorem rename_moved {id : FrameId} (anchored : before.Anchored id) :
    (moved before after).rename id = id :=
  moveUp_below _ anchored.inside

theorem moved_new (size : before.frames.size ≤ after.frames.size) (count : Nat) :
    (moved before after).rename (before.frames.size + count) = after.frames.size + count := by
  refine (moveUp_above _ (Nat.le_add_right _ count)).trans ?_
  rw [Nat.add_right_comm, Nat.add_sub_cancel' size]

theorem Values.of_owned {value : Value} (owned : before.Owns value) :
    (moved before after).Values value value := by
  induction owned with
  | nil => exact .nil
  | bool b => exact .bool b
  | int n => exact .int n
  | string s => exact .string s
  | array _ ih => exact .array (List.forall₂_same.mpr ih)
  | hash _ ih =>
      exact .hash (List.forall₂_same.mpr fun pair member => .intro pair.1 (ih pair member))
  | @function parameters body frame made =>
      obtain ⟨formed, anchored⟩ := made
      have values : (moved before after).Values (.function parameters body frame) _ :=
        .function ⟨formed, rfl, fun _ => rfl⟩ (.inl anchored)
      rwa [rename_moved anchored] at values
  | builtin callee => exact .builtin callee

theorem Frames.of_anchored {id : FrameId} (intact : before.Intact) (anchored : before.Anchored id) :
    (moved before after).Frames (before.frame id) (before.frame id) where
  covered outer member := .inl (anchored.scopes outer (List.mem_cons_of_mem id member))
  enclosing := by
    have same : ∀ outer ∈ (before.frame id).enclosing, (moved before after).rename outer = outer :=
      fun outer member => rename_moved (anchored.scopes outer (List.mem_cons_of_mem id member))
    rw [List.map_congr_left same, List.map_id']
  bindings := List.forall₂_same.mpr fun entry member =>
    .intro entry.1 (.of_owned (intact.bound id entry member))
  isCall := rfl
  sourcePath := rfl

theorem moved_machines (intact : before.Intact)
    (kept : before.Extends before.frames.size after) (running : after.running = before.running) :
    (moved before after).Machines before after where
  added count := ⟨.inr (Nat.le_add_right _ _), moved_new kept.size count⟩
  frame id covered := by
    rcases covered with anchored | outside
    · rw [rename_moved anchored, kept.frame id anchored.inside]
      exact .of_anchored intact anchored
    · obtain ⟨count, rfl⟩ := Nat.exists_eq_add_of_le outside
      rw [moved_new kept.size, Machine.frame_outside _ outside,
        Machine.frame_outside _ (Nat.le_add_right _ count)]
      exact .default
  running := running.symm
  output := ⟨"", String.append_empty.symm, String.append_empty.symm⟩

theorem Ends.sameEnd {world : World} {between : Correspondence}
    {result result' : EStateM.Result Stop Machine Value}
    (ends : Ends world between between.Values result result') (exact : between.exact)
    (silent : Eval.Silent result) : Eval.SameEnd result result' := by
  cases ends with
  | ok values machines => exact .ok values.display_eq
  | error stops machines =>
      cases stops with
      | error faults named positions =>
          rw [RuntimeError.eq_of_parts faults (positions exact)]
          exact .error _
      | returned values => exact absurd rfl (silent _ _)
      | tooDeep => exact .tooDeep
      | numeral imported faults crashes =>
          rw [crashes exact]
          exact .numeral _

theorem Ends.machines {α : Type} {world : World} {between : Correspondence} {same : α → α → Prop}
    {result result' : EStateM.Result Stop Machine α}
    (ends : Ends world between same result result') :
    between.Machines (Eval.ended result) (Eval.ended result') := by
  cases ends with
  | ok values machines => exact machines
  | error stops machines => exact machines

end Correspondence

namespace Machine

open Correspondence

/-- The second machine is the first with frames added, and with other text printed. -/
structure Widens (before after : Machine) : Prop where
  kept : before.Extends before.frames.size after
  running : after.running = before.running

theorem Widens.refl (machine : Machine) : machine.Widens machine := ⟨.refl _ machine, rfl⟩

theorem Widens.trans {before between after : Machine} (first : before.Widens between)
    (second : between.Widens after) : before.Widens after where
  kept := by
    refine first.kept.trans ⟨second.kept.size, fun id inside => ?_⟩
    exact second.kept.frame id (Nat.lt_of_lt_of_le inside first.kept.size)
  running := second.running.trans first.running

section Calls

variable {machine after : Machine} {world : World} {limit : Nat} {frame : FrameId} {callee : Value}
  {arguments : List Value}

theorem widens_call (world : World) (limit : Nat) (frame : FrameId) (callee : Value)
    (arguments : List Value) (machine : Machine) :
    machine.Widens
      (Eval.ended (Eval.call world (evaluate world limit) frame callee arguments machine)) where
  kept := Eval.call_keeps (evaluate_keeps world limit) world frame callee arguments machine
    (Nat.le_refl _)
  running := by
    have changes := Eval.call_changes (evaluate_changes world limit) world frame callee arguments
    exact (changes machine).running_eq

variable (intact : machine.Intact) (anchored : machine.Anchored frame)
  (calleeOwned : machine.Owns callee) (owned : ∀ argument ∈ arguments, machine.Owns argument)
include intact anchored calleeOwned owned

/-- A call ends on a machine to which frames have been added as it did before. -/
theorem Widens.call_ends (widens : machine.Widens after) :
    Ends world (moved machine after) (moved machine after).Values
      (Eval.call world (evaluate world limit) frame callee arguments machine)
      (Eval.call world (evaluate world limit) frame callee arguments after) := by
  have covered : (moved machine after).covers frame := Or.inl anchored
  have values : List.Forall₂ (moved machine after).Values arguments arguments :=
    List.forall₂_same.mpr fun argument member => .of_owned (owned argument member)
  have runs := call_runs (evaluate_keeps world limit) (evaluate_respects world limit) covered
    (evaluate_respects world limit (moved machine after)) (.of_owned calleeOwned) values
  have ends := runs _ _ (moved_machines intact widens.kept widens.running)
  rwa [rename_moved anchored] at ends

theorem Widens.call_sameEnd (widens : machine.Widens after) :
    let call := Eval.call world (evaluate world limit) frame callee arguments
    Eval.SameEnd (call machine) (call after) ∧
      ∃ text, (Eval.ended (call machine)).output = machine.output ++ text ∧
        (Eval.ended (call after)).output = after.output ++ text := by
  intro call
  have ends : Ends world _ _ (call machine) (call after) :=
    widens.call_ends intact anchored calleeOwned owned
  refine ⟨ends.sameEnd trivial ?_, ends.machines.output⟩
  exact Eval.call_silent (evaluate_disciplined world limit) world callee arguments

end Calls

/-! ## Mapping -/

/-- Calling the function on the item gives a value that is shown as the result is, at this depth and
with more of it. -/
def GivesAlone (world : World) (limit : Nat) (frame : FrameId) (function : Value)
    (machine : Machine) (item result : Value) : Prop :=
  ∀ deeper, limit ≤ deeper → ∃ alone rest,
    Eval.call world (evaluate world deeper) frame function [item] machine = .ok alone rest ∧
      alone.display = result.display

section Mapping

variable {machine reached rest : Machine} {world : World} {limit : Nat} {frame : FrameId}
  {function : Value}

theorem ok_of_evaluate_apply {arguments : List Value} {value : Value}
    (ran : evaluate world (limit + 1) frame (.apply function arguments) machine = .ok value rest) :
    Eval.call world (evaluate world limit) frame function arguments machine = .ok value rest := by
  change Eval.located _ (Eval.call world (evaluate world limit) frame function arguments) machine =
    _ at ran
  cases result : Eval.call world (evaluate world limit) frame function arguments machine with
  | ok given after =>
      rw [Eval.located, result] at ran
      exact ran
  | error stop after =>
      rw [Eval.located_error result] at ran
      cases ran

theorem call_deeper {arguments : List Value} {value : Value}
    (ran : Eval.call world (evaluate world limit) frame function arguments machine =
      .ok value rest) {deeper : Nat} (enough : limit ≤ deeper) :
    Eval.call world (evaluate world deeper) frame function arguments machine = .ok value rest := by
  have whole : Moment.result world ⟨limit + 1, [], frame, .apply function arguments, machine⟩ =
      .ok value rest := by
    change Eval.located _ (Eval.call world (evaluate world limit) frame function arguments)
      machine = _
    rw [Eval.located, ran]
  have fathoms : Moment.Fathoms world
      ⟨limit + 1, [], frame, .apply function arguments, machine⟩ := by
    intro after stopped
    rw [whole] at stopped
    cases stopped
  have more : limit + 1 ≤ deeper + 1 := Nat.succ_le_succ enough
  exact ok_of_evaluate_apply ((fathoms.deeper more).trans whole)

variable (intact : machine.Intact) (anchored : machine.Anchored frame)
  (functionOwned : machine.Owns function)
include intact anchored functionOwned

/-- One item that is mapped, after others have been. -/
theorem Widens.givesAlone (widens : machine.Widens reached) {item result : Value}
    (owned : machine.Owns item)
    (ran : evaluate world limit frame (.apply function [item]) reached = .ok result rest) :
    GivesAlone world limit frame function machine item result ∧ machine.Widens rest := by
  cases limit with
  | zero => cases ran
  | succ limit =>
      have called := ok_of_evaluate_apply ran
      have further := widens_call world limit frame function [item] reached
      have same : Eval.SameEnd
          (Eval.call world (evaluate world limit) frame function [item] machine)
          (Eval.call world (evaluate world limit) frame function [item] reached) :=
        (widens.call_sameEnd intact anchored functionOwned (List.forall_mem_singleton.mpr owned)).1
      rw [called] at same further
      refine ⟨fun deeper enough => ?_, widens.trans further⟩
      generalize alone : Eval.call world (evaluate world limit) frame function [item] machine =
        first at same
      cases same with
      | ok shown => exact ⟨_, _, call_deeper alone (by omega), shown⟩

theorem Widens.collect_alone (widens : machine.Widens reached) {items results done : List Value}
    (owned : ∀ item ∈ items, machine.Owns item)
    (ran : Eval.collect (fun item => evaluate world limit frame (.apply function [item])) items done
      reached = .ok results rest) :
    ∃ values, results = done.reverse ++ values ∧
      List.Forall₂ (GivesAlone world limit frame function machine) items values := by
  induction items generalizing reached done with
  | nil =>
      cases ran
      exact ⟨[], (List.append_nil _).symm, .nil⟩
  | cons item others ih =>
      obtain ⟨itemOwned, othersOwned⟩ := List.forall_mem_cons.mp owned
      rw [Eval.collect, Eval.bind_apply] at ran
      cases mapped : evaluate world limit frame (.apply function [item]) reached with
      | error stop after =>
          rw [mapped] at ran
          cases ran
      | ok value after =>
          rw [mapped] at ran
          obtain ⟨alone, further⟩ :=
            widens.givesAlone intact anchored functionOwned itemOwned mapped
          obtain ⟨values, isResults, same⟩ := ih further othersOwned ran
          refine ⟨value :: values, ?_, .cons alone same⟩
          rw [isResults, List.reverse_cons, List.append_assoc, List.singleton_append]

theorem map_alone {items : List Value} {value : Value}
    (owned : ∀ item ∈ items, machine.Owns item)
    (ran : Eval.call world (evaluate world limit) frame (.builtin .map) [function, .array items]
      machine = .ok value rest) :
    ∃ results, value = .array results ∧
      List.Forall₂ (GivesAlone world limit frame function machine) items results := by
  have mapped : (Eval.collect (fun item => evaluate world limit frame (.apply function [item]))
      items [] >>= fun results => pure (.array results)) machine = .ok value rest :=
    (Eval.bind_ok rfl).symm.trans ran
  rw [Eval.bind_apply] at mapped
  cases collected : Eval.collect (fun item => evaluate world limit frame (.apply function [item]))
      items [] machine with
  | error stop after =>
      rw [collected] at mapped
      cases mapped
  | ok results after =>
      rw [collected] at mapped
      cases mapped
      obtain ⟨values, isResults, same⟩ := (Widens.refl machine).collect_alone intact anchored
        functionOwned owned collected
      cases isResults
      exact ⟨_, rfl, same⟩

end Mapping

/-! ## Sessions -/

/-- In every state that a session comes to, a call of values that are there can be repeated: made
again on the machine that it has left, it ends in the same way and prints the same text. So an item
that a function is mapped over gives what the function gives for it alone. All values that are bound
are there, and so are those that a run makes a call of. -/
theorem calls_repeat {machine : Machine} (visited : machine.Visited) :
    machine.Anchored topFrame ∧
    (∀ id, ∀ entry ∈ (machine.frame id).bindings, machine.Owns entry.2) ∧
    (∀ (start before : Machine) world source parsed sourcePath limit active frame phrase callee
        arguments, start.Reachable → Program.ofSource source world.nestingLimit = .ok parsed →
      Occurs world parsed.program (start.entered world sourcePath)
        ⟨limit + 1, active, frame, phrase, before⟩ →
      Calls (evaluate world limit) frame phrase before callee arguments machine →
      machine.Anchored frame ∧ machine.Owns callee ∧
        ∀ argument ∈ arguments, machine.Owns argument) ∧
    (∀ world limit frame callee arguments, machine.Anchored frame → machine.Owns callee →
      (∀ argument ∈ arguments, machine.Owns argument) →
      let call := Eval.call world (evaluate world limit) frame callee arguments
      let first := call machine
      let second := call (Eval.ended first)
      Eval.SameEnd first second ∧
        ∃ text, (Eval.ended first).output = machine.output ++ text ∧
          (Eval.ended second).output = (Eval.ended first).output ++ text) ∧
    ∀ world limit frame function items value rest, machine.Anchored frame →
      machine.Owns function → (∀ item ∈ items, machine.Owns item) →
      Eval.call world (evaluate world limit) frame (.builtin .map) [function, .array items]
        machine = .ok value rest →
      ∃ results, value = .array results ∧
        List.Forall₂ (GivesAlone world limit frame function machine) items results := by
  have intact := visited.intact
  refine ⟨intact.top, intact.bound, ?_, ?_, ?_⟩
  · intro start before world source parsed sourcePath limit active frame phrase callee arguments
      reached accepted occurs makes
    exact (Occurs.owns_call (reached.intact.entered world sourcePath)
      (Program.wellFormed_of_ofSource accepted) occurs makes).1
  · intro world limit frame callee arguments anchored calleeOwned owned
    exact (machine.widens_call world limit frame callee arguments).call_sameEnd intact anchored
      calleeOwned owned
  · intro world limit frame function items value rest anchored functionOwned owned ran
    exact map_alone intact anchored functionOwned owned ran

/-- A function that prints and gives a function of its own is called twice. -/
theorem calls_repeat_closure :
    let world : World := { files := ⟨[], []⟩, searchPath := [] }
    let source := "let make = fn(x) \x7b puts(x); let y = x; fn() \x7b y \x7d \x7d;"
    let machine := ((Machine.start none).run world source none).2
    let make := (machine.lookup topFrame "make").getD .nil
    let call := Eval.call world (evaluate world 10) topFrame make [.int 7]
    let first := call machine
    let second := call (Eval.ended first)
    Eval.SameEnd first second ∧
      (∃ text, (Eval.ended first).output = machine.output ++ text ∧
        (Eval.ended second).output = (Eval.ended first).output ++ text) ∧
      (Eval.value? first).isSome = true ∧ (Eval.ended first).output = "7\n" ∧
      (Eval.ended first).frames.size = 2 ∧ (Eval.ended second).frames.size = 3 := by
  intro world source machine make call first second
  have visited : machine.Visited := .session (.run (.start none) world source none)
  obtain ⟨top, bound, -, repeats, -⟩ := calls_repeat visited
  have isBound : (machine.lookup topFrame "make").isSome = true := by decide +kernel
  obtain ⟨value, found⟩ := Option.isSome_iff_exists.mp isBound
  have isMake : make = value := congrArg (Option.getD · .nil) found
  obtain ⟨scope, -, held⟩ := List.exists_of_findSome?_eq_some found
  have owned : machine.Owns make := isMake ▸ bound scope _ (Entries.mem_of_get? held)
  obtain ⟨same, printed⟩ := repeats world 10 topFrame make [.int 7] top owned
    (List.forall_mem_singleton.mpr (.int 7))
  exact ⟨same, printed, by decide +kernel⟩

end Machine

end Monkey
