import Monkey.Proofs.Eval.Frames
import Monkey.Proofs.Program.Placement
import Monkey.Proofs.Value.Correspondence

/-!
# Runs that correspond

Evaluating phrases that are alike on machines that correspond ends alike: in values that correspond
or for the same reason, with the same text printed since. Both runs add frames in step, so a frame
that is added stands for the one that is added in the other run. An imported file is the same text
in both runs, and its positions agree even where those of the phrases around it do not; so does the
report of its error.
-/

set_option autoImplicit false

namespace Monkey

/-- Some file that an import can mean holds an integer that is not read as a number. -/
def World.ImportsNumeral (world : World) (numeral : Text.NumeralFault) : Prop :=
  ∃ sourcePath path real content crash,
    world.resolveImport sourcePath path = some (real, content) ∧
      ModuleText.ofContent content world.nestingLimit = .unreadableNumeral crash ∧
      crash.fault = numeral

theorem RuntimeError.eq_of_parts {error error' : RuntimeError} (faults : error.fault = error'.fault)
    (positions : error.position = error'.position) : error = error' := by
  cases error
  cases error'
  cases faults
  cases positions
  rfl

namespace Correspondence

/-! ## Machines that correspond -/

structure Frames (between : Correspondence) (frame frame' : Frame) : Prop where
  covered : ∀ id ∈ frame.enclosing, between.covers id
  enclosing : frame'.enclosing = frame.enclosing.map between.rename
  bindings : between.Bindings frame.bindings frame'.bindings
  isCall : frame.isCall = frame'.isCall
  sourcePath : frame.sourcePath = frame'.sourcePath

/-- The frames that are compared correspond, and so do all that will be added. -/
structure Machines (between : Correspondence) (machine machine' : Machine) : Prop where
  added : ∀ count, between.covers (machine.frames.size + count) ∧
    between.rename (machine.frames.size + count) = machine'.frames.size + count
  frame : ∀ id, between.covers id →
    between.Frames (machine.frame id) (machine'.frame (between.rename id))
  running : machine.running = machine'.running
  output : ∃ text, machine.output = between.printed ++ text ∧
    machine'.output = between.printed' ++ text

variable {between : Correspondence}

theorem rename_inj {id other : FrameId} :
    between.rename id = between.rename other ↔ id = other := by
  refine ⟨fun same => ?_, congrArg between.rename⟩
  rcases Nat.lt_trichotomy id other with before | isSame | after
  · exact absurd same (Nat.ne_of_lt (between.increasing before))
  · exact isSame
  · exact absurd same (Nat.ne_of_gt (between.increasing after))

theorem Frames.default : between.Frames Inhabited.default Inhabited.default :=
  ⟨fun _ member => absurd member List.not_mem_nil, rfl, .nil, rfl, rfl⟩

/-- A machine without frames corresponds to one whose frames stand for none that will be added. -/
theorem Machines.ofEmpty (machine : Machine)
    (added : ∀ id, between.covers id ∧ between.rename id = machine.frames.size + id)
    (printed : between.printed = "") (printed' : between.printed' = machine.output) :
    between.Machines ⟨#[], "", machine.running⟩ machine where
  added count := by
    rw [Array.size_empty, Nat.zero_add]
    exact added count
  frame id _ := by
    have outside : machine.frames.size ≤ between.rename id := by
      rw [(added id).2]
      exact Nat.le_add_right _ id
    rw [Machine.frame_outside _ (Nat.zero_le _), Machine.frame_outside machine outside]
    exact .default
  running := rfl
  output := ⟨"", by rw [printed]; rfl, by rw [printed', String.append_empty]⟩

namespace Machines

variable {machine machine' : Machine} (machines : between.Machines machine machine')
include machines

theorem covers_new : between.covers machine.frames.size := (machines.added 0).1

theorem rename_new : between.rename machine.frames.size = machine'.frames.size :=
  (machines.added 0).2

theorem rename_lt {id : FrameId} :
    between.rename id < machine'.frames.size ↔ id < machine.frames.size := by
  rw [← machines.rename_new]
  refine ⟨fun inside => ?_, between.increasing⟩
  rcases Nat.lt_trichotomy id machine.frames.size with before | isSame | after
  · exact before
  · exact absurd inside (by rw [isSame]; exact Nat.lt_irrefl _)
  · exact absurd inside (Nat.lt_asymm (between.increasing after))

theorem scopes {id : FrameId} (covered : between.covers id) :
    (∀ scope ∈ machine.scopes id, between.covers scope) ∧
      machine'.scopes (between.rename id) = (machine.scopes id).map between.rename := by
  obtain ⟨enclosingCovered, enclosing, -, -, -⟩ := machines.frame id covered
  refine ⟨List.forall_mem_cons.mpr ⟨covered, enclosingCovered⟩, ?_⟩
  rw [Machine.scopes, Machine.scopes, enclosing, List.map_cons]

theorem lookup {id : FrameId} (covered : between.covers id) (name : String) :
    Option.Rel between.Values (machine.lookup id name)
      (machine'.lookup (between.rename id) name) := by
  obtain ⟨scopesCovered, scopes⟩ := machines.scopes covered
  unfold Machine.lookup
  rw [scopes]
  generalize machine.scopes id = list at scopesCovered
  clear scopes
  induction list with
  | nil => exact .none
  | cons scope rest ih =>
      obtain ⟨here, others⟩ := List.forall_mem_cons.mp scopesCovered
      have found := Entries.get?_matches name (machines.frame scope here).bindings
      rw [List.map_cons, List.findSome?_cons, List.findSome?_cons]
      generalize Entries.get? name (machine.frame scope).bindings = held,
        Entries.get? name (machine'.frame (between.rename scope)).bindings = held' at found
      cases found with
      | none => exact ih others
      | some values => exact .some values

theorem inCall_eq {id : FrameId} (covered : between.covers id) :
    machine.inCall id = machine'.inCall (between.rename id) := by
  obtain ⟨scopesCovered, scopes⟩ := machines.scopes covered
  unfold Machine.inCall
  rw [scopes, List.any_map, Bool.eq_iff_iff, List.any_eq_true, List.any_eq_true]
  refine exists_congr fun scope => and_congr_right fun member => ?_
  rw [Function.comp, (machines.frame scope (scopesCovered scope member)).isCall]

theorem push {frame frame' : Frame} (frames : between.Frames frame frame') :
    between.Machines { machine with frames := machine.frames.push frame }
      { machine' with frames := machine'.frames.push frame' } where
  added count := by
    obtain ⟨covered, renamed⟩ := machines.added (count + 1)
    simp only [Array.size_push]
    rw [Nat.add_assoc, Nat.add_assoc, Nat.add_comm 1 count]
    exact ⟨covered, renamed⟩
  frame id covered := by
    rw [Machine.frame_pushed, Machine.frame_pushed, ← machines.rename_new]
    by_cases isNew : id = machine.frames.size
    · rw [if_pos isNew, if_pos (congrArg between.rename isNew)]
      exact frames
    · rw [if_neg isNew, if_neg (mt rename_inj.mp isNew)]
      exact machines.frame id covered
  running := machines.running
  output := machines.output

theorem modify (target : FrameId) {change change' : Frame → Frame}
    (changes : ∀ frame frame', between.Frames frame frame' →
      between.Frames (change frame) (change' frame')) :
    between.Machines (machine.modifyFrame target change)
      (machine'.modifyFrame (between.rename target) change') where
  added count := by
    rw [Machine.size_modify, Machine.size_modify]
    exact machines.added count
  frame id covered := by
    have frames := machines.frame id covered
    by_cases inside : id < machine.frames.size
    · rw [Machine.frame_modify _ _ _ _ inside,
        Machine.frame_modify _ _ _ _ (machines.rename_lt.mpr inside)]
      by_cases isTarget : target = id
      · rw [if_pos isTarget, if_pos (congrArg between.rename isTarget)]
        exact changes _ _ frames
      · rw [if_neg isTarget, if_neg (mt rename_inj.mp isTarget)]
        exact frames
    · have outside := Nat.not_lt.mp (mt machines.rename_lt.mp inside)
      rw [Machine.frame_outside _ (by simpa using inside),
        Machine.frame_outside _ (by simpa using outside)]
      exact .default
  running := machines.running
  output := machines.output

theorem withRunning (running : List RealPath) :
    between.Machines { machine with running } { machine' with running } :=
  ⟨machines.added, machines.frame, rfl, machines.output⟩

theorem print (text : String) :
    between.Machines { machine with output := machine.output ++ text }
      { machine' with output := machine'.output ++ text } := by
  obtain ⟨added, frame, running, before, output, output'⟩ := machines
  refine ⟨added, frame, running, before ++ text, ?_, ?_⟩
  · simp only [output, String.append_assoc]
  · simp only [output', String.append_assoc]

end Machines

/-! ## Ends that correspond -/

inductive Stops (world : World) (between : Correspondence) : Stop → Stop → Prop
  | error {error error' : RuntimeError} (faults : error.fault = error'.fault)
      (named : error.fault.IsNamed) (positions : between.exact → error.position = error'.position) :
      Stops world between (.error error) (.error error')
  | returned {value value' : Value} (values : between.Values value value') :
      Stops world between (.returned value) (.returned value')
  | tooDeep : Stops world between .tooDeep .tooDeep
  | numeral {crash crash' : Crash} (imported : world.ImportsNumeral crash.fault)
      (faults : crash.fault = crash'.fault) (same : between.exact → crash = crash') :
      Stops world between (.numeral crash) (.numeral crash')

inductive Ends {α : Type} (world : World) (between : Correspondence) (same : α → α → Prop) :
    EStateM.Result Stop Machine α → EStateM.Result Stop Machine α → Prop
  | ok {value value' : α} {rest rest' : Machine} (values : same value value')
      (machines : between.Machines rest rest') :
      Ends world between same (.ok value rest) (.ok value' rest')
  | error {stop stop' : Stop} {rest rest' : Machine} (stops : Stops world between stop stop')
      (machines : between.Machines rest rest') :
      Ends world between same (.error stop rest) (.error stop' rest')

/-- Computations that end alike on any machines that correspond. -/
def Runs {α : Type} (world : World) (between : Correspondence) (same : α → α → Prop)
    (run run' : Eval α) : Prop :=
  ∀ machine machine' : Machine, between.Machines machine machine' →
    Ends world between same (run machine) (run' machine')

section Rules

variable {α β : Type} {world : World} {same : α → α → Prop} {sameNext : β → β → Prop}
  {run run' : Eval α}

theorem Runs.pure {value value' : α} (values : same value value') :
    Runs world between same (Pure.pure value) (Pure.pure value') :=
  fun _ _ machines => .ok values machines

theorem Runs.fail {fault : RuntimeFault} (named : fault.IsNamed) :
    Runs world between same (Eval.fail fault) (Eval.fail fault) :=
  fun _ _ machines => .error (.error rfl named fun _ => rfl) machines

theorem Runs.ofExcept {result result' : Except RuntimeFault α}
    (results : Outcomes same result result') :
    Runs world between same (Eval.ofExcept result) (Eval.ofExcept result') := by
  cases results with
  | ok values => exact .pure values
  | error named => exact .fail named

theorem Runs.bind {next next' : α → Eval β} (head : Runs world between same run run')
    (tail : ∀ value value', same value value' →
      Runs world between sameNext (next value) (next' value')) :
    Runs world between sameNext (run >>= next) (run' >>= next') := by
  intro machine machine' machines
  have ends := head machine machine' machines
  rw [Eval.bind_apply, Eval.bind_apply]
  generalize run machine = result, run' machine' = result' at ends
  cases ends with
  | ok values machines => exact tail _ _ values _ _ machines
  | error stops machines => exact .error stops machines

theorem Runs.get {next next' : Machine → Eval β}
    (tail : ∀ machine machine', between.Machines machine machine' →
      Ends world between sameNext (next machine machine) (next' machine' machine')) :
    Runs world between sameNext (MonadState.get >>= next) (MonadState.get >>= next') :=
  fun machine machine' machines => tail machine machine' machines

theorem Runs.located {site site' : Site} (sites : between.exact → site = site')
    (runs : Runs world between same run run') :
    Runs world between same (Eval.located site run) (Eval.located site' run') := by
  intro machine machine' machines
  have ends := runs machine machine' machines
  unfold Eval.located
  generalize run machine = result, run' machine' = result' at ends
  cases ends with
  | ok values machines => exact .ok values machines
  | error stops machines =>
      cases stops with
      | error faults named blamed =>
          have kept : ∀ (error : RuntimeError) (place : Position),
              (error.blame place).fault = error.fault := by
            intro error place
            unfold RuntimeError.blame
            repeat' split
            all_goals rfl
          refine .error (.error ?_ ?_ fun exact => ?_) machines
          · rw [kept, kept, faults]
          · rw [kept]
            exact named
          · rw [RuntimeError.eq_of_parts faults (blamed exact), sites exact]
      | returned values => exact .error (.returned values) machines
      | tooDeep => exact .error .tooDeep machines
      | numeral imported faults crashes =>
          refine .error (.numeral imported faults fun exact => ?_) machines
          rw [crashes exact, sites exact]

theorem Runs.catchReturn {run run' : Eval Value}
    (runs : Runs world between between.Values run run') :
    Runs world between between.Values (Eval.catchReturn run) (Eval.catchReturn run') := by
  intro machine machine' machines
  have ends := runs machine machine' machines
  unfold Eval.catchReturn
  generalize run machine = result, run' machine' = result' at ends
  cases ends with
  | ok values machines => exact .ok values machines
  | error stops machines =>
      cases stops with
      | returned values => exact .ok values machines
      | error faults named blamed => exact .error (.error faults named blamed) machines
      | tooDeep => exact .error .tooDeep machines
      | numeral imported faults crashes =>
          exact .error (.numeral imported faults crashes) machines

/-- The fault made of an error may tell its position, so the positions have to agree. -/
theorem Runs.mapError {change : RuntimeError → RuntimeFault} (exact : between.exact)
    (named : ∀ error, (change error).IsNamed) (runs : Runs world between same run run') :
    Runs world between same (Eval.mapError change run) (Eval.mapError change run') := by
  intro machine machine' machines
  have ends := runs machine machine' machines
  unfold Eval.mapError
  generalize run machine = result, run' machine' = result' at ends
  cases ends with
  | ok values machines => exact .ok values machines
  | error stops machines =>
      cases stops with
      | error faults _ blamed =>
          rw [RuntimeError.eq_of_parts faults (blamed exact)]
          exact .error (.error rfl (named _) fun _ => rfl) machines
      | returned values => exact .error (.returned values) machines
      | tooDeep => exact .error .tooDeep machines
      | numeral imported faults crashes =>
          exact .error (.numeral imported faults crashes) machines

theorem Runs.whileRunning (path : RealPath) (runs : Runs world between same run run') :
    Runs world between same (Eval.whileRunning path run) (Eval.whileRunning path run') := by
  intro machine machine' machines
  have ends := runs _ _ (machines.withRunning (path :: machine.running))
  unfold Eval.whileRunning
  rw [← machines.running]
  generalize run { machine with running := path :: machine.running } = result,
    run' { machine' with running := path :: machine.running } = result' at ends
  cases ends with
  | ok values machines =>
      dsimp only
      rw [← machines.running]
      exact .ok values (machines.withRunning _)
  | error stops machines =>
      dsimp only
      rw [← machines.running]
      exact .error stops (machines.withRunning _)

theorem Runs.newFrame {frame frame' : Frame} {next next' : FrameId → Eval β}
    (frames : between.Frames frame frame')
    (tail : ∀ id, between.covers id →
      Runs world between sameNext (next id) (next' (between.rename id))) :
    Runs world between sameNext (Eval.newFrame frame >>= next)
      (Eval.newFrame frame' >>= next') := by
  intro machine machine' machines
  have ends := tail _ machines.covers_new _ _ (machines.push frames)
  rw [machines.rename_new] at ends
  exact ends

theorem Runs.newFrameIn {outer : FrameId} (covered : between.covers outer)
    {bindings bindings' : List (String × Value)} (held : between.Bindings bindings bindings')
    (isCall : Bool) {next next' : FrameId → Eval β}
    (tail : ∀ id, between.covers id →
      Runs world between sameNext (next id) (next' (between.rename id))) :
    Runs world between sameNext (Eval.newFrameIn outer bindings isCall >>= next)
      (Eval.newFrameIn (between.rename outer) bindings' isCall >>= next') := by
  intro machine machine' machines
  obtain ⟨scopesCovered, scopes⟩ := machines.scopes covered
  have frames : between.Frames
      ⟨machine.scopes outer, bindings, isCall, (machine.frame outer).sourcePath⟩
      ⟨machine'.scopes (between.rename outer), bindings', isCall,
        (machine'.frame (between.rename outer)).sourcePath⟩ :=
    ⟨scopesCovered, scopes, held, rfl, (machines.frame outer covered).sourcePath⟩
  exact Runs.newFrame frames tail _ _ machines

theorem Runs.define {id : FrameId} (name : String) {value value' : Value}
    (values : between.Values value value') :
    Runs world between (fun _ _ => True) (Eval.define id name value)
      (Eval.define (between.rename id) name value') := by
  intro machine machine' machines
  refine .ok trivial (machines.modify id fun frame frame' frames => ?_)
  obtain ⟨covered, enclosing, bindings, isCall, sourcePath⟩ := frames
  exact ⟨covered, enclosing, Entries.put_matches name values bindings, isCall, sourcePath⟩

theorem Runs.nameValue {id : FrameId} (covered : between.covers id) (name : String) :
    Runs world between between.Values (Eval.nameValue id name)
      (Eval.nameValue (between.rename id) name) := by
  intro machine machine' machines
  have found := machines.lookup covered name
  unfold Eval.nameValue
  generalize machine.lookup id name = held,
    machine'.lookup (between.rename id) name = held' at found
  cases found with
  | some values => exact .ok values machines
  | none =>
      dsimp only
      cases Builtin.ofName? name with
      | some callee => exact .ok (.builtin callee) machines
      | none =>
          have unbound : (RuntimeFault.unbound name).IsNamed := by simp
          exact Runs.fail unbound _ _ machines

theorem Runs.print (text : String) :
    Runs world between (fun _ _ => True) (Eval.print text) (Eval.print text) :=
  fun _ _ machines => .ok trivial (machines.print text)

theorem Runs.collect {item item' : α → Eval β}
    (each : ∀ value value', same value value' →
      Runs world between sameNext (item value) (item' value'))
    {list list' : List α} (lists : List.Forall₂ same list list') {done done' : List β}
    (sofar : List.Forall₂ sameNext done done') :
    Runs world between (List.Forall₂ sameNext) (Eval.collect item list done)
      (Eval.collect item' list' done') := by
  induction lists generalizing done done' with
  | nil => exact .pure (List.forall₂_reverse_iff.mpr sofar)
  | cons first _ ih =>
      refine .bind (each _ _ first) fun result result' results => ?_
      exact ih (.cons results sofar)

end Rules

/-! ## Phrases -/

inductive Phrases (between : Correspondence) : Phrase → Phrase → Prop
  | expr {value value' : Expr} (alike : value.Alike between.exact value') :
      Phrases between (.expr value) (.expr value')
  | stmt {value value' : Stmt} (alike : value.Alike between.exact value') :
      Phrases between (.stmt value) (.stmt value')
  | apply {callee callee' : Value} {arguments arguments' : List Value}
      (callees : between.Values callee callee')
      (values : List.Forall₂ between.Values arguments arguments') :
      Phrases between (.apply callee arguments) (.apply callee' arguments')

theorem Phrases.site_eq {phrase phrase' : Phrase} (phrases : between.Phrases phrase phrase')
    (exact : between.exact) : phrase.site = phrase'.site := by
  cases phrases with
  | expr alike => rw [alike.same exact]
  | stmt alike => rw [alike.same exact]
  | apply callees values => rfl

/-- An evaluator that does not tell phrases apart that correspond. -/
def Respects (world : World) (between : Correspondence) (inner : Evaluator) : Prop :=
  ∀ frame phrase phrase', between.covers frame → between.Phrases phrase phrase' →
    Runs world between between.Values (inner frame phrase) (inner (between.rename frame) phrase')

end Correspondence

end Monkey
