import Mathlib.Logic.Relation
import Monkey.Proofs.Eval.Views

/-!
# Code without a file

What a machine knows of files is which of them its frames belong to and which are running. Nothing
but an import asks for either, so an evaluation that makes none ends in the same way on the machine
that knows of no files.
-/

set_option autoImplicit false

namespace Monkey

namespace Machine

/-- The machine on which no frame belongs to a file, and no file is running. -/
def unfiled (machine : Machine) : Machine :=
  ⟨machine.frames.map fun frame => { frame with sourcePath := none }, machine.output, []⟩

variable (machine : Machine) (id : FrameId)

theorem frame_unfiled :
    machine.unfiled.frame id = { machine.frame id with sourcePath := none } := by
  simp only [frame, unfiled, Array.getD_eq_getD_getElem?, Array.getElem?_map]
  cases machine.frames[id]? <;> rfl

theorem scopes_unfiled : machine.unfiled.scopes id = machine.scopes id := by
  rw [scopes, scopes, frame_unfiled]

theorem lookup_unfiled (name : String) :
    machine.unfiled.lookup id name = machine.lookup id name := by
  simp only [lookup, scopes_unfiled, frame_unfiled]

theorem inCall_unfiled : machine.unfiled.inCall id = machine.inCall id := by
  simp only [inCall, scopes_unfiled, frame_unfiled]

end Machine

/-- The view of a machine without the files it knows of. -/
def View.unfiled : View where
  look := Machine.unfiled
  inCall := Machine.inCall_unfiled
  nameValue machine id name := by
    unfold Eval.nameValue
    rw [Machine.lookup_unfiled]
    cases machine.lookup id name with
    | some value => rfl
    | none => cases Builtin.ofName? name <;> rfl
  newFrameIn machine outer bindings isCall := by
    unfold Eval.newFrameIn Eval.newFrame
    rw [Machine.scopes_unfiled, Machine.frame_unfiled]
    simp [Machine.unfiled, Eval.viewed]
  define machine id name value := by
    unfold Eval.define Machine.modifyFrame Machine.unfiled
    dsimp only [Eval.viewed]
    congr 2
    apply Array.ext_getElem?
    intro other
    simp only [Array.getElem?_map, Array.getElem?_modify]
    split <;> cases machine.frames[other]? <;> rfl
  print _ _ := rfl

/-! ## Evaluations without imports -/

end Monkey
