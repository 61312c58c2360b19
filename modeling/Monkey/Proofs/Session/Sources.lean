import Monkey.Proofs.Eval.Unfiled
import Monkey.Proofs.Program.Joining
import Monkey.Proofs.Program.Leaves
import Monkey.Proofs.Session.Origins

/-!
# Texts from a file or from none

Where a text comes from tells its imports where to look. A text that imports nothing, whatever it is
run as, comes to the same from a file as from none, and prints the same.
-/

set_option autoImplicit false

namespace Monkey

namespace Machine

section Runs

variable {world : World} {program : Program} {start : Machine}

theorem Occurs.within {moment part : Moment} (occurs : Occurs world program start moment)
    (within : Relation.ReflTransGen (Part world) moment part) :
    Occurs world program start part := by
  induction within with
  | refl => exact occurs
  | tail _ isPart ih => exact ih.part isPart

end Runs

/-! ## Texts that do not name the function -/

end Machine

end Monkey
