/-!
# Positions in a source text

A position is a line and a column, both counted from one in code points. A token that did not come
from a source text has line zero, which stands for an unknown position.
-/

set_option autoImplicit false

namespace Monkey

structure Position where
  line : Nat
  column : Nat
  deriving DecidableEq, Repr, Inhabited

namespace Position

def start : Position := ⟨1, 1⟩

/-- The position of something that no source text holds. -/
def unknown : Position := ⟨0, 0⟩

/-- Whether the position points into a source text. -/
def IsKnown (position : Position) : Prop := position.line ≠ 0

instance (position : Position) : Decidable position.IsKnown :=
  inferInstanceAs (Decidable (position.line ≠ 0))

/-- The position after a character: a newline starts the next line. -/
def next (position : Position) (c : Char) : Position :=
  if c = '\n' then ⟨position.line + 1, 1⟩ else ⟨position.line, position.column + 1⟩

def after (position : Position) (chars : List Char) : Position := chars.foldl next position

@[simp] theorem after_nil (position : Position) : position.after [] = position := rfl

@[simp] theorem after_cons (position : Position) (c : Char) (chars : List Char) :
    position.after (c :: chars) = (position.next c).after chars := rfl

end Position

end Monkey
