import Monkey.Prompt.Command
import Monkey.Prompt.Entry

/-!
# Keys

What the Enter and Backspace keys do to the buffer that holds an entry, with the cursor at its end.
-/

set_option autoImplicit false

namespace Monkey.Prompt

inductive BufferAction
  | insert (text : String)
  | deleteLast
  | startCompletion
  | submit
  deriving DecidableEq, Repr

def BufferAction.apply (text : String) : BufferAction → String
  | insert added => text ++ added
  | deleteLast => String.ofList text.toList.dropLast
  | startCompletion | submit => text

/-- Enter submits a command and a complete entry, and starts a new line in any other. -/
def enterActions (text : String) : List BufferAction :=
  if !beginsCommand text && needsMore text then [.insert ("\n" ++ indentation text)] else [.submit]

/-- Backspace offers completions where a command is left. -/
def backspaceActions (text : String) : List BufferAction :=
  if beginsCommand (BufferAction.deleteLast.apply text) then [.deleteLast, .startCompletion]
  else [.deleteLast]

end Monkey.Prompt
