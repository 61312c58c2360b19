import Monkey.Ast.Tree
import Monkey.CommandLine.Basic

/-!
# Showing programs

A second command line reads a program and shows its statements as s-expressions, with a report of
each diagnostic. It never runs the program.
-/

set_option autoImplicit false

namespace Monkey.CommandLine

def openFile (files : FileSystem) (path : String) : Except Failure String :=
  match files.find path with
  | .error .notFound => .error (.notFound path)
  | .error .notDirectory => .error (.notDirectory path)
  | .error .nameTooLong => .error (.nameTooLong path)
  | .error .invalidCharacter => .error .invalidPath
  | .ok real =>
      match files.entry? real with
      | some (.file content) =>
          match Text.fileText content with
          | .ok source => .ok source
          | .error fault => .error (.undecodable fault)
      | some _ => .error (.isDirectory path)
      | none => .error (.notFound path)

def renderSource (source : String) (limit : Nat) : Ending :=
  match Program.ofSource source limit with
  | .error numeral => .error (.numeral numeral)
  | .ok ⟨program, diagnostics⟩ =>
      .ok
        ⟨if diagnostics.isEmpty then 0 else 1,
          Prompt.joinLines (program.statements.map fun stmt => stmt.tree.render),
          Prompt.joinLines (diagnostics.map fun diagnostic => "Parse error: " ++ diagnostic.text)⟩

/-- Shows the program in the file that the first argument names, or in the standard input. -/
def render (files : FileSystem) (arguments : List String) (input : String)
    (limit : Nat := nestingLimit) : Ending :=
  match arguments.head? with
  | none | some "-" => renderSource input limit
  | some path => do
      let source ← openFile files path
      renderSource source limit

end Monkey.CommandLine
