import Monkey.Eval.Machine
import Monkey.Text.Utf8

/-!
# Finding imported files

A relative path is looked for in the directory of the importing file, then in the directories of the
search path and last in the working directory.
-/

set_option autoImplicit false

namespace Monkey

def searchPathOf (list : String) : List String :=
  ((list.toList.splitOn ':').map String.ofList).filter fun directory => !directory.isEmpty

/-- The directory of the importing file, unless the file is named without one. -/
def importDirectory (sourcePath : Option String) : Option String :=
  match sourcePath with
  | none => none
  | some path =>
      let directory := Path.directory path
      if directory.isEmpty then none else some directory

namespace World

/-- The paths that an import may mean, in the order in which they are tried. -/
def importCandidates (world : World) (sourcePath : Option String) (path : String) : List String :=
  if Path.isAbsolute path then [path]
  else
    ((importDirectory sourcePath).toList ++ world.searchPath
      ++ [Path.ofNames world.files.workingDirectory]).map (Path.join · path)

/-- The file that an import means, with its content. -/
def resolveImport (world : World) (sourcePath : Option String) (path : String) :
    Option (RealPath × List UInt8) :=
  (world.importCandidates sourcePath path).findSome? world.files.file?

end World

inductive ModuleText
  | program (program : Program)
  | faulty (fault : ImportFault)
  | unreadableNumeral (crash : Crash)

def ModuleText.ofContent (content : List UInt8) (limit : Nat) : ModuleText :=
  match Text.fileText content with
  | .error fault => .faulty (.unreadable fault)
  | .ok source =>
      match Program.ofSource source limit with
      | .error numeral => .unreadableNumeral ⟨numeral, [.reading source]⟩
      | .ok parsed =>
          match parsed.diagnostics with
          | [] => .program parsed.program
          | diagnostic :: _ => .faulty (.rejected diagnostic)

end Monkey
