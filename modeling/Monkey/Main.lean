import Monkey.CommandLine.Rendering
import Monkey.Prompt.Keys

/-!
# The command line of a machine

The command line on the files, the environment and the streams of a machine. A run sees files
through a snapshot, so whatever it may import is read before it starts: the files that string
literals of its source name, those that string literals of these files name, and so on. Where a run
ends at a path for which the snapshot has no file, such as one put together while the program runs,
the path is looked up on the machine, and the run starts again if that finds anything. Since runs do
nothing but give what is printed afterwards, only the last one shows.
-/

set_option autoImplicit false

namespace Monkey.Main

/-! ## Snapshots of files -/

/-- Adds an entry to a snapshot that has none there. -/
def remember (files : FileSystem) (path : RealPath) (entry : FileEntry) : FileSystem :=
  if (files.entry? path).isSome then files
  else { files with entries := (path, entry) :: files.entries }

def realNames (path : String) : RealPath := (Path.names path).filter fun name => !name.isEmpty

/-- Follows names from a real path on the machine, and adds the links, directories and files met. -/
def captureNames : List String → RealPath → FileSystem → IO FileSystem
  | [], _, files => pure files
  | name :: rest, here, files =>
      if name = "" ∨ name = "." then captureNames rest here files
      else if name = ".." then captureNames rest here.dropLast files
      else do
        let next := here ++ [name]
        let .ok found ← (IO.FS.realPath (Path.ofNames next)).toBaseIO | return files
        let .ok metadata ← found.metadata.toBaseIO | return files
        let real := realNames found.toString
        let files := if real = next then files else remember files next (.link real)
        match metadata.type with
        | .dir => captureNames rest real (remember files real .directory)
        | .file =>
            let .ok content ← (IO.FS.readBinFile found).toBaseIO | return files
            return remember files real (.file content.toList)
        | _ => return files

def capture (files : FileSystem) (path : String) : IO FileSystem :=
  captureNames (Path.names path) (files.origin path) files

def emptySnapshot : IO FileSystem := do
  let directory := realNames (← IO.currentDir).toString
  return ⟨directory, [(directory, .directory)]⟩

/-- A source text and the file it is from. -/
abbrev Source := String × Option String

def sourcesOf (files : FileSystem) : List Source :=
  files.entries.filterMap fun (path, entry) =>
    match entry with
    | .file content =>
        (Text.fileText content).toOption.map fun text => (text, some (Path.ofNames path))
    | _ => none

def literals (text : String) : List String :=
  match tokenize text with
  | .ok tokens => (tokens.filter fun token => token.kind = .string).map Token.text
  | .error _ => []

/-- Adds files until everything that one of the paths, or a literal, may mean in an import is there,
whichever source imports it. -/
partial def explore (settings : CommandLine.Settings) (given : List Source) (paths : List String)
    (files : FileSystem) : IO FileSystem := do
  let sources := given ++ sourcesOf files
  let named := paths ++ sources.flatMap fun (text, _) => literals text
  let candidates := sources.flatMap fun (_, importer) =>
    named.flatMap ((settings.world files).importCandidates importer)
  let extended ← candidates.eraseDups.foldlM capture files
  if extended.entries.length = files.entries.length then return files
  else explore settings given paths extended

/-- The paths at which, according to a report, no file has been found. -/
def missing (report : String) : List String :=
  ((report.splitOn "cannot import '").drop 1).map fun piece =>
    (piece.splitOn "': file not found").headD ""

/-- What a run gives on a snapshot that lacks nothing it asks for. -/
partial def runOn {α : Type} (settings : CommandLine.Settings) (given : List Source)
    (run : FileSystem → α) (report : α → String) (files : FileSystem) : IO α := do
  let files ← explore settings given [] files
  let result := run files
  let extended ← explore settings given (missing (report result)) files
  if extended.entries.length = files.entries.length then return result
  else runOn settings given run report extended

/-! ## Streams -/

partial def readAll (stream : IO.FS.Stream) (done : ByteArray) : IO ByteArray := do
  let chunk ← stream.read 65536
  if chunk.isEmpty then return done else readAll stream (done ++ chunk)

def display (printed : Prompt.Printed) : IO Unit := do
  IO.print printed.out
  IO.eprint printed.err

/-- The exit status of what a command comes to, and what is printed. -/
def shown : CommandLine.Ending → UInt32 × Prompt.Printed
  | .ok result => (.ofNat result.status, ⟨result.out, result.err⟩)
  | .error failure => (1, .errLine failure.message)

/-- Prints what a command comes to and gives its exit status. -/
def conclude (ending : CommandLine.Ending) : IO UInt32 := do
  let (status, printed) := shown ending
  display printed
  return status

/-! ## The prompt -/

/-- Reads lines until Enter submits them; there is no entry at the end of the input. -/
partial def readEntry (mark text : String) : IO (Option String) := do
  IO.print mark
  (← IO.getStdout).flush
  let line ← (← IO.getStdin).getLine
  if line.isEmpty then return none
  let text := text ++ String.ofList (line.toList.filter fun c => c != '\n')
  let next := (Prompt.enterActions text).foldl Prompt.BufferAction.apply text
  if next = text then return some text
  else readEntry ("... " ++ Prompt.indentation text) next

def clears (entry : String) : Bool :=
  ((Prompt.commandLine? entry).bind fun line => Prompt.Command.ofName? line.name) == some .clear

/-- Answers entries to the end of the input; `given` holds those before. -/
partial def converse (settings : CommandLine.Settings) (given : List Source)
    (state : Prompt.State) : IO Unit := do
  let some entry ← readEntry ">> " "" | display Prompt.farewell
  let given := (Prompt.normalize entry, none) :: given
  if clears (Prompt.normalize entry) then
    IO.print "\x1b[2J\x1b[H"
    converse settings given state
  else
    let run files := Prompt.submit (settings.world files) state entry
    let (state, printed) ← runOn settings given run (fun (_, printed) => printed.err)
      (← emptySnapshot)
    display printed
    converse settings given state

/-! ## Commands -/

def readSettings : IO CommandLine.Settings :=
  return {
    searchPath := ← IO.getEnv "MONKEY_PATH"
    traceback := ← IO.getEnv "MONKEY_DEBUG_PY_TRACE"
    recursionLimit := ← IO.getEnv "MONKEY_RECURSION_LIMIT" }

/-- The standard input as text, if it is asked for. -/
def readInput (wanted : Bool) : IO (Except Text.Utf8Fault String) := do
  if wanted then return Text.fileText (← readAll (← IO.getStdin) .empty).toList
  else return .ok ""

/-- Opens a prompt, or runs the source that the argument means. -/
def runCommand (arguments : List String) : IO UInt32 := do
  let settings ← readSettings
  match arguments with
  | [] =>
      match settings.ending? (← emptySnapshot) [] "" with
      | some ending => conclude ending
      | none =>
          display Prompt.greeting
          converse settings [] (.initial settings.tracing)
          return 0
  | argument :: _ =>
      match ← readInput (arguments = ["-"]) with
      | .error fault => conclude (.error (.undecodable fault))
      | .ok input =>
          let files ← capture (← emptySnapshot) (Path.tidy argument)
          let given := (CommandLine.loadSource files input argument).toOption.toList
          let run files := CommandLine.run settings files arguments input []
          conclude (← runOn settings given run (fun ending => (shown ending).2.err) files)

/-- Shows the program in a file or in the standard input instead of running it. -/
def renderCommand (arguments : List String) : IO UInt32 := do
  let path := arguments.head?.getD "-"
  match ← readInput (path = "-") with
  | .error fault => conclude (.error (.undecodable fault))
  | .ok input => conclude (CommandLine.render (← capture (← emptySnapshot) path) arguments input)

end Monkey.Main

def main (arguments : List String) : IO UInt32 :=
  Monkey.Main.runCommand arguments
