import Monkey.Prompt.Loop
import Monkey.Text.Numeral

/-!
# The command line

Without an argument the command line opens a prompt. Its argument is a dash for the standard input,
the path of a file or, if no file is there, the source text itself.
-/

set_option autoImplicit false

namespace Monkey.CommandLine

structure Result where
  status : Nat
  out : String
  err : String
  deriving DecidableEq, Repr

/-- A failure outside the program that is run. -/
inductive Failure
  | undecodable (fault : Text.Utf8Fault)
  | nameTooLong (path : String)
  | notFound (path : String)
  | isDirectory (path : String)
  | notDirectory (path : String)
  | invalidPath
  | limitTooLarge
  | numeral (fault : Text.NumeralFault)
  deriving DecidableEq, Repr

def Failure.message : Failure → String
  | undecodable fault => fault.message
  | nameTooLong path => "[Errno 36] File name too long: " ++ Text.quote path
  | notFound path => "[Errno 2] No such file or directory: " ++ Text.quote path
  | isDirectory path => "[Errno 21] Is a directory: " ++ Text.quote path
  | notDirectory path => "[Errno 20] Not a directory: " ++ Text.quote path
  | invalidPath => "embedded null byte"
  | limitTooLarge => "Python int too large to convert to C int"
  | numeral fault => fault.message

abbrev Ending := Except Failure Result

def exitWith (message : String) : Result := ⟨1, "", message ++ "\n"⟩

/-! ## Settings -/

/-- How a command line ends that is out of calls before it gets to its program. -/
def outOfCalls : Result := ⟨1, "", "RecursionError: maximum recursion depth exceeded\n"⟩

/-- What is up to the interpreter that the command line itself runs on. How many of its calls a
phrase takes is known roughly only; so are the depths that a recursion limit stands for. -/
structure Host where
  /-- The recursion limit that holds unless another one is set. -/
  recursionLimit : Nat := 10000
  nestingLimit : Nat → Nat := fun limit => limit / 5
  evaluationLimit : Nat → Nat := fun limit => 3 * limit / 10
  /-- What becomes of a command line with these arguments and this standard input if a recursion
  limit cannot be set, or is reached outside the reading and the evaluation of a program. -/
  exhausted : Nat → FileSystem → List String → String → Option Result :=
    fun limit _ _ _ => if limit < 40 then some outOfCalls else none
  /-- The lines that trace a crash. -/
  traceback : List Activity → String := fun _ => ""

structure Settings where
  searchPath : Option String
  /-- Whether internal failures are to be traced: any text but the empty one. -/
  traceback : Option String
  recursionLimit : Option String
  host : Host := {}

/-- The largest recursion limit that can be set, which is that of 32 bits with a sign. -/
def largestLimit : Int := 2147483647

/-- The recursion limit that a text asks for, or why it is refused. A blank text asks for none. -/
def readLimit (text : String) : Except Ending (Option Nat) :=
  if (Text.trimBlank text.toList).isEmpty then .ok none
  else
    match Text.readInteger text with
    | .error _ =>
        .error (.ok (exitWith
          ("Error: MONKEY_RECURSION_LIMIT must be an integer, got " ++ Text.quote text)))
    | .ok value =>
        if value ≤ 0 then
          .error (.ok (exitWith
            ("Error: MONKEY_RECURSION_LIMIT must be positive, got " ++ Integer.decimal value)))
        else if largestLimit < value then .error (.error .limitTooLarge)
        else .ok (some value.toNat)

namespace Settings

def tracing (settings : Settings) : Bool := !(settings.traceback.getD "").isEmpty

/-- The recursion limit that is set, if one is. -/
def limit? (settings : Settings) : Except Ending (Option Nat) :=
  match settings.recursionLimit with
  | none => .ok none
  | some text => readLimit text

def limit (settings : Settings) : Nat :=
  (settings.limit?.toOption.join).getD settings.host.recursionLimit

def world (settings : Settings) (files : FileSystem) : World where
  files
  searchPath := searchPathOf (settings.searchPath.getD "")
  nestingLimit := settings.host.nestingLimit settings.limit
  evaluationLimit := settings.host.evaluationLimit settings.limit
  traceback := settings.host.traceback

/-- How a command line ends at its recursion limit, with nothing run: the limit that is asked for
is refused, or it is too low. -/
def ending? (settings : Settings) (files : FileSystem) (arguments : List String) (input : String) :
    Option Ending :=
  match settings.limit? with
  | .error ending => some ending
  | .ok none => none
  | .ok (some limit) => (settings.host.exhausted limit files arguments input).map .ok

end Settings

/-- The source text that an argument means, and the file it is from. -/
def loadSource (files : FileSystem) (input argument : String) :
    Except (Except Failure Result) (String × Option String) :=
  if argument = "-" then
    if input.isEmpty then .error (.ok (exitWith "No input provided on stdin"))
    else .ok (input, none)
  else
    let path := Path.tidy argument
    match files.find path with
    | .error .nameTooLong => .error (.error (.nameTooLong path))
    | _ =>
        match files.file? path with
        | none => .ok (argument, none)
        | some (_, content) =>
            match Text.fileText content with
            | .error fault => .error (.error (.undecodable fault))
            | .ok source => .ok (source, some path)

/-- How the run of one source text reports a crash: in one line, or by the trace of it. -/
def reportCrash (world : World) (tracing : Bool) (crash : Crash) : String :=
  if tracing then
    "Traceback (most recent call last):\n" ++ world.traceback (.running :: crash.activities)
      ++ Prompt.crashLine crash.fault
  else Prompt.internalFailure crash.fault

def runSource (world : World) (tracing : Bool) (source : String) (sourcePath : Option String) :
    Result :=
  let (outcome, machine) := (Machine.start sourcePath).run world source sourcePath
  let printed := Prompt.printOutcome (reportCrash world tracing) outcome machine.output
  let status :=
    match outcome with
    | .finished _ => 0
    | .crashed _ => 2
    | .rejected _ | .failed _ => 1
  ⟨status, printed.out, printed.err⟩

def runPrompt (settings : Settings) (files : FileSystem) (entries : List (Option String)) :
    Result :=
  let printed := (Prompt.converse (settings.world files) settings.tracing entries).foldl
    Prompt.Printed.append .nothing
  ⟨0, printed.out, printed.err⟩

/-- Runs a command line. The entries are those of the prompt, should it be opened. -/
def run (settings : Settings) (files : FileSystem) (arguments : List String) (input : String)
    (entries : List (Option String)) : Ending :=
  match arguments with
  | _ :: unexpected :: _ => .ok (exitWith ("Unexpected argument: " ++ unexpected))
  | arguments =>
      match settings.ending? files arguments input with
      | some ending => ending
      | none =>
          match arguments with
          | [] => .ok (runPrompt settings files entries)
          | argument :: _ =>
              match loadSource files input argument with
              | .error ending => ending
              | .ok (source, sourcePath) =>
                  .ok (runSource (settings.world files) settings.tracing source sourcePath)

end Monkey.CommandLine
