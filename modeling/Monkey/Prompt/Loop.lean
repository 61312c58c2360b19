import Monkey.Prompt.Command
import Monkey.Prompt.Entry
import Monkey.Session

/-!
# The prompt

A prompt runs one entry after the other in one frame of one machine and prints what each comes to.
Commands act on the prompt itself: a reset gives it another frame, on the same machine.
-/

set_option autoImplicit false

namespace Monkey.Prompt

/-- What is printed: ordinary output and reports of what went wrong. -/
structure Printed where
  out : String
  err : String
  deriving DecidableEq, Repr

namespace Printed

def nothing : Printed := ⟨"", ""⟩

def outLine (line : String) : Printed := ⟨line ++ "\n", ""⟩

def errLine (line : String) : Printed := ⟨"", line ++ "\n"⟩

def append (first second : Printed) : Printed := ⟨first.out ++ second.out, first.err ++ second.err⟩

end Printed

def joinLines (lines : List String) : String := String.join (lines.map (· ++ "\n"))

/-- A prompt between two entries. -/
structure State where
  machine : Machine
  /-- The frame that entries are run in. -/
  frame : FrameId
  /-- Whether internal failures are traced. -/
  traceback : Bool

namespace State

def initial (traceback : Bool) : State := ⟨Machine.start none, topFrame, traceback⟩

/-- The frames that the prompt has made so far stay on the machine, since functions refer to
them. -/
def reset (state : State) : State :=
  { state with
    machine := { state.machine with frames := state.machine.frames.push ⟨[], [], false, none⟩ }
    frame := state.machine.frames.size }

end State

def greeting : Printed := .outLine "monkey repl (Ctrl-D to exit, / for commands)"

def farewell : Printed := .outLine ""

/-- The last line of a report of a crash, and of the trace of one. -/
def crashLine (fault : Text.NumeralFault) : String := "ValueError: " ++ fault.message ++ "\n"

def internalFailure (fault : Text.NumeralFault) : String := "Internal error: " ++ crashLine fault

/-- What a run prints in all: its output, then its result or the reports of what went wrong. How a
crash is reported is up to who runs the text. -/
def printOutcome (report : Crash → String) (outcome : Outcome) (output : String) : Printed :=
  match outcome with
  | .crashed crash => ⟨output, report crash⟩
  | outcome => ⟨output ++ joinLines outcome.result?.toList, joinLines outcome.errorLines⟩

/-- How the prompt reports a crash. If internal failures are traced, the trace follows. -/
def reportCrash (world : World) (tracing : Bool) (crash : Crash) : String :=
  internalFailure crash.fault ++
    if tracing then "\nPython traceback:\n" ++ world.traceback (.answering :: crash.activities)
    else ""

/-- Sets or shows whether internal failures are traced. -/
def switchTraceback (state : State) (argument : String) : State × Printed :=
  match Switch.ofArgument? argument with
  | none => (state, .errLine "Usage: /py-traceback [on|off]")
  | some switch =>
      let traceback := switch.apply state.traceback
      ({ state with traceback },
        .outLine ("Python traceback: " ++ if traceback then "on" else "off"))

def obey (state : State) (line : CommandLine) : State × Printed :=
  match Command.ofName? line.name with
  | some .clear => (state, .outLine "<clear>")
  | some .traceback => switchTraceback state line.argument
  | some .reset => (state.reset, .outLine "Environment reset.")
  | none => (state, .errLine ("Unknown command: " ++ line.name))

/-- Takes an entry: a blank one does nothing, a command is obeyed, and all else is run. -/
def submit (world : World) (state : State) (entry : String) : State × Printed :=
  let text := normalize entry
  if (Text.trimBlank text.toList).isEmpty then (state, .nothing)
  else
    match commandLine? text with
    | some line => obey state line
    | none =>
        let (outcome, machine) := state.machine.runIn world text state.frame
        ({ state with machine },
          printOutcome (reportCrash world state.traceback) outcome machine.output)

/-- Takes what the user does at the prompt: an entry, or an interrupt that gives it up. -/
def answer (world : World) (state : State) : Option String → State × Printed
  | some entry => submit world state entry
  | none => (state, .outLine "KeyboardInterrupt")

def answers (world : World) : State → List (Option String) → List Printed
  | _, [] => []
  | state, entry :: rest =>
      let (next, printed) := answer world state entry
      printed :: answers world next rest

/-- What is printed from the start of a prompt to the end of its input. -/
def converse (world : World) (traceback : Bool) (entries : List (Option String)) : List Printed :=
  greeting :: answers world (.initial traceback) entries ++ [farewell]

end Monkey.Prompt
