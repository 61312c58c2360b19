import Monkey.Eval.Phrase

/-!
# Running source texts

A source text is run in the top frame of a machine, and only if nothing is wrong with it. What a run
leaves behind is the machine, so running text after text on one machine is a session.
-/

set_option autoImplicit false

namespace Monkey

inductive Outcome
  /-- The text is no program, and nothing was run. -/
  | rejected (diagnostics : List Diagnostic)
  | finished (value : Value)
  | failed (error : RuntimeError)
  /-- The text of an integer is not read as a number, so the run was given up. -/
  | crashed (crash : Crash)

namespace Outcome

def errorLines : Outcome → List String
  | rejected diagnostics => diagnostics.map fun diagnostic => "Error: " ++ diagnostic.text
  | failed error => ["Error: " ++ error.report]
  | finished _ | crashed _ => []

/-- The text of the result, unless it is `nil` or there is none. -/
def result? : Outcome → Option String
  | finished .nil => none
  | finished value => some value.display
  | _ => none

/-- What the end of a computation comes to. A `return` outside all calls is an error. -/
def ofStop : Stop → Outcome
  | .error error => failed error
  | .returned _ => failed ⟨.returnOutsideFunction, none⟩
  | .tooDeep => failed ⟨.stackOverflow, none⟩
  | .numeral crash => crashed crash

end Outcome

namespace Machine

def runProgram (world : World) (program : Program) : Eval Value :=
  Eval.located program.site
    (Eval.statements (evaluate world world.evaluationLimit) topFrame program.statements .nil)

/-- The machine about to run code of a file, or of none. Naming a file makes it the file of the top
frame, and nothing has been printed yet. -/
def prepare (machine : Machine) (sourcePath : Option String) : Machine :=
  let machine := { machine with output := "" }
  match sourcePath with
  | none => machine
  | some path => machine.modifyFrame topFrame fun frame => { frame with sourcePath := some path }

def execute (world : World) (program : Program) (sourcePath : Option String) (machine : Machine) :
    Outcome × Machine :=
  let run := Eval.whileRunning? (sourcePath.map world.files.realPath) (runProgram world program)
  match run (machine.prepare sourcePath) with
  | .ok value rest => (.finished value, rest)
  | .error stop rest => (.ofStop stop, rest)

/-- Runs a source text on a machine; the text it prints is the output of the machine afterwards. -/
def run (world : World) (source : String) (sourcePath : Option String) (machine : Machine) :
    Outcome × Machine :=
  match Program.ofSource source world.nestingLimit with
  | .error numeral => (.crashed ⟨numeral, [.reading source]⟩, { machine with output := "" })
  | .ok parsed =>
      match parsed.diagnostics with
      | [] => execute world parsed.program sourcePath machine
      | diagnostics => (.rejected diagnostics, { machine with output := "" })

/-- Runs a program that belongs to no file, with a frame of the machine for its own bindings. -/
def executeIn (world : World) (program : Program) (frame : FrameId) (machine : Machine) :
    Outcome × Machine :=
  let run := Eval.located program.site
    (Eval.statements (evaluate world world.evaluationLimit) frame program.statements .nil)
  match run { machine with output := "" } with
  | .ok value rest => (.finished value, rest)
  | .error stop rest => (.ofStop stop, rest)

/-- Runs a source text that belongs to no file in a frame of a machine. -/
def runIn (world : World) (source : String) (frame : FrameId) (machine : Machine) :
    Outcome × Machine :=
  match Program.ofSource source world.nestingLimit with
  | .error numeral => (.crashed ⟨numeral, [.reading source]⟩, { machine with output := "" })
  | .ok parsed =>
      match parsed.diagnostics with
      | [] => executeIn world parsed.program frame machine
      | diagnostics => (.rejected diagnostics, { machine with output := "" })

end Machine

end Monkey
