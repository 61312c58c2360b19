import Monkey.Entries
import Monkey.File.System
import Monkey.Program
import Monkey.Value.Fault

/-!
# The state of a running program

Frames hold the bindings of one scope and are never removed, since functions refer to them. Beside
them a machine keeps the text printed so far and the files whose top level is being run. A
computation on a machine ends in a value, in an error, in a `return` on its way to a call, at the
depth limit or at an integer that is not read as a number; the machine outlives every one of these
ends.
-/

set_option autoImplicit false

namespace Monkey

structure Frame where
  /-- The frames around this one, the innermost first. -/
  enclosing : List FrameId
  bindings : List (String × Value)
  isCall : Bool
  /-- The file that the code run in the scope was read from. -/
  sourcePath : Option String
  deriving Inhabited

structure Machine where
  frames : Array Frame
  output : String
  /-- The files whose top level is being run, the innermost first. -/
  running : List RealPath

/-- The depth to which the evaluation of phrases nests, unless another limit is given. -/
def evaluationLimit : Nat := 3000

/-- What an interpreter is at, as a trace of a crash tells it. -/
inductive Activity
  | answering
  | running
  | reading (source : String)
  | program
  | stmt (value : Stmt)
  | expr (value : Expr)
  /-- A call made by a built-in function. -/
  | applying

/-- The end of a run that meets an integer whose text is not read as a number. -/
structure Crash where
  fault : Text.NumeralFault
  /-- What the interpreter is at, the outermost activity first. -/
  activities : List Activity

instance : Coe Crash Text.NumeralFault := ⟨Crash.fault⟩

/-- The crash as it is told from around an activity. -/
def Crash.within (activity : Activity) (crash : Crash) : Crash :=
  { crash with activities := activity :: crash.activities }

/-- What does not change while a program runs. -/
structure World where
  files : FileSystem
  searchPath : List String
  /-- How deep the phrases of an imported text nest at most. -/
  nestingLimit : Nat := Monkey.nestingLimit
  evaluationLimit : Nat := Monkey.evaluationLimit
  /-- The lines that trace a crash, which the interpreter's own program has to tell. -/
  traceback : List Activity → String := fun _ => ""

/-- How a computation ends that gives no value. -/
inductive Stop
  | error (error : RuntimeError)
  | returned (value : Value)
  | tooDeep
  | numeral (crash : Crash)

/-- What is being evaluated, and where errors that arise in it are blamed. -/
structure Site where
  position : Position
  activity : Activity

abbrev Eval := EStateM Stop Machine

def topFrame : FrameId := 0

namespace Machine

/-- The machine of a session whose top-level code belongs to a file, or to none. -/
def start (sourcePath : Option String) : Machine :=
  ⟨#[⟨[], [], false, sourcePath⟩], "", []⟩

def frame (machine : Machine) (id : FrameId) : Frame := machine.frames.getD id default

/-- The frames in which a name is looked for, the innermost first. -/
def scopes (machine : Machine) (id : FrameId) : List FrameId :=
  id :: (machine.frame id).enclosing

def lookup (machine : Machine) (id : FrameId) (name : String) : Option Value :=
  (machine.scopes id).findSome? fun scope => Entries.get? name (machine.frame scope).bindings

def inCall (machine : Machine) (id : FrameId) : Bool :=
  (machine.scopes id).any fun scope => (machine.frame scope).isCall

def modifyFrame (machine : Machine) (id : FrameId) (change : Frame → Frame) : Machine :=
  { machine with frames := machine.frames.modify id change }

end Machine

namespace Eval

def fail {α : Type} (fault : RuntimeFault) : Eval α := throw (.error ⟨fault, none⟩)

def ofExcept {α : Type} : Except RuntimeFault α → Eval α
  | .ok result => pure result
  | .error fault => fail fault

/-- Blames the error that a computation ends in on a site, unless it has been blamed before. A crash
has been at the site, and at those within it. -/
def located {α : Type} (site : Site) (run : Eval α) : Eval α := fun machine =>
  match run machine with
  | .error (.error error) rest => .error (.error (error.blame site.position)) rest
  | .error (.numeral crash) rest => .error (.numeral (crash.within site.activity)) rest
  | ended => ended

/-- Ends a `return` with its value. -/
def catchReturn (run : Eval Value) : Eval Value := fun machine =>
  match run machine with
  | .error (.returned value) rest => .ok value rest
  | ended => ended

/-- Hands an error over as the fault of something else. -/
def mapError {α : Type} (change : RuntimeError → RuntimeFault) (run : Eval α) : Eval α :=
  fun machine =>
    match run machine with
    | .error (.error error) rest => .error (.error ⟨change error, none⟩) rest
    | ended => ended

/-- Counts a file among the running ones until a computation ends, however it does. -/
def whileRunning {α : Type} (path : RealPath) (run : Eval α) : Eval α := fun machine =>
  let leave (machine : Machine) : Machine := { machine with running := machine.running.tail }
  match run { machine with running := path :: machine.running } with
  | .ok result rest => .ok result (leave rest)
  | .error stop rest => .error stop (leave rest)

/-- The same, for code that may belong to no file. -/
def whileRunning? {α : Type} (path : Option RealPath) (run : Eval α) : Eval α :=
  match path with
  | some path => whileRunning path run
  | none => run

def newFrame (frame : Frame) : Eval FrameId := fun machine =>
  let id := machine.frames.size
  .ok id { machine with frames := machine.frames.push frame }

/-- A new frame inside another one, of code from the same file. -/
def newFrameIn (outer : FrameId) (bindings : List (String × Value)) (isCall : Bool) :
    Eval FrameId := fun machine =>
  newFrame ⟨machine.scopes outer, bindings, isCall, (machine.frame outer).sourcePath⟩ machine

def define (id : FrameId) (name : String) (value : Value) : Eval Unit := fun machine =>
  .ok () (machine.modifyFrame id fun frame =>
    { frame with bindings := Entries.put name value frame.bindings })

/-- The value of a name: that of the nearest binding, or a built-in function. -/
def nameValue (id : FrameId) (name : String) : Eval Value := fun machine =>
  match machine.lookup id name with
  | some value => .ok value machine
  | none =>
      match Builtin.ofName? name with
      | some callee => .ok (.builtin callee) machine
      | none => fail (.unbound name) machine

def print (text : String) : Eval Unit := fun machine =>
  .ok () { machine with output := machine.output ++ text }

/-- Runs a computation for each item, in order; `done` holds the results, the last one first. -/
def collect {α β : Type} (run : α → Eval β) : List α → List β → Eval (List β)
  | [], done => pure done.reverse
  | item :: rest, done => do
      let result ← run item
      collect run rest (result :: done)

end Eval

end Monkey
