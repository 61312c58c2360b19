import Monkey.CommandLine.Rendering
import Monkey.Highlight
import Monkey.Main
import Monkey.Prompt.Keys
import Monkey.Proofs.CommandLine.Ways
import Monkey.Proofs.Highlight
import Monkey.Proofs.Integer.Division
import Monkey.Proofs.Integer.Power
import Monkey.Proofs.Program.Containment
import Monkey.Proofs.Program.Diagnostics
import Monkey.Proofs.Program.Progress
import Monkey.Proofs.Program.Rendering
import Monkey.Proofs.Prompt.Complete
import Monkey.Proofs.Prompt.Continuation
import Monkey.Proofs.Prompt.Invisible
import Monkey.Proofs.Prompt.Reset
import Monkey.Proofs.Session.Failure
import Monkey.Proofs.Session.HashLiteral
import Monkey.Proofs.Session.Joining
import Monkey.Proofs.Session.Literal
import Monkey.Proofs.Session.Locations
import Monkey.Proofs.Session.Modules
import Monkey.Proofs.Session.Repetition
import Monkey.Proofs.Session.Siblings
import Monkey.Proofs.Session.Validity
import Monkey.Proofs.Token.Comments
import Monkey.Proofs.Token.Separated
