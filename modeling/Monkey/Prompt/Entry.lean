import Monkey.Token.Scanner

/-!
# Text entered at the prompt

Whether an entry is complete, how far its next line is indented, and which characters of it are
dropped before it is run.
-/

set_option autoImplicit false

namespace Monkey.Prompt

/-- Characters that cannot be seen in an entry: zero-width spaces and joiners, the byte order mark,
the no-break space and the carriage return. -/
def invisible : List Char := ['\u200b', '\u200c', '\u200d', '\ufeff', '\u00a0', '\r']

def normalize (text : String) : String :=
  String.ofList (text.toList.filter fun c => !invisible.contains c)

def bracketStep : TokenKind → Int
  | .leftParen | .leftBracket | .leftBrace | .hashBrace => 1
  | .rightParen | .rightBracket | .rightBrace => -1
  | _ => 0

def openBrackets (tokens : List Token) : Int :=
  tokens.foldl (fun depth token => depth + bracketStep token.kind) 0

/-- How many more brackets a text opens than it closes; -1 for a text that has no tokens. -/
def openDepth (text : String) : Int :=
  match tokenize text with
  | .ok tokens => openBrackets tokens
  | .error _ => -1

/-- Whether an entry goes on: it has open brackets or a string that has not ended. -/
def needsMore (text : String) : Bool :=
  match tokenize text with
  | .ok tokens => 0 < openBrackets tokens
  | .error (fault, _) => fault = .unterminatedString

/-- The indentation of the next line: four spaces for each open bracket. -/
def indentation (text : String) : String :=
  String.ofList (List.replicate (4 * (openDepth text).toNat) ' ')

end Monkey.Prompt
