import Monkey.Token.Scanner

/-!
# Highlighting

A line of source text is cut into fragments with a style each. A token tells where it begins, and
how far it goes is found out again from the characters there.
-/

set_option autoImplicit false

namespace Monkey.Highlight

inductive Group
  | keyword | boolean | constant | number | string | identifier | builtin | operator | punctuation
  | comment | plain
  deriving DecidableEq, Repr

def Group.style : Group → String
  | keyword => "bold ansicyan"
  | boolean | constant => "ansicyan"
  | number => "ansimagenta"
  | string => "ansigreen"
  | builtin => "bold ansiyellow"
  | comment => "italic ansigray"
  | identifier | operator | punctuation | plain => ""

/-- What a token is, where these names are built in. -/
def groupOf (builtins : List String) (token : Token) : Group :=
  match token.kind with
  | .kwLet | .kwReturn | .kwIf | .kwElse | .kwFn => .keyword
  | .kwTrue | .kwFalse => .boolean
  | .kwNil => .constant
  | .integer => .number
  | .string => .string
  | .identifier => if builtins.contains token.text then .builtin else .identifier
  | .plus | .minus | .star | .slash | .percent | .caret | .equal | .notEqual | .less | .lessEqual
  | .greater | .greaterEqual | .bang | .assign => .operator
  | .leftParen | .rightParen | .leftBracket | .rightBracket | .leftBrace | .rightBrace | .hashBrace
  | .comma | .colon | .semicolon => .punctuation
  | .endOfInput => .plain

structure Fragment where
  group : Group
  text : String
  deriving DecidableEq, Repr

/-- The length of a string literal after its opening quote, with the closing quote. -/
def stringTail : List Char → Nat
  | [] => 0
  | '\\' :: _ :: rest => stringTail rest + 2
  | c :: rest => if c = '"' then 1 else stringTail rest + 1

/-- How many characters of the line a token takes up that begins where these characters do. -/
def tokenLength (token : Token) (chars : List Char) : Nat :=
  match token.kind with
  | .string => stringTail (chars.drop 1) + 1
  | .integer => (chars.takeWhile fun c => Scanner.isDigit c || c == '_').length
  | .identifier | .kwLet | .kwReturn | .kwIf | .kwElse | .kwFn | .kwTrue | .kwFalse | .kwNil =>
      (chars.takeWhile Scanner.continuesWord).length
  | _ => token.text.length

def splitComment : List Char → List Char × List Char
  | [] => ([], [])
  | c :: rest =>
      if c = '/' ∧ rest.head? = some '/' then ([], c :: rest)
      else
        let (before, comment) := splitComment rest
        (c :: before, comment)

def fragment? (group : Group) (chars : List Char) : List Fragment :=
  if chars.isEmpty then [] else [⟨group, String.ofList chars⟩]

/-- What stands between two tokens, with the comment in it. -/
def gap (chars : List Char) : List Fragment :=
  let (before, comment) := splitComment chars
  fragment? .plain before ++ fragment? .comment comment

/-- The characters from one index up to another. -/
def slice (chars : List Char) (start stop : Nat) : List Char := (chars.take stop).drop start

/-- The fragments of a line from an index on, with the tokens that stand there. -/
def fragments (builtins : List String) (chars : List Char) : List Token → Nat → List Fragment
  | [], index => gap (chars.drop index)
  | token :: rest, index =>
      if token.kind = .endOfInput then gap (chars.drop index)
      else
        let start := token.position.column - 1
        let stop := start + tokenLength token (chars.drop start)
        gap (slice chars index start) ++
          ⟨groupOf builtins token, String.ofList (slice chars start stop)⟩ ::
            fragments builtins chars rest stop

/-- The fragments of a line. A line that cannot be divided into tokens is one plain fragment. -/
def line (builtins : List String) (text : String) : List Fragment :=
  if text.isEmpty then [⟨.plain, ""⟩]
  else
    match tokenize text with
    | .error _ => [⟨.plain, text⟩]
    | .ok tokens => fragments builtins text.toList tokens 0

def lines (text : String) : List String := (text.toList.splitOn '\n').map String.ofList

/-- The fragments of a line by its number, counted from zero; there is nothing past the last line.
-/
def lineAt (builtins : List String) (text : String) (number : Nat) : List Fragment :=
  match (lines text)[number]? with
  | some content => line builtins content
  | none => [⟨.plain, ""⟩]

end Monkey.Highlight
