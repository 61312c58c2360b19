import Monkey.Position
import Monkey.Text.Quoted

/-!
# Tokens

The kinds of token of the language, how the fixed ones are spelt, and the token itself: a kind, the
text it stands for and the position of its first character. The text of an integer is its digits
without separators and the text of a string is its content, so neither is the spelling in the
source.
-/

set_option autoImplicit false

namespace Monkey

inductive TokenKind
  | integer | string | identifier
  | kwLet | kwReturn | kwIf | kwElse | kwFn | kwTrue | kwFalse | kwNil
  | plus | minus | star | slash | percent | caret
  | equal | notEqual | less | lessEqual | greater | greaterEqual
  | bang | assign
  | leftParen | rightParen | leftBracket | rightBracket | leftBrace | rightBrace | hashBrace
  | comma | colon | semicolon
  | endOfInput
  deriving DecidableEq, Repr, Inhabited

namespace TokenKind

/-- How a keyword, operator or punctuation mark is written; the other kinds have no fixed spelling.
-/
def spelling : TokenKind → String
  | kwLet => "let"
  | kwReturn => "return"
  | kwIf => "if"
  | kwElse => "else"
  | kwFn => "fn"
  | kwTrue => "true"
  | kwFalse => "false"
  | kwNil => "nil"
  | plus => "+"
  | minus => "-"
  | star => "*"
  | slash => "/"
  | percent => "%"
  | caret => "^"
  | equal => "=="
  | notEqual => "!="
  | less => "<"
  | lessEqual => "<="
  | greater => ">"
  | greaterEqual => ">="
  | bang => "!"
  | assign => "="
  | leftParen => "("
  | rightParen => ")"
  | leftBracket => "["
  | rightBracket => "]"
  | leftBrace => "\x7b"
  | rightBrace => "\x7d"
  | hashBrace => "#\x7b"
  | comma => ","
  | colon => ":"
  | semicolon => ";"
  | integer | string | identifier | endOfInput => ""

/-- The keyword with this spelling, or an identifier. -/
def ofWord (word : String) : TokenKind :=
  ([kwLet, kwReturn, kwIf, kwElse, kwFn, kwTrue, kwFalse, kwNil].find? (·.spelling == word)).getD
    identifier

def ofChar? : Char → Option TokenKind
  | '+' => some plus
  | '-' => some minus
  | '*' => some star
  | '/' => some slash
  | '%' => some percent
  | '^' => some caret
  | '<' => some less
  | '>' => some greater
  | '!' => some bang
  | '=' => some assign
  | '(' => some leftParen
  | ')' => some rightParen
  | '[' => some leftBracket
  | ']' => some rightBracket
  | '{' => some leftBrace
  | '}' => some rightBrace
  | ',' => some comma
  | ':' => some colon
  | ';' => some semicolon
  | _ => none

def ofPair? : Char → Char → Option TokenKind
  | '=', '=' => some equal
  | '!', '=' => some notEqual
  | '<', '=' => some lessEqual
  | '>', '=' => some greaterEqual
  | '#', '{' => some hashBrace
  | _, _ => none

/-- What a diagnostic calls the kind it misses. -/
def wanted : TokenKind → String
  | identifier => "identifier"
  | integer => "INT"
  | string => "STRING"
  | endOfInput => "EOF"
  | kind => "'" ++ kind.spelling ++ "'"

end TokenKind

/-- A token with its text and the position of its first character. -/
structure Token where
  kind : TokenKind
  text : String
  position : Position
  deriving DecidableEq, Repr, Inhabited

namespace Token

/-- The token that ends a token list, and that stands past the end of a list without one. -/
def endOfInput (position : Position) : Token := ⟨.endOfInput, "", position⟩

def describe (token : Token) : String :=
  match token.kind with
  | .endOfInput => "end of input"
  | .identifier => "IDENT '" ++ token.text ++ "'"
  | .integer => "INT '" ++ token.text ++ "'"
  | .string => "STRING " ++ Text.quote token.text
  | _ => "'" ++ token.text ++ "'"

end Token

end Monkey
