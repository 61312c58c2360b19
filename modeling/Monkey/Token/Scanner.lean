import Monkey.Diagnostic

/-!
# Dividing a text into tokens

A scanner reads one character at a time and keeps what it needs of the characters read so far: the
token it is inside of, where that token began, and the tokens finished before it. Nothing is ever
read ahead, so scanning a text and then more of it is scanning the two put together (`scan_append`).
-/

set_option autoImplicit false

namespace Monkey

/-- What the scanner is inside of. Characters of an unfinished token are kept in reverse. -/
inductive Scanner.Mode
  | between
  /-- A character that may be a token or the first of two. -/
  | opened (first : Char)
  | comment
  /-- The digits of an integer, without separators. -/
  | number (digits : List Char)
  | word (letters : List Char)
  | string (content : List Char)
  /-- The content of a string before a backslash, and the position of the backslash. -/
  | escape (content : List Char) (backslash : Position)
  /-- The text has been found faulty, and the rest of it does not matter. -/
  | failed (fault : LexicalFault) (position : Position)
  deriving DecidableEq, Repr

structure Scanner where
  mode : Scanner.Mode
  start : Position
  position : Position
  /-- The finished tokens, the last one first. -/
  tokens : List Token
  deriving DecidableEq, Repr

namespace Scanner

def initial : Scanner := ⟨.between, .start, .start, []⟩

def isSpace (c : Char) : Bool := c == ' ' || c == '\t' || c == '\n' || c == '\r'

/-- Whether the character is a digit of an integer. Digits of other scripts are none. -/
def isDigit (c : Char) : Bool := '0' ≤ c && c ≤ '9'

def startsWord (c : Char) : Bool := Text.isLetter c || c == '_'

def continuesWord (c : Char) : Bool := Text.isAlphanumeric c || c == '_'

def opensPair (c : Char) : Bool :=
  c == '/' || c == '=' || c == '!' || c == '<' || c == '>' || c == '#'

def escaped? : Char → Option Char
  | '"' => some '"'
  | '\\' => some '\\'
  | 'n' => some '\n'
  | 't' => some '\t'
  | 'r' => some '\r'
  | _ => none

def emit (scanner : Scanner) (kind : TokenKind) (text : String) : Scanner :=
  { scanner with mode := .between, tokens := ⟨kind, text, scanner.start⟩ :: scanner.tokens }

def fail (scanner : Scanner) (fault : LexicalFault) (position : Position) : Scanner :=
  { scanner with mode := .failed fault position }

def emitChar (scanner : Scanner) (c : Char) : Scanner :=
  match TokenKind.ofChar? c with
  | some kind => scanner.emit kind kind.spelling
  | none => scanner.fail (.illegalCharacter c) scanner.start

def emitNumber (scanner : Scanner) (digits : List Char) : Scanner :=
  scanner.emit .integer (String.ofList digits.reverse)

def emitWord (scanner : Scanner) (letters : List Char) : Scanner :=
  let text := String.ofList letters.reverse
  scanner.emit (.ofWord text) text

def advance (scanner : Scanner) (c : Char) : Scanner :=
  { scanner with position := scanner.position.next c }

def begin (scanner : Scanner) (c : Char) : Scanner :=
  if isSpace c then { scanner with mode := .between }
  else
    let marked := { scanner with start := scanner.position }
    if c = '"' then { marked with mode := .string [] }
    else if isDigit c then { marked with mode := .number [c] }
    else if startsWord c then { marked with mode := .word [c] }
    else if opensPair c then { marked with mode := .opened c }
    else marked.emitChar c

/-- Reads a character after the scanner has finished a token, unless it found a fault doing so. -/
def beginAfter (scanner : Scanner) (c : Char) : Scanner :=
  match scanner.mode with
  | .failed .. => scanner
  | _ => scanner.begin c

/-- Reads a character in the current mode, without moving past it. A NUL ends a comment as a newline
does, and is no character of a token itself. -/
def read (scanner : Scanner) (c : Char) : Scanner :=
  match scanner.mode with
  | .between => scanner.begin c
  | .opened first =>
      if first = '/' ∧ c = '/' then { scanner with mode := .comment }
      else
        match TokenKind.ofPair? first c with
        | some kind => scanner.emit kind kind.spelling
        | none => (scanner.emitChar first).beginAfter c
  | .comment => if c = '\n' ∨ c = '\x00' then scanner.begin c else scanner
  | .number digits =>
      if isDigit c then { scanner with mode := .number (c :: digits) }
      else if c = '_' then scanner
      else (scanner.emitNumber digits).begin c
  | .word letters =>
      if continuesWord c then { scanner with mode := .word (c :: letters) }
      else (scanner.emitWord letters).begin c
  | .string content =>
      if c = '"' then scanner.emit .string (String.ofList content.reverse)
      else if c = '\\' then { scanner with mode := .escape content scanner.position }
      else { scanner with mode := .string (c :: content) }
  | .escape content backslash =>
      match escaped? c with
      | some meant => { scanner with mode := .string (meant :: content) }
      | none => scanner.fail (.unknownEscape c) backslash
  | .failed .. => scanner

def step (scanner : Scanner) (c : Char) : Scanner := (scanner.read c).advance c

def scan (scanner : Scanner) (chars : List Char) : Scanner := chars.foldl step scanner

@[simp] theorem scan_nil (scanner : Scanner) : scanner.scan [] = scanner := rfl

@[simp] theorem scan_cons (scanner : Scanner) (c : Char) (chars : List Char) :
    scanner.scan (c :: chars) = (scanner.step c).scan chars := rfl

/-- Scanning is incremental: nothing depends on characters not yet read. -/
theorem scan_append (scanner : Scanner) (first second : List Char) :
    scanner.scan (first ++ second) = (scanner.scan first).scan second :=
  List.foldl_append

/-- Finishes the token that the end of the text leaves open. -/
def close (scanner : Scanner) : Scanner :=
  match scanner.mode with
  | .between | .comment | .failed .. => scanner
  | .opened first => scanner.emitChar first
  | .number digits => scanner.emitNumber digits
  | .word letters => scanner.emitWord letters
  | .string _ | .escape .. => scanner.fail .unterminatedString scanner.start

/-- The tokens of a text that ends here, or the first fault in it. -/
def finish (scanner : Scanner) : Except (LexicalFault × Position) (List Token) :=
  let closed := scanner.close
  match closed.mode with
  | .failed fault position => .error (fault, position)
  | _ => .ok (closed.tokens.reverse ++ [.endOfInput closed.position])

end Scanner

/-- The tokens of a text, closed by an end-of-input token, or the first fault in it. -/
def tokenize (source : String) : Except (LexicalFault × Position) (List Token) :=
  (Scanner.initial.scan source.toList).finish

end Monkey
