import Monkey.Text.CharClass

/-!
# Quoted text in diagnostics

Diagnostics and rendered trees show a text between quotes in which every character is visible. The
quote is the single one, unless the text holds single quotes and no double ones. A backslash and the
chosen quote are escaped, newline, tab and carriage return have escapes of their own, and any other
unprintable character is shown by its code point in hexadecimal.
-/

set_option autoImplicit false

namespace Monkey.Text

def hexDigit (value : Nat) : Char := Nat.digitChar value

def hexDigits : Nat → Nat → List Char
  | 0, _ => []
  | width + 1, value => hexDigits width (value / 16) ++ [hexDigit (value % 16)]

/-- The escape of an unprintable character, as short as its code point allows. -/
def codeEscape (code : Nat) : List Char :=
  if code < 0x100 then '\\' :: 'x' :: hexDigits 2 code
  else if code < 0x10000 then '\\' :: 'u' :: hexDigits 4 code
  else '\\' :: 'U' :: hexDigits 8 code

def quoteChar (mark c : Char) : List Char :=
  if c = mark ∨ c = '\\' then ['\\', c]
  else if c = '\n' then ['\\', 'n']
  else if c = '\t' then ['\\', 't']
  else if c = '\r' then ['\\', 'r']
  else if isPrintable c then [c]
  else codeEscape c.toNat

/-- The quote that needs the fewest escapes, the single one where both need as many. -/
def quoteMark (chars : List Char) : Char :=
  if '\'' ∈ chars ∧ '"' ∉ chars then '"' else '\''

def quote (text : String) : String :=
  let mark := quoteMark text.toList
  String.ofList (mark :: text.toList.flatMap (quoteChar mark) ++ [mark])

end Monkey.Text
