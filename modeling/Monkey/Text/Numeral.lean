import Monkey.Text.Quoted

/-!
# Numerals

A numeral is written with decimal digits of any script, single underscores between them, a sign
before them and blanks around. It may not have more than a certain number of digits, however small
its value is.
-/

set_option autoImplicit false

namespace Monkey.Text

/-- The largest number of digits of a numeral. Zeros at the start count and underscores do not. -/
def digitLimit : Nat := 4300

inductive NumeralFault
  | malformed (text : String)
  | overlong (digits : Nat)
  deriving DecidableEq, Repr

/-- The most characters of a quoted text that the report of a malformed numeral shows. -/
def numeralExcerpt : Nat := 200

def NumeralFault.message : NumeralFault → String
  | malformed text =>
      "invalid literal for int() with base 10: "
        ++ String.ofList ((quote text).toList.take numeralExcerpt)
  | overlong digits =>
      "Exceeds the limit (" ++ toString digitLimit
        ++ " digits) for integer string conversion: value has " ++ toString digits
        ++ " digits; use sys.set_int_max_str_digits() to increase the limit"

/-- Whether the character may stand around a numeral. The information separators are blank
characters that may not. -/
def surroundsNumeral (c : Char) : Bool :=
  isBlank c && !(0x1c ≤ c.toNat && c.toNat ≤ 0x1f)

/-- Reads digits with single underscores between them, up to the first other character; gives the
values of the digits and the characters after them. There have to be digits, and an underscore has
to stand between two of them. `afterDigit` tells whether the character before was a digit, and
`done` holds the digits read, the last one first. -/
def readDigits : List Char → Bool → List Nat → Option (List Nat × List Char)
  | [], afterDigit, done => if afterDigit then some (done.reverse, []) else none
  | c :: rest, afterDigit, done =>
      if c = '_' then if afterDigit then readDigits rest false done else none
      else
        match decimalValue? c with
        | some digit => readDigits rest true (digit :: done)
        | none => if afterDigit then some (done.reverse, c :: rest) else none

/-- The number that decimal digits denote. -/
def ofDecimalDigits (digits : List Nat) : Nat :=
  digits.foldl (fun value digit => 10 * value + digit) 0

/-- Reads the part of a numeral after its sign; `text` is the whole of it. That there are too many
digits is found before anything is that follows them. -/
def readNatural (text : String) (chars : List Char) : Except NumeralFault Nat :=
  match readDigits chars false [] with
  | none => .error (.malformed text)
  | some (digits, rest) =>
      if digits.length > digitLimit then .error (.overlong digits.length)
      else if rest.all surroundsNumeral then .ok (ofDecimalDigits digits)
      else .error (.malformed text)

def readInteger (text : String) : Except NumeralFault Int :=
  match text.toList.dropWhile surroundsNumeral with
  | '-' :: chars => (readNatural text chars).map fun value => -(value : Int)
  | '+' :: chars => (readNatural text chars).map Int.ofNat
  | chars => (readNatural text chars).map Int.ofNat

end Monkey.Text
