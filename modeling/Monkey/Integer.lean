/-!
# Integers of 64 bits

The integers of the language are those of 64 bits with a sign. Arithmetic is exact and checked: an
operation whose result lies outside the range fails and never wraps around. Division truncates
toward zero, and a remainder has the sign of the dividend.
-/

set_option autoImplicit false

namespace Monkey.Integer

def smallest : Int := -9223372036854775808

def largest : Int := 9223372036854775807

/-- Whether a number is an integer of the language. -/
def InRange (n : Int) : Prop := smallest ≤ n ∧ n ≤ largest

instance (n : Int) : Decidable (InRange n) :=
  inferInstanceAs (Decidable (smallest ≤ n ∧ n ≤ largest))

/-- The decimal digits of a number, after a minus sign where it is negative. -/
def decimal : Int → String
  | .ofNat n => String.ofList (Nat.toDigits 10 n)
  | .negSucc n => String.ofList ('-' :: Nat.toDigits 10 (n + 1))

inductive Fault
  | overflow (operator : String)
  | divisionByZero
  | moduloByZero
  | negativeExponent (exponent : Int)
  deriving DecidableEq, Repr

def checked (result : Int) (operator : String) : Except Fault Int :=
  if InRange result then .ok result else .error (.overflow operator)

theorem checked_of_inRange {result : Int} (inRange : InRange result) (operator : String) :
    checked result operator = .ok result :=
  if_pos inRange

theorem checked_of_not_inRange {result : Int} (outside : ¬InRange result) (operator : String) :
    checked result operator = .error (.overflow operator) :=
  if_neg outside

def add (left right : Int) : Except Fault Int := checked (left + right) "+"

def sub (left right : Int) : Except Fault Int := checked (left - right) "-"

def mul (left right : Int) : Except Fault Int := checked (left * right) "*"

def neg (operand : Int) : Except Fault Int := checked (-operand) "-"

def div (left right : Int) : Except Fault Int :=
  if right = 0 then .error .divisionByZero else checked (left.tdiv right) "/"

/-- The remainder that belongs to the quotient. It is computed from the quotient, so it fails where
the quotient is out of range. -/
def mod (left right : Int) : Except Fault Int :=
  if right = 0 then .error .moduloByZero
  else (div left right).map fun quotient => left - quotient * right

/-- Multiplies `result` by a power of `base`, one binary digit of the exponent a round. The base is
squared only where a further digit needs it. -/
def powRounds : Nat → Int → Int → Nat → Except Fault Int
  | 0, result, _, _ => .ok result
  | rounds + 1, result, base, exponent =>
      if exponent = 0 then .ok result
      else do
        let result ← if exponent % 2 = 1 then checked (result * base) "^" else .ok result
        let exponent := exponent / 2
        if exponent = 0 then .ok result
        else
          let base ← checked (base * base) "^"
          powRounds rounds result base exponent

/-- A power with an exponent that is not negative. -/
def pow (base exponent : Int) : Except Fault Int :=
  if exponent < 0 then .error (.negativeExponent exponent)
  else powRounds (exponent.toNat.log2 + 1) 1 base exponent.toNat

end Monkey.Integer
