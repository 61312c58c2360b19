import Monkey.Text.CharClass

/-!
# Text from bytes

Decoding of UTF-8, with the first fault of bytes that are none, and the line ends of files.
-/

set_option autoImplicit false

namespace Monkey.Text

inductive Utf8Reason
  | invalidStart
  | invalidContinuation
  | unexpectedEnd
  deriving DecidableEq, Repr

def Utf8Reason.message : Utf8Reason → String
  | invalidStart => "invalid start byte"
  | invalidContinuation => "invalid continuation byte"
  | unexpectedEnd => "unexpected end of data"

/-- The first fault in bytes that are not UTF-8: the bytes at fault, the first of them and how many
there are, by their place. -/
structure Utf8Fault where
  offset : Nat
  length : Nat
  first : UInt8
  reason : Utf8Reason
  deriving DecidableEq, Repr

namespace Utf8Fault

def message (fault : Utf8Fault) : String :=
  let place :=
    if fault.length = 1 then
      "byte 0x" ++ String.ofList (hexByte fault.first.toNat) ++ " in position "
        ++ toString fault.offset
    else
      "bytes in position " ++ toString fault.offset ++ "-"
        ++ toString (fault.offset + fault.length - 1)
  "'utf-8' codec can't decode " ++ place ++ ": " ++ fault.reason.message
where
  hexByte (byte : Nat) : List Char := [Nat.digitChar (byte / 16), Nat.digitChar (byte % 16)]

end Utf8Fault

def sequenceLength? (first : UInt8) : Option Nat :=
  if first < 0x80 then some 1
  else if 0xc2 ≤ first ∧ first ≤ 0xdf then some 2
  else if 0xe0 ≤ first ∧ first ≤ 0xef then some 3
  else if 0xf0 ≤ first ∧ first ≤ 0xf4 then some 4
  else none

/-- Whether a byte may follow the first one. The second byte of a long sequence is restricted, so
that every character has one encoding and no surrogate has any. -/
def continues (first : UInt8) (index : Nat) (byte : UInt8) : Bool :=
  let low : UInt8 :=
    if index = 1 then (if first = 0xe0 then 0xa0 else if first = 0xf0 then 0x90 else 0x80) else 0x80
  let high : UInt8 :=
    if index = 1 then (if first = 0xed then 0x9f else if first = 0xf4 then 0x8f else 0xbf) else 0xbf
  low ≤ byte && byte ≤ high

/-- Reads the bytes after the first of a character: gives the code point, or how many bytes were
right and why the next is not. -/
def continuation (first : UInt8) : Nat → Nat → Nat → List UInt8 → Except (Nat × Utf8Reason) Nat
  | 0, _, code, _ => .ok code
  | _ + 1, index, _, [] => .error (index, .unexpectedEnd)
  | missing + 1, index, code, byte :: rest =>
      if continues first index byte then
        continuation first missing (index + 1) (code * 64 + byte.toNat % 64) rest
      else .error (index, .invalidContinuation)

/-- The part of a code point that the first byte of a sequence holds. -/
def leadingBits (first : UInt8) (length : Nat) : Nat :=
  match length with
  | 1 => first.toNat
  | 2 => first.toNat % 32
  | 3 => first.toNat % 16
  | _ => first.toNat % 8

/-- Decodes bytes; `skipped` of them belong to the character before, and `done` holds the characters
decoded, the last one first. -/
def decodeFrom : List UInt8 → Nat → Nat → List Char → Except Utf8Fault (List Char)
  | [], _, _, done => .ok done.reverse
  | first :: rest, offset, skipped, done =>
      match skipped with
      | skipped + 1 => decodeFrom rest (offset + 1) skipped done
      | 0 =>
          match sequenceLength? first with
          | none => .error ⟨offset, 1, first, .invalidStart⟩
          | some length =>
              match continuation first (length - 1) 1 (leadingBits first length) rest with
              | .ok code => decodeFrom rest (offset + 1) (length - 1) (Char.ofNat code :: done)
              | .error (right, reason) => .error ⟨offset, right, first, reason⟩

def decodeUtf8 (bytes : List UInt8) : Except Utf8Fault String :=
  (decodeFrom bytes 0 0 []).map String.ofList

/-- Every line end as a newline: a carriage return, and the newline after it, become one. -/
def unifyNewlines : List Char → List Char
  | [] => []
  | '\r' :: '\n' :: rest => '\n' :: unifyNewlines rest
  | '\r' :: rest => '\n' :: unifyNewlines rest
  | c :: rest => c :: unifyNewlines rest

def fileText (bytes : List UInt8) : Except Utf8Fault String :=
  (decodeUtf8 bytes).map fun text => String.ofList (unifyNewlines text.toList)

end Monkey.Text
