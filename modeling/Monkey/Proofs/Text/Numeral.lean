import Monkey.Text.Numeral
import Monkey.Token

/-!
# Plain numerals

A text of ASCII digits, as the scanner gives it to an integer, is read as the number it denotes
unless it is too long.
-/

set_option autoImplicit false

namespace Monkey

namespace Text

/-- One or more ASCII digits, and no more than a numeral may have. -/
structure IsPlainNumeral (text : String) : Prop where
  nonempty : text.toList ≠ []
  digits : ∀ c ∈ text.toList, c.isDigit = true
  fits : text.toList.length ≤ digitLimit

def digitValue (c : Char) : Nat := c.toNat - '0'.toNat

theorem isDigit_bounds {c : Char} (digit : c.isDigit = true) :
    0x30 ≤ c.toNat ∧ c.toNat ≤ 0x39 := by
  simp only [Char.isDigit, Bool.and_eq_true, decide_eq_true_eq] at digit
  exact digit

theorem decimalValue?_digit {c : Char} (digit : c.isDigit = true) :
    decimalValue? c = some (digitValue c) := by
  obtain ⟨lower, upper⟩ := isDigit_bounds digit
  simp [decimalValue?, decimalZeroTable, digitValue, lower, upper]

theorem readDigits_digits (chars : List Char) (afterDigit : Bool) (done : List Nat)
    (digits : ∀ c ∈ chars, c.isDigit = true) (nonempty : afterDigit = true ∨ chars ≠ []) :
    readDigits chars afterDigit done = some (done.reverse ++ chars.map digitValue, []) := by
  induction chars generalizing afterDigit done with
  | nil =>
      obtain rfl : afterDigit = true := by simpa using nonempty
      simp [readDigits]
  | cons c rest ih =>
      have digit := digits c (List.mem_cons_self ..)
      have notUnderscore : c ≠ '_' := by
        rintro rfl
        cases digit
      rw [readDigits, if_neg notUnderscore, decimalValue?_digit digit]
      simp only
      rw [ih true _ (fun next member => digits next (List.mem_cons_of_mem _ member)) (.inl rfl)]
      simp

theorem surroundsNumeral_digit {c : Char} (digit : c.isDigit = true) :
    surroundsNumeral c = false := by
  obtain ⟨lower, upper⟩ := isDigit_bounds digit
  have notBlank : isBlank c = false := by
    simp only [isBlank, blankTable, List.contains_eq_mem, decide_eq_false_iff_not]
    intro blank
    simp only [List.mem_cons, List.not_mem_nil, or_false] at blank
    omega
  rw [surroundsNumeral, notBlank, Bool.false_and]

/-- Digits are read as the number they denote, unless there are too many of them. -/
theorem readInteger_digits {text : String} (nonempty : text.toList ≠ [])
    (digits : ∀ c ∈ text.toList, c.isDigit = true) :
    readInteger text =
      if digitLimit < text.toList.length then .error (.overlong text.toList.length)
      else .ok (ofDecimalDigits (text.toList.map digitValue)) := by
  have natural : (readNatural text text.toList).map Int.ofNat =
      if digitLimit < text.toList.length then .error (.overlong text.toList.length)
      else .ok (ofDecimalDigits (text.toList.map digitValue)) := by
    rw [readNatural, readDigits_digits _ false [] digits (.inr nonempty)]
    simp only [List.reverse_nil, List.nil_append, List.length_map, List.all_nil, if_true]
    split <;> rfl
  unfold readInteger
  cases spelt : text.toList with
  | nil => exact absurd spelt nonempty
  | cons c rest =>
      have digit := digits c (spelt ▸ List.mem_cons_self ..)
      rw [List.dropWhile_cons_of_neg (by simp [surroundsNumeral_digit digit])]
      rw [spelt] at natural
      split
      · case h_1 same => cases same; cases digit
      · case h_2 same => cases same; cases digit
      · exact natural

theorem readInteger_plain {text : String} (plain : IsPlainNumeral text) :
    readInteger text = .ok (ofDecimalDigits (text.toList.map digitValue)) := by
  obtain ⟨nonempty, digits, fits⟩ := plain
  rw [readInteger_digits nonempty digits, if_neg (Nat.not_lt.mpr fits)]

end Text

/-- The text of an integer is read as a number; other tokens are read anyway. -/
def Token.IsReadable (token : Token) : Prop :=
  token.kind = .integer → ∃ value, Text.readInteger token.text = .ok value

theorem Token.IsReadable.of_plain {token : Token}
    (plain : token.kind = .integer → Text.IsPlainNumeral token.text) : token.IsReadable :=
  fun isInteger => ⟨_, Text.readInteger_plain (plain isInteger)⟩

end Monkey
