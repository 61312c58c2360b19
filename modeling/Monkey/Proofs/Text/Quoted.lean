import Mathlib.Algebra.Group.Nat.Defs
import Monkey.Text.Quoted

/-!
# Quoted text reads back

Of a text that begins with a quoted one, the quotes alone tell where that one ends and what is
quoted: the character that marks the end is escaped wherever it is quoted, and every escape can be
read back.
-/

set_option autoImplicit false

namespace Monkey.Text

/-! ## Escapes -/

def hexValue (digits : List Char) : Nat :=
  digits.foldl (fun value digit => 16 * value + "0123456789abcdef".toList.idxOf digit) 0

theorem idxOf_hexDigit :
    ∀ value < 16, "0123456789abcdef".toList.idxOf (hexDigit value) = value := by
  decide

theorem length_hexDigits (width value : Nat) : (hexDigits width value).length = width := by
  induction width generalizing value with
  | zero => rfl
  | succ width ih => rw [hexDigits, List.length_append, ih, List.length_singleton]

theorem hexValue_hexDigits {width value : Nat} (fits : value < 16 ^ width) :
    hexValue (hexDigits width value) = value := by
  induction width generalizing value with
  | zero => exact (Nat.lt_one_iff.mp fits).symm
  | succ width ih =>
      have leading : value / 16 < 16 ^ width := Nat.div_lt_of_lt_mul (by rwa [← Nat.pow_succ'])
      have before := ih leading
      rw [hexValue] at before ⊢
      rw [hexDigits, List.foldl_append, before, List.foldl_cons, List.foldl_nil,
        idxOf_hexDigit _ (Nat.mod_lt _ (by decide))]
      exact Nat.div_add_mod value 16

/-- The character that the quoted text begins with, and what is left of the text behind it. -/
def readQuoted : List Char → Option (Char × List Char)
  | [] => none
  | '\\' :: 'x' :: rest => some (Char.ofNat (hexValue (rest.take 2)), rest.drop 2)
  | '\\' :: 'u' :: rest => some (Char.ofNat (hexValue (rest.take 4)), rest.drop 4)
  | '\\' :: 'U' :: rest => some (Char.ofNat (hexValue (rest.take 8)), rest.drop 8)
  | '\\' :: 'n' :: rest => some ('\n', rest)
  | '\\' :: 't' :: rest => some ('\t', rest)
  | '\\' :: 'r' :: rest => some ('\r', rest)
  | '\\' :: c :: rest => some (c, rest)
  | c :: rest => some (c, rest)

theorem readQuoted_codeEscape (c : Char) (rest : List Char) :
    readQuoted (codeEscape c.toNat ++ rest) = some (c, rest) := by
  have digits : ∀ {width : Nat}, c.toNat < 16 ^ width →
      (Char.ofNat (hexValue ((hexDigits width c.toNat ++ rest).take width)),
        (hexDigits width c.toNat ++ rest).drop width) = (c, rest) := by
    intro width fits
    rw [List.take_left' (length_hexDigits _ _), List.drop_left' (length_hexDigits _ _),
      hexValue_hexDigits fits, Char.ofNat_toNat]
  have isCode : c.toNat < 16 ^ 8 := by
    rcases c.valid with low | ⟨-, high⟩
    · exact Nat.lt_trans low (by decide)
    · exact Nat.lt_trans high (by decide)
  unfold codeEscape
  split
  · next short => exact congrArg some (digits short)
  · split
    · next medium => exact congrArg some (digits medium)
    · exact congrArg some (digits isCode)

/-- A character that marks the beginning and the end of quoted text. -/
def IsMark (mark : Char) : Prop := mark = '\'' ∨ mark = '"'

theorem isMark_quoteMark (chars : List Char) : IsMark (quoteMark chars) := by
  unfold quoteMark
  split
  · exact .inr rfl
  · exact .inl rfl

theorem readQuoted_quoteChar {mark : Char} (isMark : IsMark mark) (c : Char) (rest : List Char) :
    readQuoted (quoteChar mark c ++ rest) = some (c, rest) := by
  unfold quoteChar
  split
  · next escaped =>
    rcases escaped with rfl | rfl
    · rcases isMark with rfl | rfl <;> rfl
    · rfl
  next plain =>
  obtain ⟨-, notBackslash⟩ := not_or.mp plain
  split
  · next isNewline => exact isNewline ▸ rfl
  split
  · next isTab => exact isTab ▸ rfl
  split
  · next isReturn => exact isReturn ▸ rfl
  split
  · show readQuoted (c :: rest) = _
    unfold readQuoted
    split <;> simp_all
  · exact readQuoted_codeEscape c rest

/-! ## Where quoted text ends -/

theorem quoteChar_head {mark : Char} (isMark : IsMark mark) (c : Char) :
    ∃ first more, quoteChar mark c = first :: more ∧ first ≠ mark := by
  have notBackslash : '\\' ≠ mark := by
    rcases isMark with rfl | rfl <;> decide
  unfold quoteChar codeEscape
  split
  · exact ⟨_, _, rfl, notBackslash⟩
  next plain =>
  obtain ⟨notMark, -⟩ := not_or.mp plain
  repeat' split
  all_goals first
    | exact ⟨_, _, rfl, notBackslash⟩
    | exact ⟨_, _, rfl, notMark⟩

theorem quoted_inj {mark : Char} (isMark : IsMark mark) {chars chars' rest rest' : List Char}
    (same : chars.flatMap (quoteChar mark) ++ mark :: rest =
      chars'.flatMap (quoteChar mark) ++ mark :: rest') : chars = chars' ∧ rest = rest' := by
  have closed : ∀ (c : Char) (chars rest rest' : List Char),
      mark :: rest ≠ (c :: chars).flatMap (quoteChar mark) ++ mark :: rest' := by
    intro c chars rest rest' same
    obtain ⟨first, more, isFirst, notMark⟩ := quoteChar_head isMark c
    rw [List.flatMap_cons, isFirst] at same
    exact notMark (List.cons.inj same).1.symm
  induction chars generalizing chars' with
  | nil =>
      cases chars' with
      | nil => exact ⟨rfl, (List.cons.inj same).2⟩
      | cons c chars' => exact absurd same (closed c _ _ _)
  | cons c chars ih =>
      cases chars' with
      | nil => exact absurd same.symm (closed c _ _ _)
      | cons c' chars' =>
          rw [List.flatMap_cons, List.flatMap_cons, List.append_assoc, List.append_assoc] at same
          have read := congrArg readQuoted same
          rw [readQuoted_quoteChar isMark, readQuoted_quoteChar isMark] at read
          obtain ⟨rfl, sameRest⟩ := Prod.mk.inj (Option.some.inj read)
          obtain ⟨rfl, rfl⟩ := ih sameRest
          exact ⟨rfl, rfl⟩

/-- Whatever follows the quoted texts, they are the same if what they begin is the same. -/
theorem quote_append_inj {text text' : String} {rest rest' : List Char}
    (same : (quote text).toList ++ rest = (quote text').toList ++ rest') :
    text = text' ∧ rest = rest' := by
  simp only [quote, String.toList_ofList, List.cons_append, List.append_assoc,
    List.cons.injEq] at same
  obtain ⟨sameMark, sameRest⟩ := same
  rw [← sameMark] at sameRest
  obtain ⟨sameChars, rfl⟩ := quoted_inj (isMark_quoteMark _) sameRest
  exact ⟨String.toList_inj.mp sameChars, rfl⟩

end Monkey.Text
