import Monkey.Proofs.Text.Numeral
import Monkey.Token.Scanner

/-!
# What a scanner does

Which tokens stand for themselves, where the scanner stands, and what it makes of the end of a text.
A token whose text is digits, if it is an integer, can be read unless it is too long.
-/

set_option autoImplicit false

namespace Monkey

/-- The text is one or more ASCII digits. -/
def Text.IsDigits (text : String) : Prop := text.toList ≠ [] ∧ ∀ c ∈ text.toList, c.isDigit = true

/-- The token is no integer, or its text is digits. -/
def Token.IsSpelt (token : Token) : Prop := token.kind = .integer → Text.IsDigits token.text

theorem Token.IsReadable.of_isSpelt {token : Token} (isSpelt : token.IsSpelt)
    (fits : token.kind = .integer → token.text.length ≤ Text.digitLimit) : token.IsReadable := by
  refine .of_plain fun isInteger => ?_
  obtain ⟨nonempty, digits⟩ := isSpelt isInteger
  exact ⟨nonempty, digits, fits isInteger⟩

/-- A token that stands for itself, whatever its text is. -/
def TokenKind.IsPlain (kind : TokenKind) : Prop := kind ≠ .integer ∧ kind ≠ .endOfInput

theorem TokenKind.IsPlain.of_ofChar? {c : Char} {kind : TokenKind}
    (found : ofChar? c = some kind) : kind.IsPlain := by
  constructor <;> rintro rfl <;> unfold ofChar? at found <;> split at found <;> cases found

theorem TokenKind.IsPlain.of_ofPair? {first second : Char} {kind : TokenKind}
    (found : ofPair? first second = some kind) : kind.IsPlain := by
  constructor <;> rintro rfl <;> unfold ofPair? at found <;> split at found <;> cases found

theorem TokenKind.IsPlain.ofWord (word : String) : (TokenKind.ofWord word).IsPlain := by
  unfold TokenKind.ofWord
  cases found : List.find? (fun kind => spelling kind == word)
      [kwLet, kwReturn, kwIf, kwElse, kwFn, kwTrue, kwFalse, kwNil] with
  | none => exact ⟨nofun, nofun⟩
  | some kind =>
      have member := List.mem_of_find?_eq_some found
      constructor <;> rintro rfl <;> exact absurd member (by decide)

namespace Scanner

theorem isDigit_eq (c : Char) : isDigit c = c.isDigit := by
  rw [Bool.eq_iff_iff]
  simp [isDigit, Char.isDigit, Char.le_def]

/-! ## Where the scanner stands -/

section Positions

variable (scanner : Scanner)

@[simp] theorem emitChar_position (c : Char) :
    (scanner.emitChar c).position = scanner.position := by
  unfold Scanner.emitChar
  split <;> rfl

@[simp] theorem begin_position (c : Char) : (scanner.begin c).position = scanner.position := by
  unfold Scanner.begin
  repeat' split
  all_goals simp

/-- Only a step moves the scanner on. -/
@[simp] theorem read_position (c : Char) : (scanner.read c).position = scanner.position := by
  unfold Scanner.read
  repeat' split
  all_goals simp [Scanner.beginAfter, Scanner.emit, Scanner.fail, emitNumber, emitWord]
  split <;> simp

@[simp] theorem step_position (c : Char) :
    (scanner.step c).position = scanner.position.next c :=
  congrArg (Position.next · c) (scanner.read_position c)

theorem scan_position (chars : List Char) :
    (scanner.scan chars).position = scanner.position.after chars := by
  induction chars generalizing scanner with
  | nil => rfl
  | cons c rest ih => rw [scan_cons, ih, step_position, Position.after_cons]

@[simp] theorem close_position : scanner.close.position = scanner.position := by
  unfold Scanner.close
  split
  all_goals simp [Scanner.emit, Scanner.fail, emitNumber, emitWord]

end Positions

/-! ## Newlines and the end -/

theorem newline_isSpace : isSpace '\n' = true := rfl

theorem begin_newline (scanner : Scanner) :
    scanner.begin '\n' = { scanner with mode := .between } := by
  rw [begin, if_pos newline_isSpace]

theorem close_between {scanner : Scanner} (between : scanner.mode = .between) :
    scanner.close = scanner := by
  rw [close, between]

theorem close_failed {scanner : Scanner} {fault : LexicalFault} {position : Position}
    (failed : scanner.mode = .failed fault position) : scanner.close = scanner := by
  rw [close, failed]

theorem finish_ok {scanner : Scanner} {tokens : List Token}
    (finished : scanner.finish = .ok tokens) :
    tokens = scanner.close.tokens.reverse ++ [.endOfInput scanner.close.position] := by
  unfold finish at finished
  dsimp only at finished
  split at finished
  · cases finished
  · cases finished
    rfl

end Scanner

end Monkey
