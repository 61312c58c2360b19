import Monkey.Proofs.Token.Faults

/-!
# The outline of a scanner

The outline of a scanner is the kinds of the tokens it has found and what it is inside of, without
positions, the texts of tokens, the content of strings, and what a fault is. It is all that decides
the outline of the scanner after the next character.
-/

set_option autoImplicit false

namespace Monkey

def Token.outline (token : Token) : Token := ⟨token.kind, "", .start⟩

namespace Scanner

def Mode.outline : Mode → Mode
  | string _ => string []
  | escape .. => escape [] .start
  | failed .. => failed (.illegalCharacter ' ') .start
  | mode => mode

def outline (scanner : Scanner) : Scanner :=
  ⟨scanner.mode.outline, .start, .start, scanner.tokens.map Token.outline⟩

/-- The scanners have the same outline. -/
def Alike (first second : Scanner) : Prop := first.outline = second.outline

variable {first second third : Scanner}

theorem Alike.refl (scanner : Scanner) : scanner.Alike scanner := rfl

theorem Alike.symm (alike : first.Alike second) : second.Alike first := Eq.symm alike

theorem Alike.trans (alike : first.Alike second) (alike' : second.Alike third) :
    first.Alike third :=
  Eq.trans alike alike'

theorem Alike.mode (alike : first.Alike second) : first.mode.outline = second.mode.outline :=
  congrArg Scanner.mode alike

theorem Alike.tokens (alike : first.Alike second) :
    first.tokens.map Token.outline = second.tokens.map Token.outline :=
  congrArg Scanner.tokens alike

theorem alike_of_parts (mode : first.mode.outline = second.mode.outline)
    (tokens : first.tokens.map Token.outline = second.tokens.map Token.outline) :
    first.Alike second := by
  unfold Alike outline
  rw [mode, tokens]

/-! ## Reading -/

section Steps

variable (tokens : first.tokens.map Token.outline = second.tokens.map Token.outline)
include tokens

theorem emit_alike (kind : TokenKind) (text text' : String) :
    (first.emit kind text).Alike (second.emit kind text') := by
  refine alike_of_parts rfl ?_
  simp only [emit, List.map_cons, tokens, Token.outline]

theorem emitChar_alike (c : Char) : (first.emitChar c).Alike (second.emitChar c) := by
  unfold emitChar
  cases TokenKind.ofChar? c with
  | some kind => exact emit_alike tokens kind _ _
  | none => exact alike_of_parts rfl tokens

theorem begin_alike (c : Char) : (first.begin c).Alike (second.begin c) := by
  unfold begin
  split
  · exact alike_of_parts rfl tokens
  dsimp only
  split
  · exact alike_of_parts rfl tokens
  split
  · exact alike_of_parts rfl tokens
  split
  · exact alike_of_parts rfl tokens
  split
  · exact alike_of_parts rfl tokens
  · apply emitChar_alike
    exact tokens

end Steps

theorem Alike.beginAfter (alike : first.Alike second) (c : Char) :
    (first.beginAfter c).Alike (second.beginAfter c) := by
  have mode := alike.mode
  have begun := begin_alike alike.tokens c
  unfold Scanner.beginAfter
  generalize first.mode = here, second.mode = there at mode
  cases here <;> cases there <;> cases mode
  case failed.failed => exact alike
  all_goals exact begun

theorem Alike.read (alike : first.Alike second) (c : Char) :
    (first.read c).Alike (second.read c) := by
  have mode := alike.mode
  have tokens := alike.tokens
  have begun := begin_alike tokens c
  unfold Scanner.read
  generalize first.mode = here, second.mode = there at mode
  cases here <;> cases there <;> cases mode
  case between.between => exact begun
  case opened.opened.refl opening =>
    dsimp only
    split
    · exact alike_of_parts rfl tokens
    cases TokenKind.ofPair? opening c with
    | some kind => exact emit_alike tokens kind _ _
    | none => exact (emitChar_alike tokens opening).beginAfter c
  case comment.comment =>
    dsimp only
    split
    · exact begun
    · exact alike
  case number.number.refl digits =>
    dsimp only
    split
    · exact alike_of_parts rfl tokens
    split
    · exact alike
    · exact begin_alike (emit_alike tokens _ _ _).tokens c
  case word.word.refl letters =>
    dsimp only
    split
    · exact alike_of_parts rfl tokens
    · exact begin_alike (emit_alike tokens _ _ _).tokens c
  case string.string =>
    dsimp only
    split
    · exact emit_alike tokens _ _ _
    split
    · exact alike_of_parts rfl tokens
    · exact alike_of_parts rfl tokens
  case escape.escape =>
    dsimp only
    cases escaped? c with
    | some meant => exact alike_of_parts rfl tokens
    | none => exact alike_of_parts rfl tokens
  case failed.failed => exact alike

theorem Alike.step (alike : first.Alike second) (c : Char) :
    (first.step c).Alike (second.step c) :=
  alike.read c

/-! ## The end -/

theorem Alike.close (alike : first.Alike second) : first.close.Alike second.close := by
  have mode := alike.mode
  have tokens := alike.tokens
  unfold Scanner.close
  generalize first.mode = here, second.mode = there at mode
  cases here <;> cases there <;> cases mode
  case between.between | comment.comment | failed.failed => exact alike
  case opened.opened => exact emitChar_alike tokens _
  case number.number | word.word => exact emit_alike tokens _ _ _
  case string.string | escape.escape => exact alike_of_parts rfl tokens

/-- Alike scanners find tokens of the same kinds, or each of them finds a fault. -/
theorem Alike.finish (alike : first.Alike second) :
    (∃ found found', first.finish = .ok found ∧ second.finish = .ok found' ∧
      found.map Token.outline = found'.map Token.outline) ∨
    ∃ fault fault', first.finish = .error fault ∧ second.finish = .error fault' := by
  have closed := alike.close
  have mode := closed.mode
  have tokens := closed.tokens
  unfold Scanner.finish
  generalize first.close = here, second.close = there at mode tokens
  obtain ⟨here, _, position, found⟩ := here
  obtain ⟨there, _, position', found'⟩ := there
  dsimp only at mode tokens
  have ended : (found.reverse ++ [Token.endOfInput position]).map Token.outline =
      (found'.reverse ++ [Token.endOfInput position']).map Token.outline := by
    simp only [List.map_append, List.map_reverse, tokens]
    rfl
  cases here <;> cases there <;> cases mode
  case failed.failed => exact .inr ⟨_, _, rfl, rfl⟩
  all_goals exact .inl ⟨_, _, rfl, rfl, ended⟩

/-! ## Outside strings and comments -/

/-- Inside of no string and of no comment. -/
def Mode.isOutside : Mode → Bool
  | between | opened _ | number _ | word _ => true
  | _ => false

/-- Behind a backslash in a string. -/
def Mode.isEscape : Mode → Bool
  | escape .. => true
  | _ => false

/-- Whether the character goes on with the token that the scanner is inside of, or makes a comment
of it. -/
def Mode.continues : Mode → Char → Bool
  | opened first, c => (first == '/' && c == '/') || (TokenKind.ofPair? first c).isSome
  | number _, c => isDigit c || c == '_'
  | word _, c => continuesWord c
  | _, _ => false

theorem Mode.isOutside_outline (mode : Mode) : mode.outline.isOutside = mode.isOutside := by
  cases mode <;> rfl

theorem Mode.isEscape_outline (mode : Mode) : mode.outline.isEscape = mode.isEscape := by
  cases mode <;> rfl

theorem Mode.continues_outline (mode : Mode) (c : Char) :
    mode.outline.continues c = mode.continues c := by
  cases mode <;> rfl

theorem Alike.isOutside_eq (alike : first.Alike second) :
    first.mode.isOutside = second.mode.isOutside := by
  rw [← Mode.isOutside_outline, alike.mode, Mode.isOutside_outline]

theorem Alike.isEscape_eq (alike : first.Alike second) :
    first.mode.isEscape = second.mode.isEscape := by
  rw [← Mode.isEscape_outline, alike.mode, Mode.isEscape_outline]

theorem Alike.continues_eq (alike : first.Alike second) (c : Char) :
    first.mode.continues c = second.mode.continues c := by
  rw [← Mode.continues_outline, alike.mode, Mode.continues_outline]

variable {scanner : Scanner} {c : Char}

/-- A character that does not go on with the token finishes it as the end of the text does. -/
theorem read_apart (outside : scanner.mode.isOutside = true)
    (apart : scanner.mode.continues c = false) : scanner.read c = scanner.close.beginAfter c := by
  unfold Scanner.read close
  cases mode : scanner.mode with
  | between =>
      rw [Scanner.beginAfter, mode]
  | opened first =>
      simp only [mode, Mode.continues, Bool.or_eq_false_iff, Bool.and_eq_false_iff,
        beq_eq_false_iff_ne, Option.isSome_eq_false_iff, Option.isNone_iff_eq_none] at apart
      have notComment : ¬(first = '/' ∧ c = '/') := by
        rintro ⟨isFirst, isSecond⟩
        rcases apart.1 with notFirst | notSecond
        · exact notFirst isFirst
        · exact notSecond isSecond
      dsimp only
      rw [if_neg notComment, apart.2]
  | number digits =>
      simp only [mode, Mode.continues, Bool.or_eq_false_iff, beq_eq_false_iff_ne] at apart
      dsimp only
      rw [apart.1, if_neg (by decide), if_neg apart.2]
      rfl
  | word letters =>
      simp only [mode, Mode.continues] at apart
      dsimp only
      rw [apart, if_neg (by decide)]
      rfl
  | _ =>
      rw [mode] at outside
      cases outside

theorem emitChar_mode (scanner : Scanner) (c : Char) :
    (scanner.emitChar c).mode = .between ∨
      ∃ fault position, (scanner.emitChar c).mode = .failed fault position := by
  unfold emitChar
  cases TokenKind.ofChar? c with
  | some kind => exact .inl rfl
  | none => exact .inr ⟨_, _, rfl⟩

theorem close_mode (outside : scanner.mode.isOutside = true) :
    scanner.close.mode = .between ∨
      ∃ fault position, scanner.close.mode = .failed fault position := by
  unfold close
  cases mode : scanner.mode with
  | between => exact .inl mode
  | opened first => exact emitChar_mode scanner first
  | number digits => exact .inl rfl
  | word letters => exact .inl rfl
  | _ =>
      rw [mode] at outside
      cases outside

theorem beginAfter_failed {fault : LexicalFault} {position : Position}
    (failed : scanner.mode = .failed fault position) : scanner.beginAfter c = scanner := by
  rw [beginAfter, failed]

theorem beginAfter_between (between : scanner.mode = .between) :
    scanner.beginAfter c = scanner.begin c := by
  rw [beginAfter, between]

theorem close_close (outside : scanner.mode.isOutside = true) :
    scanner.close.close = scanner.close := by
  rcases close_mode outside with between | ⟨fault, position, failed⟩
  · exact close_between between
  · exact close_failed failed

/-- After the end of a token the scanner goes on as if it had not yet been finished, unless the next
character goes on with it. -/
theorem close_read (outside : scanner.mode.isOutside = true)
    (apart : scanner.mode.continues c = false) : (scanner.close.read c).Alike (scanner.read c) := by
  rw [read_apart outside apart]
  rcases close_mode outside with between | ⟨fault, position, failed⟩
  · rw [beginAfter_between between, Scanner.read, between]
    exact .refl _
  · rw [beginAfter_failed failed, Scanner.read, failed]
    exact .refl _

section Spaces

variable (space : isSpace c = true)
include space

theorem continues_space (mode : Mode) : mode.continues c = false := by
  simp only [isSpace, Bool.or_eq_true, beq_iff_eq] at space
  cases mode with
  | opened first =>
      rcases space with ((rfl | rfl) | rfl) | rfl <;> simp [Mode.continues, ofPair?_eq_none]
  | number digits | word letters => rcases space with ((rfl | rfl) | rfl) | rfl <;> rfl
  | _ => rfl

theorem close_read_space (outside : scanner.mode.isOutside = true) :
    (scanner.close.read c).Alike scanner.close := by
  rcases close_mode outside with between | ⟨fault, position, failed⟩
  · rw [Scanner.read, between]
    dsimp only
    rw [begin, if_pos space]
    exact alike_of_parts (congrArg Mode.outline between.symm) rfl
  · rw [Scanner.read, failed]
    exact .refl _

/-- A space outside strings and comments does no more than to finish a token. -/
theorem read_space (outside : scanner.mode.isOutside = true) :
    (scanner.read c).Alike scanner.close :=
  (close_read outside (continues_space space _)).symm.trans (close_read_space space outside)

end Spaces

/-! ## Inside strings and comments -/

/-- In a string, in a comment and behind a fault, nothing is kept of most characters. -/
theorem read_inside (inside : scanner.mode.isOutside = false)
    (noEscape : scanner.mode.isEscape = false) (notQuote : c ≠ '"') (notBackslash : c ≠ '\\')
    (notNewline : c ≠ '\n') (notNul : c ≠ '\x00') : (scanner.read c).Alike scanner := by
  unfold Scanner.read
  cases mode : scanner.mode with
  | comment =>
      dsimp only
      rw [if_neg (by simp [notNewline, notNul])]
      exact .refl _
  | string content =>
      dsimp only
      rw [if_neg notQuote, if_neg notBackslash]
      refine alike_of_parts ?_ rfl
      rw [mode]
      rfl
  | failed fault position => exact .refl _
  | escape content backslash =>
      rw [mode] at noEscape
      cases noEscape
  | _ =>
      rw [mode] at inside
      cases inside

end Scanner

end Monkey
