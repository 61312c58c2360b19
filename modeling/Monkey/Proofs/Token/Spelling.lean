import Monkey.Proofs.Printing.Basic
import Monkey.Proofs.Token.Scanning
import Monkey.Value.Basic

/-!
# Spelling tokens

A text spells some tokens if a scanner that is between tokens finds them in it, wherever the text
stands. The text may end inside of the last of them, if that is a number or a word: any character
finishes it that cannot go on with it.
-/

set_option autoImplicit false

namespace Monkey

namespace Scanner

/-- Inside of nothing but a number or a word, which is a token as it stands. -/
def Settled (scanner : Scanner) : Prop :=
  match scanner.mode with
  | .between | .number _ | .word _ => True
  | _ => False

/-- No number and no word goes on with the character. -/
structure Delimits (c : Char) : Prop where
  notDigit : isDigit c = false
  notSeparator : c ≠ '_'
  notLetter : continuesWord c = false

variable {scanner : Scanner}

theorem Settled.of_between (between : scanner.mode = .between) : scanner.Settled := by
  rw [Settled, between]
  trivial

theorem Settled.close_mode (settled : scanner.Settled) : scanner.close.mode = .between := by
  unfold Settled at settled
  unfold close
  cases mode : scanner.mode with
  | between => exact mode
  | number digits => rfl
  | word letters => rfl
  | _ =>
      rw [mode] at settled
      exact settled.elim

theorem Settled.read_delimiter (settled : scanner.Settled) {c : Char} (delimits : Delimits c) :
    scanner.read c = scanner.close.read c := by
  have afterwards : scanner.close.read c = scanner.close.begin c := by
    rw [read, settled.close_mode]
  rw [afterwards]
  obtain ⟨notDigit, notSeparator, notLetter⟩ := delimits
  unfold Settled at settled
  unfold read close
  cases mode : scanner.mode with
  | between => rfl
  | number digits => simp [notDigit, notSeparator]
  | word letters => simp [notLetter]
  | _ =>
      rw [mode] at settled
      exact settled.elim

theorem Settled.scan_delimiter (settled : scanner.Settled) {c : Char} (delimits : Delimits c)
    (rest : List Char) : scanner.scan (c :: rest) = scanner.close.scan (c :: rest) := by
  rw [scan_cons, scan_cons, step, step, settled.read_delimiter delimits]

end Scanner

/-! ## Texts and their tokens -/

/-- The scanner has found the tokens, in some places, and before them some others. -/
def Scanner.Found (before tokens : List Token) (scanner : Scanner) : Prop :=
  ∃ placed : List Token,
    scanner.tokens = placed.reverse ++ before ∧ placed.map Token.unplaced = tokens

theorem Scanner.Found.nil (scanner : Scanner) : scanner.Found scanner.tokens [] := ⟨[], rfl, rfl⟩

theorem Scanner.Found.trans {before tokens tokens' : List Token} {between scanner : Scanner}
    (first : between.Found before tokens) (second : scanner.Found between.tokens tokens') :
    scanner.Found before (tokens ++ tokens') := by
  obtain ⟨placed, found, places⟩ := first
  obtain ⟨placed', found', places'⟩ := second
  refine ⟨placed ++ placed', ?_, ?_⟩
  · rw [found', found, List.reverse_append, List.append_assoc]
  · rw [List.map_append, places, places']

/-- Scanned between tokens, the text gives the tokens, the last of them finished. -/
def Finishes (text : List Char) (tokens : List Token) : Prop :=
  ∀ scanner : Scanner, scanner.mode = .between →
    (scanner.scan text).mode = .between ∧ (scanner.scan text).Found scanner.tokens tokens

/-- Scanned between tokens, the text gives the tokens, but may end inside of the last of them. -/
def Spells (text : List Char) (tokens : List Token) : Prop :=
  ∀ scanner : Scanner, scanner.mode = .between →
    (scanner.scan text).Settled ∧ (scanner.scan text).close.Found scanner.tokens tokens

section Rules

variable {text text' : List Char} {tokens tokens' : List Token}

theorem Finishes.spells (finishes : Finishes text tokens) : Spells text tokens := by
  intro scanner between
  obtain ⟨mode, found⟩ := finishes scanner between
  rw [Scanner.close_between mode]
  exact ⟨.of_between mode, found⟩

theorem Finishes.nil : Finishes [] [] := fun scanner between => ⟨between, .nil scanner⟩

theorem Finishes.append (first : Finishes text tokens) (second : Finishes text' tokens') :
    Finishes (text ++ text') (tokens ++ tokens') := by
  intro scanner between
  obtain ⟨mode, found⟩ := first scanner between
  obtain ⟨mode', found'⟩ := second _ mode
  rw [Scanner.scan_append]
  exact ⟨mode', found.trans found'⟩

theorem Finishes.append_spells (first : Finishes text tokens) (second : Spells text' tokens') :
    Spells (text ++ text') (tokens ++ tokens') := by
  intro scanner between
  obtain ⟨mode, found⟩ := first scanner between
  obtain ⟨settled, found'⟩ := second _ mode
  rw [Scanner.scan_append]
  exact ⟨settled, found.trans found'⟩

/-- Whatever the first text leaves open, a character that delimits it finishes. -/
theorem Spells.append {c : Char} (first : Spells text tokens) (delimits : Scanner.Delimits c)
    (second : Finishes (c :: text') tokens') :
    Finishes (text ++ c :: text') (tokens ++ tokens') := by
  intro scanner between
  obtain ⟨settled, found⟩ := first scanner between
  obtain ⟨mode', found'⟩ := second _ settled.close_mode
  rw [Scanner.scan_append, settled.scan_delimiter delimits]
  exact ⟨mode', found.trans found'⟩

theorem tokenize_spells {source : String} (spells : Spells source.toList tokens) :
    ∃ placed position, tokenize source = .ok (placed ++ [.endOfInput position]) ∧
      placed.map Token.unplaced = tokens := by
  obtain ⟨settled, placed, found, places⟩ := spells .initial rfl
  refine ⟨placed, (Scanner.initial.scan source.toList).close.position, ?_, places⟩
  unfold tokenize Scanner.finish
  dsimp only
  rw [settled.close_mode, found]
  simp [Scanner.initial]

end Rules

/-! ## Single tokens -/

theorem Finishes.space : Finishes [' '] [] := by
  rintro ⟨mode, start, position, tokens⟩ rfl
  exact ⟨rfl, [], rfl, rfl⟩

/-- A character that is a token by itself and begins no other. -/
theorem Finishes.char {c : Char} {kind : TokenKind} (isKind : TokenKind.ofChar? c = some kind)
    (alone : Scanner.opensPair c = false) : Finishes [c] [kind.mark] := by
  rintro ⟨mode, start, position, tokens⟩ rfl
  unfold TokenKind.ofChar? at isKind
  split at isKind <;> cases isKind <;>
    first
    | exact ⟨rfl, [⟨_, _, position⟩], rfl, rfl⟩
    | cases alone

theorem Finishes.hashBrace : Finishes ['#', '{'] [TokenKind.hashBrace.mark] := by
  rintro ⟨mode, start, position, tokens⟩ rfl
  exact ⟨rfl, [⟨.hashBrace, _, position⟩], rfl, rfl⟩

theorem Spells.kwNil : Spells "nil".toList [TokenKind.kwNil.mark] := by
  rintro ⟨mode, start, position, tokens⟩ rfl
  exact ⟨trivial, [⟨.kwNil, "nil", position⟩], rfl, rfl⟩

theorem Spells.kwTrue : Spells "true".toList [TokenKind.kwTrue.mark] := by
  rintro ⟨mode, start, position, tokens⟩ rfl
  exact ⟨trivial, [⟨.kwTrue, "true", position⟩], rfl, rfl⟩

theorem Spells.kwFalse : Spells "false".toList [TokenKind.kwFalse.mark] := by
  rintro ⟨mode, start, position, tokens⟩ rfl
  exact ⟨trivial, [⟨.kwFalse, "false", position⟩], rfl, rfl⟩

namespace Scanner

theorem begin_digit {c : Char} (digit : c.isDigit = true) (scanner : Scanner) :
    scanner.begin c = { scanner with start := scanner.position, mode := .number [c] } := by
  have isAscii : isDigit c = true := by rw [isDigit_eq, digit]
  have notSpace : isSpace c = false := by
    rw [isSpace]
    simp only [Bool.or_eq_false_iff, beq_eq_false_iff_ne]
    refine ⟨⟨⟨?_, ?_⟩, ?_⟩, ?_⟩ <;> rintro rfl <;> cases digit
  have notQuote : c ≠ '"' := by
    rintro rfl
    cases digit
  simp [begin, notSpace, notQuote, isAscii]

theorem scan_digits (digits : List Char) (areDigits : ∀ c ∈ digits, c.isDigit = true)
    {scanner : Scanner} {done : List Char} (inside : scanner.mode = .number done) :
    ∃ position, scanner.scan digits =
      { scanner with mode := .number (digits.reverse ++ done), position } := by
  induction digits generalizing scanner done with
  | nil => exact ⟨scanner.position, by rw [List.reverse_nil, List.nil_append, ← inside]; rfl⟩
  | cons c rest ih =>
      obtain ⟨digit, others⟩ := List.forall_mem_cons.mp areDigits
      have isAscii : isDigit c = true := by rw [isDigit_eq, digit]
      have reads : scanner.read c = { scanner with mode := .number (c :: done) } := by
        simp [read, inside, isAscii]
      have inside : (scanner.step c).mode = .number (c :: done) := by
        rw [step, reads]
        rfl
      obtain ⟨position, scanned⟩ := ih others inside
      refine ⟨position, ?_⟩
      rw [scan_cons, scanned, step, reads]
      simp [advance]

end Scanner

theorem Spells.integer {digits : List Char} (nonempty : digits ≠ [])
    (areDigits : ∀ c ∈ digits, c.isDigit = true) :
    Spells digits [⟨.integer, String.ofList digits, .unknown⟩] := by
  intro scanner between
  cases digits with
  | nil => exact absurd rfl nonempty
  | cons c rest =>
      obtain ⟨digit, others⟩ := List.forall_mem_cons.mp areDigits
      have reads : scanner.read c =
          { scanner with start := scanner.position, mode := .number [c] } := by
        rw [Scanner.read, between]
        exact Scanner.begin_digit digit scanner
      have inside : (scanner.step c).mode = .number [c] := by
        rw [Scanner.step, reads]
        rfl
      obtain ⟨position, scanned⟩ := Scanner.scan_digits rest others inside
      rw [Scanner.scan_cons, scanned]
      refine ⟨trivial, [⟨.integer, String.ofList (c :: rest), scanner.position⟩], ?_, rfl⟩
      rw [Scanner.step, reads]
      simp [Scanner.close, Scanner.emitNumber, Scanner.emit, Scanner.advance]

/-! ## Strings -/

namespace Scanner

variable {scanner : Scanner} {content : List Char}

theorem scan_showChar (c : Char) (inside : scanner.mode = .string content) :
    ∃ position, scanner.scan (Value.showChar c) =
      { scanner with mode := .string (c :: content), position } := by
  obtain ⟨mode, start, position, tokens⟩ := scanner
  obtain rfl : mode = .string content := inside
  unfold Value.showChar
  split
  case h_6 notQuote notBackslash _ _ _ =>
    refine ⟨position.next c, ?_⟩
    rw [scan_cons, scan_nil, step, read]
    dsimp only
    rw [if_neg notQuote, if_neg notBackslash, advance]
  all_goals exact ⟨_, rfl⟩

theorem scan_content (text : List Char) (inside : scanner.mode = .string content) :
    ∃ position, scanner.scan (text.flatMap Value.showChar) =
      { scanner with mode := .string (text.reverse ++ content), position } := by
  induction text generalizing scanner content with
  | nil => exact ⟨scanner.position, by rw [List.reverse_nil, List.nil_append, ← inside]; rfl⟩
  | cons c rest ih =>
      obtain ⟨between, first⟩ := scan_showChar c inside
      have inside : (scanner.scan (Value.showChar c)).mode = .string (c :: content) := by
        rw [first]
      obtain ⟨position, scanned⟩ := ih inside
      refine ⟨position, ?_⟩
      rw [List.flatMap_cons, scan_append, scanned, first]
      simp

end Scanner

/-- The text of a string value spells a string token with the same content. -/
theorem Finishes.string (text : String) :
    Finishes (Value.showString text).toList [⟨.string, text, .unknown⟩] := by
  rintro ⟨mode, start, position, tokens⟩ rfl
  have spelt : (Value.showString text).toList =
      '"' :: (text.toList.flatMap Value.showChar ++ ['"']) := by
    simp [Value.showString]
  have opened : ((Scanner.mk .between start position tokens).step '"').mode = .string [] := rfl
  obtain ⟨last, scanned⟩ := Scanner.scan_content text.toList opened
  rw [spelt, Scanner.scan_cons, Scanner.scan_append, scanned]
  refine ⟨rfl, [⟨.string, text, position⟩], ?_, rfl⟩
  simp [Scanner.step, Scanner.read, Scanner.begin, Scanner.isSpace, Scanner.emit, Scanner.advance]

/-! ## Lists -/

/-- Texts with a comma and a space between them. -/
theorem Spells.commaSeparated {α : Type} (items : List α) {text : α → String}
    {tokens : α → List Token} (each : ∀ item ∈ items, Spells (text item).toList (tokens item)) :
    Spells (Value.commaSeparated (items.map text)).toList
      (Monkey.commaSeparated (items.map tokens)) := by
  induction items with
  | nil => exact Finishes.nil.spells
  | cons first rest ih =>
      obtain ⟨here, others⟩ := List.forall_mem_cons.mp each
      cases rest with
      | nil =>
          simpa [Value.commaSeparated, Monkey.commaSeparated] using here
      | cons second rest =>
          have comma : Finishes [',', ' '] [TokenKind.comma.mark] :=
            Finishes.append (.char rfl rfl) .space
          have joined := (here.append ⟨rfl, by decide, rfl⟩ comma).append_spells (ih others)
          simpa [Value.commaSeparated, Monkey.commaSeparated, String.intercalate_cons_cons]
            using joined

end Monkey
