import Monkey.Proofs.Token.Lexemes
import Monkey.Proofs.Token.Spelling

/-!
# Tokens with spaces between them

Any tokens can be written down and found again. Each is spelt on its own, and a space after it ends
whatever it leaves the scanner inside of: a number, a word or a character that could have been the
first of two. So no token takes in a part of the next one, and none begins a comment.
-/

set_option autoImplicit false

namespace Monkey

open Scanner

/-- The text is a word and no keyword. -/
structure Text.IsName (text : String) : Prop where
  isWord : ∃ first rest, text.toList = first :: rest ∧ startsWord first = true ∧
    ∀ c ∈ rest, continuesWord c = true
  notKeyword : ∀ kind : TokenKind, kind.spelling ≠ text

/-- The token can be written down: its text is digits if it is an integer, a name if it is an
identifier, anything if it is a string and the spelling of its kind otherwise. -/
def Token.IsSpellable (token : Token) : Prop :=
  match token.kind with
  | .integer => Text.IsDigits token.text
  | .identifier => Text.IsName token.text
  | .string => True
  | .endOfInput => False
  | kind => token.text = kind.spelling

/-- How a token is written down. A string is written as its value is shown. -/
def Token.spelt (token : Token) : String :=
  match token.kind with
  | .string => (Value.string token.text).display
  | _ => token.text

/-! ## Where a space ends a token -/

/-- A space finishes what the scanner is inside of as the end of the text does. -/
structure Scanner.AtEdge (scanner : Scanner) : Prop where
  finished : scanner.close.mode = .between
  space : scanner.read ' ' = scanner.close.read ' '

theorem Scanner.Settled.atEdge {scanner : Scanner} (settled : scanner.Settled) :
    scanner.AtEdge where
  finished := settled.close_mode
  space := settled.read_delimiter ⟨rfl, by decide, rfl⟩

/-- Scanned between tokens, the text gives the tokens once a space or its end finishes the last. -/
def Separates (text : List Char) (tokens : List Token) : Prop :=
  ∀ scanner : Scanner, scanner.mode = .between →
    (scanner.scan text).AtEdge ∧ (scanner.scan text).close.Found scanner.tokens tokens

section Rules

variable {text text' : List Char} {tokens tokens' : List Token}

theorem Spells.separates (spells : Spells text tokens) : Separates text tokens := by
  intro scanner between
  obtain ⟨settled, found⟩ := spells scanner between
  exact ⟨settled.atEdge, found⟩

theorem Separates.append (first : Separates text tokens) (second : Separates text' tokens') :
    Separates (text ++ ' ' :: text') (tokens ++ tokens') := by
  intro scanner between
  obtain ⟨edge, found⟩ := first scanner between
  have spaced := Finishes.space (scanner.scan text).close edge.finished
  obtain ⟨edge', found'⟩ := second _ spaced.1
  have reached : scanner.scan (text ++ ' ' :: text') =
      ((scanner.scan text).close.scan [' ']).scan text' := by
    rw [scan_append, scan_cons, step, edge.space]
    rfl
  rw [reached]
  exact ⟨edge', found.trans (spaced.2.trans found')⟩

theorem tokenize_separates {source : String} (separates : Separates source.toList tokens) :
    ∃ placed position, tokenize source = .ok (placed ++ [.endOfInput position]) ∧
      placed.map Token.unplaced = tokens := by
  obtain ⟨edge, placed, found, places⟩ := separates .initial rfl
  refine ⟨placed, (Scanner.initial.scan source.toList).close.position, ?_, places⟩
  unfold tokenize Scanner.finish
  dsimp only
  rw [edge.finished, found]
  simp [Scanner.initial]

end Rules

/-! ## Words -/

namespace Scanner

theorem notSpace_of_startsWord {c : Char} (letter : startsWord c = true) : isSpace c = false := by
  cases space : isSpace c with
  | false => rfl
  | true =>
      simp only [isSpace, Bool.or_eq_true, beq_iff_eq] at space
      rcases space with ((rfl | rfl) | rfl) | rfl <;> cases letter

theorem begin_letter {c : Char} (letter : startsWord c = true) (scanner : Scanner) :
    scanner.begin c = { scanner with start := scanner.position, mode := .word [c] } := by
  have notDigit : isDigit c = false := by
    cases digit : isDigit c with
    | false => rfl
    | true =>
        rw [startsWord_of_isDigit digit] at letter
        cases letter
  have notQuote : c ≠ '"' := by
    rintro rfl
    cases letter
  simp [begin, notSpace_of_startsWord letter, notQuote, notDigit, letter]

theorem scan_letters (letters : List Char) (areLetters : ∀ c ∈ letters, continuesWord c = true)
    {scanner : Scanner} {done : List Char} (inside : scanner.mode = .word done) :
    ∃ position, scanner.scan letters =
      { scanner with mode := .word (letters.reverse ++ done), position } := by
  induction letters generalizing scanner done with
  | nil => exact ⟨scanner.position, by rw [List.reverse_nil, List.nil_append, ← inside]; rfl⟩
  | cons c rest ih =>
      obtain ⟨letter, others⟩ := List.forall_mem_cons.mp areLetters
      have reads : scanner.read c = { scanner with mode := .word (c :: done) } := by
        simp [read, inside, letter]
      have inside : (scanner.step c).mode = .word (c :: done) := by
        rw [step, reads]
        rfl
      obtain ⟨position, scanned⟩ := ih others inside
      refine ⟨position, ?_⟩
      rw [scan_cons, scanned, step, reads]
      simp [advance]

end Scanner

theorem Spells.word {first : Char} {rest : List Char} (isFirst : startsWord first = true)
    (others : ∀ c ∈ rest, continuesWord c = true) :
    let text := String.ofList (first :: rest)
    Spells (first :: rest) [⟨.ofWord text, text, .unknown⟩] := by
  intro text scanner between
  have reads : scanner.read first =
      { scanner with start := scanner.position, mode := .word [first] } := by
    rw [Scanner.read, between]
    exact begin_letter isFirst scanner
  have inside : (scanner.step first).mode = .word [first] := by
    rw [Scanner.step, reads]
    rfl
  obtain ⟨position, scanned⟩ := scan_letters rest others inside
  rw [Scanner.scan_cons, scanned]
  refine ⟨trivial, [⟨.ofWord text, text, scanner.position⟩], ?_, rfl⟩
  rw [Scanner.step, reads]
  simp [Scanner.close, Scanner.emitWord, Scanner.emit, Scanner.advance, text]

theorem TokenKind.ofWord_name {text : String} (name : Text.IsName text) :
    ofWord text = .identifier := by
  have unfound : [kwLet, kwReturn, kwIf, kwElse, kwFn, kwTrue, kwFalse, kwNil].find?
      (·.spelling == text) = none := by
    simp [name.notKeyword]
  rw [ofWord, unfound]
  rfl

theorem Spells.name {text : String} (name : Text.IsName text) :
    Spells text.toList [⟨.identifier, text, .unknown⟩] := by
  obtain ⟨first, rest, isText, isFirst, others⟩ := name.isWord
  have isWord : Spells (first :: rest) [⟨.ofWord (String.ofList _), String.ofList _, .unknown⟩] :=
    Spells.word isFirst others
  rw [← isText, String.ofList_toList, TokenKind.ofWord_name name] at isWord
  exact isWord

/-! ## Operators, punctuation and keywords -/

/-- A space after a character that may begin a pair shows that it does not. -/
theorem Separates.char {c : Char} {kind : TokenKind} (isKind : TokenKind.ofChar? c = some kind) :
    Separates [c] [kind.mark] := by
  rintro ⟨mode, start, position, tokens⟩ rfl
  unfold TokenKind.ofChar? at isKind
  split at isKind <;> cases isKind <;> exact ⟨⟨rfl, rfl⟩, [⟨_, _, position⟩], rfl, rfl⟩

theorem Separates.pair {first second : Char} {kind : TokenKind}
    (isKind : TokenKind.ofPair? first second = some kind) :
    Separates [first, second] [kind.mark] := by
  rintro ⟨mode, start, position, tokens⟩ rfl
  unfold TokenKind.ofPair? at isKind
  split at isKind <;> cases isKind <;> exact ⟨⟨rfl, rfl⟩, [⟨_, _, position⟩], rfl, rfl⟩

theorem Separates.fixed {kind : TokenKind} (fixed : kind.spelling ≠ "") :
    Separates kind.spelling.toList [kind.mark] := by
  cases kind
  case kwLet | kwReturn | kwIf | kwElse | kwFn | kwTrue | kwFalse | kwNil =>
    exact (Spells.word rfl (List.all_eq_true.mp rfl)).separates
  case equal | notEqual | lessEqual | greaterEqual | hashBrace => exact .pair rfl
  case integer | string | identifier | endOfInput => exact absurd rfl fixed
  all_goals exact .char rfl

/-! ## Lists of tokens -/

theorem Token.IsSpellable.separates {token : Token} (spellable : token.IsSpellable) :
    Separates token.spelt.toList [token.unplaced] := by
  obtain ⟨kind, text, position⟩ := token
  cases kind
  case integer =>
    obtain ⟨nonempty, digits⟩ := spellable
    have spells := Spells.integer nonempty digits
    rw [String.ofList_toList] at spells
    exact spells.separates
  case identifier => exact (Spells.name spellable).separates
  case string => exact (Finishes.string text).spells.separates
  case endOfInput => exact spellable.elim
  all_goals
    dsimp only [Token.IsSpellable] at spellable
    subst spellable
    exact .fixed nofun

theorem Separates.spaced {tokens : List Token} (spellable : ∀ token ∈ tokens, token.IsSpellable) :
    Separates (" ".intercalate (tokens.map Token.spelt)).toList (tokens.map Token.unplaced) := by
  induction tokens with
  | nil => exact Finishes.nil.spells.separates
  | cons token rest ih =>
      obtain ⟨here, others⟩ := List.forall_mem_cons.mp spellable
      cases rest with
      | nil => simpa using here.separates
      | cons next rest =>
          have spaced := here.separates.append (ih others)
          simpa [String.intercalate_cons_cons] using spaced

/-- Lexing undoes spelling: tokens written down with single spaces between them are found again,
with the end of the input behind them. -/
theorem tokenize_spaced {tokens : List Token} (spellable : ∀ token ∈ tokens, token.IsSpellable) :
    ∃ placed position,
      tokenize (" ".intercalate (tokens.map Token.spelt)) =
        .ok (placed ++ [.endOfInput position]) ∧
      placed.map (fun token => (token.kind, token.text)) =
        tokens.map fun token => (token.kind, token.text) := by
  obtain ⟨placed, position, scanned, same⟩ := tokenize_separates (.spaced spellable)
  have parts : ∀ list : List Token, list.map (fun token => (token.kind, token.text)) =
      (list.map Token.unplaced).map fun token => (token.kind, token.text) := by
    intro list
    rw [List.map_map]
    rfl
  refine ⟨placed, position, scanned, ?_⟩
  rw [parts, same, ← parts]

/-- Characters that could begin a pair or a comment stand before some that could end it. -/
theorem tokenize_spaced_slashes :
    let tokens : List Token := [⟨.assign, "=", .unknown⟩, ⟨.equal, "==", .unknown⟩,
      ⟨.slash, "/", .unknown⟩, ⟨.slash, "/", .unknown⟩, ⟨.identifier, "é2", .unknown⟩,
      ⟨.integer, "007", .unknown⟩, ⟨.kwLet, "let", .unknown⟩, ⟨.string, "\"\\\n", .unknown⟩]
    (∀ token ∈ tokens, token.IsSpellable) ∧
      " ".intercalate (tokens.map Token.spelt) = "= == / / é2 007 let \"\\\"\\\\\\n\"" ∧
      ∃ placed position,
        tokenize (" ".intercalate (tokens.map Token.spelt)) =
          .ok (placed ++ [.endOfInput position]) ∧
        placed.map (fun token => (token.kind, token.text)) =
          tokens.map fun token => (token.kind, token.text) := by
  intro tokens
  have name : Text.IsName "é2" := by
    constructor
    · exact ⟨'é', ['2'], rfl, rfl, List.all_eq_true.mp rfl⟩
    · intro kind
      cases kind <;> decide
  have digits : Text.IsDigits "007" := ⟨by decide, List.all_eq_true.mp rfl⟩
  have spellable : ∀ token ∈ tokens, token.IsSpellable := by
    simp [tokens, Token.IsSpellable, name, digits, TokenKind.spelling]
  exact ⟨spellable, by decide +kernel, tokenize_spaced spellable⟩

end Monkey
