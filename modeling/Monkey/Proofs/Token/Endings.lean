import Mathlib.Algebra.Ring.Parity
import Mathlib.Data.List.DropRight
import Monkey.Proofs.Token.Division
import Monkey.Proofs.Token.Faults
import Monkey.Proofs.Token.Joining

/-!
# A new line at the end of a text

A newline behind the tokens of a text or behind a comment is blank text, as are the spaces after it,
so the tokens stay where they are. In a string that is not closed it is content. But such a string
may stop behind a backslash that has nothing to escape yet, and there is no escape for a newline.
-/

set_option autoImplicit false

namespace Monkey

/-! ## Backslashes at the end of a string -/

/-- How many backslashes the text ends with. -/
def trailingBackslashes (text : List Char) : Nat := (text.rtakeWhile (· == '\\')).length

theorem trailingBackslashes_concat (text : List Char) (c : Char) :
    trailingBackslashes (text ++ [c]) = if c = '\\' then trailingBackslashes text + 1 else 0 := by
  unfold trailingBackslashes
  by_cases backslash : c = '\\' <;> simp [backslash]

/-- In the body of a string, every backslash escapes the next character or is escaped itself. -/
theorem Decodes.even_backslashes {body content before : List Char} (decodes : Decodes body content)
    (even : Even (trailingBackslashes before)) : Even (trailingBackslashes (before ++ body)) := by
  induction decodes generalizing before with
  | nil => rwa [List.append_nil]
  | @plain c body content notQuote notBackslash decodes ih =>
      have stopped : Even (trailingBackslashes (before ++ [c])) := by
        rw [trailingBackslashes_concat, if_neg notBackslash]
        exact .zero
      rw [List.append_cons]
      exact ih stopped
  | @escape code meant body content isMeant decodes ih =>
      have escaped : Even (trailingBackslashes (before ++ ['\\'] ++ [code])) := by
        rw [trailingBackslashes_concat, trailingBackslashes_concat, if_pos rfl]
        split
        · exact even.add_one.add_one
        · exact .zero
      rw [List.append_cons, List.append_cons]
      exact ih escaped

theorem Decodes.even_behind_quote {body content : List Char} (decodes : Decodes body content)
    (before : List Char) : Even (trailingBackslashes (before ++ '"' :: body)) := by
  have opened : Even (trailingBackslashes (before ++ ['"'])) := by
    rw [trailingBackslashes_concat, if_neg (by decide)]
    exact .zero
  rw [List.append_cons]
  exact decodes.even_backslashes opened

namespace Scanner

/-- A string stops behind an unfinished escape if it ends with an odd number of backslashes. -/
theorem Accounts.backslashes {text : List Char} {scanner : Scanner}
    (accounts : scanner.Accounts text []) :
    match scanner.mode with
    | .string _ => Even (trailingBackslashes text)
    | .escape .. => Odd (trailingBackslashes text)
    | _ => True := by
  obtain ⟨preceding, gap, chars, rfl, -, -, reads, -⟩ := accounts
  cases mode : scanner.mode with
  | string content =>
      rw [mode] at reads
      cases reads with
      | string decodes => exact decodes.even_behind_quote _
  | escape content backslash =>
      rw [mode] at reads
      cases reads with
      | escape _ decodes =>
          dsimp only
          rw [← List.cons_append, ← List.append_assoc, trailingBackslashes_concat, if_pos rfl]
          exact (decodes.even_behind_quote _).add_one
  | _ => trivial

/-! ## Blank text at the end -/

theorem scan_spaces {scanner : Scanner} (between : scanner.mode = .between) {spaces : List Char}
    (areSpaces : ∀ c ∈ spaces, isSpace c = true) :
    scanner.scan spaces = { scanner with position := scanner.position.after spaces } := by
  induction spaces generalizing scanner with
  | nil => rfl
  | cons c rest ih =>
      have stays : scanner.read c = scanner := by
        rw [read, between]
        dsimp only
        rw [begin, if_pos (areSpaces c (List.mem_cons_self ..)), ← between]
      have moved : (scanner.advance c).mode = .between := between
      rw [scan_cons, step, stays, ih moved fun next member => areSpaces next (.tail _ member)]
      rfl

theorem finish_between {scanner : Scanner} (between : scanner.mode = .between) :
    scanner.finish = .ok (scanner.tokens.reverse ++ [.endOfInput scanner.position]) := by
  rw [finish, close_between between, between]

/-- A newline and spaces finish the last token where the end of the text would finish it. -/
theorem finish_newline {scanner : Scanner} {tokens : List Token}
    (finished : scanner.finish = .ok tokens) {spaces : List Char}
    (areSpaces : ∀ c ∈ spaces, isSpace c = true) :
    (scanner.scan ('\n' :: spaces)).finish = .ok (scanner.close.tokens.reverse ++
      [.endOfInput (scanner.position.after ('\n' :: spaces))]) := by
  obtain ⟨between, found⟩ := read_newline finished
  have stands : (scanner.step '\n').mode = .between := between
  have isFound : (scanner.step '\n').tokens = scanner.close.tokens := found
  have blank : scanner.scan ('\n' :: spaces) = _ := scan_spaces stands areSpaces
  have ended : (scanner.scan ('\n' :: spaces)).mode = .between := by
    rw [blank]
    exact stands
  rw [finish_between ended, scan_position, blank]
  dsimp only
  rw [isFound]

end Scanner

/-- A new line with nothing on it but spaces leaves the tokens where they are. -/
theorem tokenize_newline {text : String} {tokens : List Token}
    (scanned : tokenize text = .ok tokens) {spaces : List Char}
    (areSpaces : ∀ c ∈ spaces, Scanner.isSpace c = true) :
    ∃ kept, tokens = kept ++ [.endOfInput (.behind text.toList)] ∧
      tokenize (text ++ String.ofList ('\n' :: spaces)) =
        .ok (kept ++ [.endOfInput (.behind (text.toList ++ '\n' :: spaces))]) := by
  have position : (Scanner.initial.scan text.toList).position = .behind text.toList := by
    rw [Scanner.scan_position]
    exact (Position.behind_append [] text.toList).symm
  have isFound := Scanner.finish_ok scanned
  rw [Scanner.close_position, position] at isFound
  refine ⟨_, isFound, ?_⟩
  rw [tokenize, String.toList_append, String.toList_ofList, Scanner.scan_append,
    Scanner.finish_newline scanned areSpaces, position, Position.behind_append]

/-! ## A newline in a string -/

/-- The text stops in a string, behind a backslash that has nothing to escape yet. -/
def StopsInEscape (text : String) : Prop :=
  (∃ position, tokenize text = .error (.unterminatedString, position)) ∧
    Odd (trailingBackslashes text.toList)

namespace Scanner

variable {text : String} {position : Position}

theorem inString_of_unterminated (faulty : tokenize text = .error (.unterminatedString, position)) :
    (initial.scan text.toList).InString := by
  by_contra outside
  exact (initial_patient.scan text.toList).fault_ne faulty outside rfl

/-- The two ways for a text to stop in a string. -/
theorem mode_of_unterminated (faulty : tokenize text = .error (.unterminatedString, position)) :
    (∃ content, (initial.scan text.toList).mode = .string content ∧ ¬StopsInEscape text) ∨
    ∃ content backslash, (initial.scan text.toList).mode = .escape content backslash ∧
      StopsInEscape text := by
  have inString := inString_of_unterminated faulty
  have parity := ((Accounts.initial text.toList).scan rfl).backslashes
  rw [List.nil_append] at parity
  unfold InString at inString
  cases mode : (initial.scan text.toList).mode with
  | string content =>
      rw [mode] at parity
      exact .inl ⟨content, rfl, fun stops => Nat.not_odd_iff_even.mpr parity stops.2⟩
  | escape content backslash =>
      rw [mode] at parity
      exact .inr ⟨content, backslash, rfl, ⟨position, faulty⟩, parity⟩
  | _ =>
      rw [mode] at inString
      exact inString.elim

end Scanner

section Strings

variable {text : String} {position : Position}
  (faulty : tokenize text = .error (.unterminatedString, position))
include faulty

theorem tokenize_newline_string (noEscape : ¬StopsInEscape text) :
    tokenize (text ++ "\n") = .error (.unterminatedString, position) := by
  rcases Scanner.mode_of_unterminated faulty with ⟨content, mode, -⟩ | ⟨-, -, -, stops⟩
  · have inString := Scanner.inString_of_unterminated faulty
    have sameFault := inString.finish.symm.trans faulty
    have reads : (Scanner.initial.scan text.toList).read '\n' =
        { Scanner.initial.scan text.toList with mode := .string ('\n' :: content) } := by
      rw [Scanner.read, mode]
      rfl
    have stillInString : ((Scanner.initial.scan text.toList).step '\n').InString := by
      rw [Scanner.step, reads]
      trivial
    rw [tokenize, String.toList_append, Scanner.scan_append]
    refine Eq.trans stillInString.finish ?_
    rw [← sameFault, Scanner.step, reads]
    rfl
  · exact absurd stops noEscape

theorem tokenize_newline_escape (stops : StopsInEscape text) :
    ∃ backslash, tokenize (text ++ "\n") = .error (.unknownEscape '\n', backslash) := by
  rcases Scanner.mode_of_unterminated faulty with ⟨-, -, noEscape⟩ | ⟨content, backslash, mode, -⟩
  · exact absurd stops noEscape
  · have failed : ((Scanner.initial.scan text.toList).step '\n').mode =
        .failed (.unknownEscape '\n') backslash := by
      rw [Scanner.step, Scanner.read, mode]
      rfl
    refine ⟨backslash, ?_⟩
    rw [tokenize, String.toList_append, Scanner.scan_append]
    exact Scanner.finish_failed failed

end Strings

end Monkey
