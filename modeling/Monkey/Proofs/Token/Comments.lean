import Monkey.Proofs.Token.Division
import Monkey.Proofs.Token.Faults

/-!
# The text of a comment

Two slashes outside of a string begin a comment. While the scanner is inside of one it keeps nothing
of what it reads but its position, so with other text in the comment it goes on in the same way from
the next line. A NUL is the exception: it ends the comment, and is a fault itself.
-/

set_option autoImplicit false

namespace Monkey

/-- A token without the column that it stands in. -/
def Token.onLine (token : Token) : TokenKind × String × Nat :=
  (token.kind, token.text, token.position.line)

/-- The result of dividing a text into tokens, without the columns that the tokens stand in. -/
def onLines (result : Except (LexicalFault × Position) (List Token)) :
    Except (LexicalFault × Position) (List (TokenKind × String × Nat)) :=
  result.map (List.map Token.onLine)

theorem Position.after_inLine {text : List Char} (inLine : '\n' ∉ text) (position : Position) :
    position.after text = ⟨position.line, position.column + text.length⟩ := by
  induction text generalizing position with
  | nil => rfl
  | cons c rest ih =>
      simp only [List.mem_cons, not_or] at inLine
      have here : position.next c = ⟨position.line, position.column + 1⟩ :=
        if_neg fun isNewline => inLine.1 isNewline.symm
      have later : position.column + 1 + rest.length = position.column + (rest.length + 1) := by
        omega
      rw [after_cons, ih inLine.2, here, List.length_cons, later]

namespace Scanner

variable {scanner : Scanner}

/-! ## Entering a comment -/

/-- After a text without a fault, a slash either is inside a comment or may begin one. -/
theorem read_slash {tokens : List Token} (finished : scanner.finish = .ok tokens) :
    (scanner.read '/').mode = .comment ∨ (scanner.read '/').mode = .opened '/' := by
  unfold finish close at finished
  unfold read
  cases inside : scanner.mode with
  | between => exact .inr rfl
  | comment => exact .inl inside
  | number digits => exact .inr rfl
  | word letters => exact .inr rfl
  | opened first =>
      rw [inside] at finished
      dsimp only [emitChar] at finished ⊢
      split
      · exact .inl rfl
      · rw [ofPair?_eq_none (by decide) (by decide)]
        cases isKind : TokenKind.ofChar? first with
        | none =>
            rw [isKind] at finished
            cases finished
        | some kind => exact .inr rfl
  | failed fault position =>
      rw [inside] at finished
      simp only [inside] at finished
      cases finished
  | string content | escape content backslash =>
      rw [inside] at finished
      cases finished

theorem scan_slashes {tokens : List Token} (finished : scanner.finish = .ok tokens) :
    (scanner.scan ['/', '/']).mode = .comment := by
  rcases read_slash finished with inside | inside
  all_goals
    have stepped : (scanner.step '/').mode = _ := inside
    change ((scanner.step '/').read '/').mode = .comment
    rw [read, stepped]
  · exact stepped
  · rfl

/-! ## Inside a comment -/

/-- Inside a comment nothing changes but the position. -/
theorem scan_comment (inside : scanner.mode = .comment) {body : List Char} (inLine : '\n' ∉ body)
    (noNul : '\x00' ∉ body) :
    scanner.scan body = { scanner with position := scanner.position.after body } := by
  induction body generalizing scanner with
  | nil => rfl
  | cons c rest ih =>
      simp only [List.mem_cons, not_or] at inLine noNul
      have goesOn : ¬(c = '\n' ∨ c = '\x00') := by
        rintro (rfl | rfl)
        · exact inLine.1 rfl
        · exact noNul.1 rfl
      have stays : scanner.read c = scanner := by
        rw [read, inside]
        exact if_neg goesOn
      have moved : (scanner.advance c).mode = .comment := inside
      rw [scan_cons, step, stays, ih moved inLine.2 noNul.2]
      rfl

/-- The newline that ends a comment takes the scanner to the same place, wherever it stood. -/
theorem step_newline (inside : scanner.mode = .comment) (column : Nat) :
    Scanner.step { scanner with position := ⟨scanner.position.line, column⟩ } '\n' =
      ⟨.between, scanner.start, ⟨scanner.position.line + 1, 1⟩, scanner.tokens⟩ := by
  rw [step, read]
  simp only [inside]
  rw [if_pos (.inl trivial), begin_newline]
  rfl

theorem scan_line (inside : scanner.mode = .comment) {body : List Char} (inLine : '\n' ∉ body)
    (noNul : '\x00' ∉ body) (rest : List Char) :
    (scanner.scan body).scan ('\n' :: rest) =
      Scanner.scan ⟨.between, scanner.start, ⟨scanner.position.line + 1, 1⟩, scanner.tokens⟩
        rest := by
  rw [scan_comment inside inLine noNul, Position.after_inLine inLine, scan_cons,
    step_newline inside]

theorem finish_comment (inside : scanner.mode = .comment) {body : List Char}
    (inLine : '\n' ∉ body) (noNul : '\x00' ∉ body) :
    onLines (scanner.scan body).finish =
      .ok ((scanner.tokens.reverse.map Token.onLine) ++
        [(.endOfInput, "", scanner.position.line)]) := by
  rw [scan_comment inside inLine noNul, Position.after_inLine inLine, finish, close]
  simp only [inside]
  simp [onLines, Except.map, Token.onLine, Token.endOfInput]

/-- A NUL in a comment is a fault, whatever follows it. -/
theorem finish_nul (inside : scanner.mode = .comment) (rest : List Char) :
    (scanner.scan ('\x00' :: rest)).finish =
      .error (.illegalCharacter '\x00', scanner.position) := by
  have failed : (scanner.step '\x00').mode =
      .failed (.illegalCharacter '\x00') scanner.position := by
    rw [step, read, inside]
    dsimp only
    rw [if_pos (.inr rfl), begin_nul]
    rfl
  rw [scan_cons, scan_failed failed]
  exact finish_failed failed

end Scanner

/-! ## Comments of a text -/

section Texts

variable {before body after : String}

theorem tokenize_commented (before body after : String) :
    tokenize (before ++ "//" ++ body ++ after) =
      ((((Scanner.initial.scan before.toList).scan ['/', '/']).scan body.toList).scan
        after.toList).finish := by
  have slashes : "//".toList = ['/', '/'] := rfl
  simp only [tokenize, String.toList_append, Scanner.scan_append, slashes]

/-- Outside a string, two slashes do not mend a fault, and neither does what comes after them. -/
theorem tokenize_faulty_commented {fault : LexicalFault × Position}
    (faulty : tokenize before = .error fault)
    (outside : ∀ position, tokenize before ≠ .error (.unterminatedString, position))
    (body after : String) : tokenize (before ++ "//" ++ body ++ after) = .error fault := by
  obtain ⟨fault, position⟩ := fault
  have notString : ¬(Scanner.initial.scan before.toList).InString := fun inString =>
    outside _ inString.finish
  have stays := Scanner.finish_faulty faulty notString (c := '/') (by decide) (by decide)
    ('/' :: (body.toList ++ after.toList))
  rw [tokenize_commented, ← Scanner.scan_append, ← Scanner.scan_append]
  exact stays

theorem tokenize_recommented {body' : String} {tokens : List Token}
    (scanned : tokenize before = .ok tokens) (ends : after = "" ∨ ∃ rest, after = "\n" ++ rest)
    (inLine : '\n' ∉ body.toList) (noNul : '\x00' ∉ body.toList)
    (inLine' : '\n' ∉ body'.toList) (noNul' : '\x00' ∉ body'.toList) :
    onLines (tokenize (before ++ "//" ++ body ++ after)) =
        onLines (tokenize (before ++ "//" ++ body' ++ after)) ∧
      (after ≠ "" → tokenize (before ++ "//" ++ body ++ after) =
        tokenize (before ++ "//" ++ body' ++ after)) := by
  have inside := Scanner.scan_slashes scanned
  rw [tokenize_commented, tokenize_commented]
  rcases ends with rfl | ⟨rest, rfl⟩
  · rw [String.toList_empty, Scanner.scan_nil, Scanner.scan_nil,
      Scanner.finish_comment inside inLine noNul, Scanner.finish_comment inside inLine' noNul']
    exact ⟨rfl, fun more => absurd rfl more⟩
  · have newline : ("\n" ++ rest).toList = '\n' :: rest.toList := by simp
    rw [newline, Scanner.scan_line inside inLine noNul, Scanner.scan_line inside inLine' noNul']
    exact ⟨rfl, fun _ => rfl⟩

theorem tokenize_nul {clean : String} {tokens : List Token} (scanned : tokenize before = .ok tokens)
    (inLine : '\n' ∉ clean.toList) (noNul : '\x00' ∉ clean.toList) (rest after : String) :
    tokenize (before ++ "//" ++ (clean ++ "\x00" ++ rest) ++ after) =
      .error (.illegalCharacter '\x00', .behind (before ++ "//" ++ clean).toList) := by
  have inside := Scanner.scan_slashes scanned
  have stillInside : (((Scanner.initial.scan before.toList).scan ['/', '/']).scan
      clean.toList).mode = .comment := by
    rw [Scanner.scan_comment inside inLine noNul]
    exact inside
  have stands : (((Scanner.initial.scan before.toList).scan ['/', '/']).scan
      clean.toList).position = .behind (before ++ "//" ++ clean).toList := by
    have reached : (before ++ "//" ++ clean).toList =
        before.toList ++ (['/', '/'] ++ clean.toList) := by simp
    rw [← Scanner.scan_append, ← Scanner.scan_append, Scanner.scan_position, reached]
    exact (Position.behind_append [] _).symm
  have split : (clean ++ "\x00" ++ rest).toList = clean.toList ++ '\x00' :: rest.toList := by simp
  rw [tokenize_commented, split, Scanner.scan_append, ← Scanner.scan_append, List.cons_append,
    Scanner.finish_nul stillInside, stands]

/-- What a text comes to does not depend on what a comment in it says. The comment begins with two
slashes that are not inside a string, so that the text before them is no string left open, and it
ends before a newline or with the text. If the text before it is at fault, so is the whole, in the
same way. Otherwise the tokens are the same on the same lines, or the fault is the same, whatever
other text stands in the comment; if a newline ends it, in the same columns too. But a NUL in the
comment is a fault. -/
theorem tokenize_comment
    (outside : ∀ position, tokenize before ≠ .error (.unterminatedString, position))
    (inLine : '\n' ∉ body.toList) (ends : after = "" ∨ ∃ rest, after = "\n" ++ rest) :
    (∀ fault, tokenize before = .error fault →
      tokenize (before ++ "//" ++ body ++ after) = .error fault) ∧
    ('\x00' ∉ body.toList → ∀ body', '\n' ∉ body'.toList → '\x00' ∉ body'.toList →
      onLines (tokenize (before ++ "//" ++ body ++ after)) =
          onLines (tokenize (before ++ "//" ++ body' ++ after)) ∧
        (after ≠ "" → tokenize (before ++ "//" ++ body ++ after) =
          tokenize (before ++ "//" ++ body' ++ after))) ∧
    ∀ tokens clean rest, tokenize before = .ok tokens → body = clean ++ "\x00" ++ rest →
      '\x00' ∉ clean.toList → tokenize (before ++ "//" ++ body ++ after) =
        .error (.illegalCharacter '\x00', .behind (before ++ "//" ++ clean).toList) := by
  refine ⟨fun _ faulty => tokenize_faulty_commented faulty outside body after, ?_, ?_⟩
  · intro noNul body' inLine' noNul'
    cases scanned : tokenize before with
    | error fault =>
        rw [tokenize_faulty_commented scanned outside body after,
          tokenize_faulty_commented scanned outside body' after]
        exact ⟨rfl, fun _ => rfl⟩
    | ok tokens => exact tokenize_recommented scanned ends inLine noNul inLine' noNul'
  · rintro tokens clean rest scanned rfl noNul
    have cleanLine : '\n' ∉ clean.toList := fun member => inLine (by simp [member])
    exact tokenize_nul scanned cleanLine noNul rest after

end Texts

/-- A comment between lines, after slashes in a string and after one that divides. -/
theorem tokenize_comment_quoted :
    let before := "a = \"//\" /"
    let after := "\n2;"
    (∀ position, tokenize before ≠ .error (.unterminatedString, position)) ∧
      tokenize (before ++ "//" ++ " \"# é // " ++ after) =
        tokenize (before ++ "//" ++ "" ++ after) := by
  intro before after
  have scanned : ∃ tokens, tokenize "a = \"//\" /" = .ok tokens := ⟨_, rfl⟩
  obtain ⟨tokens, isScanned⟩ := scanned
  have outside : ∀ position, tokenize before ≠ .error (.unterminatedString, position) := by
    intro position isFaulty
    rw [isScanned] at isFaulty
    cases isFaulty
  have inLine : '\n' ∉ " \"# é // ".toList := by decide
  have ends : after = "" ∨ ∃ rest, after = "\n" ++ rest := .inr ⟨"2;", rfl⟩
  obtain ⟨-, same, -⟩ := tokenize_comment outside inLine ends
  exact ⟨outside, (same (by decide) "" (by decide) (by decide)).2 (by decide)⟩

/-- A comment that says nothing leaves the number on the next line, but one with a NUL is a
fault. -/
theorem tokenize_comment_nul :
    tokenize "" = .ok [.endOfInput ⟨1, 1⟩] ∧ '\n' ∉ "\x00".toList ∧
      tokenize ("" ++ "//" ++ "" ++ "\n1") =
        .ok [⟨.integer, "1", ⟨2, 1⟩⟩, .endOfInput ⟨2, 2⟩] ∧
      tokenize ("" ++ "//" ++ "\x00" ++ "\n1") =
        .error (.illegalCharacter '\x00', ⟨1, 3⟩) ∧
      onLines (tokenize ("" ++ "//" ++ "\x00" ++ "\n1")) ≠
        onLines (tokenize ("" ++ "//" ++ "" ++ "\n1")) := by
  have empty : tokenize ("" ++ "//" ++ "" ++ "\n1") =
      .ok [⟨.integer, "1", ⟨2, 1⟩⟩, .endOfInput ⟨2, 2⟩] := rfl
  have nul : tokenize ("" ++ "//" ++ "\x00" ++ "\n1") =
      .error (.illegalCharacter '\x00', ⟨1, 3⟩) := rfl
  refine ⟨rfl, by decide, empty, nul, ?_⟩
  rw [empty, nul]
  exact nofun

end Monkey
