import Monkey.Proofs.Program.Isolation

/-!
# A closed block keeps its faults

The statements of a block are read up to the brace that closes it, whatever is wrong with them: a
fault could leave the block only at the end of the input, which no closed block reaches.
-/

set_option autoImplicit false

namespace Monkey

/-- Tokens taken from closed ones and a brace closing them, which do not take that brace. -/
theorem Closed.split {tokens used rest : List Token} {closing : Token} {level : Nat}
    (closed : Closed tokens) (closes : closing.kind = .rightBrace)
    (whole : tokens ++ [closing] = used ++ rest)
    (levels : levelAfter? .statements used 0 = some level) :
    ∃ inside, rest = inside ++ [closing] ∧ tokens = used ++ inside ∧
      levelAfter? .statements inside level = some 0 := by
  rcases List.append_eq_append_iff.mp whole with ⟨beyond, rfl, last⟩ | ⟨inside, rfl, last⟩
  · cases beyond with
    | nil =>
        rw [List.append_nil, closed] at levels
        cases levels
        exact ⟨[], last.symm, by simp, rfl⟩
    | cons token tail =>
        -- The brace itself would be taken outside the braces opened before.
        obtain ⟨rfl, -⟩ := List.cons.inj last
        rw [levelAfter?_append, closed] at levels
        simp [closes, TokenKind.levelAfter?] at levels
  · refine ⟨inside, last, rfl, ?_⟩
    unfold Closed at closed
    rwa [levelAfter?_append, levels] at closed

section Inside

variable {rest : Reading} {inside : List Token} {closing : Token} {level : Nat}

theorem current_ne_endOfInput (closes : closing.kind = .rightBrace)
    (left : rest.tokens = inside ++ [closing])
    (levels : levelAfter? .statements inside level = some 0) :
    rest.current.kind ≠ .endOfInput := by
  intro atEnd
  rw [Reading.current, left] at atEnd
  cases inside with
  | nil =>
      have isEnd : closing.kind = .endOfInput := atEnd
      rw [closes] at isEnd
      cases isEnd
  | cons token tail =>
      have isEnd : token.kind = .endOfInput := atEnd
      simp [isEnd, TokenKind.levelAfter?] at levels

/-- A brace that closes more than has been opened is the one after closed tokens. -/
theorem eq_nil_of_atBrace (left : rest.tokens = inside ++ [closing])
    (levels : levelAfter? .statements inside 0 = some 0)
    (atBrace : rest.current.kind = .rightBrace) : inside = [] := by
  rw [Reading.current, left] at atBrace
  cases inside with
  | nil => rfl
  | cons token tail =>
      have isClosing : token.kind = .rightBrace := atBrace
      simp [isClosing, TokenKind.levelAfter?] at levels

end Inside

namespace Read

variable {inner : Phrases}

/-- How the statements of a closed block end: at its closing brace, unless they hold an integer that
is not read as a number or nest too deeply. -/
def Contained (tokens : List Token) (closing : Token) (depth : Nat) (found : List Diagnostic) :
    EStateM.Result ReadFailure Reading (List Stmt) → Prop
  | .ok _ rest => ∃ errors, rest = ⟨[closing], depth, found ++ errors⟩ ∧
      (blames errors).Sublist (positions (tokens ++ [closing]))
  | .error (.numeral unread) _ => ∃ token ∈ tokens, token.kind = .integer ∧
      Text.readInteger token.text = .error unread
  | .error .tooDeep _ => True
  | .error (.fault ..) _ => False

theorem blockStatements_contained (nested : inner.Span) {tokens : List Token} {closing : Token}
    (closed : Closed tokens) (closes : closing.kind = .rightBrace) (depth : Nat)
    (found : List Diagnostic) (done : List Stmt) {budget : Nat}
    (enough : tokens.length + 1 < budget) :
    Contained tokens closing depth found
      (blockStatements inner.statement depth budget done ⟨tokens ++ [closing], depth, found⟩) := by
  have spans := blockStatements_spans nested depth budget done
    ⟨tokens ++ [closing], depth, found⟩ rfl (by simpa using enough)
  cases result : blockStatements inner.statement depth budget done
      ⟨tokens ++ [closing], depth, found⟩ with
  | ok statements rest =>
      rw [result] at spans
      obtain ⟨atBrace, used, errors, takes, blamed⟩ := spans
      obtain ⟨inside, left, whole, levels⟩ := closed.split closes takes.tokens takes.level
      obtain rfl := eq_nil_of_atBrace left levels atBrace
      obtain ⟨restTokens, restDepth, restFound⟩ := rest
      obtain rfl : restTokens = [closing] := left
      obtain rfl : restDepth = depth := takes.depth depth rfl
      obtain rfl : restFound = found ++ errors := takes.diagnostics
      refine ⟨errors, rfl, ?_⟩
      rw [List.append_nil] at whole
      rw [whole]
      exact blamed
  | error failure rest =>
      rw [result] at spans
      obtain ⟨⟨used, errors, level, takes, arises, -⟩, exhausted⟩ := spans
      obtain ⟨inside, left, whole, levels⟩ := closed.split closes takes.tokens takes.level
      cases failure with
      | tooDeep => trivial
      | numeral unread =>
          obtain ⟨token, member, numeral⟩ := arises
          exact ⟨token, whole ▸ List.mem_append_left inside member, numeral⟩
      | fault fault position =>
          have atEnd := exhausted (by simp [ReadFailure.blamed])
          exact current_ne_endOfInput closes left levels atEnd

/-- A block at top level is read as the statements after its opening brace and what closes them. -/
theorem statement_block {opening : Token} (opens : opening.kind = .leftBrace) (tail : List Token)
    (found : List Diagnostic) :
    statement inner ⟨opening :: tail, 0, found⟩ =
      (do
        let statements ← blockStatements inner.statement 1 (tail.length + 1) []
        let _ ← advance
        let _ ← accept .semicolon
        pure (Stmt.block (.mk opening.position statements))) ⟨tail, 1, found⟩ := by
  have here : (Reading.mk (opening :: tail) 0 found).current = opening := rfl
  have past : (Reading.mk (opening :: tail) 0 found).advance = ⟨tail, 1, found⟩ := by
    simp [Reading.advance, opens, TokenKind.depthAfter]
  simp only [statement, blockStmt, block, bind_assoc, pure_bind]
  rw [bind_apply]
  simp only [Read.current, here, opens]
  rw [bind_apply, expect_apply, here, if_pos opens, past]
  rfl

theorem statement_closed_block (nested : inner.Span) (isLocal : inner.Local)
    {tokens following : List Token} {opening closing : Token} (opens : opening.kind = .leftBrace)
    (closes : closing.kind = .rightBrace)
    (noSemicolon : following.head?.map Token.kind ≠ some .semicolon) {statements : List Stmt}
    {found errors : List Diagnostic}
    (result : blockStatements inner.statement 1 (tokens.length + 2) []
      ⟨tokens ++ [closing], 1, found⟩ = .ok statements ⟨[closing], 1, errors⟩) :
    statement inner ⟨opening :: (tokens ++ closing :: following), 0, found⟩ =
      .ok (.block (.mk opening.position statements)) ⟨following, 0, errors⟩ := by
  have loop := blockStatements_local nested isLocal 1 [] (tokens.length + 1)
    ⟨tokens ++ [closing], 1, found⟩ rfl (by simp)
  have carried := loop.carries [] following (tokens ++ closing :: following).length
    (by simp; omega) (by rw [result]; exact .inl (List.cons_ne_nil _ _))
  have longer : Reading.extend [] following ⟨tokens ++ [closing], 1, found⟩ =
      ⟨tokens ++ closing :: following, 1, found⟩ := by simp [Reading.extend]
  rw [result, longer] at carried
  have past : (Reading.mk (closing :: following) 1 errors).advance = ⟨following, 0, errors⟩ := by
    simp [Reading.advance, closes, TokenKind.depthAfter]
  have refused : (Reading.mk following 0 errors).current.kind ≠ .semicolon := by
    intro semicolon
    cases following with
    | nil => cases semicolon
    | cons next rest => exact noSemicolon (congrArg some semicolon)
  have left : Reading.extend [] following ⟨[closing], 1, errors⟩ =
      ⟨closing :: following, 1, errors⟩ := rfl
  rw [statement_block opens, bind_apply, carried]
  simp only [extendResult, left, bind_apply, Read.advance, past, accept_apply]
  rw [if_neg refused]
  rfl

end Read

/-! ## Blocks at top level -/

namespace Program

variable {limit : Nat}

theorem current_opening {opening : Token} (opens : opening.kind = .leftBrace)
    (rest : List Token) : (Reading.mk (opening :: rest) 0 []).current.kind ≠ .endOfInput := by
  intro atEnd
  have isEnd : opening.kind = .endOfInput := atEnd
  rw [opens] at isEnd
  cases isEnd

theorem forall_isReadable_block {opening closing : Token} (opens : opening.kind = .leftBrace)
    (closes : closing.kind = .rightBrace) {tokens : List Token}
    (readable : ∀ token ∈ tokens, token.IsReadable) :
    ∀ token ∈ opening :: (tokens ++ [closing]), token.IsReadable := by
  simpa [Token.IsReadable, opens, closes, or_imp, forall_and] using readable

/-- Nothing is read that does not nest at all. -/
theorem not_shallow_zero {tokens : List Token}
    (notEnded : (Reading.mk tokens 0 []).current.kind ≠ .endOfInput)
    (readable : ∀ token ∈ tokens, token.IsReadable) : ¬ Shallow tokens 0 :=
  ofTokens_tooDeep readable notEnded rfl

theorem blockStatements_closed {opening closing : Token} (opens : opening.kind = .leftBrace)
    (closes : closing.kind = .rightBrace) {tokens : List Token} (closed : Closed tokens)
    (readable : ∀ token ∈ tokens, token.IsReadable)
    (shallow : Shallow (opening :: (tokens ++ [closing])) (limit + 1)) :
    ∃ statements errors,
      Read.blockStatements (phrases limit).statement 1 (tokens.length + 2) []
        ⟨tokens ++ [closing], 1, []⟩ = .ok statements ⟨[closing], 1, errors⟩ ∧
      (blames errors).Sublist (positions (tokens ++ [closing])) := by
  have contained := Read.blockStatements_contained (phrases_span limit) closed closes 1
    [] [] (Nat.lt_succ_self (tokens.length + 1))
  cases result : Read.blockStatements (phrases limit).statement 1 (tokens.length + 2)
      [] ⟨tokens ++ [closing], 1, []⟩ with
  | ok statements rest =>
      rw [result] at contained
      obtain ⟨errors, rfl, blamed⟩ := contained
      exact ⟨statements, errors, rfl, blamed⟩
  | error failure rest =>
      rw [result] at contained
      cases failure with
      | fault fault position => exact contained.elim
      | numeral unread =>
          obtain ⟨token, member, isInteger, unreadable⟩ := contained
          obtain ⟨value, read⟩ := readable token member isInteger
          rw [read] at unreadable
          cases unreadable
      | tooDeep =>
          have failed : (phrases (limit + 1)).statement
              ⟨opening :: (tokens ++ [closing]), 0, []⟩ = .error .tooDeep rest := by
            show Read.statement (phrases limit) _ = _
            rw [Read.statement_block opens, Read.bind_apply]
            simp only [List.length_append, List.length_singleton, result]
          exact absurd shallow (ofTokens_tooDeep (forall_isReadable_block opens closes readable)
            (current_opening opens _) failed)

/-- Damage containment: a closed block comes to one block statement, whatever is wrong in it and
whatever follows it; its faults are blamed on its own tokens, each on a later one than the fault
before; and what follows is read as it is alone. -/
theorem ofTokens_block {opening closing : Token} (opens : opening.kind = .leftBrace)
    (closes : closing.kind = .rightBrace) {tokens : List Token} (closed : Closed tokens)
    (readable : ∀ token ∈ tokens, token.IsReadable)
    (shallow : Shallow (opening :: (tokens ++ [closing])) limit) :
    ∃ statements errors, (blames errors).Sublist (positions (tokens ++ [closing])) ∧
      ∀ following, following.head?.map Token.kind ≠ some .semicolon →
        (∀ token ∈ following, token.IsReadable) →
        ∃ tail, ofTokens following limit = .ok tail ∧
          ofTokens (opening :: (tokens ++ closing :: following)) limit =
            .ok ⟨⟨opening.position,
              .block (.mk opening.position statements) :: tail.program.statements⟩,
              errors ++ tail.diagnostics⟩ := by
  obtain _ | limit := limit
  · exact absurd shallow (not_shallow_zero (current_opening opens _)
      (forall_isReadable_block opens closes readable))
  obtain ⟨statements, errors, result, blamed⟩ :=
    blockStatements_closed opens closes closed readable shallow
  refine ⟨statements, errors, blamed, ?_⟩
  intro following noSemicolon readableAfter
  obtain ⟨tail, after⟩ := ofTokens_ok (limit + 1) following readableAfter
  have first : (phrases (limit + 1)).statement
      ⟨opening :: (tokens ++ closing :: following), 0, []⟩ =
        .ok (.block (.mk opening.position statements)) ⟨following, 0, errors⟩ :=
    Read.statement_closed_block (phrases_span _) (phrases_local _) opens closes noSemicolon result
  refine ⟨tail, after, ?_⟩
  rw [ofTokens_round (current_opening opens _)]
  simp only [Read.round, first, after]
  rfl

/-- A block with a fault in it, before a statement. -/
theorem ofTokens_block_faulty :
    let opening : Token := ⟨.leftBrace, "\x7b", ⟨1, 1⟩⟩
    let star : Token := ⟨.star, "*", ⟨1, 3⟩⟩
    let closing : Token := ⟨.rightBrace, "\x7d", ⟨1, 7⟩⟩
    let tokens : List Token := [star, ⟨.semicolon, ";", ⟨1, 4⟩⟩, ⟨.kwNil, "nil", ⟨1, 6⟩⟩]
    let following : List Token := [⟨.kwTrue, "true", ⟨1, 9⟩⟩]
    Closed tokens ∧ (∀ token ∈ tokens ++ following, token.IsReadable) ∧
      Shallow (opening :: (tokens ++ [closing])) ∧
      ∃ statements errors, (blames errors).Sublist (positions (tokens ++ [closing])) ∧
        ∃ tail, ofTokens following = .ok tail ∧
          ofTokens (opening :: (tokens ++ closing :: following)) =
            .ok ⟨⟨opening.position,
              .block (.mk opening.position statements) :: tail.program.statements⟩,
              errors ++ tail.diagnostics⟩ := by
  intro opening star closing tokens following
  have closed : Closed tokens := by decide
  have readable : ∀ token ∈ tokens ++ following, token.IsReadable := by
    simp [tokens, star, following, Token.IsReadable]
  have alone : ofTokens (opening :: (tokens ++ [closing])) =
      .ok ⟨⟨opening.position,
        [.block (.mk opening.position [.expr ⟨1, 6⟩ (.leaf ⟨.kwNil, "nil", ⟨1, 6⟩⟩)])]⟩,
        [⟨.syntactic (.noExpression star), star.position⟩]⟩ := rfl
  have shallow : Shallow (opening :: (tokens ++ [closing])) := by
    intro parsed result diagnostic member
    rw [alone] at result
    cases result
    obtain rfl : diagnostic = _ := List.mem_singleton.mp member
    intro same
    cases same
  have inside : ∀ token ∈ tokens, token.IsReadable :=
    fun token member => readable token (List.mem_append_left following member)
  have outside : ∀ token ∈ following, token.IsReadable :=
    fun token member => readable token (List.mem_append_right tokens member)
  have noSemicolon : following.head?.map Token.kind ≠ some .semicolon := by decide
  obtain ⟨statements, errors, blamed, goesOn⟩ := ofTokens_block rfl rfl closed inside shallow
  exact ⟨closed, readable, shallow, statements, errors, blamed,
    goesOn following noSemicolon outside⟩

end Program

end Monkey
