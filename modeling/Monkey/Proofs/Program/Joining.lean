import Monkey.Proofs.Program.Placement
import Monkey.Proofs.Token.Division
import Monkey.Proofs.Token.Joining

/-!
# Programs that are put together

A text with nothing wrong with it closes all the braces it opens. So where its last token is a
semicolon, the statements of what follows are read as they are alone, in other places.
-/

set_option autoImplicit false

namespace Monkey

theorem Closed.append {leading trailing : List Token} (first : Closed leading)
    (second : Closed trailing) : Closed (leading ++ trailing) := by
  unfold Closed at first second ⊢
  rwa [levelAfter?_append, first]

/-- Closed tokens go no further than the end of the input. -/
theorem Closed.eq_of_ended {tokens leading trailing : List Token} {ending : Token}
    (closed : Closed leading) (notEnd : ∀ token ∈ tokens, token.kind ≠ .endOfInput)
    (ended : ending.kind = .endOfInput) (split : tokens ++ [ending] = leading ++ trailing)
    (atEnd : (Reading.mk trailing 0 []).current.kind = .endOfInput) : leading = tokens := by
  have noEnd := ((closed_iff leading).mp closed).1
  rcases List.append_eq_append_iff.mp split with ⟨beyond, rfl, last⟩ | ⟨inside, rfl, last⟩
  · cases beyond with
    | nil => rw [List.append_nil]
    | cons token others =>
        obtain ⟨rfl, -⟩ := List.cons.inj last
        exact absurd ended (noEnd _ (by simp))
  · cases inside with
    | nil => rw [List.append_nil]
    | cons token others =>
        subst last
        exact absurd atEnd (notEnd token (by simp))

namespace Program

variable {limit : Nat}

/-- Of a program with nothing wrong with it, the first statement is read with nothing wrong with it,
and then such a program. -/
theorem reads_of_clean {tokens : List Token} {parsed : Parsed}
    (notEnded : (Reading.mk tokens 0 []).current.kind ≠ .endOfInput)
    (result : ofTokens tokens limit = .ok parsed) (clean : parsed.diagnostics = []) :
    ∃ stmt rest parsed', (phrases limit).statement ⟨tokens, 0, []⟩ = .ok stmt rest ∧
      rest.diagnostics = [] ∧ ofTokens rest.tokens limit = .ok parsed' ∧
      parsed'.diagnostics = [] := by
  rw [ofTokens_round notEnded, Read.round] at result
  cases ran : (phrases limit).statement ⟨tokens, 0, []⟩ with
  | ok stmt rest =>
      rw [ran] at result
      obtain ⟨parsed', after, rfl⟩ := Parsed.of_map_append result
      obtain ⟨here, later⟩ := List.append_eq_nil_iff.mp clean
      exact ⟨stmt, rest, parsed', rfl, here, after, later⟩
  | error failure rest =>
      rw [ran] at result
      cases failure with
      | numeral unread => cases result
      | fault fault position =>
          obtain ⟨parsed', -, rfl⟩ := Parsed.of_map_append result
          simp [Parsed.append, Reading.restarted] at clean
      | tooDeep =>
          obtain ⟨parsed', -, rfl⟩ := Parsed.of_map_append result
          simp [Parsed.append, Reading.restarted] at clean

theorem tokens_of_clean {source : String} {parsed : Parsed}
    (read : ofSource source limit = .ok parsed) (clean : parsed.diagnostics = []) :
    ∃ tokens, tokenize source = .ok tokens ∧ ofTokens tokens limit = .ok parsed := by
  unfold ofSource at read
  cases scanned : tokenize source with
  | error failure =>
      rw [scanned] at read
      cases read
      cases clean
  | ok tokens =>
      rw [scanned] at read
      exact ⟨tokens, rfl, read⟩

theorem statement_of_clean {tokens : List Token} {parsed : Parsed}
    (notEnded : (Reading.mk tokens 0 []).current.kind ≠ .endOfInput)
    (result : ofTokens tokens limit = .ok parsed) (clean : parsed.diagnostics = []) :
    ∃ used rest parsed', tokens = used ++ rest ∧ used ≠ [] ∧ Closed used ∧
      ofTokens rest limit = .ok parsed' ∧ parsed'.diagnostics = [] := by
  obtain ⟨stmt, rest, parsed', ran, -, after, later⟩ := reads_of_clean notEnded result clean
  have spans := (phrases_span limit).statement true ⟨tokens, 0, []⟩
  obtain ⟨used, found, takes, -, moved⟩ := spans.ok ran
  exact ⟨used, rest.tokens, parsed', takes.tokens, moved rfl, takes.level, after, later⟩

/-- Tokens with nothing wrong with them are closed up to the end of the input. -/
theorem closed_of_clean {tokens : List Token} {parsed : Parsed}
    (result : ofTokens tokens limit = .ok parsed) (clean : parsed.diagnostics = []) :
    ∃ leading rest, tokens = leading ++ rest ∧ Closed leading ∧
      (Reading.mk rest 0 []).current.kind = .endOfInput := by
  by_cases ended : (Reading.mk tokens 0 []).current.kind = .endOfInput
  · exact ⟨[], tokens, rfl, rfl, ended⟩
  obtain ⟨used, rest, parsed', rfl, moved, closed, after, later⟩ :=
    statement_of_clean ended result clean
  have shorter : rest.length < (used ++ rest).length := by
    simpa using List.length_pos_iff.mpr moved
  obtain ⟨others, left, rfl, othersClosed, atEnd⟩ := closed_of_clean after later
  exact ⟨used ++ others, left, (List.append_assoc used others left).symm,
    closed.append othersClosed, atEnd⟩
termination_by tokens.length

/-- A text put before another one, if nothing is wrong with either and the first ends in a
semicolon: the program is that of the first, and then that of the second in other places. -/
theorem ofSource_joined {source source' : String} {tokens : List Token} {parsed parsed' : Parsed}
    (scanned : tokenize source = .ok tokens) (ends : EndsInSemicolon tokens.dropLast)
    (read : ofSource source limit = .ok parsed) (clean : parsed.diagnostics = [])
    (read' : ofSource source' limit = .ok parsed') (clean' : parsed'.diagnostics = []) :
    ∃ placed : Parsed, ofSource (source ++ "\n" ++ source') limit = .ok (parsed.append placed) ∧
      List.Forall₂ Stmt.Same parsed'.program.statements placed.program.statements ∧
      placed.diagnostics = [] := by
  obtain ⟨leading, position, rfl, spelt⟩ := tokenize_spelt scanned
  rw [List.dropLast_concat] at ends
  rw [ofSource, scanned] at read
  dsimp only at read
  cases scanned' : tokenize source' with
  | error failure =>
      rw [ofSource, scanned'] at read'
      cases read'
      cases clean'
  | ok tokens' =>
      rw [ofSource, scanned'] at read'
      dsimp only at read'
      obtain ⟨placed, joined, same⟩ := tokenize_joined scanned scanned'
      rw [List.dropLast_concat] at joined
      obtain ⟨found, trailing, split, closed, atEnd⟩ := closed_of_clean read clean
      have notEnd : ∀ token ∈ leading, token.kind ≠ .endOfInput :=
        fun token member => (spelt token member).1
      obtain rfl := closed.eq_of_ended notEnd rfl split atEnd
      obtain ⟨parsedPlaced, placedRead, statements, found⟩ := ofTokens_alike same read'
      refine ⟨parsedPlaced, ?_, statements, ?_⟩
      · have ended : (Token.endOfInput position).kind = .endOfInput := rfl
        have alone := (ofTokens_append limit closed ends ended placed).1
        rw [ofSource, joined]
        dsimp only
        rw [alone, read, placedRead]
        rfl
      · rw [clean'] at found
        exact List.length_eq_zero_iff.mp found.symm

end Program

end Monkey
