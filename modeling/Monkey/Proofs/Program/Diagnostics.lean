import Monkey.Proofs.Program.Leaves
import Monkey.Proofs.Token.Order

/-!
# Diagnostics come in order, once each

Everything found wrong with a text is blamed on one of its tokens, or on its end, and each
diagnostic on a later one than the diagnostic before. Some token of a statement is always left that
nothing is blamed on if the end of the input is.
-/

set_option autoImplicit false

namespace Monkey

/-- Reading has taken tokens before the end of the input. What it has recorded is blamed on them in
their order, and at the end of the input possibly on that as well. -/
structure Reading.Blames (used : List Token) (found : List Diagnostic) (reading rest : Reading) :
    Prop where
  tokens : reading.tokens = used ++ rest.tokens
  diagnostics : rest.diagnostics = reading.diagnostics ++ found
  notEnd : ∀ token ∈ used, token.kind ≠ .endOfInput
  blamed : (blames found).Sublist (positions (used ++ [rest.current]))
  behind : rest.current.kind ≠ .endOfInput → (blames found).Sublist (positions used)
  fewer : found.length ≤ used.length

namespace Reading

theorem Blames.refl (reading : Reading) : reading.Blames [] [] reading :=
  ⟨rfl, by simp, by simp, by simp, by simp, Nat.le_refl _⟩

theorem Blames.trans {used usedAfter : List Token} {found foundAfter : List Diagnostic}
    {reading between rest : Reading} (head : reading.Blames used found between)
    (behind : between.current.kind ≠ .endOfInput)
    (tail : between.Blames usedAfter foundAfter rest) :
    reading.Blames (used ++ usedAfter) (found ++ foundAfter) rest where
  tokens := by simp [head.tokens, tail.tokens]
  diagnostics := by simp [head.diagnostics, tail.diagnostics]
  notEnd := by simpa [or_imp, forall_and] using ⟨head.notEnd, tail.notEnd⟩
  blamed := by simpa using (head.behind behind).append tail.blamed
  behind notEnded := by simpa using (head.behind behind).append (tail.behind notEnded)
  fewer := by simpa using Nat.add_le_add head.fewer tail.fewer

/-- A statement that has been read is blamed on its own tokens. -/
theorem Spanned.blames {extent : Extent} {moves : Bool} {first last : Nat}
    {reading rest : Reading} (spanned : reading.Spanned extent moves first last rest) :
    ∃ used found, reading.Blames used found rest := by
  obtain ⟨used, found, takes, blamed, -⟩ := spanned
  refine ⟨used, found, takes.tokens, takes.diagnostics, levelAfter?_notEnd takes.level, ?_,
    fun _ => blamed, by simpa [Monkey.blames, positions] using blamed.length_le⟩
  exact blamed.trans (by simp)

/-- A statement that could not be read is blamed on its own tokens, on those skipped after them, or
on the end of the input. Then its first token is not blamed. -/
theorem Broken.blames {reading rest : Reading} {fault : SyntaxFault} {position : Position}
    (broken : reading.Broken .phrase 0 (.fault fault position) rest) (spares : reading.Spares rest)
    (notEnded : reading.current.kind ≠ .endOfInput) :
    ∃ used found, reading.Blames used (found ++ [⟨.syntactic fault, position⟩])
      (rest.restarted ⟨.syntactic fault, position⟩) := by
  obtain ⟨used, found, level, takes, -, blamed⟩ := broken
  obtain ⟨skipped, split, notEnd, unmoved⟩ := skipStatement_drops rest.tokens rest.depth
  have counts := takes.counts
  have within : (Monkey.blames (found ++ [⟨.syntactic fault, position⟩])).Sublist
      (positions (used ++ [rest.current])) := by
    simpa [ReadFailure.blamed] using blamed
  have behind : skipped ≠ [] → (Monkey.blames (found ++ [⟨.syntactic fault, position⟩])).Sublist
      (positions (used ++ skipped)) := by
    intro moved
    cases skipped with
    | nil => exact absurd rfl moved
    | cons token tail =>
        have first : rest.current = token := by
          rw [Reading.current, split]
          rfl
        exact within.trans (by simp [first])
  refine ⟨used ++ skipped, found, ?_, ?_, ?_, blamed_resumed split within, ?_, ?_⟩
  · rw [takes.tokens, List.append_assoc]
    exact congrArg (used ++ ·) split
  · simp [Reading.restarted, takes.diagnostics]
  · simpa [or_imp, forall_and] using ⟨levelAfter?_notEnd takes.level, notEnd⟩
  · intro going
    refine behind fun stopped => going ?_
    subst stopped
    have same : (rest.restarted ⟨.syntactic fault, position⟩).current = rest.current :=
      congrArg (fun tokens => tokens.headD (.endOfInput .unknown)) split.symm
    rw [same]
    exact unmoved rfl
  · by_cases stopped : skipped = []
    · have moved : used ≠ [] := by
        rintro rfl
        have same : reading.current = rest.current := by simp [Reading.current, takes.tokens]
        exact notEnded (same ▸ unmoved stopped)
      have taken := List.length_pos_iff.mpr moved
      unfold Spares at spares
      simp [stopped]
      omega
    · simpa [Monkey.blames, positions] using (behind stopped).length_le

end Reading

namespace Read

theorem round_blames (limit : Nat) {reading rest : Reading} {read : List Stmt}
    (notEnded : reading.current.kind ≠ .endOfInput)
    (shallow : ∀ diagnostic ∈ rest.diagnostics, diagnostic.fault ≠ .syntactic .nestedTooDeeply)
    (result : round (phrases limit).statement reading = .ok read rest) :
    ∃ used found, reading.Blames used found rest := by
  have spans := (phrases_span limit).statement true reading
  simp only [round] at result
  cases ran : (phrases limit).statement reading with
  | ok stmt after =>
      rw [ran] at result
      cases result
      exact (spans.ok ran).blames
  | error failure after =>
      rw [ran] at result
      cases failure with
      | numeral unread => cases result
      | fault fault position =>
          cases result
          have spares := ((phrases_yield limit).statement reading).error ran (by
            simp [ReadFailure.blamed])
          obtain ⟨used, found, blames⟩ := (spans.error ran).blames spares notEnded
          exact ⟨used, _, blames⟩
      | tooDeep =>
          cases result
          exact absurd rfl (shallow ⟨.syntactic .nestedTooDeeply, after.current.position⟩ (by
            simp [Reading.restarted]))

theorem programStatements_blames (limit budget : Nat) (done : List Stmt) {reading rest : Reading}
    {statements : List Stmt} (enough : reading.tokens.length < budget)
    (shallow : ∀ diagnostic ∈ rest.diagnostics, diagnostic.fault ≠ .syntactic .nestedTooDeeply)
    (result : programStatements (phrases limit).statement budget done reading =
      .ok statements rest) :
    ∃ used found, reading.Blames used found rest := by
  induction budget generalizing done reading with
  | zero => omega
  | succ budget ih =>
      by_cases ended : reading.current.kind = .endOfInput
      · rw [programStatements_ended _ _ _ ended] at result
        cases result
        exact ⟨[], [], .refl _⟩
      rw [programStatements_succ _ _ _ ended, bind_apply] at result
      cases ran : round (phrases limit).statement reading with
      | error failure between =>
          rw [ran] at result
          cases result
      | ok read between =>
          rw [ran] at result
          have going : programStatements (phrases limit).statement budget (read ++ done) between =
              .ok statements rest := result
          have shorter := (round_progress limit ended ran).2
          obtain ⟨usedAfter, foundAfter, later⟩ := ih (read ++ done) (by omega) going
          have earlierShallow : ∀ diagnostic ∈ between.diagnostics,
              diagnostic.fault ≠ .syntactic .nestedTooDeeply := fun diagnostic member =>
            shallow diagnostic (later.diagnostics ▸ List.mem_append_left _ member)
          obtain ⟨used, found, head⟩ := round_blames limit ended earlierShallow ran
          by_cases atEnd : between.current.kind = .endOfInput
          · obtain ⟨rounds, rfl⟩ : ∃ rounds, budget = rounds + 1 := ⟨budget - 1, by omega⟩
            rw [programStatements_ended _ _ _ atEnd] at going
            cases going
            exact ⟨used, found, head⟩
          · exact ⟨_, _, head.trans atEnd later⟩

end Read

namespace Program

variable {limit : Nat}

/-- What is wrong with tokens up to the end of the input is blamed on them in their order, the end
included, and there is a token for each diagnostic. -/
theorem ofTokens_blames {leading : List Token} {ending : Token}
    (notEnd : ∀ token ∈ leading, token.kind ≠ .endOfInput) (atEnd : ending.kind = .endOfInput)
    (shallow : Shallow (leading ++ [ending]) limit) {parsed : Parsed}
    (result : ofTokens (leading ++ [ending]) limit = .ok parsed) :
    (blames parsed.diagnostics).Sublist (positions (leading ++ [ending])) ∧
      parsed.diagnostics.length ≤ leading.length := by
  have limited := shallow parsed result
  rw [ofTokens_eq] at result
  cases ran : Read.programStatements (phrases limit).statement
      ((leading ++ [ending]).length + 1) [] ⟨leading ++ [ending], 0, []⟩ with
  | error failure rest =>
      obtain ⟨unread, rfl, -⟩ := Read.programStatements_error limit _ _ ran
      rw [ran] at result
      cases result
  | ok statements rest =>
      have ended := (Read.programStatements_keeps limit _ _ (Nat.lt_succ_self _) ran).2
      rw [ran] at result
      cases result
      obtain ⟨used, found, inside⟩ :=
        Read.programStatements_blames limit _ _ (Nat.lt_succ_self _) limited ran
      have split : leading ++ [ending] = used ++ rest.tokens := inside.tokens
      have whole : beforeEnd (leading ++ [ending]) = leading := beforeEnd_append notEnd atEnd
      rw [split, beforeEnd_append inside.notEnd ended] at whole
      subst whole
      have here : rest.current = ending := by
        rw [Reading.current, ← List.append_cancel_left split]
        rfl
      have recorded : rest.diagnostics = found := inside.diagnostics
      rw [recorded, ← here]
      exact ⟨inside.blamed, inside.fewer⟩

/-- Diagnostics come in the order of the text, each blamed on a token or on the end of the input and
no two on the same, and there are no more of them than tokens before the end. -/
theorem ofSource_diagnostics {source : String} {tokens : List Token}
    (scanned : tokenize source = .ok tokens)
    (fits : ∀ token ∈ tokens, token.kind = .integer → token.text.length ≤ Text.digitLimit)
    (shallow : Shallow tokens limit) :
    ∃ parsed, ofSource source limit = .ok parsed ∧
      (blames parsed.diagnostics).Sublist (positions tokens) ∧
      (positions tokens).Pairwise Position.Before ∧
      (blames parsed.diagnostics).Pairwise Position.Before ∧
      parsed.diagnostics.length ≤ tokens.countP (·.kind ≠ .endOfInput) := by
  obtain ⟨parsed, read⟩ := ofTokens_ok limit tokens fun token member =>
    .of_isSpelt (tokenize_isSpelt scanned token member) (fits token member)
  have ordered : (positions tokens).Pairwise Position.Before :=
    List.pairwise_map.mpr (tokenize_ordered scanned)
  have parses : ofSource source limit = .ok parsed := by
    unfold ofSource
    rw [scanned]
    exact read
  obtain ⟨leading, position, rfl, spelt⟩ := tokenize_spelt scanned
  have notEnd : ∀ token ∈ leading, token.kind ≠ .endOfInput :=
    fun token member => (spelt token member).1
  obtain ⟨blamed, fewer⟩ := ofTokens_blames notEnd rfl shallow read
  have counted : (leading ++ [Token.endOfInput position]).countP (·.kind ≠ .endOfInput) =
      leading.length := by
    rw [List.countP_append, List.countP_eq_length.mpr (by simpa using notEnd)]
    rfl
  exact ⟨parsed, parses, blamed, ordered, ordered.sublist blamed, counted ▸ fewer⟩

/-- A fault in a statement and one at the end of the input. -/
theorem ofSource_diagnostics_twice :
    let tokens : List Token := [⟨.rightParen, ")", ⟨1, 1⟩⟩, ⟨.integer, "1", ⟨1, 2⟩⟩,
      ⟨.semicolon, ";", ⟨1, 3⟩⟩, ⟨.bang, "!", ⟨2, 1⟩⟩, .endOfInput ⟨2, 2⟩]
    tokenize ")1;\n!" = .ok tokens ∧
      (∀ token ∈ tokens, token.kind = .integer → token.text.length ≤ Text.digitLimit) ∧
      Shallow tokens ∧
      ∃ parsed, ofSource ")1;\n!" = .ok parsed ∧
        blames parsed.diagnostics = [⟨1, 1⟩, ⟨2, 2⟩] ∧
        (blames parsed.diagnostics).Sublist (positions tokens) ∧
        (positions tokens).Pairwise Position.Before ∧
        (blames parsed.diagnostics).Pairwise Position.Before ∧
        parsed.diagnostics.length ≤ tokens.countP (·.kind ≠ .endOfInput) := by
  intro tokens
  have scanned : tokenize ")1;\n!" = .ok tokens := rfl
  have fits : ∀ token ∈ tokens, token.kind = .integer →
      token.text.length ≤ Text.digitLimit := by decide
  have read : ofTokens tokens = .ok ⟨⟨⟨1, 1⟩, []⟩,
      [⟨.syntactic (.noExpression ⟨.rightParen, ")", ⟨1, 1⟩⟩), ⟨1, 1⟩⟩,
        ⟨.syntactic (.noExpression (.endOfInput ⟨2, 2⟩)), ⟨2, 2⟩⟩]⟩ := rfl
  have shallow : Shallow tokens := by
    intro parsed result
    cases read.symm.trans result
    decide
  obtain ⟨parsed, parses, ordered⟩ := ofSource_diagnostics scanned fits shallow
  have blamed : blames parsed.diagnostics = [⟨1, 1⟩, ⟨2, 2⟩] := by
    have same : ofSource ")1;\n!" = ofTokens tokens := rfl
    cases (same.trans read).symm.trans parses
    rfl
  exact ⟨scanned, fits, shallow, parsed, parses, blamed, ordered⟩

end Program

end Monkey
