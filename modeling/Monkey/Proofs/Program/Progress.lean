import Monkey.Proofs.Grammar.Ending
import Monkey.Proofs.Program.Leaves

/-!
# Reading always makes progress

Whatever the tokens are, a program is read to their end. Every statement that is read or skipped at
the top takes a token, outside all braces, and so does every statement of a block, unless the block
is left: at its brace, at the end of the input or at the limit of nesting. The end of the input is
never taken, and nothing is taken where there is nothing left.
-/

set_option autoImplicit false

namespace Monkey

/-! ## The loop over a program -/

theorem skipStatement_ending (tokens : List Token) (depth : Nat) :
    skipStatement (tokens ++ [lastToken]) depth = skipStatement tokens depth ++ [lastToken] := by
  fun_induction skipStatement tokens depth with
  | case1 => rfl
  | case2 token rest depth ended => simp [skipStatement, ended]
  | case3 token rest depth notEnd _ inside ih =>
      rw [List.cons_append, skipStatement_inside notEnd inside, ih]
  | case4 token depth notEnd _ outside closing next after semicolon =>
      exact skipStatement_closing_semicolon closing (Nat.eq_zero_of_not_pos outside) semicolon _
  | case5 token depth notEnd _ outside closing next after following =>
      exact skipStatement_closing closing (Nat.eq_zero_of_not_pos outside) following _
  | case6 token depth notEnd _ outside closing =>
      exact skipStatement_closing closing (Nat.eq_zero_of_not_pos outside) (by decide) []
  | case7 token rest depth notEnd _ outside _ semicolon =>
      exact skipStatement_semicolon semicolon (Nat.eq_zero_of_not_pos outside) _
  | case8 token rest depth notEnd _ outside closing semicolon ih =>
      have atTop := Nat.eq_zero_of_not_pos outside
      rw [List.cons_append, skipStatement_other notEnd closing semicolon atTop, ← atTop]
      exact ih

namespace Read

/-- The loop over the statements of a program. -/
def programLoop (statement : Read Stmt) : Loop (List Stmt) (List Stmt) where
  goesOn kind := kind ≠ .endOfInput
  round done := do
    let read ← round statement
    pure (read ++ done)
  finish := List.reverse

theorem programLoop_unrolls (statement : Read Stmt) :
    (programLoop statement).Unrolls (programStatements statement) := by
  constructor
  · intro rounds done reading halted
    cases rounds with
    | zero => rfl
    | succ rounds => exact programStatements_ended _ _ _ (Decidable.not_not.mp halted)
  · intro rounds done reading goes
    rw [programStatements_succ _ _ _ goes]
    show _ = ((round statement >>= fun read => pure (read ++ done)) >>=
      programStatements statement rounds) reading
    rw [bind_assoc]
    rfl

theorem round_advances (limit : Nat) {reading rest : Reading} {read : List Stmt}
    (notEnded : reading.current.kind ≠ .endOfInput)
    (ran : round (phrases limit).statement reading = .ok read rest) : reading.Advances rest := by
  obtain ⟨used, found, kept, selects, -⟩ := round_keeps limit ran
  exact .of_length_lt selects.tokens selects.notEnd (round_progress limit notEnded ran).2

theorem programLoop_round {limit : Nat} {done next : List Stmt} {reading rest : Reading}
    (ran : (programLoop (phrases limit).statement).round done reading = .ok next rest) :
    ∃ read, round (phrases limit).statement reading = .ok read rest := by
  change (round (phrases limit).statement >>= fun read => pure (read ++ done)) reading = _ at ran
  rw [bind_apply] at ran
  cases result : round (phrases limit).statement reading with
  | error failure after =>
      rw [result] at ran
      cases ran
  | ok read after =>
      rw [result] at ran
      cases ran
      exact ⟨read, rfl⟩

theorem programLoop_progresses (limit : Nat) :
    (programLoop (phrases limit).statement).Progresses (· = 0) := by
  intro done next reading rest atTop goes ran
  obtain ⟨read, result⟩ := programLoop_round ran
  exact ⟨(round_advances limit goes result).length_lt, round_depth limit atTop result⟩

/-- Where every integer is read as a number, a round takes tokens, whatever it meets. -/
theorem programLoop_goes (limit : Nat) (done : List Stmt) {reading : Reading}
    (readable : ∀ token ∈ reading.tokens, token.IsReadable)
    (goes : reading.current.kind ≠ .endOfInput) :
    ∃ next rest, (programLoop (phrases limit).statement).round done reading = .ok next rest ∧
      reading.Advances rest := by
  show ∃ next rest, (round (phrases limit).statement >>= fun read => pure (read ++ done)) reading =
    .ok next rest ∧ _
  rw [bind_apply]
  cases result : round (phrases limit).statement reading with
  | ok read rest => exact ⟨_, _, rfl, round_advances limit goes result⟩
  | error failure rest =>
      obtain ⟨unread, -, token, member, isInteger, unreadable⟩ := round_error limit result
      obtain ⟨value, isRead⟩ := readable token member isInteger
      rw [isRead] at unreadable
      cases unreadable

theorem restarted_ending (diagnostic : Diagnostic) (reading : Reading) :
    reading.ending.restarted diagnostic = (reading.restarted diagnostic).ending := by
  have skipped := skipStatement_ending reading.tokens reading.depth
  simp only [Reading.restarted, Reading.ending, Reading.extend, skipped, List.nil_append]

theorem round_within (limit : Nat) (reading : Reading) :
    (round (phrases limit).statement).Within reading := by
  unfold Within round
  rw [(phrases_within limit).statement reading]
  cases (phrases limit).statement reading with
  | ok stmt rest => rfl
  | error failure rest =>
      cases failure with
      | numeral unread => rfl
      | fault fault position =>
          show EStateM.Result.ok [] (rest.ending.restarted _) = _
          rw [restarted_ending]
          rfl
      | tooDeep =>
          show EStateM.Result.ok [] (rest.ending.restarted ⟨_, rest.ending.current.position⟩) = _
          rw [restarted_ending, rest.ending_current]
          rfl

/-- A program is read the same with and without the end of the input behind the tokens. -/
theorem program_within (limit : Nat) (tokens : List Token) :
    (program limit).Within ⟨tokens, 0, []⟩ := by
  have rounds : ∀ done reading, reading.depth = 0 → reading.current.kind ≠ .endOfInput →
      ((programLoop (phrases limit).statement).round done).Within reading :=
    fun done reading _ _ => .bind (round_within limit reading) fun _ rest _ => .pure _ rest
  have statements : programStatements (phrases limit).statement
      ((Reading.mk tokens 0 []).ending.tokens.length + 1) [] (Reading.mk tokens 0 []).ending =
        endingResult (programStatements (phrases limit).statement (tokens.length + 1) []
          ⟨tokens, 0, []⟩) :=
    (programLoop_progresses limit).ending (programLoop_unrolls _) rounds rfl
      (.inl (Nat.lt_succ_self _)) (.inl (Nat.lt_succ_self _))
  refine .current ?_
  unfold Within
  simp only [bind_apply, Read.remaining]
  rw [statements]
  cases programStatements (phrases limit).statement (tokens.length + 1) [] ⟨tokens, 0, []⟩
    <;> rfl

end Read

/-! ## Going on after a fault -/

namespace Read

/-- A block goes on at its own level after a fault in one of its statements, unless the input ends
before. -/
theorem blockRound_recovers (limit : Nat) (done : List Stmt) {place broken : Reading}
    {fault : SyntaxFault} {position : Position} (notClosing : place.current.kind ≠ .rightBrace)
    (notEnded : place.current.kind ≠ .endOfInput)
    (failed : (phrases limit).statement place = .error (.fault fault position) broken) :
    let round := blockRound (phrases limit).statement place.depth done place
    let next := broken.resumed place.depth
    (next.current.kind = .endOfInput → round = .error (.fault fault position) next) ∧
    (next.current.kind ≠ .endOfInput → round = .ok done (next.record ⟨.syntactic fault, position⟩) ∧
      place.Advances next ∧ next.depth = place.depth) := by
  intro round next
  have ran : round =
      afterStatement pure place.depth done (.error (.fault fault position) broken) := by
    rw [← failed]
    exact if_neg notEnded
  constructor
  · intro ended
    rw [ran]
    exact if_pos ended
  · intro further
    have goes : round = .ok done (next.record ⟨.syntactic fault, position⟩) := by
      rw [ran]
      exact if_neg further
    obtain ⟨advances, depth⟩ := blockRound_ok (phrases_span limit) rfl notClosing goes
    exact ⟨goes, advances, depth⟩

/-- A run of the loop over a program goes on from the start of any of its rounds. -/
theorem programStatements_starts {limit : Nat} {done last : List Stmt} {reading place : Reading}
    (starts : (programLoop (phrases limit).statement).Starts done reading last place)
    {budget : Nat} (enough : reading.tokens.length < budget) :
    programStatements (phrases limit).statement budget done reading =
      programStatements (phrases limit).statement (place.tokens.length + 1) last place := by
  induction starts generalizing budget with
  | first =>
      exact programStatements_budget limit _ _ _ _ (Nat.lt_succ_self _) enough
  | @later done next last reading rest place goes ran starts ih =>
      obtain ⟨fewer, rfl⟩ : ∃ fewer, budget = fewer + 1 := ⟨budget - 1, by omega⟩
      obtain ⟨read, result⟩ := programLoop_round ran
      have shorter := (round_progress limit goes result).2
      have later := @ih fewer (Nat.lt_of_lt_of_le shorter (Nat.le_of_lt_succ enough))
      rw [← later, (programLoop_unrolls _).goes _ _ _ goes, bind_apply, ran]

end Read

/-- The statements after a faulty one at the top are read as they are alone. -/
theorem Program.ofTokens_recovers {limit : Nat} {tokens : List Token} {done : List Stmt}
    {place broken : Reading} {fault : SyntaxFault} {position : Position}
    (starts : (Read.programLoop (phrases limit).statement).Starts [] ⟨tokens, 0, []⟩ done place)
    (failed : (phrases limit).statement place = .error (.fault fault position) broken) :
    ofTokens tokens limit =
      (ofTokens (skipStatement broken.tokens broken.depth) limit).map (Parsed.append
        ⟨⟨(Reading.mk tokens 0 []).current.position, done.reverse⟩,
          broken.diagnostics ++ [⟨.syntactic fault, position⟩]⟩) := by
  have goes : place.current.kind ≠ .endOfInput := (starts.keeps (fun _ => True)
    (fun _ _ _ _ _ _ _ => trivial) trivial).2
  have ran : Read.round (phrases limit).statement place =
      .ok [] (broken.restarted ⟨.syntactic fault, position⟩) := by
    rw [Read.round, failed]
  have shorter := (Read.round_progress limit goes ran).2
  have later := ofTokens_preceded limit (skipStatement broken.tokens broken.depth)
    ⟨⟨(Reading.mk tokens 0 []).current.position, done.reverse⟩,
      broken.diagnostics ++ [⟨.syntactic fault, position⟩]⟩
  rw [List.reverse_reverse] at later
  rw [ofTokens_eq, Read.programStatements_starts starts (Nat.lt_succ_self _),
    Read.programStatements_succ _ _ _ goes, Read.bind_apply, ran, ← later]
  exact congrArg (outcome _)
    (Read.programStatements_budget limit _ _ done _ (Nat.lt_succ_self _) shorter)

/-! ## Progress -/

namespace Program

variable {limit : Nat} {tokens : List Token}

theorem programLoop_ends (limit : Nat) (readable : ∀ token ∈ tokens, token.IsReadable) :
    ∃ statements used rest,
      ofTokens tokens limit =
        .ok ⟨⟨(Reading.mk tokens 0 []).current.position, statements⟩, rest.diagnostics⟩ ∧
      (Read.programLoop (phrases limit).statement).Ends [] ⟨tokens, 0, []⟩
        (.ok statements rest) ∧
      tokens = used ++ rest.tokens ∧ (∀ token ∈ used, token.kind ≠ .endOfInput) ∧
      rest.current.kind = .endOfInput := by
  have ends : (Read.programLoop (phrases limit).statement).Ends [] ⟨tokens, 0, []⟩
      (Read.programStatements (phrases limit).statement (tokens.length + 1) []
        ⟨tokens, 0, []⟩) :=
    (Read.programLoop_progresses limit).ends (Read.programLoop_unrolls _) rfl
      (.inl (Nat.lt_succ_self _))
  obtain ⟨parsed, read⟩ := ofTokens_ok limit tokens readable
  rw [ofTokens_eq] at read
  cases result : Read.programStatements (phrases limit).statement (tokens.length + 1) []
      ⟨tokens, 0, []⟩ with
  | error failure rest =>
      obtain ⟨unread, rfl, -⟩ := Read.programStatements_error limit _ _ result
      rw [result] at read
      cases read
  | ok statements rest =>
      obtain ⟨⟨used, found, kept, selects, -⟩, ended⟩ :=
        Read.programStatements_keeps limit _ _ (Nat.lt_succ_self _) result
      rw [result] at ends
      refine ⟨statements, used, rest, ?_, ends, selects.tokens, selects.notEnd, ended⟩
      rw [ofTokens_eq, result]
      rfl

theorem programLoop_starts (limit : Nat) (readable : ∀ token ∈ tokens, token.IsReadable)
    {done : List Stmt} {place : Reading}
    (starts : (Read.programLoop (phrases limit).statement).Starts [] ⟨tokens, 0, []⟩ done
      place) :
    place.depth = 0 ∧ ∃ next rest,
      (Read.programLoop (phrases limit).statement).round done place = .ok next rest ∧
        place.Advances rest := by
  have step : ∀ done next (reading rest : Reading),
      (reading.depth = 0 ∧ ∀ token ∈ reading.tokens, token.IsReadable) →
      reading.current.kind ≠ .endOfInput →
      (Read.programLoop (phrases limit).statement).round done reading = .ok next rest →
      rest.depth = 0 ∧ ∀ token ∈ rest.tokens, token.IsReadable := by
    intro done next reading rest held goes ran
    obtain ⟨read, result⟩ := Read.programLoop_round ran
    have isSuffix := (Read.round_progress limit goes result).1
    exact ⟨Read.round_depth limit held.1 result,
      fun token member => held.2 token (isSuffix.subset member)⟩
  obtain ⟨⟨atTop, stillReadable⟩, goes⟩ := starts.keeps _ step ⟨rfl, readable⟩
  exact ⟨atTop, Read.programLoop_goes limit done stillReadable goes⟩

theorem blockLoop_starts (limit : Nat) {reading place : Reading} {done : List Stmt}
    (readable : ∀ token ∈ reading.tokens, token.IsReadable)
    (starts : (Read.blockLoop (phrases limit).statement reading.depth).Starts [] reading done
      place) :
    place.depth = reading.depth ∧ Read.Proceeds place
      ((Read.blockLoop (phrases limit).statement reading.depth).round done place) := by
  have nested := phrases_span limit
  have step : ∀ done next (between rest : Reading),
      (between.depth = reading.depth ∧ ∀ token ∈ between.tokens, token.IsReadable) →
      between.current.kind ≠ .rightBrace →
      (Read.blockLoop (phrases limit).statement reading.depth).round done between =
        .ok next rest →
      rest.depth = reading.depth ∧ ∀ token ∈ rest.tokens, token.IsReadable := by
    intro done next between rest held goes ran
    obtain ⟨⟨used, -, split, -⟩, depth⟩ := Read.blockRound_ok nested held.1 goes ran
    refine ⟨depth, fun token member => held.2 token ?_⟩
    rw [split]
    exact List.mem_append_right used member
  obtain ⟨⟨depth, stillReadable⟩, goes⟩ := starts.keeps _ step ⟨rfl, readable⟩
  refine ⟨depth, ?_⟩
  cases ran : (Read.blockLoop (phrases limit).statement reading.depth).round done place with
  | ok next rest => exact (Read.blockRound_ok nested depth goes ran).1
  | error failure rest => exact Read.blockRound_error nested stillReadable ran

/-- Reading makes progress on any tokens with readable integers. The loop over the program ends at
the end of the input, having taken no end of the input, and all loops inside of it end, too.
Wherever it starts a round, it is outside all braces, and the round takes tokens. Wherever a block
starts a round, the round takes tokens, or fails at the end of the input or at the limit of nesting.
Where the tokens have no end, the program is read as with the end of the input behind them, which is
left alone. -/
theorem ofTokens_progress (limit : Nat) (readable : ∀ token ∈ tokens, token.IsReadable) :
    let start : Reading := ⟨tokens, 0, []⟩
    let program := Read.programLoop (phrases limit).statement
    let block (inner depth : Nat) := Read.blockLoop (phrases inner).statement depth
    (∃ statements used rest,
      ofTokens tokens limit = .ok ⟨⟨start.current.position, statements⟩, rest.diagnostics⟩ ∧
      program.Ends [] start (.ok statements rest) ∧
      tokens = used ++ rest.tokens ∧ (∀ token ∈ used, token.kind ≠ .endOfInput) ∧
      rest.current.kind = .endOfInput) ∧
    (∀ done place, program.Starts [] start done place →
      place.depth = 0 ∧
      ∃ next rest, program.round done place = .ok next rest ∧ place.Advances rest) ∧
    (∀ inner reading, (phrases inner).LoopsEnd reading) ∧
    (∀ inner reading done place, reading.tokens <:+ tokens →
      (block inner reading.depth).Starts [] reading done place →
      place.depth = reading.depth ∧
      Read.Proceeds place ((block inner reading.depth).round done place)) ∧
    Read.program limit start.ending = Read.endingResult (Read.program limit start) := by
  refine ⟨programLoop_ends limit readable, fun _ _ => programLoop_starts limit readable,
    phrases_loopsEnd, ?_, Read.program_within limit tokens⟩
  intro inner reading done place isSuffix starts
  exact blockLoop_starts inner (fun token member => readable token (isSuffix.subset member)) starts

/-- Tokens with a stray brace, a fault in a block that is never closed, and the end of the input
before the last of them: all before that end are taken. -/
theorem ofTokens_progress_unclosed :
    let leading : List Token := [⟨.rightBrace, "\x7d", ⟨1, 1⟩⟩, ⟨.leftBrace, "\x7b", ⟨1, 2⟩⟩,
      ⟨.star, "*", ⟨1, 3⟩⟩, ⟨.semicolon, ";", ⟨1, 4⟩⟩, ⟨.identifier, "x", ⟨1, 5⟩⟩]
    let tokens : List Token := leading ++ [.endOfInput ⟨1, 6⟩, ⟨.rightBrace, "\x7d", ⟨1, 7⟩⟩]
    (∀ token ∈ tokens, token.IsReadable) ∧
      ∃ statements rest,
        (Read.programLoop (phrases nestingLimit).statement).Ends [] ⟨tokens, 0, []⟩
          (.ok statements rest) ∧
        tokens = leading ++ rest.tokens ∧ blames rest.diagnostics = [⟨1, 1⟩, ⟨1, 3⟩, ⟨1, 6⟩] := by
  intro leading tokens
  have noInteger : ∀ token ∈ tokens, token.kind ≠ .integer := by decide
  have readable : ∀ token ∈ tokens, token.IsReadable := fun token member isInteger =>
    absurd isInteger (noInteger token member)
  obtain ⟨⟨statements, used, rest, read, ends, split, notEnd, ended⟩, -⟩ :=
    ofTokens_progress nestingLimit readable
  have found : (ofTokens tokens).map (fun parsed => blames parsed.diagnostics) =
      .ok [⟨1, 1⟩, ⟨1, 3⟩, ⟨1, 6⟩] := rfl
  have same : used = leading := by
    rw [← beforeEnd_append notEnd ended, ← split]
    rfl
  rw [read] at found
  rw [same] at split
  exact ⟨readable, statements, rest, ends, split, Except.ok.inj found⟩

/-! ## The limit of nesting -/

def opening : Token := ⟨.leftBrace, "\x7b", .unknown⟩

theorem current_openings (count : Nat) (rest : List Token) (depth : Nat)
    (found : List Diagnostic) :
    (Reading.mk (List.replicate count opening ++ opening :: rest) depth found).current =
      opening := by
  cases count <;> rfl

/-- Blocks that open one in another are followed to the limit of nesting, and not through the next
brace. -/
theorem openings_tooDeep (limit : Nat) (rest : List Token) (depth : Nat)
    (found : List Diagnostic) :
    (phrases limit).statement ⟨List.replicate limit opening ++ opening :: rest, depth, found⟩ =
      .error .tooDeep ⟨opening :: rest, depth + limit, found⟩ := by
  induction limit generalizing depth with
  | zero => rfl
  | succ limit ih =>
      have isOpening := current_openings limit rest (depth + 1) found
      have inBlock : ∀ rounds, Read.blockStatements (phrases limit).statement (depth + 1)
          (rounds + 1) [] ⟨List.replicate limit opening ++ opening :: rest, depth + 1, found⟩ =
            .error .tooDeep ⟨opening :: rest, depth + 1 + limit, found⟩ := by
        intro rounds
        rw [Read.blockStatements_succ _ _ _ _ (by rw [isOpening]; decide)
          (by rw [isOpening]; decide), ih]
        rfl
      have ofBlock : Read.block (phrases limit).statement
          ⟨List.replicate (limit + 1) opening ++ opening :: rest, depth, found⟩ =
            .error .tooDeep ⟨opening :: rest, depth + 1 + limit, found⟩ := by
        have taken : Read.expect .leftBrace
            ⟨List.replicate (limit + 1) opening ++ opening :: rest, depth, found⟩ =
              .ok opening ⟨List.replicate limit opening ++ opening :: rest, depth + 1, found⟩ := rfl
        simp only [Read.block, Read.bind_apply, taken, Read.depth, Read.remaining, inBlock]
      show Read.blockStmt (phrases limit) _ = _
      rw [Read.blockStmt, Read.bind_apply, ofBlock, Nat.add_right_comm, Nat.add_assoc]

theorem skipStatement_openings (count depth : Nat) :
    skipStatement (List.replicate count opening) depth = [] := by
  induction count generalizing depth with
  | zero => rfl
  | succ count ih =>
      have inside : opening.kind.depthAfter depth > 0 := Nat.succ_pos depth
      rw [List.replicate_succ, skipStatement_inside (by decide) inside, ih]

/-- However many braces are opened past the limit, all of them are skipped, and the depth is all
that is reported. -/
theorem ofTokens_nested (limit count : Nat) :
    ofTokens (List.replicate limit opening ++ opening :: List.replicate count opening) limit =
      .ok ⟨⟨.unknown, []⟩, [⟨.syntactic .nestedTooDeeply, .unknown⟩]⟩ := by
  have isOpening := current_openings limit (List.replicate count opening) 0 []
  let place : Reading := ⟨List.replicate (count + 1) opening, limit, []⟩
  have restarts : place.restarted ⟨.syntactic .nestedTooDeeply, .unknown⟩ =
      ⟨[], 0, [⟨.syntactic .nestedTooDeeply, .unknown⟩]⟩ := by
    rw [Reading.restarted, skipStatement_openings]
    rfl
  have ran : Read.round (phrases limit).statement
      ⟨List.replicate limit opening ++ opening :: List.replicate count opening, 0, []⟩ =
        .ok [] ⟨[], 0, [⟨.syntactic .nestedTooDeeply, .unknown⟩]⟩ := by
    rw [Read.round, openings_tooDeep, Nat.zero_add]
    exact congrArg (EStateM.Result.ok []) restarts
  rw [ofTokens_round (by rw [isOpening]; decide), ran, isOpening]
  rfl

/-- A block can be left before the end of the input with no token taken: at the limit of nesting the
innermost block fails at the brace of the next one, and what is reported is the depth, and not the
end of the input. -/
theorem ofTokens_openings :
    let tokens := List.replicate 13000 opening
    let place : Reading := ⟨List.replicate 11000 opening, nestingLimit, []⟩
    let block := Read.blockLoop (phrases 0).statement nestingLimit
    (phrases nestingLimit).statement ⟨tokens, 0, []⟩ = .error .tooDeep place ∧
      block.Starts [] place [] place ∧ block.round [] place = .error .tooDeep place ∧
      place.current.kind ≠ .endOfInput ∧
      ofTokens tokens = .ok ⟨⟨.unknown, []⟩, [⟨.syntactic .nestedTooDeeply, .unknown⟩]⟩ := by
  intro tokens place block
  have split : tokens = List.replicate nestingLimit opening ++ opening ::
      List.replicate 10999 opening := by
    rw [← List.replicate_succ, List.replicate_append_replicate]
    rfl
  have failed : (phrases nestingLimit).statement ⟨tokens, 0, []⟩ = .error .tooDeep place := by
    rw [split, openings_tooDeep]
    rfl
  have isOpening : place.current = opening := rfl
  have notClosing : place.current.kind ≠ .rightBrace := by
    rw [isOpening]
    decide
  have notEnded : place.current.kind ≠ .endOfInput := by
    rw [isOpening]
    decide
  have read := ofTokens_nested nestingLimit 10999
  rw [← split] at read
  exact ⟨failed, .first notClosing, rfl, notEnded, read⟩

end Program

end Monkey
