import Monkey.Proofs.Grammar.Spans

/-!
# Recovery inside a block

A fault in a statement of a block is recorded and the block goes on at its own level, unless the
input ends before. Either way what is skipped belongs to the block, and the fault stays blamed on a
token of the block or on the brace that closes it.
-/

set_option autoImplicit false

namespace Monkey

/-- Skipping in a block stays in the block. It stops at the end of the input, or at the level of the
block; where it takes nothing it stands at one of these ends already. -/
theorem skipInBlock_takes (blockDepth level : Nat) (tokens rest : List Token) (depth : Nat)
    (skipped : skipInBlock blockDepth tokens (blockDepth + level) = (rest, depth)) :
    ∃ used last, tokens = used ++ rest ∧ levelAfter? .statements used level = some last ∧
      depth = blockDepth + last ∧
      ((rest.headD (.endOfInput .unknown)).kind = .endOfInput ∨ last = 0) ∧
      (used = [] → (rest.headD (.endOfInput .unknown)).kind = .endOfInput ∨
        (rest.headD (.endOfInput .unknown)).kind = .rightBrace) := by
  induction tokens generalizing level with
  | nil =>
      simp only [skipInBlock, Prod.mk.injEq] at skipped
      obtain ⟨rfl, rfl⟩ := skipped
      exact ⟨[], level, rfl, rfl, rfl, .inl rfl, fun _ => .inl rfl⟩
  | cons token tail ih =>
      simp only [skipInBlock] at skipped
      split at skipped
      next stop =>
        cases skipped
        refine ⟨[], level, rfl, rfl, rfl, ?_, fun _ => ?_⟩
        · exact stop.imp id fun closing => by omega
        · exact stop.imp id And.left
      next go =>
        have inside : ¬ (token.kind = .rightBrace ∧ level = 0) := fun closing =>
          go (.inr ⟨closing.1, by omega⟩)
        obtain ⟨next, step⟩ : ∃ next, token.kind.levelAfter? .statements level = some next := by
          cases kind : token.kind <;> simp_all [TokenKind.levelAfter?]
        rw [TokenKind.depthAfter_of_levelAfter? step] at skipped
        split at skipped
        next done =>
          cases skipped
          refine ⟨[token], next, rfl, by simp [step], rfl, .inr (by omega), ?_⟩
          intro empty
          cases empty
        next =>
          obtain ⟨used, last, split, levels, reached, stopped, -⟩ := ih next skipped
          refine ⟨token :: used, last, by rw [split]; rfl, by simp [step, levels], reached,
            stopped, ?_⟩
          intro empty
          cases empty

def Reading.resumed (blockDepth : Nat) (reading : Reading) : Reading :=
  { reading with
    tokens := (skipInBlock blockDepth reading.tokens reading.depth).1
    depth := (skipInBlock blockDepth reading.tokens reading.depth).2 }

namespace Reading

@[simp] theorem record_current (reading : Reading) (diagnostic : Diagnostic) :
    (reading.record diagnostic).current = reading.current := rfl

/-- How the statements of a block end: before its closing brace, with everything found wrong blamed
on what was taken or on that brace, or in a failure, which for a fault of the grammar is one at the
end of the input. -/
def SpansStatements {α : Type} (reading : Reading) : EStateM.Result ReadFailure Reading α → Prop
  | .ok _ rest =>
      rest.current.kind = .rightBrace ∧
        ∃ used found, reading.Takes .statements used found 0 0 rest ∧
        (blames found).Sublist (positions (used ++ [rest.current]))
  | .error failure rest =>
      reading.Broken .statements 0 failure rest ∧
        (failure.blamed ≠ [] → rest.current.kind = .endOfInput)

theorem Takes.record {extent : Extent} {used : List Token} {found : List Diagnostic}
    {first last : Nat} {reading rest : Reading}
    (takes : reading.Takes extent used found first last rest) (diagnostic : Diagnostic) :
    reading.Takes extent used (found ++ [diagnostic]) first last (rest.record diagnostic) where
  tokens := takes.tokens
  diagnostics := by simp [Reading.record, takes.diagnostics]
  level := takes.level
  depth := takes.depth

theorem Spanned.spansStatements {α : Type} {moves : Bool} {reading between : Reading}
    {result : EStateM.Result ReadFailure Reading α}
    (before : reading.Spanned .statements moves 0 0 between)
    (after : between.SpansStatements result) : reading.SpansStatements result := by
  cases result with
  | ok value rest =>
      obtain ⟨used, found, takes, blamed, -⟩ := before
      obtain ⟨closing, usedAfter, foundAfter, takesAfter, blamedAfter⟩ := after
      refine ⟨closing, used ++ usedAfter, found ++ foundAfter, takes.trans takesAfter, ?_⟩
      simpa using blamed.append blamedAfter
  | error failure rest => exact ⟨before.broken after.1, after.2⟩

/-- After a failure inside a block the skipped tokens are the block's own. -/
theorem Takes.resumed {blockDepth : Nat} {reading rest : Reading} {used : List Token}
    {found : List Diagnostic} {level : Nat} (takes : reading.Takes .phrase used found 0 level rest)
    (depth : reading.depth = blockDepth) :
    ∃ skipped last, rest.Takes .statements skipped [] level last (rest.resumed blockDepth) ∧
      ((rest.resumed blockDepth).current.kind = .endOfInput ∨ last = 0) ∧
      (skipped = [] → (rest.resumed blockDepth).current.kind = .endOfInput ∨
        (rest.resumed blockDepth).current.kind = .rightBrace) := by
  have reached : rest.depth = blockDepth + level := takes.depth blockDepth (by simpa using depth)
  obtain ⟨skipped, last, split, levels, stopped, ended, unmoved⟩ :=
    skipInBlock_takes blockDepth level rest.tokens _ _ (by rw [← reached])
  refine ⟨skipped, last, ⟨split, by simp [Reading.resumed], levels, ?_⟩, ended, unmoved⟩
  intro base start
  show (skipInBlock blockDepth rest.tokens rest.depth).2 = _
  omega

/-- What a fault is blamed on lies among the tokens taken and skipped, up to the next one. -/
theorem blamed_resumed {used skipped : List Token} {blamed : List Position} {rest after : Reading}
    (split : rest.tokens = skipped ++ after.tokens)
    (within : blamed.Sublist (positions (used ++ [rest.current]))) :
    blamed.Sublist (positions (used ++ skipped ++ [after.current])) := by
  cases skipped with
  | nil =>
      have same : rest.current = after.current := by simp [Reading.current, split]
      simpa [same] using within
  | cons token tail =>
      have first : rest.current = token := by simp [Reading.current, split]
      refine within.trans ?_
      simp [first]

/-- A fault inside a block that leaves the block unfinished: it is recorded behind the reader, or
the reader stands at the closing brace that the fault may be blamed on. -/
theorem Broken.recovers {blockDepth : Nat} {reading rest : Reading} {fault : SyntaxFault}
    {position : Position}
    (broken : reading.Broken .phrase 0 (.fault fault position) rest)
    (depth : reading.depth = blockDepth) (notClosing : reading.current.kind ≠ .rightBrace)
    (notEnded : (rest.resumed blockDepth).current.kind ≠ .endOfInput) :
    let after := (rest.resumed blockDepth).record ⟨.syntactic fault, position⟩
    reading.Spanned .statements true 0 0 after ∨
      after.tokens.length < reading.tokens.length ∧
        reading.SpansStatements (.ok () after : EStateM.Result ReadFailure Reading Unit) := by
  obtain ⟨used, found, level, takes, -, blamed⟩ := broken
  obtain ⟨skipped, last, skips, stopped, unmoved⟩ := takes.resumed depth
  obtain rfl : last = 0 := stopped.resolve_left notEnded
  have whole := takes.statements.trans skips
  have recorded := whole.record ⟨.syntactic fault, position⟩
  have moved : used ++ skipped ≠ [] := by
    intro unmovedAll
    obtain ⟨rfl, rfl⟩ := List.append_eq_nil_iff.mp unmovedAll
    have same : (rest.resumed blockDepth).current = reading.current := by
      simp [Reading.current, whole.tokens]
    exact notClosing (same ▸ (unmoved rfl).resolve_left notEnded)
  cases skipped with
  | nil =>
      have atBrace := (unmoved rfl).resolve_left notEnded
      have blamedAfter := blamed_resumed skips.tokens blamed
      refine .inr ⟨?_, atBrace, _, _, recorded, by simpa [ReadFailure.blamed] using blamedAfter⟩
      have taken := List.length_pos_iff.mpr moved
      rw [recorded.tokens, List.length_append]
      omega
  | cons token tail =>
      have first : rest.current = token := by simp [Reading.current, skips.tokens]
      refine .inl ⟨_, _, recorded, ?_, fun _ => moved⟩
      refine List.Sublist.trans (by simpa [ReadFailure.blamed] using blamed) ?_
      simp [first]

theorem Broken.recovers_progress {blockDepth : Nat} {reading rest : Reading} {fault : SyntaxFault}
    {position : Position}
    (broken : reading.Broken .phrase 0 (.fault fault position) rest)
    (depth : reading.depth = blockDepth) (notClosing : reading.current.kind ≠ .rightBrace)
    (notEnded : (rest.resumed blockDepth).current.kind ≠ .endOfInput) :
    let after := (rest.resumed blockDepth).record ⟨.syntactic fault, position⟩
    after.tokens.length < reading.tokens.length ∧ after.depth = blockDepth := by
  rcases broken.recovers depth notClosing notEnded with behind | ⟨shorter, -, _, _, takes, -⟩
  · exact ⟨behind.length_lt, behind.depth_eq.trans depth⟩
  · exact ⟨shorter, takes.depth blockDepth (by simpa using depth)⟩

/-- A fault at whose recovery the input ends stays the failure of the block. -/
theorem Broken.exhausted {blockDepth : Nat} {reading rest : Reading} {failure : ReadFailure}
    (broken : reading.Broken .phrase 0 failure rest) (depth : reading.depth = blockDepth) :
    reading.Broken .statements 0 failure (rest.resumed blockDepth) := by
  obtain ⟨used, found, level, takes, arises, blamed⟩ := broken
  obtain ⟨skipped, last, skips, -⟩ := takes.resumed depth
  refine ⟨used ++ skipped, found, last, by simpa using takes.statements.trans skips, ?_,
    blamed_resumed skips.tokens blamed⟩
  cases failure with
  | fault => trivial
  | tooDeep => trivial
  | numeral unread =>
      obtain ⟨token, member, numeral⟩ := arises
      exact ⟨token, List.mem_append_left skipped member, numeral⟩

end Reading

namespace Read

/-- How a block goes on after its next statement, in terms of its loop over the statements. -/
def afterStatement (loop : List Stmt → Read (List Stmt)) (blockDepth : Nat) (done : List Stmt) :
    EStateM.Result ReadFailure Reading Stmt → EStateM.Result ReadFailure Reading (List Stmt)
  | .ok stmt rest => loop (stmt :: done) rest
  | .error (.fault fault position) rest =>
      if (rest.resumed blockDepth).current.kind = .endOfInput then
        .error (.fault fault position) (rest.resumed blockDepth)
      else loop done ((rest.resumed blockDepth).record ⟨.syntactic fault, position⟩)
  | .error failure rest => .error failure rest

theorem blockStatements_closing (statement : Read Stmt) (blockDepth budget : Nat)
    (done : List Stmt) {reading : Reading} (closing : reading.current.kind = .rightBrace) :
    blockStatements statement blockDepth (budget + 1) done reading = .ok done.reverse reading := by
  rw [blockStatements, bind_apply]
  simp only [Read.current]
  rw [ite_apply, if_pos closing]
  rfl

theorem blockStatements_ended (statement : Read Stmt) (blockDepth budget : Nat) (done : List Stmt)
    {reading : Reading} (ended : reading.current.kind = .endOfInput) :
    blockStatements statement blockDepth (budget + 1) done reading =
      .error (.fault (.expected (.token .rightBrace) reading.current) reading.current.position)
        reading := by
  rw [blockStatements, bind_apply]
  simp only [Read.current]
  rw [ite_apply, if_neg (by rw [ended]; decide), ite_apply, if_pos ended]
  rfl

theorem blockStatements_succ (statement : Read Stmt) (blockDepth budget : Nat) (done : List Stmt)
    {reading : Reading} (notClosing : reading.current.kind ≠ .rightBrace)
    (notEnded : reading.current.kind ≠ .endOfInput) :
    blockStatements statement blockDepth (budget + 1) done reading =
      afterStatement (blockStatements statement blockDepth budget) blockDepth done
        (statement reading) := by
  rw [blockStatements, bind_apply]
  simp only [Read.current]
  rw [ite_apply, if_neg notClosing, ite_apply, if_neg notEnded, bind_apply, attempt]
  cases statement reading with
  | ok stmt rest => rfl
  | error failure rest =>
      cases failure with
      | tooDeep => rfl
      | numeral unread => rfl
      | fault fault position =>
          simp only [bind_apply, resumeBlock, Read.current, afterStatement]
          rw [ite_apply]
          by_cases exhausted : (rest.resumed blockDepth).current.kind = .endOfInput
          · rw [if_pos exhausted]
            exact if_pos exhausted
          · rw [if_neg exhausted]
            exact if_neg exhausted

end Read

end Monkey
