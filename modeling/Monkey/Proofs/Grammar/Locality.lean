import Monkey.Proofs.Grammar.Nesting

/-!
# What a phrase depends on

A reader looks no further than the token it stops at, and what has been recorded before does not
matter to it. So what it does on some tokens it also does on longer ones, provided it leaves any of
the shorter ones over. A statement that ends in its semicolon looks at no token after that.
-/

set_option autoImplicit false

namespace Monkey

namespace Reading

def extend (before : List Diagnostic) (after : List Token) (reading : Reading) : Reading :=
  { reading with
    tokens := reading.tokens ++ after
    diagnostics := before ++ reading.diagnostics }

/-- Tokens that follow do not show: some are left before them, or there are none. -/
def Covers (after : List Token) (reading : Reading) : Prop := reading.tokens ≠ [] ∨ after = []

theorem Covers.current {before : List Diagnostic} {after : List Token} {reading : Reading}
    (covers : reading.Covers after) : (reading.extend before after).current = reading.current := by
  obtain ⟨tokens, depth, diagnostics⟩ := reading
  cases tokens with
  | nil => obtain rfl := covers.resolve_left (absurd rfl); rfl
  | cons token rest => rfl

theorem Covers.advance {before : List Diagnostic} {after : List Token} {reading : Reading}
    (covers : reading.Covers after) :
    (reading.extend before after).advance = reading.advance.extend before after := by
  obtain ⟨tokens, depth, diagnostics⟩ := reading
  cases tokens with
  | nil => obtain rfl := covers.resolve_left (absurd rfl); rfl
  | cons token rest => rfl

theorem Covers.of_length_le {after : List Token} {reading rest : Reading}
    (covers : rest.Covers after) (shrinks : rest.tokens.length ≤ reading.tokens.length) :
    reading.Covers after := by
  refine covers.imp (fun left empty => left ?_) id
  exact List.eq_nil_of_length_eq_zero (by simpa [empty] using shrinks)

theorem advance_length_le (reading : Reading) :
    reading.advance.tokens.length ≤ reading.tokens.length := by
  obtain ⟨tokens, depth, diagnostics⟩ := reading
  cases tokens with
  | nil => exact Nat.le_refl _
  | cons token rest => exact Nat.le_succ _

theorem advance_length_lt (reading : Reading) (more : reading.current.kind ≠ .endOfInput) :
    reading.advance.tokens.length < reading.tokens.length := by
  obtain ⟨tokens, depth, diagnostics⟩ := reading
  cases tokens with
  | nil => exact absurd rfl more
  | cons token rest => exact Nat.lt_succ_self _

theorem tokens_ne_nil (reading : Reading) (more : reading.current.kind ≠ .endOfInput) :
    reading.tokens ≠ [] := by
  intro empty
  simp [current, empty, Token.endOfInput] at more

theorem extend_length (before : List Diagnostic) (after : List Token) (reading : Reading) :
    (reading.extend before after).tokens.length = reading.tokens.length + after.length :=
  List.length_append

end Reading

namespace Read

variable {α β : Type}

def ended : EStateM.Result ReadFailure Reading α → Reading
  | .ok _ rest | .error _ rest => rest

/-- The same result, with diagnostics recorded before and tokens following after. -/
def extendResult (before : List Diagnostic) (after : List Token) :
    EStateM.Result ReadFailure Reading α → EStateM.Result ReadFailure Reading α
  | .ok value rest => .ok value (rest.extend before after)
  | .error failure rest => .error failure (rest.extend before after)

/-- Reading came to a result, and comes to the same one with tokens following that it does not
see. -/
structure Carries (read : Read α) (reading : Reading)
    (result : EStateM.Result ReadFailure Reading α) : Prop where
  carries : ∀ before after, (ended result).Covers after →
    read (reading.extend before after) = extendResult before after result
  shrinks : (ended result).tokens.length ≤ reading.tokens.length

/-- The reader does the same with tokens following that it does not come to see. -/
def Local (read : Read α) (reading : Reading) : Prop := read.Carries reading (read reading)

section Rules

variable {read : Read α} {reading : Reading}

theorem Local.length_le {value : α} {rest : Reading} (isLocal : read.Local reading)
    (result : read reading = .ok value rest) : rest.tokens.length ≤ reading.tokens.length := by
  have shrinks := isLocal.shrinks
  rwa [result] at shrinks

theorem Local.pure (value : α) (reading : Reading) : (Pure.pure value : Read α).Local reading :=
  ⟨fun _ _ _ => rfl, Nat.le_refl _⟩

theorem Local.throw (failure : ReadFailure) (reading : Reading) :
    (MonadExcept.throw failure : Read α).Local reading :=
  ⟨fun _ _ _ => rfl, Nat.le_refl _⟩

theorem Local.bind {next : α → Read β} (head : read.Local reading)
    (tail : ∀ value rest, read reading = .ok value rest → (next value).Local rest) :
    (read >>= next).Local reading := by
  unfold Local at head ⊢
  rw [bind_apply]
  cases result : read reading with
  | error failure rest =>
      rw [result] at head
      refine ⟨fun before after covers => ?_, head.shrinks⟩
      rw [bind_apply, head.carries before after covers]
      rfl
  | ok value between =>
      rw [result] at head
      have continued := tail value between result
      refine ⟨fun before after covers => ?_, Nat.le_trans continued.shrinks head.shrinks⟩
      have covered : between.Covers after := covers.of_length_le continued.shrinks
      rw [bind_apply, head.carries before after covered]
      exact continued.carries before after covers

theorem Local.current {next : Token → Read α} (tail : (next reading.current).Local reading) :
    (Read.current >>= next).Local reading := by
  refine ⟨fun before after covers => ?_, tail.shrinks⟩
  have covered : reading.Covers after := covers.of_length_le tail.shrinks
  show next (reading.extend before after).current (reading.extend before after) = _
  rw [covered.current]
  exact tail.carries before after covers

theorem Local.advance (reading : Reading) : Read.advance.Local reading := by
  refine ⟨fun before after covers => ?_, reading.advance_length_le⟩
  have covered : reading.Covers after := covers.of_length_le reading.advance_length_le
  show EStateM.Result.ok _ _ = EStateM.Result.ok _ _
  rw [covered.current, covered.advance]

theorem Local.depth {next : Nat → Read α} (tail : (next reading.depth).Local reading) :
    (Read.depth >>= next).Local reading :=
  ⟨fun before after covers => tail.carries before after covers, tail.shrinks⟩

/-- The reader looks at the next token at most. -/
structure Immediate (read : Read α) (reading : Reading) : Prop where
  carries : ∀ before after, reading.Covers after →
    read (reading.extend before after) = extendResult before after (read reading)
  shrinks : (ended (read reading)).tokens.length ≤ reading.tokens.length

theorem Immediate.isLocal (immediate : read.Immediate reading) : read.Local reading :=
  ⟨fun before after covers => immediate.carries before after
    (covers.of_length_le immediate.shrinks), immediate.shrinks⟩

theorem Immediate.pure (value : α) (reading : Reading) :
    (Pure.pure value : Read α).Immediate reading :=
  ⟨fun _ _ _ => rfl, Nat.le_refl _⟩

theorem Immediate.map {change : α → β} (immediate : read.Immediate reading) :
    (read >>= fun value => Pure.pure (change value)).Immediate reading := by
  have shrinks := immediate.shrinks
  refine ⟨fun before after covers => ?_, ?_⟩
  · rw [bind_apply, bind_apply, immediate.carries before after covers]
    cases read reading <;> rfl
  · rw [bind_apply]
    cases result : read reading <;> rw [result] at shrinks <;> exact shrinks

theorem Immediate.current {next : Token → Read α}
    (tail : (next reading.current).Immediate reading) :
    (Read.current >>= next).Immediate reading := by
  refine ⟨fun before after covers => ?_, tail.shrinks⟩
  show next (reading.extend before after).current (reading.extend before after) = _
  rw [covers.current]
  exact tail.carries before after covers

theorem Immediate.accept (kind : TokenKind) (reading : Reading) :
    (Read.accept kind).Immediate reading := by
  refine ⟨fun before after covers => ?_, ?_⟩
  · rw [accept_apply, accept_apply, covers.current, covers.advance]
    split <;> rfl
  · rw [accept_apply]
    split
    · exact reading.advance_length_le
    · exact Nat.le_refl _

theorem Immediate.expect (kind : TokenKind) (reading : Reading) :
    (Read.expect kind).Immediate reading := by
  refine ⟨fun before after covers => ?_, ?_⟩
  · rw [expect_apply, expect_apply, covers.current, covers.advance]
    split <;> rfl
  · rw [expect_apply]
    split
    · exact reading.advance_length_le
    · exact Nat.le_refl _

theorem Local.accept (kind : TokenKind) (reading : Reading) : (Read.accept kind).Local reading :=
  (Immediate.accept kind reading).isLocal

theorem Local.expect (kind : TokenKind) (reading : Reading) : (Read.expect kind).Local reading :=
  (Immediate.expect kind reading).isLocal

/-! ### Loops -/

/-- A loop that does the same with more rounds than the tokens left to it, and with tokens following
that it does not come to see. -/
structure LocalLoop (loop : Nat → Read α) (rounds : Nat) (reading : Reading) : Prop where
  carries : ∀ before after more, reading.tokens.length + after.length ≤ more →
    (ended (loop rounds reading)).Covers after →
    loop more (reading.extend before after) = extendResult before after (loop rounds reading)
  shrinks : (ended (loop rounds reading)).tokens.length ≤ reading.tokens.length

theorem Local.remaining {loop : Nat → Read α}
    (tail : LocalLoop loop reading.tokens.length reading) :
    (Read.remaining >>= loop).Local reading :=
  ⟨fun before after covers =>
    tail.carries before after _ (Nat.le_of_eq (reading.extend_length before after).symm) covers,
    tail.shrinks⟩

theorem LocalLoop.of_current {loop : Nat → Read α} {rounds : Nat}
    (stop : Reading → EStateM.Result ReadFailure Reading α)
    (stands : ∀ other, ended (stop other) = other)
    (follows : ∀ before after other, extendResult before after (stop other) =
      stop (other.extend before after))
    (halts : ∀ rounds other, other.current = reading.current → loop rounds other = stop other) :
    LocalLoop loop rounds reading := by
  have here := halts rounds reading rfl
  refine ⟨fun before after more _ covers => ?_, Nat.le_of_eq (by rw [here, stands])⟩
  rw [here, stands] at covers
  rw [here, follows]
  exact halts more _ covers.current

/-- One round of a loop, which takes a token, and the rounds after it. -/
structure LocalRound (round : Nat → Read α) (rounds : Nat) (reading : Reading) : Prop where
  carries : ∀ before after fewer, reading.tokens.length + after.length ≤ fewer + 1 →
    (ended (round rounds reading)).Covers after →
    round fewer (reading.extend before after) = extendResult before after (round rounds reading)
  shrinks : (ended (round rounds reading)).tokens.length ≤ reading.tokens.length

theorem LocalRound.bind {State : Type} {body : Read State} {loop : Nat → State → Read α}
    {rounds : Nat} (isLocal : body.Local reading)
    (again : ∀ next rest, body reading = .ok next rest →
      rest.tokens.length < reading.tokens.length ∧
        LocalLoop (fun rounds => loop rounds next) rounds rest) :
    LocalRound (fun rounds => body >>= loop rounds) rounds reading := by
  unfold Local at isLocal
  cases ran : body reading with
  | error failure rest =>
      rw [ran] at isLocal
      have here : (body >>= loop rounds) reading = .error failure rest := by
        rw [bind_apply, ran]
      constructor
      · intro before after fewer fits covers
        rw [here] at covers ⊢
        rw [bind_apply, isLocal.carries before after covers]
        rfl
      · rw [here]
        exact isLocal.shrinks
  | ok next rest =>
      rw [ran] at isLocal
      obtain ⟨shorter, isLoop⟩ := again next rest ran
      have here : (body >>= loop rounds) reading = loop rounds next rest := by
        rw [bind_apply, ran]
      constructor
      · intro before after fewer fits covers
        rw [here] at covers ⊢
        have covered : rest.Covers after := covers.of_length_le isLoop.shrinks
        rw [bind_apply, isLocal.carries before after covered]
        exact isLoop.carries before after fewer (by omega) covers
      · rw [here]
        exact Nat.le_trans isLoop.shrinks (Nat.le_of_lt shorter)

theorem LocalRound.of_result {read : Read β} {rounds : Nat}
    {next : Nat → EStateM.Result ReadFailure Reading β → EStateM.Result ReadFailure Reading α}
    (isLocal : read.Local reading)
    (shrinks : (ended (next rounds (read reading))).tokens.length ≤
      (ended (read reading)).tokens.length)
    (carries : ∀ before after fewer, reading.tokens.length + after.length ≤ fewer + 1 →
      (ended (next rounds (read reading))).Covers after →
      next fewer (extendResult before after (read reading)) =
        extendResult before after (next rounds (read reading))) :
    LocalRound (fun rounds reading => next rounds (read reading)) rounds reading := by
  constructor
  · intro before after fewer fits covers
    have covered : (ended (read reading)).Covers after := covers.of_length_le shrinks
    show next fewer (read (reading.extend before after)) = _
    rw [isLocal.carries before after covered]
    exact carries before after fewer fits covers
  · exact Nat.le_trans shrinks isLocal.shrinks

theorem LocalLoop.of_round {loop round : Nat → Read α} {rounds : Nat}
    (notEnd : reading.current.kind ≠ .endOfInput)
    (goes : ∀ rounds other, other.current = reading.current →
      loop (rounds + 1) other = round rounds other)
    (isLocal : LocalRound round rounds reading) : LocalLoop loop (rounds + 1) reading := by
  have nonempty : reading.tokens ≠ [] := reading.tokens_ne_nil notEnd
  have positive := List.length_pos_iff.mpr nonempty
  have here := goes rounds reading rfl
  constructor
  · intro before after more fits covers
    have covered : reading.Covers after := .inl nonempty
    obtain ⟨fewer, rfl⟩ : ∃ fewer, more = fewer + 1 := ⟨more - 1, by omega⟩
    rw [here] at covers ⊢
    rw [goes fewer _ covered.current]
    exact isLocal.carries before after fewer fits covers
  · rw [here]
    exact isLocal.shrinks

/-- A loop that goes on as long as the next token is of some sort, and takes a token in each round,
needs no more rounds than there are tokens. -/
theorem LocalLoop.of_rounds {State : Type} (loop : Nat → State → Read α)
    (body : State → Read State) (result : State → α) (goes : Token → Prop)
    (stop : ∀ rounds state reading, ¬ goes reading.current →
      loop rounds state reading = .ok (result state) reading)
    (step : ∀ rounds state reading, goes reading.current →
      loop (rounds + 1) state reading = (body state >>= loop rounds) reading)
    (bodyLocal : ∀ state reading, (body state).Local reading)
    (takes : ∀ state reading next rest, goes reading.current → body state reading = .ok next rest →
      rest.tokens.length < reading.tokens.length)
    (notEnd : ∀ token, goes token → token.kind ≠ .endOfInput)
    (rounds : Nat) (state : State) (reading : Reading) (enough : reading.tokens.length ≤ rounds) :
    LocalLoop (fun rounds => loop rounds state) rounds reading := by
  induction rounds generalizing state reading with
  | zero =>
      apply LocalLoop.of_current (.ok (result state)) (fun _ => rfl) (fun _ _ _ => rfl)
      intro rounds other same
      apply stop
      intro go
      rw [same] at go
      exact reading.tokens_ne_nil (notEnd _ go)
        (List.eq_nil_of_length_eq_zero (Nat.le_zero.mp enough))
  | succ rounds ih =>
      by_cases go : goes reading.current
      · apply LocalLoop.of_round (notEnd _ go)
        · intro rounds other same
          exact step rounds state other (same ▸ go)
        · apply LocalRound.bind (bodyLocal state reading)
          intro next rest ran
          have shorter := takes state reading next rest go ran
          exact ⟨shorter, ih next rest (by omega)⟩
      · apply LocalLoop.of_current (.ok (result state)) (fun _ => rfl) (fun _ _ _ => rfl)
        intro rounds other same
        exact stop rounds state other (same ▸ go)

end Rules

end Read

/-- Readers for nested phrases that look no further than the token they stop at. -/
structure Phrases.Local (inner : Phrases) : Prop where
  expr : ∀ power reading, (inner.expr power).Local reading
  statement : ∀ reading, inner.statement.Local reading
  conditional : ∀ reading, inner.conditional.Local reading

namespace Read

variable {α : Type} {inner : Phrases}

/-! ## Lists -/

theorem moreItems_local {item : Read α} (items : ∀ reading, item.Local reading) (done : List α)
    (rounds : Nat) (reading : Reading) (enough : reading.tokens.length ≤ rounds) :
    LocalLoop (fun rounds => moreItems item rounds done) rounds reading := by
  have next : ∀ done reading, (item >>= fun next => Pure.pure (next :: done)).Local reading :=
    fun done reading => .bind (items reading) fun _ rest _ => .pure _ rest
  refine LocalLoop.of_rounds (moreItems item) (fun done => do
      let _ ← Read.advance
      let next ← item
      Pure.pure (next :: done)) List.reverse (fun token => token.kind = .comma) ?_ ?_ ?_ ?_ ?_
    rounds done reading enough
  · intro rounds done reading halts
    cases rounds with
    | zero => rfl
    | succ rounds => rw [moreItems, bind_apply, accept_apply, if_neg halts]; rfl
  · intro rounds done reading comma
    rw [moreItems, bind_apply, accept_apply, if_pos comma, bind_assoc]
    show (item >>= fun next => moreItems item rounds (next :: done)) reading.advance =
      ((item >>= fun next => Pure.pure (next :: done)) >>= moreItems item rounds) reading.advance
    rw [bind_assoc]
    rfl
  · intro done reading
    exact .bind (.advance reading) fun _ rest _ => next done rest
  · intro done reading list rest comma result
    have shorter := reading.advance_length_lt (by rw [comma]; decide)
    have shrinks := (next done reading.advance).length_le result
    omega
  · intro token comma
    simp [comma]

theorem items_local {item : Read α} (items : ∀ reading, item.Local reading) (reading : Reading) :
    (Read.items item).Local reading :=
  .bind (items reading) fun first rest _ =>
    .remaining (moreItems_local items [first] rest.tokens.length rest (Nat.le_refl _))

theorem closedList_local {item : Read α} (items : ∀ reading, item.Local reading)
    (closing : TokenKind) (reading : Reading) : (closedList item closing).Local reading := by
  have close : ∀ (list : List α) rest,
      (Read.expect closing >>= fun _ => Pure.pure list).Local rest :=
    fun list rest => .bind (.expect closing rest) fun _ after _ => .pure list after
  refine .current ?_
  dsimp only
  split
  · exact .bind (.pure _ reading) fun list rest _ => close list rest
  · exact .bind (items_local items reading) fun list rest _ => close list rest

/-! ## Blocks -/

theorem skipInBlock_append (blockDepth : Nat) (tokens after : List Token) (depth : Nat)
    (covers : (skipInBlock blockDepth tokens depth).1 ≠ [] ∨ after = []) :
    skipInBlock blockDepth (tokens ++ after) depth =
      ((skipInBlock blockDepth tokens depth).1 ++ after,
        (skipInBlock blockDepth tokens depth).2) := by
  induction tokens generalizing depth with
  | nil =>
      obtain rfl := covers.resolve_left (absurd rfl)
      rfl
  | cons token rest ih =>
      simp only [skipInBlock, List.cons_append] at covers ⊢
      split
      · rfl
      next go =>
        rw [if_neg go] at covers
        split
        · rfl
        next further =>
          rw [if_neg further] at covers
          exact ih _ covers

theorem skipInBlock_length_le (blockDepth : Nat) (tokens : List Token) (depth : Nat) :
    (skipInBlock blockDepth tokens depth).1.length ≤ tokens.length := by
  fun_induction skipInBlock blockDepth tokens depth with
  | case1 => exact Nat.le_refl _
  | case2 => exact Nat.le_refl _
  | case3 => exact Nat.le_succ _
  | case4 _ _ _ _ _ _ ih => exact Nat.le_succ_of_le ih

theorem resumed_extend {blockDepth : Nat} {before : List Diagnostic} {after : List Token}
    {reading : Reading} (covers : (reading.resumed blockDepth).Covers after) :
    (reading.extend before after).resumed blockDepth =
      (reading.resumed blockDepth).extend before after := by
  have skipped := skipInBlock_append blockDepth reading.tokens after reading.depth covers
  simp only [Reading.resumed, Reading.extend, skipped]

theorem record_extend (before : List Diagnostic) (after : List Token) (reading : Reading)
    (diagnostic : Diagnostic) :
    (reading.extend before after).record diagnostic =
      (reading.record diagnostic).extend before after := by
  simp [Reading.extend, Reading.record]

/-- What a block does after a statement is local if the loop is, wherever it goes on with fewer
tokens than `limit`. -/
theorem afterStatement_local (loop : Nat → List Stmt → Read (List Stmt)) {blockDepth : Nat}
    {done : List Stmt} (rounds limit : Nat) (result : EStateM.Result ReadFailure Reading Stmt)
    (afterStmt : ∀ stmt rest, result = .ok stmt rest → rest.tokens.length < limit ∧
      LocalLoop (fun rounds => loop rounds (stmt :: done)) rounds rest)
    (afterFault : ∀ fault position rest, result = .error (.fault fault position) rest →
      (rest.resumed blockDepth).current.kind ≠ .endOfInput →
      (rest.resumed blockDepth).tokens.length < limit ∧
      LocalLoop (fun rounds => loop rounds done) rounds
        ((rest.resumed blockDepth).record ⟨.syntactic fault, position⟩)) :
    (ended (afterStatement (loop rounds) blockDepth done result)).tokens.length ≤
        (ended result).tokens.length ∧
      ∀ before after fewer, limit + after.length ≤ fewer + 1 →
        (ended (afterStatement (loop rounds) blockDepth done result)).Covers after →
        afterStatement (loop fewer) blockDepth done (extendResult before after result) =
          extendResult before after (afterStatement (loop rounds) blockDepth done result) := by
  cases result with
  | ok stmt rest =>
      obtain ⟨short, again⟩ := afterStmt stmt rest rfl
      constructor
      · exact again.shrinks
      · intro before after fewer fits covers
        exact again.carries before after fewer (by omega) covers
  | error failure rest =>
      cases failure with
      | tooDeep => exact ⟨Nat.le_refl _, fun _ _ _ _ _ => rfl⟩
      | numeral unread => exact ⟨Nat.le_refl _, fun _ _ _ _ _ => rfl⟩
      | fault fault position =>
          have skips : (rest.resumed blockDepth).tokens.length ≤ rest.tokens.length :=
            skipInBlock_length_le blockDepth rest.tokens rest.depth
          by_cases exhausted : (rest.resumed blockDepth).current.kind = .endOfInput
          · simp only [afterStatement, extendResult, if_pos exhausted]
            constructor
            · exact skips
            · intro before after fewer fits covers
              have resumedCovers : (rest.resumed blockDepth).Covers after := covers
              rw [resumed_extend resumedCovers, resumedCovers.current, if_pos exhausted]
          · obtain ⟨short, again⟩ := afterFault fault position rest rfl exhausted
            simp only [afterStatement, extendResult, if_neg exhausted]
            constructor
            · exact Nat.le_trans again.shrinks skips
            · intro before after fewer fits covers
              have resumedCovers : (rest.resumed blockDepth).Covers after :=
                covers.of_length_le again.shrinks
              rw [resumed_extend resumedCovers, resumedCovers.current, if_neg exhausted,
                record_extend]
              have enough : (rest.resumed blockDepth).tokens.length + after.length ≤ fewer := by
                omega
              exact again.carries before after fewer enough covers

theorem blockStatements_local (nested : inner.Span) (isLocal : inner.Local) (blockDepth : Nat)
    (done : List Stmt) (rounds : Nat) (reading : Reading) (depth : reading.depth = blockDepth)
    (enough : reading.tokens.length ≤ rounds) :
    LocalLoop (fun rounds => blockStatements inner.statement blockDepth (rounds + 1) done) rounds
      reading := by
  -- At the end of the input the loop fails with any number of rounds left.
  have halt : ∀ rounds done reading, reading.current.kind = .endOfInput →
      LocalLoop (fun rounds => blockStatements inner.statement blockDepth (rounds + 1) done) rounds
        reading := by
    intro rounds done reading atEnd
    apply LocalLoop.of_current (.error (.fault (.expected (.token .rightBrace) reading.current)
      reading.current.position)) (fun _ => rfl) (fun _ _ _ => rfl)
    intro rounds other same
    rw [blockStatements_ended _ _ _ _ (by rw [same, atEnd]), same]
  induction rounds generalizing done reading with
  | zero =>
      apply halt 0 done reading
      simp [Reading.current, List.eq_nil_of_length_eq_zero (Nat.le_zero.mp enough),
        Token.endOfInput]
  | succ rounds ih =>
      by_cases closing : reading.current.kind = .rightBrace
      · apply LocalLoop.of_current (.ok done.reverse) (fun _ => rfl) (fun _ _ _ => rfl)
        intro rounds other same
        exact blockStatements_closing _ _ _ _ (by rw [same, closing])
      by_cases atEnd : reading.current.kind = .endOfInput
      · exact halt (rounds + 1) done reading atEnd
      have spans := nested.statement true reading
      have afterStmt : ∀ stmt rest, inner.statement reading = .ok stmt rest →
          rest.tokens.length < reading.tokens.length ∧
          LocalLoop (fun rounds => blockStatements inner.statement blockDepth (rounds + 1)
            (stmt :: done)) rounds rest := by
        intro stmt rest result
        have spanned := spans.ok result
        have shorter := spanned.length_lt
        exact ⟨shorter, ih (stmt :: done) rest (spanned.depth_eq.trans depth) (by omega)⟩
      have afterFault : ∀ fault position rest,
          inner.statement reading = .error (.fault fault position) rest →
          (rest.resumed blockDepth).current.kind ≠ .endOfInput →
          (rest.resumed blockDepth).tokens.length < reading.tokens.length ∧
          LocalLoop (fun rounds => blockStatements inner.statement blockDepth (rounds + 1) done)
            rounds ((rest.resumed blockDepth).record ⟨.syntactic fault, position⟩) := by
        intro fault position rest result notEnded
        obtain ⟨shorter, depthAfter⟩ :=
          (spans.error result).recovers_progress depth closing notEnded
        exact ⟨shorter, ih done _ depthAfter (by omega)⟩
      apply LocalLoop.of_round atEnd
      · intro rounds other same
        exact blockStatements_succ inner.statement blockDepth (rounds + 1) done
          (by rwa [same]) (by rwa [same])
      · obtain ⟨shrinks, carries⟩ := afterStatement_local
          (fun rounds => blockStatements inner.statement blockDepth (rounds + 1)) rounds
          reading.tokens.length (inner.statement reading) afterStmt afterFault
        exact .of_result (isLocal.statement reading) shrinks carries

theorem block_local (nested : inner.Span) (isLocal : inner.Local) (reading : Reading) :
    (block inner.statement).Local reading := by
  refine .bind (.expect .leftBrace reading) fun opening rest _ => ?_
  have loop : (Read.remaining >>= fun budget =>
      blockStatements inner.statement rest.depth (budget + 1) []).Local rest :=
    .remaining (blockStatements_local nested isLocal rest.depth [] rest.tokens.length rest rfl
      (Nat.le_refl _))
  have close : ∀ (statements : List Stmt) after, (Read.advance >>= fun _ =>
      Pure.pure (Block.mk opening.position statements)).Local after :=
    fun statements after => .bind (.advance after) fun _ last _ => .pure _ last
  have whole := loop.bind fun statements after _ => close statements after
  rw [bind_assoc] at whole
  exact .depth whole

theorem alternative_local (nested : inner.Span) (isLocal : inner.Local) (reading : Reading) :
    (alternative inner).Local reading := by
  refine .current ?_
  split
  · exact .bind (isLocal.conditional reading) fun _ rest _ => .pure _ rest
  · exact block_local nested isLocal reading
  · exact .current (.throw _ reading)

/-! ## Operands -/

theorem integer_local (reading : Reading) : integer.Local reading := by
  refine .bind (.advance reading) fun token rest _ => ?_
  split
  · exact .throw _ rest
  · split
    · exact .throw _ rest
    · exact .pure _ rest

theorem pair_local (isLocal : inner.Local) (reading : Reading) : (pair inner).Local reading :=
  .current (.bind (isLocal.expr 0 reading) fun _ rest _ =>
    .bind (.expect .colon rest) fun _ value _ =>
      .bind (isLocal.expr 0 value) fun _ after _ => .pure _ after)

theorem conditional_local (nested : inner.Span) (isLocal : inner.Local) (reading : Reading) :
    (conditional inner).Local reading := by
  refine .bind (.advance reading) fun _ condition _ => ?_
  refine .bind (isLocal.expr 0 condition) fun _ consequence _ => ?_
  refine .bind (block_local nested isLocal consequence) fun _ rest _ => ?_
  refine .bind (.accept .kwElse rest) fun otherwise after _ => ?_
  cases otherwise with
  | false => exact .pure _ after
  | true => exact .bind (alternative_local nested isLocal after) fun _ last _ => .pure _ last

theorem function_local (nested : inner.Span) (isLocal : inner.Local) (reading : Reading) :
    (function inner).Local reading := by
  refine .bind (.advance reading) fun _ opening _ => ?_
  refine .bind (.expect .leftParen opening) fun _ parameters _ => ?_
  refine .bind (closedList_local (fun rest => .expect .identifier rest) .rightParen parameters)
    fun _ body _ => ?_
  exact .bind (block_local nested isLocal body) fun _ after _ => .pure _ after

theorem operand_local (nested : inner.Span) (isLocal : inner.Local) (reading : Reading) :
    (operand inner).Local reading := by
  have leafLocal : leaf.Local reading := .bind (.advance reading) fun _ rest _ => .pure _ rest
  have unaryLocal : (unary inner).Local reading :=
    .bind (.advance reading) fun _ rest _ =>
      .bind (isLocal.expr unaryPower rest) fun _ after _ => .pure _ after
  refine .current ?_
  split
  next => exact leafLocal
  next => exact leafLocal
  next => exact leafLocal
  next => exact leafLocal
  next => exact leafLocal
  next => exact integer_local reading
  next => exact unaryLocal
  next => exact unaryLocal
  next =>
    exact .bind (.advance reading) fun _ rest _ =>
      .bind (isLocal.expr 0 rest) fun _ after _ =>
        .bind (.expect .rightParen after) fun _ last _ => .pure _ last
  next =>
    exact .bind (.advance reading) fun _ rest _ =>
      .bind (closedList_local (isLocal.expr 0) .rightBracket rest) fun _ after _ => .pure _ after
  next =>
    exact .bind (.advance reading) fun _ rest _ =>
      .bind (closedList_local (pair_local isLocal) .rightBrace rest) fun _ after _ => .pure _ after
  next => exact .bind (block_local nested isLocal reading) fun _ rest _ => .pure _ rest
  next => exact conditional_local nested isLocal reading
  next => exact function_local nested isLocal reading
  next => exact .throw _ reading

/-! ## Operators -/

theorem extend_local (isLocal : inner.Local) (left : Expr) (reading : Reading) :
    (extend inner left).Local reading := by
  refine .current ?_
  split
  · exact .bind (.advance reading) fun _ rest _ =>
      .bind (closedList_local (isLocal.expr 0) .rightParen rest) fun _ after _ => .pure _ after
  · exact .bind (.advance reading) fun _ rest _ =>
      .bind (isLocal.expr 0 rest) fun _ after _ =>
        .bind (.expect .rightBracket after) fun _ last _ => .pure _ last
  · exact .bind (.advance reading) fun _ rest _ =>
      .bind (isLocal.expr _ rest) fun _ after _ => .pure _ after

theorem operators_local (nested : inner.Span) (isLocal : inner.Local) (power : Nat) (left : Expr)
    (rounds : Nat) (reading : Reading) (enough : reading.tokens.length ≤ rounds) :
    LocalLoop (fun rounds => operators inner power rounds left) rounds reading := by
  refine LocalLoop.of_rounds (operators inner power) (extend inner) id
    (fun token => power < token.kind.power) ?_ ?_ (extend_local isLocal) ?_ ?_ rounds left reading
    enough
  · intro rounds left reading halts
    cases rounds with
    | zero => rfl
    | succ rounds => exact (ite_apply _ _ _ reading).trans (if_neg halts)
  · intro rounds left reading binds
    exact (ite_apply _ _ _ reading).trans (if_pos binds)
  · intro left reading extended rest binds result
    exact ((extend_spans nested left (Nat.zero_lt_of_lt binds)).ok result).length_lt
  · intro token binds ended
    simp [ended, TokenKind.power] at binds

theorem expr_local (nested : inner.Span) (isLocal : inner.Local) (power : Nat)
    (reading : Reading) : (expr inner power).Local reading :=
  .bind (operand_local nested isLocal reading) fun left rest _ =>
    .remaining (operators_local nested isLocal power left rest.tokens.length rest (Nat.le_refl _))

/-! ## Statements -/

/-- A statement that ends in the last of the tokens, a semicolon, does not see what follows it. -/
structure LocalStatement {α : Type} (read : Read α) (reading : Reading) : Prop where
  isLocal : read.Local reading
  ends : ∀ {value rest}, read reading = .ok value rest →
    reading.tokens.getLast?.map Token.kind = some .semicolon → ∀ before after,
    read (reading.extend before after) = .ok value (rest.extend before after)

theorem getLast?_ne_semicolon {used : List Token} {level : Nat}
    (levels : levelAfter? .phrase used level = some 0) :
    used.getLast?.map Token.kind ≠ some .semicolon := by
  rcases List.eq_nil_or_concat used with rfl | ⟨leading, last, rfl⟩
  · simp
  · intro semicolon
    have isSemicolon : last.kind = .semicolon := by simpa using semicolon
    rw [List.concat_eq_append, levelAfter?_append] at levels
    obtain ⟨middle, -, step⟩ := Option.bind_eq_some_iff.mp levels
    rw [levelAfter?_cons, isSemicolon] at step
    by_cases outside : middle = 0
    · simp [TokenKind.levelAfter?, outside] at step
    · simp [TokenKind.levelAfter?, outside] at step

theorem LocalStatement.bind {α β : Type} {read : Read α} {next : α → Read β} {reading : Reading}
    (head : read.Local reading) (spans : read.Spans .phrase false 0 0 reading)
    (tail : ∀ value rest, read reading = .ok value rest → (next value).LocalStatement rest) :
    (read >>= next).LocalStatement reading := by
  refine ⟨head.bind fun value rest result => (tail value rest result).isLocal, ?_⟩
  intro value rest result semicolon before after
  rw [bind_apply] at result
  cases headResult : read reading with
  | error failure between =>
      rw [headResult] at result
      cases result
  | ok first between =>
      rw [headResult] at result
      obtain ⟨used, found, takes, -⟩ := spans.ok headResult
      have unfinished : between.tokens ≠ [] := by
        intro empty
        have wholeUsed : reading.tokens = used := by rw [takes.tokens, empty, List.append_nil]
        exact getLast?_ne_semicolon takes.level (wholeUsed ▸ semicolon)
      have lastToken : between.tokens.getLast?.map Token.kind = some .semicolon := by
        simpa [takes.tokens, List.getLast?_append, unfinished] using semicolon
      unfold Local at head
      rw [headResult] at head
      rw [bind_apply, head.carries before after (.inl unfinished)]
      exact (tail first between headResult).ends result lastToken before after

theorem LocalStatement.immediate {α : Type} {read : Read α} {reading : Reading}
    (immediate : read.Immediate reading) : read.LocalStatement reading := by
  refine ⟨immediate.isLocal, ?_⟩
  intro value rest result semicolon before after
  have nonempty : reading.tokens ≠ [] := fun empty => by simp [empty] at semicolon
  rw [immediate.carries before after (.inl nonempty), result]
  rfl

theorem LocalStatement.current {α : Type} {next : Token → Read α} {reading : Reading}
    (tail : (next reading.current).LocalStatement reading) :
    (Read.current >>= next).LocalStatement reading := by
  refine ⟨.current tail.isLocal, ?_⟩
  intro value rest result semicolon before after
  have covers : reading.Covers after := .inl fun empty => by simp [empty] at semicolon
  show next (reading.extend before after).current (reading.extend before after) = _
  rw [covers.current]
  exact tail.ends result semicolon before after

theorem LocalStatement.acceptOr {α : Type} {kind : TokenKind} {next : Bool → Read α} {value : α}
    {reading : Reading} (found : next true = Pure.pure value)
    (missing : (next false).LocalStatement reading) :
    (Read.accept kind >>= next).LocalStatement reading := by
  have yes : ∀ other : Reading, other.current.kind = kind →
      (Read.accept kind >>= next) other = .ok value other.advance := by
    intro other accepted
    rw [bind_apply, accept_apply, if_pos accepted]
    simp only [found]
    rfl
  have no : ∀ other : Reading, other.current.kind ≠ kind →
      (Read.accept kind >>= next) other = next false other := by
    intro other refused
    rw [bind_apply, accept_apply, if_neg refused]
  by_cases accepted : reading.current.kind = kind
  · refine .immediate ⟨fun before after covers => ?_, ?_⟩
    · rw [yes reading accepted, yes _ (by rw [covers.current, accepted]), covers.advance]
      rfl
    · rw [yes reading accepted]
      exact reading.advance_length_le
  · have same := no reading accepted
    have tail := missing.isLocal
    refine ⟨?_, fun result semicolon before after => ?_⟩
    · unfold Local at tail ⊢
      rw [same]
      refine ⟨fun before after covers => ?_, tail.shrinks⟩
      rw [no _ (by rwa [(covers.of_length_le tail.shrinks).current])]
      exact tail.carries before after covers
    · rw [same] at result
      have covers : reading.Covers after := .inl fun empty => by simp [empty] at semicolon
      rw [no _ (by rwa [covers.current])]
      exact missing.ends result semicolon before after

theorem binding_local (nested : inner.Span) (isLocal : inner.Local) {reading : Reading}
    (keyword : reading.current.kind = .kwLet) : (binding inner).LocalStatement reading := by
  refine .bind (.advance reading) (.advance (by rw [keyword]; rfl)) fun _ name _ => ?_
  refine .bind (.expect .identifier name) (.expect rfl) fun _ assign _ => ?_
  refine .bind (.expect .assign assign) (.expect rfl) fun _ value _ => ?_
  refine .bind (isLocal.expr 0 value) (nested.expr false 0 value) fun _ rest _ => ?_
  exact .immediate (.map (.expect .semicolon rest))

theorem returning_local (nested : inner.Span) (isLocal : inner.Local) {reading : Reading}
    (keyword : reading.current.kind = .kwReturn) : (returning inner).LocalStatement reading := by
  refine .bind (.advance reading) (.advance (by rw [keyword]; rfl)) fun _ rest _ => ?_
  refine .acceptOr rfl (.bind (isLocal.expr 0 rest) (nested.expr false 0 rest) fun _ after _ => ?_)
  exact .immediate (.map (.expect .semicolon after))

theorem blockStmt_local (nested : inner.Span) (isLocal : inner.Local) (reading : Reading) :
    (blockStmt inner).LocalStatement reading :=
  .bind (block_local nested isLocal reading) (block_spans nested reading) fun _ rest _ =>
    .immediate (.map (.accept .semicolon rest))

theorem endExprStmt_immediate (value : Expr) (reading : Reading) :
    (endExprStmt value).Immediate reading := by
  refine .current ?_
  split
  · exact .map (.accept .semicolon reading)
  split
  · exact .pure _ reading
  · exact .map (.expect .semicolon reading)

theorem exprStmt_local (nested : inner.Span) (isLocal : inner.Local) (reading : Reading) :
    (exprStmt inner).LocalStatement reading :=
  .current (.bind (isLocal.expr 0 reading) (nested.expr false 0 reading) fun value rest _ =>
    .immediate (.map (endExprStmt_immediate value rest)))

theorem statement_local (nested : inner.Span) (isLocal : inner.Local) (reading : Reading) :
    (statement inner).LocalStatement reading := by
  refine .current ?_
  split
  next keyword => exact binding_local nested isLocal keyword
  next keyword => exact returning_local nested isLocal keyword
  next => exact blockStmt_local nested isLocal reading
  next => exact exprStmt_local nested isLocal reading

end Read

theorem phrases_local (limit : Nat) : (phrases limit).Local := by
  induction limit with
  | zero => exact ⟨fun _ reading => .throw _ reading, fun reading => .throw _ reading,
      fun reading => .throw _ reading⟩
  | succ limit ih =>
      exact ⟨fun power reading => Read.expr_local (phrases_span limit) ih power reading,
        fun reading => (Read.statement_local (phrases_span limit) ih reading).isLocal,
        fun reading => Read.conditional_local (phrases_span limit) ih reading⟩

theorem phrases_statement_local (limit : Nat) (reading : Reading) :
    (phrases limit).statement.LocalStatement reading := by
  cases limit with
  | zero => exact .immediate ⟨fun _ _ _ => rfl, Nat.le_refl _⟩
  | succ limit => exact Read.statement_local (phrases_span limit) (phrases_local limit) reading

end Monkey
