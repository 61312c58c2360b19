import Monkey.Proofs.Ast.Nodes
import Monkey.Proofs.Grammar.Leaves

/-!
# Where phrases are

The position of every node that is read is that of a token, the one that a reader stands at or has
just taken. No reader takes the end of the input, so there always is one.
-/

set_option autoImplicit false

namespace Monkey

variable {placed : Position → Prop}

namespace Reading

/-- The tokens that are left are at such positions, and the end of the input is among them. -/
structure Placed (placed : Position → Prop) (reading : Reading) : Prop where
  tokens : ∀ token ∈ reading.tokens, placed token.position
  ended : ∃ token ∈ reading.tokens, token.kind = .endOfInput

variable {reading rest : Reading}

theorem Placed.current (isPlaced : reading.Placed placed) : placed reading.current.position := by
  obtain ⟨tokens, depth, diagnostics⟩ := reading
  obtain ⟨all, token, member, -⟩ := isPlaced
  cases tokens with
  | nil => cases member
  | cons first others => exact all first List.mem_cons_self

theorem Placed.drop (isPlaced : reading.Placed placed) {used : List Token}
    (split : reading.tokens = used ++ rest.tokens)
    (notEnd : ∀ token ∈ used, token.kind ≠ .endOfInput) : rest.Placed placed := by
  obtain ⟨all, token, member, ended⟩ := isPlaced
  rw [split] at all member
  refine ⟨fun token member => all token (List.mem_append_right used member), token, ?_, ended⟩
  exact (List.mem_append.mp member).resolve_left fun isUsed => notEnd token isUsed ended

theorem Placed.takes {extent : Extent} {used : List Token} {found : List Diagnostic}
    {first last : Nat} (isPlaced : reading.Placed placed)
    (takes : reading.Takes extent used found first last rest) : rest.Placed placed :=
  isPlaced.drop takes.tokens (levelAfter?_notEnd takes.level)

theorem Placed.advance (isPlaced : reading.Placed placed)
    (notEnd : reading.current.kind ≠ .endOfInput) : reading.advance.Placed placed :=
  let selects := selects_advance notEnd
  isPlaced.drop selects.tokens selects.notEnd

end Reading

namespace Read

variable {α β : Type}

/-- Where what is left is placed, it still is after reading, and what has been read is as
described. -/
def Places (placed : Position → Prop) (good : α → Prop) (read : Read α) (reading : Reading) :
    Prop :=
  reading.Placed placed →
    match read reading with
    | .ok value rest => good value ∧ rest.Placed placed
    | .error _ rest => rest.Placed placed

section Rules

variable {good : α → Prop} {read : Read α} {reading rest : Reading}

theorem Places.ok {value : α} (places : read.Places placed good reading)
    (isPlaced : reading.Placed placed) (result : read reading = .ok value rest) :
    good value ∧ rest.Placed placed := by
  have ended := places isPlaced
  rwa [result] at ended

theorem Places.error {failure : ReadFailure} (places : read.Places placed good reading)
    (isPlaced : reading.Placed placed) (result : read reading = .error failure rest) :
    rest.Placed placed := by
  have ended := places isPlaced
  rwa [result] at ended

theorem Places.pure {value : α} (isGood : good value) (reading : Reading) :
    (Pure.pure value : Read α).Places placed good reading :=
  fun isPlaced => ⟨isGood, isPlaced⟩

theorem Places.throw (failure : ReadFailure) (reading : Reading) :
    (MonadExcept.throw failure : Read α).Places placed good reading :=
  fun isPlaced => isPlaced

theorem Places.bind {next : α → Read β} {goodAfter : β → Prop}
    (head : read.Places placed good reading)
    (tail : ∀ value rest, read reading = .ok value rest → good value →
      (next value).Places placed goodAfter rest) :
    (read >>= next).Places placed goodAfter reading := by
  intro isPlaced
  rw [bind_apply]
  cases result : read reading with
  | error failure rest => exact head.error isPlaced result
  | ok value between =>
      obtain ⟨isGood, stillPlaced⟩ := head.ok isPlaced result
      exact tail value between result isGood stillPlaced

theorem Places.current {next : Token → Read α}
    (tail : placed reading.current.position →
      (next reading.current).Places placed good reading) :
    (Read.current >>= next).Places placed good reading :=
  fun isPlaced => tail isPlaced.current isPlaced

theorem Places.remaining {next : Nat → Read α}
    (tail : (next reading.tokens.length).Places placed good reading) :
    (Read.remaining >>= next).Places placed good reading :=
  tail

theorem Places.advance (notEnd : reading.current.kind ≠ .endOfInput) :
    Read.advance.Places placed (fun token => placed token.position) reading :=
  fun isPlaced => ⟨isPlaced.current, isPlaced.advance notEnd⟩

theorem Places.expect {kind : TokenKind} (notEnd : kind ≠ .endOfInput) :
    (Read.expect kind).Places placed (fun token => placed token.position) reading := by
  intro isPlaced
  rw [expect_apply]
  by_cases expected : reading.current.kind = kind
  · rw [if_pos expected]
    exact ⟨isPlaced.current, isPlaced.advance (expected ▸ notEnd)⟩
  · rw [if_neg expected]
    exact isPlaced

theorem Places.accept {kind : TokenKind} (notEnd : kind ≠ .endOfInput) :
    (Read.accept kind).Places placed (fun _ => True) reading := by
  intro isPlaced
  rw [accept_apply]
  by_cases accepted : reading.current.kind = kind
  · rw [if_pos accepted]
    exact ⟨trivial, isPlaced.advance (accepted ▸ notEnd)⟩
  · rw [if_neg accepted]
    exact ⟨trivial, isPlaced⟩

end Rules

end Read

/-- Readers for nested phrases that place their nodes. -/
structure Phrases.Places (placed : Position → Prop) (inner : Phrases) : Prop where
  expr : ∀ power reading, (inner.expr power).Places placed (Expr.Placed placed) reading
  statement : ∀ reading, inner.statement.Places placed (Stmt.Placed placed) reading
  conditional : ∀ reading, reading.current.kind = .kwIf →
    inner.conditional.Places placed (Expr.Placed placed) reading

namespace Read

variable {α : Type} {inner : Phrases}

/-! ## Lists -/

section Lists

variable {item : Read α} {good : α → Prop}

theorem moreItems_places (items : ∀ reading, item.Places placed good reading) (budget : Nat)
    (done : List α) (doneGood : ∀ value ∈ done, good value) (reading : Reading) :
    (moreItems item budget done).Places placed (fun list => ∀ value ∈ list, good value)
      reading := by
  have finished : ∀ value ∈ done.reverse, good value := by simpa using doneGood
  induction budget generalizing done reading with
  | zero => exact .pure finished reading
  | succ budget ih =>
      refine .bind (.accept (by decide)) fun comma rest _ _ => ?_
      cases comma with
      | false => exact .pure finished rest
      | true =>
          refine .bind (items rest) fun next after _ isGood => ?_
          have more := List.forall_mem_cons.mpr ⟨isGood, doneGood⟩
          exact ih (next :: done) more after fun value member =>
            more value (List.mem_reverse.mp member)

theorem items_places (items : ∀ reading, item.Places placed good reading) (reading : Reading) :
    (Read.items item).Places placed (fun list => ∀ value ∈ list, good value) reading :=
  .bind (items reading) fun first rest _ isGood => .remaining
    (moreItems_places items _ [first] (List.forall_mem_singleton.mpr isGood) rest)

theorem closedList_places {closing : TokenKind} (notEnd : closing ≠ .endOfInput)
    (items : ∀ reading, item.Places placed good reading) (reading : Reading) :
    (closedList item closing).Places placed (fun list => ∀ value ∈ list, good value) reading := by
  have close : ∀ (list : List α), (∀ value ∈ list, good value) → ∀ rest,
      (Read.expect closing >>= fun _ => Pure.pure list).Places placed
        (fun list => ∀ value ∈ list, good value) rest :=
    fun list all rest => .bind (.expect notEnd) fun _ after _ _ => .pure all after
  refine .current fun _ => ?_
  dsimp only
  split
  · exact close [] (List.forall_mem_nil _) reading
  · exact .bind (items_places items reading) fun list rest _ all => close list all rest

end Lists

/-! ## Blocks -/

theorem blockStatements_places (nested : inner.Span) (places : inner.Places placed)
    (blockDepth budget : Nat) (done : List Stmt) (doneGood : ∀ stmt ∈ done, stmt.Placed placed)
    (reading : Reading) (depth : reading.depth = blockDepth)
    (enough : reading.tokens.length < budget) :
    (blockStatements inner.statement blockDepth budget done).Places placed
      (fun list => ∀ stmt ∈ list, stmt.Placed placed) reading := by
  intro isPlaced
  induction budget generalizing done reading with
  | zero => omega
  | succ budget ih =>
      by_cases closing : reading.current.kind = .rightBrace
      · rw [blockStatements_closing _ _ _ _ closing]
        exact ⟨by simpa using doneGood, isPlaced⟩
      by_cases ended : reading.current.kind = .endOfInput
      · rw [blockStatements_ended _ _ _ _ ended]
        exact isPlaced
      rw [blockStatements_succ _ _ _ _ closing ended]
      cases ran : inner.statement reading with
      | ok stmt between =>
          obtain ⟨stmtPlaced, stillPlaced⟩ := (places.statement reading).ok isPlaced ran
          have spanned := (nested.statement true reading).ok ran
          have shorter := spanned.length_lt
          exact ih (stmt :: done) (List.forall_mem_cons.mpr ⟨stmtPlaced, doneGood⟩) between
            (spanned.depth_eq.trans depth) (by omega) stillPlaced
      | error failure between =>
          have stillPlaced := (places.statement reading).error isPlaced ran
          cases failure with
          | tooDeep => exact stillPlaced
          | numeral unread => exact stillPlaced
          | fault fault position =>
              have broken := (nested.statement false reading).error ran
              obtain ⟨used, found, level, takes, -⟩ := id broken
              obtain ⟨skipped, last, skips, -⟩ := takes.resumed depth
              have resumed := stillPlaced.takes skips
              unfold afterStatement
              dsimp only
              by_cases exhausted : (between.resumed blockDepth).current.kind = .endOfInput
              · rw [if_pos exhausted]
                exact resumed
              rw [if_neg exhausted]
              obtain ⟨shorter, atLevel⟩ := broken.recovers_progress depth closing exhausted
              exact ih done doneGood _ atLevel (by omega) ⟨resumed.tokens, resumed.ended⟩

theorem block_places (nested : inner.Span) (places : inner.Places placed) (reading : Reading) :
    (block inner.statement).Places placed (Block.Placed placed) reading := by
  refine .bind (.expect (by decide)) fun opening rest _ openingPlaced => ?_
  intro isPlaced
  simp only [bind_apply, Read.depth, Read.remaining]
  have within := blockStatements_spans nested rest.depth (rest.tokens.length + 1) [] rest rfl
    (Nat.lt_succ_self _)
  have ends := blockStatements_places nested places rest.depth (rest.tokens.length + 1) []
    (List.forall_mem_nil _) rest rfl (Nat.lt_succ_self _) isPlaced
  cases result : blockStatements inner.statement rest.depth (rest.tokens.length + 1) [] rest with
  | ok statements after =>
      rw [result] at within ends
      refine ⟨⟨openingPlaced, ends.1⟩, ends.2.advance ?_⟩
      rw [within.1]
      decide
  | error failure after =>
      rw [result] at ends
      exact ends

theorem alternative_places (nested : inner.Span) (places : inner.Places placed)
    (reading : Reading) : (alternative inner).Places placed (Block.Placed placed) reading := by
  refine .current fun isPlaced => ?_
  split
  next chained =>
    refine .bind (places.conditional reading chained) fun value rest _ valuePlaced => ?_
    exact .pure ⟨isPlaced, by simpa [Block.statements] using ⟨isPlaced, valuePlaced⟩⟩ rest
  next => exact block_places nested places reading
  next => exact .current fun _ => .throw _ reading

/-! ## Operands -/

section Operands

variable {reading : Reading}

theorem leaf_places (notEnd : reading.current.kind ≠ .endOfInput) :
    leaf.Places placed (Expr.Placed placed) reading :=
  .bind (.advance notEnd) fun token rest _ isPlaced => .pure (by simpa using isPlaced) rest

theorem integer_places (notEnd : reading.current.kind ≠ .endOfInput) :
    integer.Places placed (Expr.Placed placed) reading := by
  refine .bind (.advance notEnd) fun token rest _ isPlaced => ?_
  split
  · exact .throw _ rest
  · split
    · exact .throw _ rest
    · exact .pure (by simpa using isPlaced) rest

theorem unary_places (places : inner.Places placed) (notEnd : reading.current.kind ≠ .endOfInput) :
    (unary inner).Places placed (Expr.Placed placed) reading :=
  .bind (.advance notEnd) fun operator operand _ isPlaced =>
    .bind (places.expr unaryPower operand) fun value rest _ valuePlaced =>
      .pure (by simpa using ⟨isPlaced, valuePlaced⟩) rest

theorem grouped_places (places : inner.Places placed)
    (notEnd : reading.current.kind ≠ .endOfInput) :
    (grouped inner).Places placed (Expr.Placed placed) reading :=
  .bind (.advance notEnd) fun _ inside _ _ =>
    .bind (places.expr 0 inside) fun _ _ _ valuePlaced =>
      .bind (.expect (by decide)) fun _ rest _ _ => .pure valuePlaced rest

theorem array_places (places : inner.Places placed) (notEnd : reading.current.kind ≠ .endOfInput) :
    (array inner).Places placed (Expr.Placed placed) reading :=
  .bind (.advance notEnd) fun _ inside _ isPlaced =>
    .bind (closedList_places (by decide) (places.expr 0) inside) fun items rest _ all =>
      .pure (by simpa using ⟨isPlaced, all⟩) rest

theorem pair_places (places : inner.Places placed) (reading : Reading) :
    (pair inner).Places placed (Pair.Placed placed) reading :=
  .current fun isPlaced =>
    .bind (places.expr 0 reading) fun _ colon _ keyPlaced =>
      .bind (.expect (by decide)) fun _ value _ _ =>
        .bind (places.expr 0 value) fun _ rest _ valuePlaced =>
          .pure (by simpa using ⟨isPlaced, keyPlaced, valuePlaced⟩) rest

theorem hash_places (places : inner.Places placed) (notEnd : reading.current.kind ≠ .endOfInput) :
    (hash inner).Places placed (Expr.Placed placed) reading :=
  .bind (.advance notEnd) fun _ inside _ isPlaced =>
    .bind (closedList_places (by decide) (pair_places places) inside) fun pairs rest _ all =>
      .pure (by simpa using ⟨isPlaced, all⟩) rest

theorem conditional_places (nested : inner.Span) (places : inner.Places placed)
    (notEnd : reading.current.kind ≠ .endOfInput) :
    (conditional inner).Places placed (Expr.Placed placed) reading := by
  refine .bind (.advance notEnd) fun _ condition _ isPlaced => ?_
  refine .bind (places.expr 0 condition) fun _ consequence _ conditionPlaced => ?_
  refine .bind (block_places nested places consequence) fun _ rest _ consequencePlaced => ?_
  refine .bind (.accept (by decide)) fun otherwise after _ _ => ?_
  cases otherwise with
  | false => exact .pure (by simpa using ⟨isPlaced, conditionPlaced, consequencePlaced⟩) after
  | true =>
      refine .bind (alternative_places nested places after) fun _ last _ alternativePlaced => ?_
      exact .pure (by
        simpa using ⟨isPlaced, conditionPlaced, consequencePlaced, alternativePlaced⟩) last

theorem function_places (nested : inner.Span) (places : inner.Places placed)
    (notEnd : reading.current.kind ≠ .endOfInput) :
    (function inner).Places placed (Expr.Placed placed) reading := by
  refine .bind (.advance notEnd) fun _ opening _ isPlaced => ?_
  refine .bind (.expect (by decide)) fun _ parameters _ openingPlaced => ?_
  refine .bind (closedList_places (by decide) (fun _ => .expect (by decide)) parameters)
    fun _ body _ parametersPlaced => ?_
  refine .bind (block_places nested places body) fun _ rest _ bodyPlaced => ?_
  exact .pure (by simpa using ⟨isPlaced, ⟨openingPlaced, parametersPlaced⟩, bodyPlaced⟩) rest

theorem operand_places (nested : inner.Span) (places : inner.Places placed) (reading : Reading) :
    (operand inner).Places placed (Expr.Placed placed) reading := by
  refine .current fun _ => ?_
  split
  next name => exact leaf_places (by rw [name]; exact nofun)
  next literal => exact leaf_places (by rw [literal]; exact nofun)
  next literal => exact leaf_places (by rw [literal]; exact nofun)
  next literal => exact leaf_places (by rw [literal]; exact nofun)
  next literal => exact leaf_places (by rw [literal]; exact nofun)
  next literal => exact integer_places (by rw [literal]; exact nofun)
  next minus => exact unary_places places (by rw [minus]; exact nofun)
  next bang => exact unary_places places (by rw [bang]; exact nofun)
  next opening => exact grouped_places places (by rw [opening]; exact nofun)
  next opening => exact array_places places (by rw [opening]; exact nofun)
  next opening => exact hash_places places (by rw [opening]; exact nofun)
  next =>
    refine .bind (block_places nested places reading) fun body rest _ bodyPlaced => ?_
    exact .pure (by simpa using bodyPlaced) rest
  next keyword => exact conditional_places nested places (by rw [keyword]; exact nofun)
  next keyword => exact function_places nested places (by rw [keyword]; exact nofun)
  next => exact .throw _ reading

/-! ## Operators -/

theorem notEnd_of_power {kind : TokenKind} (binds : 0 < kind.power) : kind ≠ .endOfInput := by
  rintro rfl
  exact absurd binds (Nat.lt_irrefl 0)

theorem extend_places (places : inner.Places placed) {left : Expr} (leftPlaced : left.Placed placed)
    (binds : 0 < reading.current.kind.power) :
    (extend inner left).Places placed (Expr.Placed placed) reading := by
  have notEnd := notEnd_of_power binds
  refine .current fun _ => ?_
  split
  · refine .bind (.advance notEnd) fun _ arguments _ isPlaced => ?_
    refine .bind (closedList_places (by decide) (places.expr 0) arguments) fun _ rest _ all => ?_
    exact .pure (by simpa using ⟨isPlaced, leftPlaced, all⟩) rest
  · refine .bind (.advance notEnd) fun _ place _ isPlaced => ?_
    refine .bind (places.expr 0 place) fun _ closing _ placePlaced => ?_
    refine .bind (.expect (by decide)) fun _ rest _ _ => ?_
    exact .pure (by simpa using ⟨isPlaced, leftPlaced, placePlaced⟩) rest
  · refine .bind (.advance notEnd) fun _ right _ isPlaced => ?_
    refine .bind (places.expr _ right) fun _ rest _ rightPlaced => ?_
    exact .pure (by simpa using ⟨isPlaced, leftPlaced, rightPlaced⟩) rest

theorem operators_places (places : inner.Places placed) (power budget : Nat) {left : Expr}
    (leftPlaced : left.Placed placed) (reading : Reading) :
    (operators inner power budget left).Places placed (Expr.Placed placed) reading := by
  induction budget generalizing left reading with
  | zero => exact .pure leftPlaced reading
  | succ budget ih =>
      refine .current fun _ => ?_
      split
      next binds =>
        exact .bind (extend_places places leftPlaced (by omega))
          fun extended rest _ extendedPlaced => ih extendedPlaced rest
      next => exact .pure leftPlaced reading

theorem expr_places (nested : inner.Span) (places : inner.Places placed) (power : Nat)
    (reading : Reading) : (expr inner power).Places placed (Expr.Placed placed) reading :=
  .bind (operand_places nested places reading) fun _ rest _ leftPlaced =>
    .remaining (operators_places places power _ leftPlaced rest)

/-! ## Statements -/

theorem binding_places (places : inner.Places placed)
    (notEnd : reading.current.kind ≠ .endOfInput) :
    (binding inner).Places placed (Stmt.Placed placed) reading := by
  refine .bind (.advance notEnd) fun _ name _ isPlaced => ?_
  refine .bind (.expect (by decide)) fun _ assign _ namePlaced => ?_
  refine .bind (.expect (by decide)) fun _ value _ _ => ?_
  refine .bind (places.expr 0 value) fun _ semicolon _ valuePlaced => ?_
  refine .bind (.expect (by decide)) fun _ rest _ _ => ?_
  exact .pure (by simpa using ⟨isPlaced, namePlaced, valuePlaced⟩) rest

theorem returning_places (places : inner.Places placed)
    (notEnd : reading.current.kind ≠ .endOfInput) :
    (returning inner).Places placed (Stmt.Placed placed) reading := by
  refine .bind (.advance notEnd) fun _ value _ isPlaced => ?_
  refine .bind (.accept (by decide)) fun finished after _ _ => ?_
  cases finished with
  | true => exact .pure (by simpa using isPlaced) after
  | false =>
      refine .bind (places.expr 0 after) fun _ semicolon _ valuePlaced => ?_
      refine .bind (.expect (by decide)) fun _ rest _ _ => ?_
      exact .pure (by simpa using ⟨isPlaced, valuePlaced⟩) rest

theorem blockStmt_places (nested : inner.Span) (places : inner.Places placed)
    (reading : Reading) : (blockStmt inner).Places placed (Stmt.Placed placed) reading :=
  .bind (block_places nested places reading) fun _ semicolon _ bodyPlaced =>
    .bind (.accept (by decide)) fun _ rest _ _ => .pure (by simpa using bodyPlaced) rest

theorem endExprStmt_places (value : Expr) (reading : Reading) :
    (endExprStmt value).Places placed (fun _ => True) reading := by
  refine .current fun _ => ?_
  split
  · exact .bind (.accept (by decide)) fun _ rest _ _ => .pure trivial rest
  split
  · exact .pure trivial reading
  · exact .bind (.expect (by decide)) fun _ rest _ _ => .pure trivial rest

theorem exprStmt_places (places : inner.Places placed) (reading : Reading) :
    (exprStmt inner).Places placed (Stmt.Placed placed) reading :=
  .current fun isPlaced =>
    .bind (places.expr 0 reading) fun value semicolon _ valuePlaced =>
      .bind (endExprStmt_places value semicolon) fun _ rest _ _ =>
        .pure (by simpa using ⟨isPlaced, valuePlaced⟩) rest

theorem statement_places (nested : inner.Span) (places : inner.Places placed)
    (reading : Reading) : (statement inner).Places placed (Stmt.Placed placed) reading := by
  refine .current fun _ => ?_
  split
  next keyword => exact binding_places places (by rw [keyword]; exact nofun)
  next keyword => exact returning_places places (by rw [keyword]; exact nofun)
  next => exact blockStmt_places nested places reading
  next => exact exprStmt_places places reading

end Operands

end Read

theorem phrases_places (placed : Position → Prop) (limit : Nat) :
    (phrases limit).Places placed := by
  induction limit with
  | zero => exact ⟨fun _ => .throw _, .throw _, fun reading _ => .throw _ reading⟩
  | succ limit ih =>
      have nested := phrases_span limit
      refine ⟨Read.expr_places nested ih, Read.statement_places nested ih, ?_⟩
      intro reading keyword
      exact Read.conditional_places nested ih (by rw [keyword]; exact nofun)

end Monkey
