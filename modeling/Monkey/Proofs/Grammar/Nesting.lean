import Monkey.Proofs.Grammar.Recovery

/-!
# Every phrase keeps to its own braces

The readers of the grammar one by one, each in terms of the readers for the phrases nested in it,
and from them `phrases_span`: at every limit of nesting, what a reader takes closes exactly the
braces it opens, whether it succeeds, recovers inside a block or fails.
-/

set_option autoImplicit false

namespace Monkey

/-- Readers for nested phrases that keep to their own braces. -/
structure Phrases.Span (inner : Phrases) : Prop where
  expr : ∀ moves power reading, (inner.expr power).Spans .phrase moves 0 0 reading
  statement : ∀ moves reading, inner.statement.Spans .statements moves 0 0 reading
  /-- An `if` is only read where one stands. -/
  conditional : ∀ moves reading, reading.current.kind = .kwIf →
    inner.conditional.Spans .phrase moves 0 0 reading

namespace Read

variable {α : Type} {inner : Phrases} {moves : Bool}

/-! ## Lists -/

theorem moreItems_spans {item : Read α} {level : Nat}
    (items : ∀ reading, item.Spans .phrase false level level reading) (budget : Nat)
    (done : List α) (reading : Reading) :
    (moreItems item budget done).Spans .phrase false level level reading := by
  induction budget generalizing done reading with
  | zero => exact .pure _ reading
  | succ budget ih =>
      refine .bind (.accept rfl) fun comma rest _ => ?_
      cases comma with
      | false => exact .pure _ rest
      | true => exact .bind (items rest) fun next after _ => ih (next :: done) after

theorem items_spans {item : Read α} {level : Nat}
    (items : ∀ reading, item.Spans .phrase false level level reading) (reading : Reading) :
    (Read.items item).Spans .phrase false level level reading :=
  .bind (items reading) fun first rest _ => .remaining (moreItems_spans items _ [first] rest)

theorem closedList_spans {item : Read α} {closing : TokenKind} {level last : Nat}
    (items : ∀ reading, item.Spans .phrase false level level reading)
    (closes : closing.levelAfter? .phrase level = some last) (reading : Reading) :
    (closedList item closing).Spans .phrase false level last reading := by
  have close : ∀ (list : List α) rest,
      (Read.expect closing >>= fun _ => Pure.pure list).Spans .phrase false level last rest :=
    fun list rest => .bind (.expect closes) fun _ after _ => .pure list after
  refine .current ?_
  dsimp only
  split
  · exact .bind (.pure _ reading) fun list rest _ => close list rest
  · exact .bind (items_spans items reading) fun list rest _ => close list rest

/-! ## Blocks -/

theorem blockStatements_spans (nested : inner.Span) (blockDepth budget : Nat) (done : List Stmt)
    (reading : Reading) (depth : reading.depth = blockDepth)
    (enough : reading.tokens.length < budget) :
    reading.SpansStatements (blockStatements inner.statement blockDepth budget done reading) := by
  induction budget generalizing done reading with
  | zero => omega
  | succ budget ih =>
      by_cases closing : reading.current.kind = .rightBrace
      · rw [blockStatements_closing _ _ _ _ closing]
        exact ⟨closing, [], [], .refl .statements 0 reading, List.nil_sublist _⟩
      by_cases ended : reading.current.kind = .endOfInput
      · rw [blockStatements_ended _ _ _ _ ended]
        exact ⟨Reading.broken_here .statements 0 _ reading, fun _ => ended⟩
      rw [blockStatements_succ _ _ _ _ closing ended]
      cases result : inner.statement reading with
      | ok stmt rest =>
          have spanned := (nested.statement true reading).ok result
          have shorter := spanned.length_lt
          exact spanned.spansStatements
            (ih (stmt :: done) rest (spanned.depth_eq.trans depth) (by omega))
      | error failure rest =>
          have broken := (nested.statement false reading).error result
          cases failure with
          | tooDeep => exact ⟨broken.statements, fun blamed => absurd rfl blamed⟩
          | numeral unread => exact ⟨broken.statements, fun blamed => absurd rfl blamed⟩
          | fault fault position =>
              unfold afterStatement
              dsimp only
              by_cases exhausted : (rest.resumed blockDepth).current.kind = .endOfInput
              · rw [if_pos exhausted]
                exact ⟨broken.exhausted depth, fun _ => exhausted⟩
              rw [if_neg exhausted]
              rcases broken.recovers depth closing exhausted with behind | ⟨shorter, atBrace⟩
              · have shorter := behind.length_lt
                exact behind.spansStatements
                  (ih done _ (behind.depth_eq.trans depth) (by omega))
              · obtain ⟨rounds, rfl⟩ : ∃ rounds, budget = rounds + 1 := ⟨budget - 1, by omega⟩
                rw [blockStatements_closing _ _ _ _ atBrace.1]
                exact atBrace

theorem block_spans (nested : inner.Span) (reading : Reading) :
    (block inner.statement).Spans .phrase moves 0 0 reading := by
  have opens : (Read.expect .leftBrace).Spans .phrase moves 0 1 reading := .expect rfl
  refine .bind opens fun opening rest _ => ?_
  unfold Spans
  rw [bind_apply]
  simp only [Read.depth, bind_apply, Read.remaining]
  have within := blockStatements_spans nested rest.depth (rest.tokens.length + 1) [] rest rfl
    (Nat.lt_succ_self _)
  cases result : blockStatements inner.statement rest.depth (rest.tokens.length + 1) [] rest with
  | ok statements after =>
      rw [result] at within
      obtain ⟨closing, used, found, takes, blamed⟩ := within
      have closed : after.Takes .phrase [after.current] [] 1 0 after.advance :=
        Reading.takes_advance (by rw [closing]; rfl)
      refine ⟨_, _, takes.raise.trans closed, by simpa using blamed, nofun⟩
  | error failure after =>
      rw [result] at within
      exact within.1.raise

theorem alternative_spans (nested : inner.Span) (reading : Reading) :
    (alternative inner).Spans .phrase moves 0 0 reading := by
  refine .current ?_
  split
  next chained =>
    exact .bind (nested.conditional moves reading chained) fun _ rest _ => .pure _ rest
  next => exact block_spans nested reading
  next => exact .current (.fail _ reading)

/-! ## Operands -/

theorem leaf_spans {reading : Reading}
    (neutral : reading.current.kind.levelAfter? .phrase 0 = some 0) :
    leaf.Spans .phrase moves 0 0 reading :=
  .bind (.advance neutral) fun _ rest _ => .pure _ rest

theorem integer_spans {reading : Reading} (isInteger : reading.current.kind = .integer) :
    integer.Spans .phrase moves 0 0 reading := by
  have takes : reading.Takes .phrase [reading.current] [] 0 0 reading.advance :=
    Reading.takes_advance (by rw [isInteger]; rfl)
  unfold Spans integer
  rw [bind_apply]
  simp only [Read.advance]
  cases numeral : Text.readInteger reading.current.text with
  | error unread =>
      exact ⟨_, _, 0, takes, ⟨_, List.mem_singleton_self _, isInteger, numeral⟩,
        List.nil_sublist _⟩
  | ok value =>
      dsimp only
      rw [ite_apply]
      by_cases tooLarge : Integer.largest < value
      · rw [if_pos tooLarge]
        -- The literal is blamed although it has been taken.
        refine ⟨_, _, 0, takes, trivial, ?_⟩
        simp [ReadFailure.blamed]
      · rw [if_neg tooLarge]
        exact ⟨_, _, takes, List.nil_sublist _, fun _ => List.cons_ne_nil _ _⟩

theorem unary_spans (nested : inner.Span) {reading : Reading}
    (neutral : reading.current.kind.levelAfter? .phrase 0 = some 0) :
    (unary inner).Spans .phrase moves 0 0 reading :=
  .bind (.advance neutral) fun _ rest _ =>
    .bind (nested.expr false unaryPower rest) fun _ after _ => .pure _ after

theorem grouped_spans (nested : inner.Span) {reading : Reading}
    (opening : reading.current.kind = .leftParen) :
    (grouped inner).Spans .phrase moves 0 0 reading :=
  .bind (.advance (by rw [opening]; rfl)) fun _ rest _ =>
    .bind (nested.expr false 0 rest) fun _ after _ =>
      .bind (.expect rfl) fun _ last _ => .pure _ last

theorem array_spans (nested : inner.Span) {reading : Reading}
    (opening : reading.current.kind = .leftBracket) :
    (array inner).Spans .phrase moves 0 0 reading :=
  .bind (.advance (by rw [opening]; rfl)) fun _ rest _ =>
    .bind (closedList_spans (nested.expr false 0) rfl rest) fun _ after _ => .pure _ after

theorem pair_spans (nested : inner.Span) (reading : Reading) :
    (pair inner).Spans .phrase moves 0 0 reading :=
  .current (.bind (nested.expr moves 0 reading) fun _ _ _ =>
    .bind (.expect rfl) fun _ value _ =>
      .bind (nested.expr false 0 value) fun _ after _ => .pure _ after)

theorem hash_spans (nested : inner.Span) {reading : Reading}
    (opening : reading.current.kind = .hashBrace) :
    (hash inner).Spans .phrase moves 0 0 reading := by
  have opens : Read.advance.Spans .phrase moves 0 1 reading := .advance (by rw [opening]; rfl)
  refine .bind opens fun _ rest _ => ?_
  exact .bind (closedList_spans (fun reading => (pair_spans nested reading).raise) rfl rest)
    fun _ after _ => .pure _ after

theorem conditional_spans (nested : inner.Span) {reading : Reading}
    (keyword : reading.current.kind = .kwIf) :
    (conditional inner).Spans .phrase moves 0 0 reading := by
  refine .bind (.advance (by rw [keyword]; rfl)) fun _ condition _ => ?_
  refine .bind (nested.expr false 0 condition) fun _ consequence _ => ?_
  refine .bind (block_spans nested consequence) fun _ rest _ => ?_
  refine .bind (.accept rfl) fun otherwise after _ => ?_
  cases otherwise with
  | false => exact .pure _ after
  | true => exact .bind (alternative_spans nested after) fun _ last _ => .pure _ last

theorem function_spans (nested : inner.Span) {reading : Reading}
    (keyword : reading.current.kind = .kwFn) :
    (function inner).Spans .phrase moves 0 0 reading := by
  refine .bind (.advance (by rw [keyword]; rfl)) fun _ opening _ => ?_
  refine .bind (.expect rfl) fun _ parameters _ => ?_
  refine .bind (closedList_spans (fun _ => .expect rfl) rfl parameters) fun _ body _ => ?_
  exact .bind (block_spans nested body) fun _ after _ => .pure _ after

theorem operand_spans (nested : inner.Span) (reading : Reading) :
    (operand inner).Spans .phrase moves 0 0 reading := by
  refine .current ?_
  split
  next name => exact leaf_spans (by rw [name]; rfl)
  next literal => exact leaf_spans (by rw [literal]; rfl)
  next literal => exact leaf_spans (by rw [literal]; rfl)
  next literal => exact leaf_spans (by rw [literal]; rfl)
  next literal => exact leaf_spans (by rw [literal]; rfl)
  next isInteger => exact integer_spans isInteger
  next minus => exact unary_spans nested (by rw [minus]; rfl)
  next bang => exact unary_spans nested (by rw [bang]; rfl)
  next opening => exact grouped_spans nested opening
  next opening => exact array_spans nested opening
  next opening => exact hash_spans nested opening
  next => exact .bind (block_spans nested reading) fun _ rest _ => .pure _ rest
  next keyword => exact conditional_spans nested keyword
  next keyword => exact function_spans nested keyword
  next => exact .fail _ reading

/-! ## Operators -/

/-- A token that binds an operand is no brace, no semicolon and not the end of the input. -/
theorem levelAfter?_of_power {kind : TokenKind} (binds : 0 < kind.power) (level : Nat) :
    kind.levelAfter? .phrase level = some level := by
  cases kind <;> simp_all [TokenKind.power, TokenKind.levelAfter?]

theorem extend_spans (nested : inner.Span) (left : Expr) {reading : Reading}
    (binds : 0 < reading.current.kind.power) :
    (extend inner left).Spans .phrase moves 0 0 reading := by
  have neutral := levelAfter?_of_power binds 0
  refine .current ?_
  split
  · exact .bind (.advance neutral) fun _ rest _ =>
      .bind (closedList_spans (nested.expr false 0) rfl rest) fun _ after _ => .pure _ after
  · exact .bind (.advance neutral) fun _ rest _ =>
      .bind (nested.expr false 0 rest) fun _ after _ =>
        .bind (.expect rfl) fun _ last _ => .pure _ last
  · exact .bind (.advance neutral) fun _ rest _ =>
      .bind (nested.expr false _ rest) fun _ after _ => .pure _ after

theorem operators_spans (nested : inner.Span) (power budget : Nat) (left : Expr)
    (reading : Reading) :
    (operators inner power budget left).Spans .phrase false 0 0 reading := by
  induction budget generalizing left reading with
  | zero => exact .pure _ reading
  | succ budget ih =>
      refine .current ?_
      split
      next binds =>
        exact .bind (extend_spans nested left (by omega)) fun extended rest _ => ih extended rest
      next => exact .pure _ reading

theorem expr_spans (nested : inner.Span) (power : Nat) (reading : Reading) :
    (expr inner power).Spans .phrase moves 0 0 reading :=
  .bind (operand_spans nested reading) fun left rest _ =>
    .remaining (operators_spans nested power _ left rest)

/-! ## Statements -/

theorem binding_spans (nested : inner.Span) {reading : Reading}
    (keyword : reading.current.kind = .kwLet) :
    (binding inner).Spans .statements moves 0 0 reading := by
  refine .bind (.advance (by rw [keyword]; rfl)) fun _ name _ => ?_
  refine .bind (.expect rfl) fun _ assign _ => ?_
  refine .bind (.expect rfl) fun _ value _ => ?_
  refine .bind (nested.expr false 0 value) fun _ rest _ => ?_
  exact .map (.expect rfl)

theorem returning_spans (nested : inner.Span) {reading : Reading}
    (keyword : reading.current.kind = .kwReturn) :
    (returning inner).Spans .statements moves 0 0 reading := by
  refine .bind (.advance (by rw [keyword]; rfl)) fun _ value _ => ?_
  refine .acceptOr rfl rfl ?_
  refine .bind (nested.expr false 0 value) fun _ rest _ => ?_
  exact .map (.expect rfl)

theorem blockStmt_spans (nested : inner.Span) (reading : Reading) :
    (blockStmt inner).Spans .statements moves 0 0 reading :=
  .bind (block_spans nested reading) fun _ _ _ => .map (.accept rfl)

theorem endExprStmt_spans (value : Expr) (reading : Reading) :
    (endExprStmt value).Spans .statements false 0 0 reading := by
  refine .current ?_
  split
  · exact .map (.accept rfl)
  split
  · exact .pure _ reading
  · exact .map (.expect rfl)

theorem exprStmt_spans (nested : inner.Span) (reading : Reading) :
    (exprStmt inner).Spans .statements moves 0 0 reading :=
  .current (.bind (nested.expr moves 0 reading) fun value rest _ =>
    .map (endExprStmt_spans value rest))

theorem statement_spans (nested : inner.Span) (reading : Reading) :
    (statement inner).Spans .statements moves 0 0 reading := by
  refine .current ?_
  split
  next keyword => exact binding_spans nested keyword
  next keyword => exact returning_spans nested keyword
  next => exact blockStmt_spans nested reading
  next => exact exprStmt_spans nested reading

end Read

theorem phrases_span (limit : Nat) : (phrases limit).Span := by
  induction limit with
  | zero =>
      have stuck : ∀ {α : Type} extent moves (reading : Reading),
          (throw .tooDeep : Read α).Spans extent moves 0 0 reading := fun extent moves reading =>
        ⟨[], [], 0, .refl .phrase 0 reading, trivial, List.nil_sublist _⟩
      exact ⟨fun _ _ _ => stuck _ _ _, fun _ _ => stuck _ _ _, fun _ _ _ => stuck _ _ _⟩
  | succ limit ih =>
      exact ⟨fun _ power reading => Read.expr_spans ih power reading,
        fun _ reading => Read.statement_spans ih reading,
        fun _ _ keyword => Read.conditional_spans ih keyword⟩

end Monkey
