import Monkey.Proofs.Ast.Leaves
import Monkey.Proofs.Grammar.Nesting

/-!
# What a reader keeps

Of the tokens that a reader takes, the tree of what it has read keeps some as its leaves, in their
order: all names, literals and operators, unless the reader had to recover on the way. What it
records is never blamed on the first token it takes, so that there are always fewer diagnostics than
tokens taken.
-/

set_option autoImplicit false

namespace Monkey

/-- Whether tokens of the kind are taken without a trace. The end of the input never is. -/
def TokenKind.isDropped (kind : TokenKind) : Bool := !kind.isKept && kind != .endOfInput

theorem keptTokens_kept {token : Token} (kept : token.kind.isKept = true) :
    keptTokens [token] = [token] := by
  simp [keptTokens, kept]

theorem keptTokens_dropped {token : Token} (dropped : token.kind.isDropped = true) :
    keptTokens [token] = [] := by
  simp_all [keptTokens, TokenKind.isDropped]

theorem TokenKind.notEnd_of_kept {kind : TokenKind} (kept : kind.isKept = true) :
    kind ≠ .endOfInput := by
  rintro rfl
  cases kept

theorem TokenKind.notEnd_of_dropped {kind : TokenKind} (dropped : kind.isDropped = true) :
    kind ≠ .endOfInput := by
  simp_all [TokenKind.isDropped]

/-- A stretch of tokens that has a level after it does not go past the end of the input. -/
theorem levelAfter?_notEnd {extent : Extent} {tokens : List Token} {level last : Nat}
    (levels : levelAfter? extent tokens level = some last) :
    ∀ token ∈ tokens, token.kind ≠ .endOfInput := by
  induction tokens generalizing level with
  | nil => simp
  | cons token rest ih =>
      obtain ⟨middle, step, remaining⟩ := Option.bind_eq_some_iff.mp levels
      refine List.forall_mem_cons.mpr ⟨fun atEnd => ?_, ih remaining⟩
      simp [atEnd, TokenKind.levelAfter?] at step

namespace Reading

/-- Reading has taken tokens before the end of the input and kept some of them in their order; if it
has recorded nothing, all that a tree keeps. -/
structure Selects (used : List Token) (found : List Diagnostic) (kept : List Token)
    (reading rest : Reading) : Prop where
  tokens : reading.tokens = used ++ rest.tokens
  diagnostics : rest.diagnostics = reading.diagnostics ++ found
  notEnd : ∀ token ∈ used, token.kind ≠ .endOfInput
  some : kept.Sublist used
  all : found = [] → kept = keptTokens used

/-- The leaves after reading are those before it and what it has kept. -/
def Keeps (before after : List Token) (reading rest : Reading) : Prop :=
  ∃ used found kept, reading.Selects used found kept rest ∧ after = before ++ kept

/-- Fewer diagnostics have been recorded than tokens taken, or none of either. -/
def Spares (reading rest : Reading) : Prop :=
  rest.tokens.length ≤ reading.tokens.length ∧
    rest.diagnostics.length ≤
      reading.diagnostics.length + (reading.tokens.length - rest.tokens.length - 1)

theorem Selects.refl (reading : Reading) : reading.Selects [] [] [] reading :=
  ⟨rfl, by simp, by simp, List.Sublist.refl _, fun _ => rfl⟩

theorem Selects.trans {used usedAfter kept keptAfter : List Token}
    {found foundAfter : List Diagnostic} {reading between rest : Reading}
    (head : reading.Selects used found kept between)
    (tail : between.Selects usedAfter foundAfter keptAfter rest) :
    reading.Selects (used ++ usedAfter) (found ++ foundAfter) (kept ++ keptAfter) rest where
  tokens := by simp [head.tokens, tail.tokens]
  diagnostics := by simp [head.diagnostics, tail.diagnostics]
  notEnd := by simpa [or_imp, forall_and] using ⟨head.notEnd, tail.notEnd⟩
  some := head.some.append tail.some
  all nothing := by
    obtain ⟨foundNone, foundNoneAfter⟩ := List.append_eq_nil_iff.mp nothing
    simp [head.all foundNone, tail.all foundNoneAfter]

/-- Tokens whose reading failed are dropped, with the failure recorded. -/
theorem Takes.selects_nil {extent : Extent} {used : List Token} {found : List Diagnostic}
    {first last : Nat} {reading rest : Reading}
    (takes : reading.Takes extent used found first last rest) (recorded : found ≠ []) :
    reading.Selects used found [] rest where
  tokens := takes.tokens
  diagnostics := takes.diagnostics
  notEnd := levelAfter?_notEnd takes.level
  some := List.nil_sublist _
  all nothing := absurd nothing recorded

theorem selects_advance {reading : Reading} (notEnd : reading.current.kind ≠ .endOfInput) :
    reading.Selects [reading.current] [] (keptTokens [reading.current]) reading.advance := by
  obtain ⟨tokens, depth, diagnostics⟩ := reading
  cases tokens with
  | nil => exact absurd rfl notEnd
  | cons token rest =>
      exact ⟨rfl, by simp [Reading.advance], List.forall_mem_singleton.mpr notEnd,
        List.filter_sublist, fun _ => rfl⟩

theorem Keeps.refl (leaves : List Token) (reading : Reading) :
    reading.Keeps leaves leaves reading :=
  ⟨[], [], [], .refl reading, by simp⟩

theorem Keeps.trans {first second third : List Token} {reading between rest : Reading}
    (head : reading.Keeps first second between) (tail : between.Keeps second third rest) :
    reading.Keeps first third rest := by
  obtain ⟨used, found, kept, selects, rfl⟩ := head
  obtain ⟨usedAfter, foundAfter, keptAfter, selectsAfter, rfl⟩ := tail
  exact ⟨_, _, _, selects.trans selectsAfter, List.append_assoc ..⟩

/-- What was read before stands before what is kept. -/
theorem Keeps.after {leaves : List Token} {reading rest : Reading}
    (keeps : reading.Keeps [] leaves rest) (before : List Token) :
    reading.Keeps before (before ++ leaves) rest := by
  obtain ⟨used, found, kept, selects, rfl⟩ := keeps
  exact ⟨_, _, _, selects, rfl⟩

theorem Keeps.advance_kept {reading : Reading} (kept : reading.current.kind.isKept = true)
    (before : List Token) :
    reading.Keeps before (before ++ [reading.current]) reading.advance := by
  have selects := selects_advance (TokenKind.notEnd_of_kept kept)
  rw [keptTokens_kept kept] at selects
  exact ⟨_, _, _, selects, rfl⟩

theorem Keeps.advance_dropped {reading : Reading}
    (dropped : reading.current.kind.isDropped = true) (before : List Token) :
    reading.Keeps before before reading.advance := by
  have selects := selects_advance (TokenKind.notEnd_of_dropped dropped)
  rw [keptTokens_dropped dropped] at selects
  exact ⟨_, _, _, selects, (List.append_nil before).symm⟩

theorem Takes.counts {extent : Extent} {used : List Token} {found : List Diagnostic}
    {first last : Nat} {reading rest : Reading}
    (takes : reading.Takes extent used found first last rest) :
    reading.tokens.length = used.length + rest.tokens.length ∧
      rest.diagnostics.length = reading.diagnostics.length + found.length := by
  simp [takes.tokens, takes.diagnostics]

theorem Takes.spares {extent : Extent} {used : List Token} {found : List Diagnostic}
    {first last : Nat} {reading rest : Reading}
    (takes : reading.Takes extent used found first last rest)
    (fewer : found.length ≤ used.length - 1) : reading.Spares rest := by
  have counts := takes.counts
  unfold Spares
  omega

theorem Spares.refl (reading : Reading) : reading.Spares reading := ⟨Nat.le_refl _, by omega⟩

theorem Spares.trans {reading between rest : Reading} (head : reading.Spares between)
    (tail : between.Spares rest) : reading.Spares rest := by
  unfold Spares at *
  omega

theorem Spares.advance (reading : Reading) : reading.Spares reading.advance := by
  obtain ⟨tokens, depth, diagnostics⟩ := reading
  cases tokens <;> simp [Spares, Reading.advance]

end Reading

/-! ## Readers of phrases -/

namespace Read

variable {α β : Type}

/-- What the reader has read holds the leaves `before` and then those of the tokens it takes. -/
def Yields (before : List Token) (leaves : α → List Token) (read : Read α) (reading : Reading) :
    Prop :=
  match read reading with
  | .ok value rest => reading.Keeps before (leaves value) rest ∧ reading.Spares rest
  | .error failure rest => failure.blamed ≠ [] → reading.Spares rest

section Rules

variable {before : List Token} {leaves : α → List Token} {read : Read α} {reading rest : Reading}

theorem Yields.ok {value : α} (yields : read.Yields before leaves reading)
    (result : read reading = .ok value rest) :
    reading.Keeps before (leaves value) rest ∧ reading.Spares rest := by
  simpa only [Yields, result] using yields

theorem Yields.error {failure : ReadFailure} (yields : read.Yields before leaves reading)
    (result : read reading = .error failure rest) (blamed : failure.blamed ≠ []) :
    reading.Spares rest := by
  simp only [Yields, result] at yields
  exact yields blamed

theorem Yields.pure {value : α} (same : leaves value = before) (reading : Reading) :
    (Pure.pure value : Read α).Yields before leaves reading := by
  subst same
  exact ⟨.refl _ reading, .refl reading⟩

theorem Yields.bind {next : α → Read β} {leavesAfter : β → List Token}
    (head : read.Yields before leaves reading)
    (tail : ∀ value rest, read reading = .ok value rest →
      (next value).Yields (leaves value) leavesAfter rest) :
    (read >>= next).Yields before leavesAfter reading := by
  unfold Yields
  rw [bind_apply]
  cases result : read reading with
  | error failure rest => exact head.error result
  | ok value between =>
      obtain ⟨keeps, spares⟩ := head.ok result
      have rest := tail value between result
      simp only
      cases continued : next value between with
      | ok final after =>
          obtain ⟨keepsAfter, sparesAfter⟩ := rest.ok continued
          exact ⟨keeps.trans keepsAfter, spares.trans sparesAfter⟩
      | error failure after =>
          exact fun blamed => spares.trans (rest.error continued blamed)

theorem Yields.after (yields : read.Yields [] leaves reading) (before : List Token) :
    read.Yields before (fun value => before ++ leaves value) reading := by
  unfold Yields
  cases result : read reading with
  | ok value rest => exact ⟨(yields.ok result).1.after before, (yields.ok result).2⟩
  | error failure rest => exact yields.error result

/-- A phrase that stands after others holds their leaves and its own. -/
theorem Yields.andThen {next : α → Read β} {leavesAfter : β → List Token}
    (head : read.Yields [] leaves reading)
    (tail : ∀ value rest, (next value).Yields (before ++ leaves value) leavesAfter rest) :
    (read >>= next).Yields before leavesAfter reading :=
  .bind (head.after before) fun value rest _ => tail value rest

theorem Yields.current {next : Token → Read α}
    (tail : (next reading.current).Yields before leaves reading) :
    (Read.current >>= next).Yields before leaves reading :=
  tail

theorem Yields.remaining {next : Nat → Read α}
    (tail : (next reading.tokens.length).Yields before leaves reading) :
    (Read.remaining >>= next).Yields before leaves reading :=
  tail

theorem Yields.fail (fault : SyntaxFault) (position : Position) (reading : Reading) :
    (Read.fail fault position : Read α).Yields before leaves reading :=
  fun _ => .refl reading

theorem Yields.advance_kept (kept : reading.current.kind.isKept = true) :
    Read.advance.Yields before (fun token => before ++ [token]) reading :=
  ⟨.advance_kept kept before, .advance reading⟩

theorem Yields.advance_dropped (dropped : reading.current.kind.isDropped = true) :
    Read.advance.Yields before (fun _ => before) reading :=
  ⟨.advance_dropped dropped before, .advance reading⟩

theorem Yields.expect_kept {kind : TokenKind} (kept : kind.isKept = true) :
    (Read.expect kind).Yields before (fun token => before ++ [token]) reading := by
  unfold Yields
  rw [expect_apply]
  by_cases expected : reading.current.kind = kind
  · rw [if_pos expected]
    exact advance_kept (expected ▸ kept)
  · rw [if_neg expected]
    exact fun _ => .refl reading

theorem Yields.expect_dropped {kind : TokenKind} (dropped : kind.isDropped = true) :
    (Read.expect kind).Yields before (fun _ => before) reading := by
  unfold Yields
  rw [expect_apply]
  by_cases expected : reading.current.kind = kind
  · rw [if_pos expected]
    exact advance_dropped (expected ▸ dropped)
  · rw [if_neg expected]
    exact fun _ => .refl reading

theorem Yields.accept {kind : TokenKind} (dropped : kind.isDropped = true) :
    (Read.accept kind).Yields before (fun _ => before) reading := by
  unfold Yields
  rw [accept_apply]
  by_cases accepted : reading.current.kind = kind
  · rw [if_pos accepted]
    exact advance_dropped (accepted ▸ dropped)
  · rw [if_neg accepted]
    exact ⟨.refl before reading, .refl reading⟩

end Rules

end Read

/-- Readers for nested phrases that keep their leaves. -/
structure Phrases.Yield (inner : Phrases) : Prop where
  expr : ∀ power reading, (inner.expr power).Yields [] Expr.leaves reading
  statement : ∀ reading, inner.statement.Yields [] Stmt.leaves reading
  conditional : ∀ reading, reading.current.kind = .kwIf →
    inner.conditional.Yields [] Expr.leaves reading

namespace Read

variable {α : Type} {inner : Phrases}

/-! ## Lists -/

section Lists

variable {item : Read α} {leaves : α → List Token}

theorem moreItems_yields (items : ∀ reading, item.Yields [] leaves reading) (budget : Nat)
    (done : List α) (reading : Reading) :
    (moreItems item budget done).Yields (done.reverse.flatMap leaves)
      (fun list => list.flatMap leaves) reading := by
  induction budget generalizing done reading with
  | zero => exact .pure rfl reading
  | succ budget ih =>
      refine .bind (.accept rfl) fun comma rest _ => ?_
      cases comma with
      | false => exact .pure rfl rest
      | true =>
          refine .andThen (items rest) fun next after => ?_
          simpa using ih (next :: done) after

theorem items_yields (items : ∀ reading, item.Yields [] leaves reading) (reading : Reading) :
    (Read.items item).Yields [] (fun list => list.flatMap leaves) reading := by
  refine .bind (items reading) fun first rest _ => .remaining ?_
  simpa using moreItems_yields items _ [first] rest

theorem closedList_yields {closing : TokenKind} (closes : closing.isDropped = true)
    (items : ∀ reading, item.Yields [] leaves reading) (reading : Reading) :
    (closedList item closing).Yields [] (fun list => list.flatMap leaves) reading := by
  have close : ∀ (list : List α) rest,
      (Read.expect closing >>= fun _ => Pure.pure list).Yields (list.flatMap leaves)
        (fun list => list.flatMap leaves) rest :=
    fun list rest => .bind (.expect_dropped closes) fun _ after _ => .pure rfl after
  refine .current ?_
  dsimp only
  split
  · exact close [] reading
  · exact .bind (items_yields items reading) fun list rest _ => close list rest

end Lists

/-! ## Blocks -/

/-- What the statements of a block that could be read keep is kept of the block; the tokens of the
others are dropped. -/
theorem blockStatements_keeps (nested : inner.Span) (yields : inner.Yield)
    (blockDepth budget : Nat) (done : List Stmt) {reading rest : Reading} {statements : List Stmt}
    (depth : reading.depth = blockDepth) (enough : reading.tokens.length < budget)
    (result : blockStatements inner.statement blockDepth budget done reading =
      .ok statements rest) :
    reading.Keeps (done.reverse.flatMap Stmt.leaves) (statements.flatMap Stmt.leaves) rest := by
  induction budget generalizing done reading with
  | zero => omega
  | succ budget ih =>
      by_cases closing : reading.current.kind = .rightBrace
      · rw [blockStatements_closing _ _ _ _ closing] at result
        cases result
        exact .refl _ _
      by_cases ended : reading.current.kind = .endOfInput
      · rw [blockStatements_ended _ _ _ _ ended] at result
        cases result
      rw [blockStatements_succ _ _ _ _ closing ended] at result
      cases ran : inner.statement reading with
      | ok stmt between =>
          rw [ran] at result
          have spanned := (nested.statement true reading).ok ran
          have shorter := spanned.length_lt
          have later := ih (stmt :: done) (spanned.depth_eq.trans depth) (by omega) result
          have keeps := ((yields.statement reading).ok ran).1
          have head := keeps.after (done.reverse.flatMap Stmt.leaves)
          exact head.trans (by simpa using later)
      | error failure between =>
          rw [ran] at result
          cases failure with
          | tooDeep => cases result
          | numeral unread => cases result
          | fault fault position =>
              have broken := (nested.statement false reading).error ran
              unfold afterStatement at result
              dsimp only at result
              by_cases exhausted : (between.resumed blockDepth).current.kind = .endOfInput
              · rw [if_pos exhausted] at result
                cases result
              rw [if_neg exhausted] at result
              obtain ⟨shorter, atLevel⟩ := broken.recovers_progress depth closing exhausted
              have later := ih done atLevel (by omega) result
              obtain ⟨used, found, level, takes, -⟩ := broken
              obtain ⟨skipped, last, skips, -⟩ := takes.resumed depth
              have recorded := (takes.statements.trans skips).record ⟨.syntactic fault, position⟩
              have dropped := recorded.selects_nil (by simp)
              exact Reading.Keeps.trans ⟨_, _, _, dropped, by simp⟩ later

theorem block_yields (nested : inner.Span) (yields : inner.Yield) (reading : Reading) :
    (block inner.statement).Yields [] Block.leaves reading := by
  unfold Yields block
  rw [bind_apply, expect_apply]
  by_cases opens : reading.current.kind = .leftBrace
  case neg =>
    rw [if_neg opens]
    exact fun _ => .refl reading
  rw [if_pos opens]
  have opened : reading.Takes .phrase [reading.current] [] 0 1 reading.advance :=
    Reading.takes_advance (by rw [opens]; rfl)
  simp only [bind_apply, Read.depth, Read.remaining]
  have within := blockStatements_spans nested reading.advance.depth
    (reading.advance.tokens.length + 1) [] reading.advance rfl (Nat.lt_succ_self _)
  cases result : blockStatements inner.statement reading.advance.depth
      (reading.advance.tokens.length + 1) [] reading.advance with
  | ok statements rest =>
      have keeps := blockStatements_keeps nested yields _ _ [] rfl (Nat.lt_succ_self _) result
      rw [result] at within
      obtain ⟨closing, used, found, takes, blamed⟩ := within
      have closed : rest.Takes .phrase [rest.current] [] 1 0 rest.advance :=
        Reading.takes_advance (by rw [closing]; rfl)
      -- The last fault may be blamed on the closing brace, but none is on the opening one.
      have fewer := blamed.length_le
      refine ⟨?_, (opened.trans (takes.raise.trans closed)).spares ?_⟩
      · exact (Reading.Keeps.advance_dropped (by rw [opens]; rfl) []).trans
          (keeps.trans (.advance_dropped (by rw [closing]; rfl) _))
      · simpa [blames, positions] using fewer
  | error failure rest =>
      rw [result] at within
      obtain ⟨⟨used, found, level, takes, -, blamed⟩, -⟩ := within
      intro isFault
      have fewer := blamed.length_le
      have blamedOne := List.length_pos_iff.mpr isFault
      refine (opened.trans takes.raise).spares ?_
      simp [blames, positions] at fewer ⊢
      omega

theorem alternative_yields (nested : inner.Span) (yields : inner.Yield) (reading : Reading) :
    (alternative inner).Yields [] Block.leaves reading := by
  refine .current ?_
  split
  next chained =>
    exact .bind (yields.conditional reading chained) fun _ rest _ => .pure (by simp) rest
  next => exact block_yields nested yields reading
  next => exact .current (.fail _ _ reading)

/-! ## Operands -/

theorem leaf_yields {reading : Reading} (kept : reading.current.kind.isKept = true) :
    leaf.Yields [] Expr.leaves reading :=
  .bind (.advance_kept kept) fun token rest _ => .pure (by simp) rest

theorem integer_yields {reading : Reading} (isInteger : reading.current.kind = .integer) :
    integer.Yields [] Expr.leaves reading := by
  refine .bind (.advance_kept (by rw [isInteger]; rfl)) fun token rest _ => ?_
  split
  · exact fun blamed => absurd rfl blamed
  · split
    · exact .fail _ _ rest
    · exact .pure (by simp) rest

theorem unary_yields (yields : inner.Yield) {reading : Reading}
    (kept : reading.current.kind.isKept = true) : (unary inner).Yields [] Expr.leaves reading :=
  .bind (.advance_kept kept) fun operator operand _ =>
    .andThen (yields.expr unaryPower operand) fun value rest => .pure (by simp) rest

theorem grouped_yields (yields : inner.Yield) {reading : Reading}
    (opening : reading.current.kind = .leftParen) :
    (grouped inner).Yields [] Expr.leaves reading :=
  .bind (.advance_dropped (by rw [opening]; rfl)) fun _ inside _ =>
    .bind (yields.expr 0 inside) fun _ closing _ =>
      .bind (.expect_dropped rfl) fun _ rest _ => .pure rfl rest

theorem array_yields (yields : inner.Yield) {reading : Reading}
    (opening : reading.current.kind = .leftBracket) :
    (array inner).Yields [] Expr.leaves reading :=
  .bind (.advance_dropped (by rw [opening]; rfl)) fun _ inside _ =>
    .bind (closedList_yields rfl (yields.expr 0) inside) fun items rest _ => .pure (by simp) rest

theorem pair_yields (yields : inner.Yield) (reading : Reading) :
    (pair inner).Yields [] Pair.leaves reading :=
  .current (.bind (yields.expr 0 reading) fun _ colon _ =>
    .bind (.expect_dropped rfl) fun _ value _ =>
      .andThen (yields.expr 0 value) fun _ rest => .pure (by simp) rest)

theorem hash_yields (yields : inner.Yield) {reading : Reading}
    (opening : reading.current.kind = .hashBrace) :
    (hash inner).Yields [] Expr.leaves reading :=
  .bind (.advance_dropped (by rw [opening]; rfl)) fun _ inside _ =>
    .bind (closedList_yields rfl (pair_yields yields) inside) fun pairs rest _ =>
      .pure (by simp) rest

theorem conditional_yields (nested : inner.Span) (yields : inner.Yield) {reading : Reading}
    (keyword : reading.current.kind = .kwIf) :
    (conditional inner).Yields [] Expr.leaves reading := by
  refine .bind (.advance_dropped (by rw [keyword]; rfl)) fun _ condition _ => ?_
  refine .bind (yields.expr 0 condition) fun _ consequence _ => ?_
  refine .andThen (block_yields nested yields consequence) fun _ rest => ?_
  refine .bind (.accept rfl) fun otherwise after _ => ?_
  cases otherwise with
  | false => exact .pure (by simp) after
  | true =>
      exact .andThen (alternative_yields nested yields after) fun _ last => .pure (by simp) last

theorem function_yields (nested : inner.Span) (yields : inner.Yield) {reading : Reading}
    (keyword : reading.current.kind = .kwFn) :
    (function inner).Yields [] Expr.leaves reading := by
  have names : ∀ reading, (Read.expect .identifier).Yields [] (fun token => [token]) reading :=
    fun reading => .expect_kept rfl
  refine .bind (.advance_dropped (by rw [keyword]; rfl)) fun _ opening _ => ?_
  refine .bind (.expect_dropped rfl) fun _ parameters _ => ?_
  refine .bind (closedList_yields rfl names parameters) fun _ body _ => ?_
  exact .andThen (block_yields nested yields body) fun _ rest => .pure (by simp) rest

theorem operand_yields (nested : inner.Span) (yields : inner.Yield) (reading : Reading) :
    (operand inner).Yields [] Expr.leaves reading := by
  refine .current ?_
  split
  next name => exact leaf_yields (by rw [name]; rfl)
  next literal => exact leaf_yields (by rw [literal]; rfl)
  next literal => exact leaf_yields (by rw [literal]; rfl)
  next literal => exact leaf_yields (by rw [literal]; rfl)
  next literal => exact leaf_yields (by rw [literal]; rfl)
  next isInteger => exact integer_yields isInteger
  next minus => exact unary_yields yields (by rw [minus]; rfl)
  next bang => exact unary_yields yields (by rw [bang]; rfl)
  next opening => exact grouped_yields yields opening
  next opening => exact array_yields yields opening
  next opening => exact hash_yields yields opening
  next => exact .bind (block_yields nested yields reading) fun _ rest _ => .pure (by simp) rest
  next keyword => exact conditional_yields nested yields keyword
  next keyword => exact function_yields nested yields keyword
  next => exact .fail _ _ reading

/-! ## Operators -/

/-- A token that binds an operand is an operator, or opens a call or an index. -/
theorem isKept_of_power {kind : TokenKind} (binds : 0 < kind.power) (notCall : kind ≠ .leftParen)
    (notIndex : kind ≠ .leftBracket) : kind.isKept = true := by
  cases kind <;> simp_all [TokenKind.power, TokenKind.isKept]

theorem extend_yields (yields : inner.Yield) (left : Expr) {reading : Reading}
    (binds : 0 < reading.current.kind.power) :
    (extend inner left).Yields left.leaves Expr.leaves reading := by
  refine .current ?_
  split
  next opening =>
    refine .bind (.advance_dropped (by rw [opening]; rfl)) fun _ arguments _ => ?_
    exact .andThen (closedList_yields rfl (yields.expr 0) arguments) fun _ rest =>
      .pure (by simp) rest
  next opening =>
    refine .bind (.advance_dropped (by rw [opening]; rfl)) fun _ place _ => ?_
    refine .andThen (yields.expr 0 place) fun _ closing => ?_
    exact .bind (.expect_dropped rfl) fun _ rest _ => .pure (by simp) rest
  next notCall notIndex =>
    refine .bind (.advance_kept (isKept_of_power binds notCall notIndex)) fun _ right _ => ?_
    exact .andThen (yields.expr _ right) fun _ rest => .pure (by simp) rest

theorem operators_yields (yields : inner.Yield) (power budget : Nat) (left : Expr)
    (reading : Reading) :
    (operators inner power budget left).Yields left.leaves Expr.leaves reading := by
  induction budget generalizing left reading with
  | zero => exact .pure rfl reading
  | succ budget ih =>
      refine .current ?_
      split
      next binds =>
        exact .bind (extend_yields yields left (by omega)) fun extended rest _ => ih extended rest
      next => exact .pure rfl reading

theorem expr_yields (nested : inner.Span) (yields : inner.Yield) (power : Nat)
    (reading : Reading) : (expr inner power).Yields [] Expr.leaves reading :=
  .bind (operand_yields nested yields reading) fun left rest _ =>
    .remaining (operators_yields yields power _ left rest)

/-! ## Statements -/

theorem binding_yields (yields : inner.Yield) {reading : Reading}
    (keyword : reading.current.kind = .kwLet) :
    (binding inner).Yields [] Stmt.leaves reading := by
  refine .bind (.advance_dropped (by rw [keyword]; rfl)) fun _ name _ => ?_
  refine .bind (.expect_kept rfl) fun _ assign _ => ?_
  refine .bind (.expect_dropped rfl) fun _ value _ => ?_
  refine .andThen (yields.expr 0 value) fun _ semicolon => ?_
  exact .bind (.expect_dropped rfl) fun _ rest _ => .pure (by simp) rest

theorem returning_yields (yields : inner.Yield) {reading : Reading}
    (keyword : reading.current.kind = .kwReturn) :
    (returning inner).Yields [] Stmt.leaves reading := by
  refine .bind (.advance_dropped (by rw [keyword]; rfl)) fun _ value _ => ?_
  refine .bind (.accept rfl) fun finished after _ => ?_
  cases finished with
  | true => exact .pure (by simp) after
  | false =>
      refine .bind (yields.expr 0 after) fun _ semicolon _ => ?_
      exact .bind (.expect_dropped rfl) fun _ rest _ => .pure (by simp) rest

theorem blockStmt_yields (nested : inner.Span) (yields : inner.Yield) (reading : Reading) :
    (blockStmt inner).Yields [] Stmt.leaves reading :=
  .bind (block_yields nested yields reading) fun _ semicolon _ =>
    .bind (.accept rfl) fun _ rest _ => .pure (by simp) rest

theorem endExprStmt_yields (value : Expr) (reading : Reading) :
    (endExprStmt value).Yields value.leaves (fun _ => value.leaves) reading := by
  refine .current ?_
  split
  · exact .bind (.accept rfl) fun _ rest _ => .pure rfl rest
  split
  · exact .pure rfl reading
  · exact .bind (.expect_dropped rfl) fun _ rest _ => .pure rfl rest

theorem exprStmt_yields (yields : inner.Yield) (reading : Reading) :
    (exprStmt inner).Yields [] Stmt.leaves reading :=
  .current (.bind (yields.expr 0 reading) fun value semicolon _ =>
    .bind (endExprStmt_yields value semicolon) fun _ rest _ => .pure (by simp) rest)

theorem statement_yields (nested : inner.Span) (yields : inner.Yield) (reading : Reading) :
    (statement inner).Yields [] Stmt.leaves reading := by
  refine .current ?_
  split
  next keyword => exact binding_yields yields keyword
  next keyword => exact returning_yields yields keyword
  next => exact blockStmt_yields nested yields reading
  next => exact exprStmt_yields yields reading

end Read

theorem phrases_yield (limit : Nat) : (phrases limit).Yield := by
  induction limit with
  | zero =>
      have stuck : ∀ {α : Type} (leaves : α → List Token) (reading : Reading),
          (throw .tooDeep : Read α).Yields [] leaves reading :=
        fun _ _ blamed => absurd rfl blamed
      exact ⟨fun _ _ => stuck _ _, fun _ => stuck _ _, fun _ _ => stuck _ _⟩
  | succ limit ih =>
      have nested := phrases_span limit
      exact ⟨fun power reading => Read.expr_yields nested ih power reading,
        fun reading => Read.statement_yields nested ih reading,
        fun _ keyword => Read.conditional_yields nested ih keyword⟩

end Monkey
