import Monkey.Proofs.Grammar.Nesting
import Monkey.Proofs.Token.Brackets

/-!
# Every phrase closes its brackets

A reader asks for the closing bracket of its own kind behind whatever it has opened a bracket for.
So what it reads closes the brackets that it opens, and no others, unless it had to recover from a
fault on the way: what is skipped then is recorded as faulty, and may hold brackets of any kinds.
-/

set_option autoImplicit false

namespace Monkey

namespace Reading

/-- Reading has taken tokens that lead from some closing brackets still wanted to others, unless it
has recorded a fault. -/
def Nests (first last : List TokenKind) (reading rest : Reading) : Prop :=
  ∃ used found, reading.tokens = used ++ rest.tokens ∧
    rest.diagnostics = reading.diagnostics ++ found ∧
    (found = [] → pendingAfter? used first = some last)

theorem Nests.refl (pending : List TokenKind) (reading : Reading) :
    reading.Nests pending pending reading :=
  ⟨[], [], rfl, (List.append_nil _).symm, fun _ => rfl⟩

theorem Nests.trans {first middle last : List TokenKind} {reading between rest : Reading}
    (head : reading.Nests first middle between) (tail : between.Nests middle last rest) :
    reading.Nests first last rest := by
  obtain ⟨used, found, tokens, diagnostics, nests⟩ := head
  obtain ⟨usedAfter, foundAfter, tokensAfter, diagnosticsAfter, nestsAfter⟩ := tail
  refine ⟨used ++ usedAfter, found ++ foundAfter, ?_, ?_, fun nothing => ?_⟩
  · rw [tokens, tokensAfter, List.append_assoc]
  · rw [diagnosticsAfter, diagnostics, List.append_assoc]
  · obtain ⟨nothing, nothingAfter⟩ := List.append_eq_nil_iff.mp nothing
    rw [pendingAfter?_append, nests nothing]
    exact nestsAfter nothingAfter

theorem nests_advance {first last : List TokenKind} {reading : Reading}
    (step : reading.current.kind.pendingAfter? first = some last) :
    reading.Nests first last reading.advance := by
  obtain ⟨tokens, depth, diagnostics⟩ := reading
  cases tokens with
  | nil =>
      -- Nothing is taken, and the end of the input is no bracket.
      cases step
      exact .refl first _
  | cons token rest =>
      refine ⟨[token], [], rfl, (List.append_nil _).symm, fun _ => ?_⟩
      exact Option.bind_eq_some_iff.mpr ⟨last, step, rfl⟩

/-- Where a fault has been recorded, the brackets do not matter. -/
theorem Takes.nests {extent : Extent} {used : List Token} {found : List Diagnostic}
    {first last : Nat} {reading rest : Reading}
    (takes : reading.Takes extent used found first last rest) (recorded : found ≠ [])
    (pending : List TokenKind) : reading.Nests pending pending rest :=
  ⟨used, found, takes.tokens, takes.diagnostics, fun nothing => absurd nothing recorded⟩

end Reading

/-! ## Readers of phrases -/

namespace Read

variable {α β : Type}

/-- What the reader reads leads from some closing brackets still wanted to others. -/
def Nests (first last : List TokenKind) (read : Read α) (reading : Reading) : Prop :=
  ∀ value rest, read reading = .ok value rest → reading.Nests first last rest

section Rules

variable {pending first middle last : List TokenKind} {read : Read α} {reading : Reading}

theorem Nests.pure (value : α) (reading : Reading) :
    (Pure.pure value : Read α).Nests pending pending reading := by
  intro _ _ result
  cases result
  exact .refl pending reading

theorem Nests.bind {next : α → Read β} (head : read.Nests first middle reading)
    (tail : ∀ value rest, (next value).Nests middle last rest) :
    (read >>= next).Nests first last reading := by
  intro final after result
  rw [bind_apply] at result
  cases ran : read reading with
  | error failure between =>
      rw [ran] at result
      cases result
  | ok value between =>
      rw [ran] at result
      exact (head value between ran).trans (tail value between final after result)

theorem Nests.current {next : Token → Read α}
    (tail : (next reading.current).Nests first last reading) :
    (Read.current >>= next).Nests first last reading :=
  tail

theorem Nests.remaining {next : Nat → Read α}
    (tail : (next reading.tokens.length).Nests first last reading) :
    (Read.remaining >>= next).Nests first last reading :=
  tail

theorem Nests.throw (failure : ReadFailure) (reading : Reading) :
    (MonadExcept.throw failure : Read α).Nests first last reading :=
  nofun

theorem Nests.fail (fault : SyntaxFault) (position : Position) (reading : Reading) :
    (Read.fail fault position : Read α).Nests first last reading :=
  nofun

theorem Nests.advance (step : reading.current.kind.pendingAfter? first = some last) :
    Read.advance.Nests first last reading := by
  intro _ _ result
  cases result
  exact Reading.nests_advance step

theorem Nests.expect {kind : TokenKind} (step : kind.pendingAfter? first = some last) :
    (Read.expect kind).Nests first last reading := by
  intro _ _ result
  rw [expect_apply] at result
  split at result
  next expected =>
    cases result
    exact Reading.nests_advance (expected ▸ step)
  next => cases result

theorem Nests.accept {kind : TokenKind} (step : kind.pendingAfter? pending = some pending) :
    (Read.accept kind).Nests pending pending reading := by
  intro _ _ result
  rw [accept_apply] at result
  split at result
  next accepted =>
    cases result
    exact Reading.nests_advance (accepted ▸ step)
  next =>
    cases result
    exact .refl pending reading

end Rules

end Read

/-- Readers for nested phrases that close their brackets. -/
structure Phrases.Nest (inner : Phrases) : Prop where
  expr : ∀ pending power reading, (inner.expr power).Nests pending pending reading
  statement : ∀ pending reading, inner.statement.Nests pending pending reading
  conditional : ∀ pending reading, reading.current.kind = .kwIf →
    inner.conditional.Nests pending pending reading

namespace Read

variable {α : Type} {inner : Phrases} {pending last : List TokenKind}

/-! ## Lists -/

section Lists

variable {item : Read α}

theorem moreItems_nests (items : ∀ reading, item.Nests pending pending reading) (budget : Nat)
    (done : List α) (reading : Reading) :
    (moreItems item budget done).Nests pending pending reading := by
  induction budget generalizing done reading with
  | zero => exact .pure _ reading
  | succ budget ih =>
      apply Nests.bind (.accept rfl)
      intro comma rest
      cases comma with
      | false => exact .pure _ rest
      | true => exact .bind (items rest) fun next after => ih (next :: done) after

theorem items_nests (items : ∀ reading, item.Nests pending pending reading) (reading : Reading) :
    (Read.items item).Nests pending pending reading :=
  .bind (items reading) fun first rest => .remaining (moreItems_nests items _ [first] rest)

theorem closedList_nests {closing : TokenKind}
    (items : ∀ reading, item.Nests pending pending reading)
    (closes : closing.pendingAfter? pending = some last) (reading : Reading) :
    (closedList item closing).Nests pending last reading := by
  have close : ∀ (list : List α) rest,
      (Read.expect closing >>= fun _ => Pure.pure list).Nests pending last rest :=
    fun list rest => .bind (.expect closes) fun _ after => .pure list after
  apply Nests.current
  dsimp only
  split
  · exact .bind (.pure _ reading) close
  · exact .bind (items_nests items reading) close

end Lists

/-! ## Blocks -/

theorem blockStatements_nests (nested : inner.Span) (nests : inner.Nest) (blockDepth budget : Nat)
    (done : List Stmt) {reading rest : Reading} {statements : List Stmt}
    (depth : reading.depth = blockDepth) (enough : reading.tokens.length < budget)
    (result : blockStatements inner.statement blockDepth budget done reading =
      .ok statements rest) (pending : List TokenKind) : reading.Nests pending pending rest := by
  induction budget generalizing done reading with
  | zero => omega
  | succ budget ih =>
      by_cases closing : reading.current.kind = .rightBrace
      · rw [blockStatements_closing _ _ _ _ closing] at result
        cases result
        exact .refl pending _
      by_cases ended : reading.current.kind = .endOfInput
      · rw [blockStatements_ended _ _ _ _ ended] at result
        cases result
      rw [blockStatements_succ _ _ _ _ closing ended] at result
      cases ran : inner.statement reading with
      | ok stmt between =>
          rw [ran] at result
          have spanned := (nested.statement true reading).ok ran
          have shorter := spanned.length_lt
          have later := ih (stmt :: done) (spanned.depth_eq.trans depth) (by omega) result
          exact (nests.statement pending reading stmt between ran).trans later
      | error failure between =>
          rw [ran] at result
          cases failure with
          | tooDeep => cases result
          | numeral unread => cases result
          | fault fault position =>
              have broken := (nested.statement false reading).error ran
              unfold afterStatement at result
              dsimp only at result
              by_cases exhausted : (between.resumed blockDepth).current.kind = .endOfInput
              · rw [if_pos exhausted] at result
                cases result
              rw [if_neg exhausted] at result
              obtain ⟨shorter, atLevel⟩ := broken.recovers_progress depth closing exhausted
              have later := ih done atLevel (by omega) result
              obtain ⟨used, found, level, takes, -⟩ := broken
              obtain ⟨skipped, last, skips, -⟩ := takes.resumed depth
              have recorded := (takes.statements.trans skips).record ⟨.syntactic fault, position⟩
              exact (recorded.nests (by simp) pending).trans later

theorem block_nests (nested : inner.Span) (nests : inner.Nest) (reading : Reading) :
    (block inner.statement).Nests pending pending reading := by
  have opens : (Read.expect .leftBrace).Nests pending (.rightBrace :: pending) reading :=
    .expect rfl
  apply Nests.bind opens
  intro opening inside body after result
  simp only [bind_apply, Read.depth, Read.remaining] at result
  have within := blockStatements_spans nested inside.depth (inside.tokens.length + 1) [] inside rfl
    (Nat.lt_succ_self _)
  cases ran : blockStatements inner.statement inside.depth (inside.tokens.length + 1) [] inside with
  | error failure rest =>
      rw [ran] at result
      cases result
  | ok statements rest =>
      rw [ran] at within result
      cases result
      have closed := blockStatements_nests nested nests _ _ [] rfl (Nat.lt_succ_self _) ran
        (.rightBrace :: pending)
      exact closed.trans (Reading.nests_advance (by rw [within.1]; rfl))

theorem alternative_nests (nested : inner.Span) (nests : inner.Nest) (reading : Reading) :
    (alternative inner).Nests pending pending reading := by
  apply Nests.current
  split
  next chained =>
    exact .bind (nests.conditional pending reading chained) fun _ rest => .pure _ rest
  next => exact block_nests nested nests reading
  next => exact .current (.fail _ _ reading)

/-! ## Operands -/

theorem leaf_nests {reading : Reading}
    (noBracket : reading.current.kind.pendingAfter? pending = some pending) :
    leaf.Nests pending pending reading :=
  .bind (.advance noBracket) fun _ rest => .pure _ rest

theorem integer_nests {reading : Reading} (isInteger : reading.current.kind = .integer) :
    integer.Nests pending pending reading := by
  apply Nests.bind (.advance (by rw [isInteger]; rfl))
  intro token rest
  split
  · exact .throw _ rest
  · split
    · exact .fail _ _ rest
    · exact .pure _ rest

theorem unary_nests (nests : inner.Nest) {reading : Reading}
    (noBracket : reading.current.kind.pendingAfter? pending = some pending) :
    (unary inner).Nests pending pending reading :=
  .bind (.advance noBracket) fun _ rest =>
    .bind (nests.expr pending unaryPower rest) fun _ after => .pure _ after

theorem grouped_nests (nests : inner.Nest) {reading : Reading}
    (opening : reading.current.kind = .leftParen) :
    (grouped inner).Nests pending pending reading := by
  have opens : Read.advance.Nests pending (.rightParen :: pending) reading :=
    .advance (by rw [opening]; rfl)
  exact .bind opens fun _ rest => .bind (nests.expr _ 0 rest) fun _ after =>
    .bind (.expect rfl) fun _ last => .pure _ last

theorem array_nests (nests : inner.Nest) {reading : Reading}
    (opening : reading.current.kind = .leftBracket) :
    (array inner).Nests pending pending reading := by
  have opens : Read.advance.Nests pending (.rightBracket :: pending) reading :=
    .advance (by rw [opening]; rfl)
  exact .bind opens fun _ rest => .bind (closedList_nests (nests.expr _ 0) rfl rest) fun _ after =>
    .pure _ after

theorem pair_nests (nests : inner.Nest) (reading : Reading) :
    (pair inner).Nests pending pending reading :=
  .current (.bind (nests.expr pending 0 reading) fun _ _ => .bind (.expect rfl) fun _ value =>
    .bind (nests.expr pending 0 value) fun _ after => .pure _ after)

theorem hash_nests (nests : inner.Nest) {reading : Reading}
    (opening : reading.current.kind = .hashBrace) :
    (hash inner).Nests pending pending reading := by
  have opens : Read.advance.Nests pending (.rightBrace :: pending) reading :=
    .advance (by rw [opening]; rfl)
  exact .bind opens fun _ rest => .bind (closedList_nests (pair_nests nests) rfl rest)
    fun _ after => .pure _ after

theorem conditional_nests (nested : inner.Span) (nests : inner.Nest) {reading : Reading}
    (keyword : reading.current.kind = .kwIf) :
    (conditional inner).Nests pending pending reading := by
  apply Nests.bind (.advance (by rw [keyword]; rfl))
  intro _ condition
  apply Nests.bind (nests.expr pending 0 condition)
  intro _ consequence
  apply Nests.bind (block_nests nested nests consequence)
  intro _ rest
  apply Nests.bind (.accept rfl)
  intro otherwise after
  cases otherwise with
  | false => exact .pure _ after
  | true => exact .bind (alternative_nests nested nests after) fun _ last => .pure _ last

theorem function_nests (nested : inner.Span) (nests : inner.Nest) {reading : Reading}
    (keyword : reading.current.kind = .kwFn) :
    (function inner).Nests pending pending reading := by
  apply Nests.bind (.advance (by rw [keyword]; rfl))
  intro _ opening
  have opens : (Read.expect .leftParen).Nests pending (.rightParen :: pending) opening :=
    .expect rfl
  apply Nests.bind opens
  intro _ parameters
  apply Nests.bind (closedList_nests (fun _ => .expect rfl) rfl parameters)
  intro _ body
  exact .bind (block_nests nested nests body) fun _ after => .pure _ after

theorem operand_nests (nested : inner.Span) (nests : inner.Nest) (reading : Reading) :
    (operand inner).Nests pending pending reading := by
  apply Nests.current
  split
  next name => exact leaf_nests (by rw [name]; rfl)
  next literal => exact leaf_nests (by rw [literal]; rfl)
  next literal => exact leaf_nests (by rw [literal]; rfl)
  next literal => exact leaf_nests (by rw [literal]; rfl)
  next literal => exact leaf_nests (by rw [literal]; rfl)
  next isInteger => exact integer_nests isInteger
  next minus => exact unary_nests nests (by rw [minus]; rfl)
  next bang => exact unary_nests nests (by rw [bang]; rfl)
  next opening => exact grouped_nests nests opening
  next opening => exact array_nests nests opening
  next opening => exact hash_nests nests opening
  next => exact .bind (block_nests nested nests reading) fun _ rest => .pure _ rest
  next keyword => exact conditional_nests nested nests keyword
  next keyword => exact function_nests nested nests keyword
  next => exact .fail _ _ reading

/-! ## Operators -/

/-- A token that binds an operand is an operator, or opens a call or an index. -/
theorem pendingAfter?_of_power {kind : TokenKind} (binds : 0 < kind.power)
    (notCall : kind ≠ .leftParen) (notIndex : kind ≠ .leftBracket) :
    kind.pendingAfter? pending = some pending := by
  cases kind <;> first | rfl | simp_all [TokenKind.power]

theorem call_nests (nests : inner.Nest) (callee : Expr) {reading : Reading}
    (opening : reading.current.kind = .leftParen) :
    (call inner callee).Nests pending pending reading := by
  have opens : Read.advance.Nests pending (.rightParen :: pending) reading :=
    .advance (by rw [opening]; rfl)
  exact .bind opens fun _ rest => .bind (closedList_nests (nests.expr _ 0) rfl rest) fun _ after =>
    .pure _ after

theorem index_nests (nests : inner.Nest) (target : Expr) {reading : Reading}
    (opening : reading.current.kind = .leftBracket) :
    (index inner target).Nests pending pending reading := by
  have opens : Read.advance.Nests pending (.rightBracket :: pending) reading :=
    .advance (by rw [opening]; rfl)
  exact .bind opens fun _ rest => .bind (nests.expr _ 0 rest) fun _ after =>
    .bind (.expect rfl) fun _ last => .pure _ last

theorem extend_nests (nests : inner.Nest) (left : Expr) {reading : Reading}
    (binds : 0 < reading.current.kind.power) :
    (extend inner left).Nests pending pending reading := by
  apply Nests.current
  split
  next opening => exact call_nests nests left opening
  next opening => exact index_nests nests left opening
  next notCall notIndex =>
    exact .bind (.advance (pendingAfter?_of_power binds notCall notIndex)) fun _ right =>
      .bind (nests.expr pending _ right) fun _ rest => .pure _ rest

theorem operators_nests (nests : inner.Nest) (power budget : Nat) (left : Expr)
    (reading : Reading) : (operators inner power budget left).Nests pending pending reading := by
  induction budget generalizing left reading with
  | zero => exact .pure _ reading
  | succ budget ih =>
      apply Nests.current
      split
      next binds => exact .bind (extend_nests nests left (by omega)) ih
      next => exact .pure _ reading

theorem expr_nests (nested : inner.Span) (nests : inner.Nest) (power : Nat) (reading : Reading) :
    (expr inner power).Nests pending pending reading :=
  .bind (operand_nests nested nests reading) fun left rest =>
    .remaining (operators_nests nests power _ left rest)

/-! ## Statements -/

theorem binding_nests (nests : inner.Nest) {reading : Reading}
    (keyword : reading.current.kind = .kwLet) :
    (binding inner).Nests pending pending reading := by
  apply Nests.bind (.advance (by rw [keyword]; rfl))
  intro _ name
  apply Nests.bind (.expect rfl)
  intro _ assign
  apply Nests.bind (.expect rfl)
  intro _ value
  exact .bind (nests.expr pending 0 value) fun _ semicolon =>
    .bind (.expect rfl) fun _ rest => .pure _ rest

theorem returning_nests (nests : inner.Nest) {reading : Reading}
    (keyword : reading.current.kind = .kwReturn) :
    (returning inner).Nests pending pending reading := by
  apply Nests.bind (.advance (by rw [keyword]; rfl))
  intro _ value
  apply Nests.bind (.accept rfl)
  intro finished after
  cases finished with
  | true => exact .pure _ after
  | false =>
      exact .bind (nests.expr pending 0 after) fun _ semicolon =>
        .bind (.expect rfl) fun _ rest => .pure _ rest

theorem blockStmt_nests (nested : inner.Span) (nests : inner.Nest) (reading : Reading) :
    (blockStmt inner).Nests pending pending reading :=
  .bind (block_nests nested nests reading) fun _ _ => .bind (.accept rfl) fun _ rest =>
    .pure _ rest

theorem endExprStmt_nests (value : Expr) (reading : Reading) :
    (endExprStmt value).Nests pending pending reading := by
  apply Nests.current
  split
  · exact .bind (.accept rfl) fun _ rest => .pure _ rest
  split
  · exact .pure _ reading
  · exact .bind (.expect rfl) fun _ rest => .pure _ rest

theorem exprStmt_nests (nests : inner.Nest) (reading : Reading) :
    (exprStmt inner).Nests pending pending reading :=
  .current (.bind (nests.expr pending 0 reading) fun value semicolon =>
    .bind (endExprStmt_nests value semicolon) fun _ rest => .pure _ rest)

theorem statement_nests (nested : inner.Span) (nests : inner.Nest) (reading : Reading) :
    (statement inner).Nests pending pending reading := by
  apply Nests.current
  split
  next keyword => exact binding_nests nests keyword
  next keyword => exact returning_nests nests keyword
  next => exact blockStmt_nests nested nests reading
  next => exact exprStmt_nests nests reading

end Read

theorem phrases_nest (limit : Nat) : (phrases limit).Nest := by
  induction limit with
  | zero =>
      constructor
      case expr => exact fun _ _ reading => .throw .tooDeep reading
      case statement => exact fun _ reading => .throw .tooDeep reading
      case conditional => exact fun _ reading _ => .throw .tooDeep reading
  | succ limit ih =>
      have nested := phrases_span limit
      constructor
      case expr => exact fun _ power reading => Read.expr_nests nested ih power reading
      case statement => exact fun _ reading => Read.statement_nests nested ih reading
      case conditional => exact fun _ _ keyword => Read.conditional_nests nested ih keyword

end Monkey
