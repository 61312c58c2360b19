import Monkey.Proofs.Grammar.Locality
import Monkey.Proofs.Grammar.Loops
import Monkey.Proofs.Grammar.Places

/-!
# No reader goes past the end of the tokens

A list of tokens without an end of the input is read as the same list with one behind it. The reader
leaves that token alone, so where there is none it never tries to take a token that is not there.
-/

set_option autoImplicit false

namespace Monkey

/-! ## The end of the input behind the tokens -/

def lastToken : Token := .endOfInput .unknown

namespace Reading

/-- The same tokens and the end of the input behind them. -/
def ending (reading : Reading) : Reading := reading.extend [] [lastToken]

variable (reading : Reading)

@[simp] theorem ending_current : reading.ending.current = reading.current := by
  obtain ⟨tokens, depth, diagnostics⟩ := reading
  cases tokens <;> rfl

@[simp] theorem ending_depth : reading.ending.depth = reading.depth := rfl

theorem ending_advance {reading : Reading} (notEnd : reading.current.kind ≠ .endOfInput) :
    reading.ending.advance = reading.advance.ending :=
  Covers.advance (.inl (reading.tokens_ne_nil notEnd))

theorem ending_record (diagnostic : Diagnostic) :
    reading.ending.record diagnostic = (reading.record diagnostic).ending :=
  Read.record_extend [] [lastToken] reading diagnostic

end Reading

theorem skipInBlock_ending (blockDepth : Nat) (tokens : List Token) (depth : Nat) :
    skipInBlock blockDepth (tokens ++ [lastToken]) depth =
      ((skipInBlock blockDepth tokens depth).1 ++ [lastToken],
        (skipInBlock blockDepth tokens depth).2) := by
  fun_induction skipInBlock blockDepth tokens depth with
  | case1 => rfl
  | case2 token rest depth stop => rw [List.cons_append, skipInBlock, if_pos stop]
  | case3 token rest depth goes after stop =>
      rw [List.cons_append, skipInBlock, if_neg goes, if_pos stop]
  | case4 token rest depth goes after further ih =>
      rw [List.cons_append, skipInBlock, if_neg goes, if_neg further, ih]

theorem Reading.ending_resumed (blockDepth : Nat) (reading : Reading) :
    reading.ending.resumed blockDepth = (reading.resumed blockDepth).ending := by
  have skipped := skipInBlock_ending blockDepth reading.tokens reading.depth
  simp only [resumed, ending, extend, skipped]

namespace Read

variable {α β : Type}

/-- What has been read where the end of the input stands behind the tokens: it still stands there.
-/
def endingResult (result : EStateM.Result ReadFailure Reading α) :
    EStateM.Result ReadFailure Reading α :=
  extendResult [] [lastToken] result

/-- The reader does the same with and without the end of the input behind the tokens, and leaves it
there. -/
def Within (read : Read α) (reading : Reading) : Prop :=
  read reading.ending = endingResult (read reading)

section Rules

variable {read : Read α} {reading : Reading}

theorem Within.pure (value : α) (reading : Reading) : (Pure.pure value : Read α).Within reading :=
  rfl

theorem Within.throw (failure : ReadFailure) (reading : Reading) :
    (MonadExcept.throw failure : Read α).Within reading :=
  rfl

theorem Within.bind {next : α → Read β} (head : read.Within reading)
    (tail : ∀ value rest, read reading = .ok value rest → (next value).Within rest) :
    (read >>= next).Within reading := by
  unfold Within at head ⊢
  rw [bind_apply, bind_apply, head]
  cases result : read reading with
  | error failure rest => rfl
  | ok value rest => exact tail value rest result

theorem Within.current {next : Token → Read α} (tail : (next reading.current).Within reading) :
    (Read.current >>= next).Within reading := by
  show next reading.ending.current reading.ending = _
  rw [reading.ending_current]
  exact tail

theorem Within.advance (notEnd : reading.current.kind ≠ .endOfInput) :
    Read.advance.Within reading := by
  show EStateM.Result.ok reading.ending.current reading.ending.advance = _
  rw [reading.ending_current, Reading.ending_advance notEnd]
  rfl

theorem Within.expect {kind : TokenKind} (notEnd : kind ≠ .endOfInput) (reading : Reading) :
    (Read.expect kind).Within reading := by
  unfold Within
  rw [expect_apply, expect_apply, reading.ending_current]
  by_cases expected : reading.current.kind = kind
  · rw [if_pos expected, if_pos expected, Reading.ending_advance (expected ▸ notEnd)]
    rfl
  · rw [if_neg expected, if_neg expected]
    rfl

theorem Within.accept {kind : TokenKind} (notEnd : kind ≠ .endOfInput) (reading : Reading) :
    (Read.accept kind).Within reading := by
  unfold Within
  rw [accept_apply, accept_apply, reading.ending_current]
  by_cases accepted : reading.current.kind = kind
  · rw [if_pos accepted, if_pos accepted, Reading.ending_advance (accepted ▸ notEnd)]
    rfl
  · rw [if_neg accepted, if_neg accepted]
    rfl

end Rules

end Read

/-! ## Loops -/

namespace Loop

variable {σ α : Type} {loop : Loop σ α} {read : Nat → σ → Read α} {inside : Nat → Prop}

theorem Ends.ending {state : σ} {reading : Reading} {result : EStateM.Result ReadFailure Reading α}
    (ends : loop.Ends state reading result) (progresses : loop.Progresses inside)
    (rounds : ∀ state reading, inside reading.depth → loop.goesOn reading.current.kind →
      (loop.round state).Within reading)
    (within : inside reading.depth) :
    loop.Ends state reading.ending (Read.endingResult result) := by
  induction ends with
  | @halts state reading halted =>
      have halted : ¬ loop.goesOn reading.ending.current.kind := by rwa [reading.ending_current]
      exact .halts halted
  | @fails state reading rest failure goes ran =>
      have again := rounds state reading within goes
      rw [Read.Within, ran] at again
      exact .fails (by rwa [reading.ending_current]) again
  | @goes state next reading rest result goes ran _ ih =>
      have again := rounds state reading within goes
      rw [Read.Within, ran] at again
      have stillWithin := (progresses _ _ _ _ within goes ran).2
      exact .goes (by rwa [reading.ending_current]) again (ih stillWithin)

/-- A reader that makes the rounds of a loop does the same with the end of the input behind the
tokens if the rounds do. -/
theorem Progresses.ending (progresses : loop.Progresses inside) (unrolls : loop.Unrolls read)
    (rounds : ∀ state reading, inside reading.depth → loop.goesOn reading.current.kind →
      (loop.round state).Within reading)
    {few many : Nat} {state : σ} {reading : Reading} (within : inside reading.depth)
    (enough : loop.Suffices few reading) (still : loop.Suffices many reading.ending) :
    read many state reading.ending = Read.endingResult (read few state reading) := by
  have ends : loop.Ends state reading (read few state reading) :=
    progresses.ends unrolls within enough
  have endsThere : loop.Ends state reading.ending (read many state reading.ending) :=
    progresses.ends unrolls within still
  exact endsThere.unique (ends.ending progresses rounds within)

end Loop

/-- Readers for nested phrases that stay within the tokens. -/
structure Phrases.Within (inner : Phrases) : Prop where
  expr : ∀ power reading, (inner.expr power).Within reading
  statement : ∀ reading, inner.statement.Within reading
  conditional : ∀ reading, reading.current.kind = .kwIf → inner.conditional.Within reading

namespace Read

variable {α : Type} {inner : Phrases}

/-! ## Lists -/

section Lists

variable {item : Read α}

theorem items_within (spans : ∀ reading, item.Spans .phrase false 0 0 reading)
    (items : ∀ reading, item.Within reading) (reading : Reading) :
    (Read.items item).Within reading := by
  refine .bind (items reading) fun first rest _ => ?_
  have rounds : ∀ done reading, True → (itemLoop item).goesOn reading.current.kind →
      ((itemLoop item).round done).Within reading := by
    intro done reading _ goes
    have comma : reading.current.kind = .comma := goes
    exact .bind (.advance (by rw [comma]; decide)) fun _ next _ =>
      .bind (items next) fun _ after _ => .pure _ after
  have notAtEnd : ¬ (itemLoop item).goesOn .endOfInput := by
    show ¬ TokenKind.endOfInput = .comma
    decide
  exact (itemLoop_progresses spans).ending (itemLoop_unrolls item) rounds trivial
    (.inr ⟨rfl, notAtEnd⟩) (.inr ⟨rfl, notAtEnd⟩)

theorem closedList_within {closing : TokenKind} (notEnd : closing ≠ .endOfInput)
    (spans : ∀ reading, item.Spans .phrase false 0 0 reading)
    (items : ∀ reading, item.Within reading) (reading : Reading) :
    (closedList item closing).Within reading := by
  have close : ∀ (list : List α) rest,
      (Read.expect closing >>= fun _ => Pure.pure list).Within rest :=
    fun list rest => .bind (.expect notEnd rest) fun _ after _ => .pure list after
  refine .current ?_
  dsimp only
  split
  · exact close [] reading
  · exact .bind (items_within spans items reading) fun list rest _ => close list rest

end Lists

/-! ## Blocks -/

theorem blockRound_within (within : inner.Within) (blockDepth : Nat) (done : List Stmt)
    (reading : Reading) : (blockRound inner.statement blockDepth done).Within reading := by
  unfold Within blockRound
  rw [reading.ending_current, within.statement reading]
  split
  · exact Within.current (.throw _ reading)
  · cases inner.statement reading with
    | ok stmt rest => rfl
    | error failure rest =>
        cases failure with
        | tooDeep => rfl
        | numeral unread => rfl
        | fault fault position =>
            show afterStatement pure blockDepth done
              (.error (.fault fault position) rest.ending) = _
            unfold afterStatement
            dsimp only
            rw [Reading.ending_resumed, Reading.ending_current]
            split
            · rfl
            · show EStateM.Result.ok done ((rest.resumed blockDepth).ending.record _) = _
              rw [Reading.ending_record]
              rfl

theorem blockStatements_within (nested : inner.Span) (within : inner.Within) (reading : Reading) :
    blockStatements inner.statement reading.depth (reading.ending.tokens.length + 1) []
        reading.ending =
      endingResult (blockStatements inner.statement reading.depth (reading.tokens.length + 1) []
        reading) :=
  (blockLoop_progresses nested reading.depth).ending (blockLoop_unrolls _ _)
    (fun done reading _ _ => blockRound_within within _ done reading) rfl
    (.inl (Nat.lt_succ_self _)) (.inl (Nat.lt_succ_self _))

theorem block_within (nested : inner.Span) (within : inner.Within) (reading : Reading) :
    (block inner.statement).Within reading := by
  refine .bind (.expect (by decide) reading) fun opening rest _ => ?_
  have ends := blockStatements_spans nested rest.depth (rest.tokens.length + 1) [] rest rfl
    (Nat.lt_succ_self _)
  have statements := blockStatements_within nested within rest
  unfold Within
  simp only [bind_apply, Read.depth, Read.remaining, Reading.ending_depth]
  rw [statements]
  cases result : blockStatements inner.statement rest.depth (rest.tokens.length + 1) [] rest with
  | error failure after => rfl
  | ok list after =>
      rw [result] at ends
      have notEnd : after.current.kind ≠ .endOfInput := by
        rw [ends.1]
        decide
      show EStateM.Result.ok _ after.ending.advance = _
      rw [Reading.ending_advance notEnd]
      rfl

theorem alternative_within (nested : inner.Span) (within : inner.Within) (reading : Reading) :
    (alternative inner).Within reading := by
  refine .current ?_
  split
  next chained => exact .bind (within.conditional reading chained) fun _ rest _ => .pure _ rest
  next => exact block_within nested within reading
  next => exact .current (.throw _ reading)

/-! ## Operands -/

section Operands

variable {reading : Reading}

theorem leaf_within (notEnd : reading.current.kind ≠ .endOfInput) : leaf.Within reading :=
  .bind (.advance notEnd) fun _ rest _ => .pure _ rest

theorem integer_within (notEnd : reading.current.kind ≠ .endOfInput) : integer.Within reading := by
  refine .bind (.advance notEnd) fun token rest _ => ?_
  split
  · exact .throw _ rest
  · split
    · exact .throw _ rest
    · exact .pure _ rest

theorem unary_within (within : inner.Within) (notEnd : reading.current.kind ≠ .endOfInput) :
    (unary inner).Within reading :=
  .bind (.advance notEnd) fun _ operand _ =>
    .bind (within.expr unaryPower operand) fun _ rest _ => .pure _ rest

theorem grouped_within (within : inner.Within) (notEnd : reading.current.kind ≠ .endOfInput) :
    (grouped inner).Within reading :=
  .bind (.advance notEnd) fun _ inside _ =>
    .bind (within.expr 0 inside) fun _ after _ =>
      .bind (.expect (by decide) after) fun _ rest _ => .pure _ rest

theorem array_within (nested : inner.Span) (within : inner.Within)
    (notEnd : reading.current.kind ≠ .endOfInput) : (array inner).Within reading :=
  .bind (.advance notEnd) fun _ inside _ =>
    .bind (closedList_within (by decide) (nested.expr false 0) (within.expr 0) inside)
      fun _ rest _ => .pure _ rest

theorem pair_within (within : inner.Within) (reading : Reading) : (pair inner).Within reading :=
  .current (.bind (within.expr 0 reading) fun _ colon _ =>
    .bind (.expect (by decide) colon) fun _ value _ =>
      .bind (within.expr 0 value) fun _ rest _ => .pure _ rest)

theorem hash_within (nested : inner.Span) (within : inner.Within)
    (notEnd : reading.current.kind ≠ .endOfInput) : (hash inner).Within reading :=
  .bind (.advance notEnd) fun _ inside _ =>
    .bind (closedList_within (by decide) (pair_spans nested) (pair_within within) inside)
      fun _ rest _ => .pure _ rest

theorem conditional_within (nested : inner.Span) (within : inner.Within)
    (notEnd : reading.current.kind ≠ .endOfInput) : (conditional inner).Within reading := by
  refine .bind (.advance notEnd) fun _ condition _ => ?_
  refine .bind (within.expr 0 condition) fun _ consequence _ => ?_
  refine .bind (block_within nested within consequence) fun _ rest _ => ?_
  refine .bind (.accept (by decide) rest) fun otherwise after _ => ?_
  cases otherwise with
  | false => exact .pure _ after
  | true => exact .bind (alternative_within nested within after) fun _ last _ => .pure _ last

theorem function_within (nested : inner.Span) (within : inner.Within)
    (notEnd : reading.current.kind ≠ .endOfInput) : (function inner).Within reading := by
  refine .bind (.advance notEnd) fun _ opening _ => ?_
  refine .bind (.expect (by decide) opening) fun _ parameters _ => ?_
  refine .bind (closedList_within (by decide) (fun _ => .expect rfl)
    (.expect (by decide)) parameters) fun _ body _ => ?_
  exact .bind (block_within nested within body) fun _ rest _ => .pure _ rest

theorem operand_within (nested : inner.Span) (within : inner.Within) (reading : Reading) :
    (operand inner).Within reading := by
  refine .current ?_
  split
  next name => exact leaf_within (by rw [name]; exact nofun)
  next literal => exact leaf_within (by rw [literal]; exact nofun)
  next literal => exact leaf_within (by rw [literal]; exact nofun)
  next literal => exact leaf_within (by rw [literal]; exact nofun)
  next literal => exact leaf_within (by rw [literal]; exact nofun)
  next literal => exact integer_within (by rw [literal]; exact nofun)
  next minus => exact unary_within within (by rw [minus]; exact nofun)
  next bang => exact unary_within within (by rw [bang]; exact nofun)
  next opening => exact grouped_within within (by rw [opening]; exact nofun)
  next opening => exact array_within nested within (by rw [opening]; exact nofun)
  next opening => exact hash_within nested within (by rw [opening]; exact nofun)
  next => exact .bind (block_within nested within reading) fun _ rest _ => .pure _ rest
  next keyword => exact conditional_within nested within (by rw [keyword]; exact nofun)
  next keyword => exact function_within nested within (by rw [keyword]; exact nofun)
  next => exact .throw _ reading

/-! ## Operators -/

theorem extend_within (nested : inner.Span) (within : inner.Within) (left : Expr)
    (binds : 0 < reading.current.kind.power) : (extend inner left).Within reading := by
  have notEnd := notEnd_of_power binds
  refine .current ?_
  split
  · exact .bind (.advance notEnd) fun _ arguments _ =>
      .bind (closedList_within (by decide) (nested.expr false 0) (within.expr 0) arguments)
        fun _ rest _ => .pure _ rest
  · exact .bind (.advance notEnd) fun _ place _ =>
      .bind (within.expr 0 place) fun _ closing _ =>
        .bind (.expect (by decide) closing) fun _ rest _ => .pure _ rest
  · exact .bind (.advance notEnd) fun _ right _ =>
      .bind (within.expr _ right) fun _ rest _ => .pure _ rest

theorem expr_within (nested : inner.Span) (within : inner.Within) (power : Nat)
    (reading : Reading) : (expr inner power).Within reading := by
  refine .bind (operand_within nested within reading) fun left rest _ => ?_
  have rounds : ∀ left reading, True → (operatorLoop inner power).goesOn reading.current.kind →
      ((operatorLoop inner power).round left).Within reading :=
    fun left reading _ goes => extend_within nested within left (Nat.zero_lt_of_lt goes)
  have notAtEnd : ¬ (operatorLoop inner power).goesOn .endOfInput := Nat.not_lt_zero power
  exact (operatorLoop_progresses nested power).ending (operatorLoop_unrolls inner power) rounds
    trivial (.inr ⟨rfl, notAtEnd⟩) (.inr ⟨rfl, notAtEnd⟩)

/-! ## Statements -/

theorem binding_within (within : inner.Within) (notEnd : reading.current.kind ≠ .endOfInput) :
    (binding inner).Within reading := by
  refine .bind (.advance notEnd) fun _ name _ => ?_
  refine .bind (.expect (by decide) name) fun _ assign _ => ?_
  refine .bind (.expect (by decide) assign) fun _ value _ => ?_
  refine .bind (within.expr 0 value) fun _ semicolon _ => ?_
  exact .bind (.expect (by decide) semicolon) fun _ rest _ => .pure _ rest

theorem returning_within (within : inner.Within) (notEnd : reading.current.kind ≠ .endOfInput) :
    (returning inner).Within reading := by
  refine .bind (.advance notEnd) fun _ value _ => ?_
  refine .bind (.accept (by decide) value) fun finished after _ => ?_
  cases finished with
  | true => exact .pure _ after
  | false =>
      refine .bind (within.expr 0 after) fun _ semicolon _ => ?_
      exact .bind (.expect (by decide) semicolon) fun _ rest _ => .pure _ rest

theorem endExprStmt_within (value : Expr) (reading : Reading) :
    (endExprStmt value).Within reading := by
  refine .current ?_
  split
  · exact .bind (.accept (by decide) reading) fun _ rest _ => .pure _ rest
  split
  · exact .pure _ reading
  · exact .bind (.expect (by decide) reading) fun _ rest _ => .pure _ rest

theorem statement_within (nested : inner.Span) (within : inner.Within) (reading : Reading) :
    (statement inner).Within reading := by
  refine .current ?_
  split
  next keyword => exact binding_within within (by rw [keyword]; exact nofun)
  next keyword => exact returning_within within (by rw [keyword]; exact nofun)
  next =>
    exact .bind (block_within nested within reading) fun _ semicolon _ =>
      .bind (.accept (by decide) semicolon) fun _ rest _ => .pure _ rest
  next =>
    exact .current (.bind (within.expr 0 reading) fun value semicolon _ =>
      .bind (endExprStmt_within value semicolon) fun _ rest _ => .pure _ rest)

end Operands

end Read

theorem phrases_within (limit : Nat) : (phrases limit).Within := by
  induction limit with
  | zero => exact ⟨fun _ => .throw _, .throw _, fun reading _ => .throw _ reading⟩
  | succ limit ih =>
      have nested := phrases_span limit
      refine ⟨Read.expr_within nested ih, Read.statement_within nested ih, ?_⟩
      intro reading keyword
      exact Read.conditional_within nested ih (by rw [keyword]; exact nofun)

end Monkey
