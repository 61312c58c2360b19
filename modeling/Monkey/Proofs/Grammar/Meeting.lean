import Mathlib.Data.List.Forall2
import Monkey.Proofs.Ast.Leaves
import Monkey.Proofs.Grammar.Recovery
import Monkey.Proofs.Text.Numeral

/-!
# Integers that are met

A reader meets an integer where it asks for an expression and the integer is next. One that is out
of range is then reported, or ends the reading if it is not read as a number at all. All other
integers are passed over, and what is read does not depend on their texts.
-/

set_option autoImplicit false

namespace Monkey

/-! ## Other texts for an integer -/

/-- The report of an integer that is out of range. -/
def Token.outOfRange (literal : Token) : Diagnostic :=
  ⟨.syntactic (.integerOutOfRange literal.text), literal.position⟩

theorem Token.isInteger_of_unbounded {literal : Token} (unbounded : ¬ literal.IsBounded) :
    literal.kind = .integer := by
  by_contra other
  exact unbounded fun isInteger => absurd isInteger other

/-- The same token, or any other text in the place of a literal. -/
def Token.Retells (literal token token' : Token) : Prop :=
  token' = token ∨ token = literal ∧ ∃ text, token' = { literal with text }

namespace Token.Retells

variable {literal token token' : Token}

theorem kind (retells : literal.Retells token token') : token'.kind = token.kind := by
  rcases retells with rfl | ⟨rfl, text, rfl⟩ <;> rfl

theorem position (retells : literal.Retells token token') : token'.position = token.position := by
  rcases retells with rfl | ⟨rfl, text, rfl⟩ <;> rfl

theorem eq_of_ne (retells : literal.Retells token token') (other : token ≠ literal) :
    token' = token :=
  retells.resolve_right fun met => other met.1

/-- What is made of the kind and the position of a token alone is the same. -/
theorem apply_eq {α : Type} (retells : literal.Retells token token') {use : Token → α}
    (blind : ∀ token text, use { token with text } = use token) : use token' = use token := by
  rcases retells with rfl | ⟨rfl, text, rfl⟩
  · rfl
  · exact blind token text

end Token.Retells

theorem skipInBlock_retells {literal : Token} (blockDepth depth : Nat) {tokens tokens' : List Token}
    (retells : List.Forall₂ literal.Retells tokens tokens') :
    List.Forall₂ literal.Retells (skipInBlock blockDepth tokens depth).1
        (skipInBlock blockDepth tokens' depth).1 ∧
      (skipInBlock blockDepth tokens' depth).2 = (skipInBlock blockDepth tokens depth).2 := by
  induction retells generalizing depth with
  | nil => exact ⟨.nil, rfl⟩
  | cons first others ih =>
      simp only [skipInBlock, first.kind]
      split
      · exact ⟨.cons first others, rfl⟩
      split
      · exact ⟨others, rfl⟩
      · exact ih _

/-- The same state of reading but for the text of a literal, and for what faults are blamed on. -/
structure Reading.Retells (literal : Token) (reading reading' : Reading) : Prop where
  tokens : List.Forall₂ literal.Retells reading.tokens reading'.tokens
  depth : reading'.depth = reading.depth
  blamed : blames reading'.diagnostics = blames reading.diagnostics

theorem Reading.advance_diagnostics (reading : Reading) :
    reading.advance.diagnostics = reading.diagnostics := by
  unfold advance
  split <;> rfl

namespace Reading.Retells

variable {literal : Token} {reading reading' : Reading}

theorem current (retells : reading.Retells literal reading') :
    literal.Retells reading.current reading'.current := by
  obtain ⟨list, level, found⟩ := reading
  obtain ⟨list', level', found'⟩ := reading'
  cases retells.tokens with
  | nil => exact .inl rfl
  | cons first _ => exact first

theorem advance (retells : reading.Retells literal reading') :
    reading.advance.Retells literal reading'.advance := by
  obtain ⟨tokens, depth, blamed⟩ := retells
  obtain ⟨list, level, found⟩ := reading
  obtain ⟨list', level', found'⟩ := reading'
  cases tokens with
  | nil => exact ⟨.nil, depth, blamed⟩
  | cons first others =>
      obtain rfl : level' = level := depth
      exact ⟨others, by simp only [Reading.advance, first.kind], blamed⟩

theorem record (retells : reading.Retells literal reading') {position : Position}
    (fault fault' : Fault) :
    (reading.record ⟨fault, position⟩).Retells literal (reading'.record ⟨fault', position⟩) where
  tokens := retells.tokens
  depth := retells.depth
  blamed := by simp [Reading.record, retells.blamed]

theorem resumed (retells : reading.Retells literal reading') (blockDepth : Nat) :
    (reading.resumed blockDepth).Retells literal (reading'.resumed blockDepth) := by
  obtain ⟨tokens, depth⟩ := skipInBlock_retells blockDepth reading.depth retells.tokens
  rw [← retells.depth] at tokens depth
  exact ⟨by simpa [Reading.resumed, retells.depth] using tokens,
    by simpa [Reading.resumed, retells.depth] using depth, retells.blamed⟩

end Reading.Retells

namespace Read

variable {α β : Type} {literal : Token}

/-- The literal has been met: it is reported, or it has ended the reading if it is not read as a
number at all. -/
def Struck (literal : Token) : EStateM.Result ReadFailure Reading α → Prop
  | .error (.numeral _) _ => True
  | .ok _ rest | .error .tooDeep rest =>
      literal.IsReadable ∧ literal.outOfRange ∈ rest.diagnostics
  | .error (.fault fault position) rest =>
      literal.IsReadable ∧ literal.outOfRange ∈ rest.diagnostics ++ [⟨.syntactic fault, position⟩]

/-- Two readings with another text for the literal came to the same end. -/
inductive Parallel (literal : Token) :
    EStateM.Result ReadFailure Reading α → EStateM.Result ReadFailure Reading α → Prop
  | ok (value : α) {rest rest' : Reading} (readings : rest.Retells literal rest') :
      Parallel literal (.ok value rest) (.ok value rest')
  | fault {fault fault' : SyntaxFault} {position : Position} {rest rest' : Reading}
      (readings : rest.Retells literal rest') :
      Parallel literal (.error (.fault fault position) rest) (.error (.fault fault' position) rest')
  | tooDeep {rest rest' : Reading} (readings : rest.Retells literal rest') :
      Parallel literal (.error .tooDeep rest) (.error .tooDeep rest')

/-- The reader notices the literal if it meets it: what is reported stays reported, and a reading
that has not met the literal does not depend on its text. -/
structure Notices (literal : Token) (read : Read α) (reading : Reading) : Prop where
  keeps : literal.IsReadable → literal.outOfRange ∈ reading.diagnostics →
    Struck literal (read reading)
  runs : ∀ reading', reading.Retells literal reading' →
    Struck literal (read reading) ∨ Parallel literal (read reading) (read reading')

section Rules

variable {read : Read α} {reading : Reading}

theorem Notices.pure (value : α) (reading : Reading) :
    (Pure.pure value : Read α).Notices literal reading :=
  ⟨fun readable reported => ⟨readable, reported⟩, fun _ retells => .inr (.ok value retells)⟩

theorem Notices.fail (fault : SyntaxFault) (position : Position) (reading : Reading) :
    (Read.fail fault position : Read α).Notices literal reading :=
  ⟨fun readable reported => ⟨readable, List.mem_append_left _ reported⟩,
    fun _ retells => .inr (.fault retells)⟩

theorem Notices.tooDeep (reading : Reading) :
    (throw .tooDeep : Read α).Notices literal reading :=
  ⟨fun readable reported => ⟨readable, reported⟩, fun _ retells => .inr (.tooDeep retells)⟩

theorem Notices.failExpecting (wanted : Expectation) (reading : Reading) :
    (Read.failExpecting wanted : Read α).Notices literal reading := by
  refine ⟨fun readable reported => ⟨readable, List.mem_append_left _ reported⟩, ?_⟩
  intro reading' retells
  have same : reading'.current.position = reading.current.position := retells.current.position
  show _ ∨ Parallel literal _
    (.error (.fault (.expected wanted reading'.current) reading'.current.position) reading')
  rw [same]
  exact .inr (.fault retells)

theorem Notices.bind {next : α → Read β} (head : read.Notices literal reading)
    (tail : ∀ value rest, (next value).Notices literal rest) :
    (read >>= next).Notices literal reading := by
  -- Where the first reader has met the literal, the second one runs on what need not be parallel.
  have struck : Struck literal (read reading) → Struck literal ((read >>= next) reading) := by
    rw [bind_apply]
    intro struck
    cases result : read reading with
    | ok value rest =>
        rw [result] at struck
        exact (tail value rest).keeps struck.1 struck.2
    | error failure rest =>
        rw [result] at struck
        cases failure <;> exact struck
  refine ⟨fun readable reported => struck (head.keeps readable reported), ?_⟩
  intro reading' retells
  rcases head.runs reading' retells with met | parallel
  · exact .inl (struck met)
  · rw [bind_apply, bind_apply]
    generalize read reading = result, read reading' = result' at parallel
    cases parallel with
    | ok value readings => exact (tail value _).runs _ readings
    | fault readings => exact .inr (.fault readings)
    | tooDeep readings => exact .inr (.tooDeep readings)

/-- A reader that does what another one does where a token of this kind is next. -/
theorem Notices.of_eq {other : Read α}
    (same : ∀ reading' : Reading, reading'.current.kind = reading.current.kind →
      read reading' = other reading')
    (notices : other.Notices literal reading) : read.Notices literal reading := by
  refine ⟨fun readable reported => ?_, fun reading' retells => ?_⟩
  · rw [same reading rfl]
    exact notices.keeps readable reported
  · rw [same reading rfl, same reading' retells.current.kind]
    exact notices.runs reading' retells

/-- A reader that looks at the next token before it goes on, but not at the text of it. -/
theorem Notices.current {next : Token → Read α}
    (blind : ∀ token text, next { token with text } = next token)
    (tail : (next reading.current).Notices literal reading) :
    (Read.current >>= next).Notices literal reading := by
  refine ⟨tail.keeps, fun reading' retells => ?_⟩
  have same : next reading'.current = next reading.current := retells.current.apply_eq blind
  show Struck literal (next reading.current reading) ∨
    Parallel literal (next reading.current reading) (next reading'.current reading')
  rw [same]
  exact tail.runs reading' retells

/-- A reader that takes the next token and goes on, but does not look at the text of it. -/
theorem Notices.take {next : Token → Read α}
    (blind : ∀ token text, next { token with text } = next token)
    (tail : ∀ rest, (next reading.current).Notices literal rest) :
    (Read.advance >>= next).Notices literal reading := by
  refine ⟨fun readable reported => ?_, fun reading' retells => ?_⟩
  · exact (tail reading.advance).keeps readable (by rwa [reading.advance_diagnostics])
  · have same : next reading'.current = next reading.current := retells.current.apply_eq blind
    show Struck literal (next reading.current reading.advance) ∨
      Parallel literal (next reading.current reading.advance)
        (next reading'.current reading'.advance)
    rw [same]
    exact (tail reading.advance).runs _ retells.advance

theorem Notices.remaining {next : Nat → Read α}
    (tail : ∀ budget, (next budget).Notices literal reading) :
    (Read.remaining >>= next).Notices literal reading := by
  refine ⟨(tail reading.tokens.length).keeps, fun reading' retells => ?_⟩
  show Struck literal (next reading.tokens.length reading) ∨
    Parallel literal (next reading.tokens.length reading) (next reading'.tokens.length reading')
  rw [← retells.tokens.length_eq]
  exact (tail _).runs reading' retells

theorem Notices.depth {next : Nat → Read α}
    (tail : ∀ depth, (next depth).Notices literal reading) :
    (Read.depth >>= next).Notices literal reading := by
  refine ⟨(tail reading.depth).keeps, fun reading' retells => ?_⟩
  show Struck literal (next reading.depth reading) ∨
    Parallel literal (next reading.depth reading) (next reading'.depth reading')
  rw [retells.depth]
  exact (tail _).runs reading' retells

theorem Notices.accept (kind : TokenKind) (reading : Reading) :
    (Read.accept kind).Notices literal reading := by
  have advanced : reading.advance.diagnostics = reading.diagnostics := reading.advance_diagnostics
  refine ⟨fun readable reported => ?_, fun reading' retells => .inr ?_⟩
  · rw [accept_apply]
    split
    · exact ⟨readable, advanced ▸ reported⟩
    · exact ⟨readable, reported⟩
  · rw [accept_apply, accept_apply, retells.current.kind]
    split
    · exact .ok true retells.advance
    · exact .ok false retells

end Rules

section Taking

variable {reading : Reading} (isInteger : literal.kind = .integer)
include isInteger

/-- No other token than an integer is told with another text. -/
theorem current_eq_of_retells {reading' : Reading} (retells : reading.Retells literal reading')
    (noInteger : reading.current.kind ≠ .integer) : reading'.current = reading.current :=
  retells.current.eq_of_ne fun met => noInteger (met ▸ isInteger)

/-- A reader that looks at a next token that is no integer. -/
theorem Notices.ahead {next : Token → Read α} (noInteger : reading.current.kind ≠ .integer)
    (tail : (next reading.current).Notices literal reading) :
    (Read.current >>= next).Notices literal reading := by
  refine ⟨tail.keeps, fun reading' retells => ?_⟩
  show Struck literal (next reading.current reading) ∨
    Parallel literal (next reading.current reading) (next reading'.current reading')
  rw [current_eq_of_retells isInteger retells noInteger]
  exact tail.runs reading' retells

theorem Notices.advance (noInteger : reading.current.kind ≠ .integer) :
    Read.advance.Notices literal reading := by
  refine ⟨fun readable reported => ⟨readable, ?_⟩, fun reading' retells => .inr ?_⟩
  · rwa [reading.advance_diagnostics]
  · show Parallel literal (.ok reading.current _) (.ok reading'.current _)
    rw [current_eq_of_retells isInteger retells noInteger]
    exact .ok _ retells.advance

theorem Notices.expect {kind : TokenKind} (noInteger : kind ≠ .integer) (reading : Reading) :
    (Read.expect kind).Notices literal reading := by
  by_cases expected : reading.current.kind = kind
  · refine .of_eq (fun reading' same => ?_) (.advance isInteger (expected ▸ noInteger))
    rw [expect_apply, if_pos (same.trans expected)]
    rfl
  · refine .of_eq (fun reading' same => ?_) (.failExpecting (.token kind) reading)
    rw [expect_apply, if_neg (same ▸ expected)]
    rfl

end Taking

end Read

/-- Readers for nested phrases that notice a literal. -/
structure Phrases.Notices (literal : Token) (inner : Phrases) : Prop where
  expr : ∀ power reading, (inner.expr power).Notices literal reading
  statement : ∀ reading, inner.statement.Notices literal reading
  conditional : ∀ reading, inner.conditional.Notices literal reading

namespace Read

variable {α : Type} {literal : Token} {inner : Phrases}

/-! ## Lists -/

section Lists

variable {item : Read α}

theorem moreItems_notices (items : ∀ reading, item.Notices literal reading) (budget : Nat)
    (done : List α) (reading : Reading) : (moreItems item budget done).Notices literal reading := by
  induction budget generalizing done reading with
  | zero => exact .pure _ reading
  | succ budget ih =>
      refine .bind (.accept .comma reading) fun accepted rest => ?_
      cases accepted with
      | false => exact .pure _ rest
      | true => exact .bind (items rest) fun next after => ih (next :: done) after

theorem closedList_notices (isInteger : literal.kind = .integer)
    (items : ∀ reading, item.Notices literal reading) {closing : TokenKind}
    (noInteger : closing ≠ .integer) (reading : Reading) :
    (closedList item closing).Notices literal reading := by
  have close : ∀ (list : List α) rest,
      (Read.expect closing >>= fun _ => Pure.pure list).Notices literal rest :=
    fun list rest => .bind (.expect isInteger noInteger rest) fun _ after => .pure list after
  refine .current (fun _ _ => rfl) ?_
  dsimp only
  split
  · exact close [] reading
  · refine .bind (.bind (items reading) fun first rest => ?_) close
    exact .remaining fun budget => moreItems_notices items budget [first] rest

end Lists

/-! ## Blocks -/

section Blocks

variable {loop : List Stmt → Read (List Stmt)} {blockDepth : Nat} {done : List Stmt}
  {result result' : EStateM.Result ReadFailure Reading Stmt}

/-- A report is not lost where a block goes on after a fault. -/
theorem afterStatement_struck (keeps : ∀ done reading, (loop done).Notices literal reading)
    (struck : Struck literal result) :
    Struck literal (afterStatement loop blockDepth done result) := by
  cases result with
  | ok stmt rest => exact (keeps (stmt :: done) rest).keeps struck.1 struck.2
  | error failure rest =>
      cases failure with
      | numeral unread => exact struck
      | tooDeep => exact struck
      | fault fault position =>
          unfold afterStatement
          dsimp only
          split
          · exact struck
          · exact (keeps done _).keeps struck.1 struck.2

theorem afterStatement_parallel (keeps : ∀ done reading, (loop done).Notices literal reading)
    (parallel : Parallel literal result result') :
    Struck literal (afterStatement loop blockDepth done result) ∨
      Parallel literal (afterStatement loop blockDepth done result)
        (afterStatement loop blockDepth done result') := by
  cases parallel with
  | ok stmt readings => exact (keeps (stmt :: done) _).runs _ readings
  | tooDeep readings => exact .inr (.tooDeep readings)
  | fault readings =>
      have resumed := readings.resumed blockDepth
      simp only [afterStatement, resumed.current.kind]
      split
      · exact .inr (.fault resumed)
      · exact (keeps done _).runs _ (resumed.record _ _)

end Blocks

theorem blockStatements_notices (nested : inner.Notices literal) (blockDepth budget : Nat)
    (done : List Stmt) (reading : Reading) :
    (blockStatements inner.statement blockDepth budget done).Notices literal reading := by
  induction budget generalizing done reading with
  | zero => exact .pure _ reading
  | succ budget ih =>
      by_cases closing : reading.current.kind = .rightBrace
      · refine .of_eq (fun _ same => ?_) (.pure done.reverse reading)
        exact blockStatements_closing _ _ _ _ (same.trans closing)
      by_cases ended : reading.current.kind = .endOfInput
      · refine .of_eq (fun _ same => ?_) (.failExpecting (.token .rightBrace) reading)
        exact blockStatements_ended _ _ _ _ (same.trans ended)
      -- Whether the block goes on after a fault depends on the kinds of the tokens ahead alone.
      refine .of_eq (fun _ same => blockStatements_succ _ _ _ _ (same ▸ closing) (same ▸ ended))
        ⟨fun readable reported => ?_, fun reading' retells => ?_⟩
      · exact afterStatement_struck ih ((nested.statement reading).keeps readable reported)
      · rcases (nested.statement reading).runs reading' retells with struck | parallel
        · exact .inl (afterStatement_struck ih struck)
        · exact afterStatement_parallel ih parallel

section Readers

variable (isInteger : literal.kind = .integer) (nested : inner.Notices literal)
include isInteger nested

theorem block_notices (reading : Reading) : (block inner.statement).Notices literal reading := by
  refine .bind (.expect isInteger (by decide) reading) fun opening rest => ?_
  refine .depth fun blockDepth => .remaining fun budget => ?_
  refine .bind (blockStatements_notices nested blockDepth (budget + 1) [] rest)
    fun statements closing => ?_
  exact .take (fun _ _ => rfl) fun after => .pure _ after

theorem alternative_notices (reading : Reading) : (alternative inner).Notices literal reading := by
  refine .current (fun _ _ => rfl) ?_
  split
  · exact .bind (nested.conditional reading) fun chained rest => .pure _ rest
  · exact block_notices isInteger nested reading
  · exact .failExpecting _ reading

/-! ## Operands -/

theorem grouped_notices (reading : Reading) : (grouped inner).Notices literal reading := by
  refine .take (fun _ _ => rfl) fun inside => ?_
  refine .bind (nested.expr 0 inside) fun value closing => ?_
  exact .bind (.expect isInteger (by decide) closing) fun _ rest => .pure value rest

theorem array_notices (reading : Reading) : (array inner).Notices literal reading := by
  refine .take (fun _ _ => rfl) fun inside => ?_
  exact .bind (closedList_notices isInteger (nested.expr 0) (by decide) inside)
    fun items rest => .pure _ rest

theorem pair_notices (reading : Reading) : (pair inner).Notices literal reading := by
  refine .current (fun _ _ => rfl) ?_
  refine .bind (nested.expr 0 reading) fun key colon => ?_
  refine .bind (.expect isInteger (by decide) colon) fun _ after => ?_
  exact .bind (nested.expr 0 after) fun value rest => .pure _ rest

theorem hash_notices (reading : Reading) : (hash inner).Notices literal reading := by
  refine .take (fun _ _ => rfl) fun inside => ?_
  exact .bind (closedList_notices isInteger (pair_notices isInteger nested) (by decide) inside)
    fun pairs rest => .pure _ rest

theorem conditional_notices (reading : Reading) :
    (conditional inner).Notices literal reading := by
  refine .take (fun _ _ => rfl) fun condition => ?_
  refine .bind (nested.expr 0 condition) fun _ consequence => ?_
  refine .bind (block_notices isInteger nested consequence) fun _ after => ?_
  refine .bind (.accept .kwElse after) fun otherwise rest => ?_
  cases otherwise with
  | false => exact .pure _ rest
  | true => exact .bind (alternative_notices isInteger nested rest) fun _ last => .pure _ last

theorem function_notices (reading : Reading) : (function inner).Notices literal reading := by
  refine .take (fun _ _ => rfl) fun opening => ?_
  refine .bind (.expect isInteger (by decide) opening) fun _ parameters => ?_
  refine .bind (closedList_notices isInteger (.expect isInteger (by decide)) (by decide)
    parameters) fun _ body => ?_
  exact .bind (block_notices isInteger nested body) fun _ rest => .pure _ rest

/-! ## Operators -/

theorem extend_notices (left : Expr) {reading : Reading}
    (binds : 0 < reading.current.kind.power) : (extend inner left).Notices literal reading := by
  have noInteger : reading.current.kind ≠ .integer := by
    intro integral
    rw [integral] at binds
    exact Nat.lt_irrefl 0 binds
  refine .current (fun _ _ => rfl) ?_
  split
  · exact .take (fun _ _ => rfl) fun arguments =>
      .bind (closedList_notices isInteger (nested.expr 0) (by decide) arguments)
        fun _ rest => .pure _ rest
  · exact .take (fun _ _ => rfl) fun place =>
      .bind (nested.expr 0 place) fun _ closing =>
        .bind (.expect isInteger (by decide) closing) fun _ rest => .pure _ rest
  · exact .bind (.advance isInteger noInteger) fun operator right =>
      .bind (nested.expr _ right) fun _ rest => .pure _ rest

theorem operators_notices (power budget : Nat) (left : Expr) (reading : Reading) :
    (operators inner power budget left).Notices literal reading := by
  induction budget generalizing left reading with
  | zero => exact .pure left reading
  | succ budget ih =>
      refine .current (fun _ _ => rfl) ?_
      split
      next binds =>
        have extended := extend_notices isInteger nested left (Nat.zero_lt_of_lt binds)
        exact .bind extended fun further rest => ih further rest
      next => exact .pure left reading

/-! ## Statements -/

theorem binding_notices (reading : Reading) : (binding inner).Notices literal reading := by
  refine .take (fun _ _ => rfl) fun name => ?_
  refine .bind (.expect isInteger (by decide) name) fun _ assign => ?_
  refine .bind (.expect isInteger (by decide) assign) fun _ value => ?_
  refine .bind (nested.expr 0 value) fun _ semicolon => ?_
  exact .bind (.expect isInteger (by decide) semicolon) fun _ rest => .pure _ rest

theorem returning_notices (reading : Reading) : (returning inner).Notices literal reading := by
  refine .take (fun _ _ => rfl) fun value => ?_
  refine .bind (.accept .semicolon value) fun finished after => ?_
  cases finished with
  | true => exact .pure _ after
  | false =>
      refine .bind (nested.expr 0 after) fun _ semicolon => ?_
      exact .bind (.expect isInteger (by decide) semicolon) fun _ rest => .pure _ rest

omit nested in
theorem endExprStmt_notices (value : Expr) (reading : Reading) :
    (endExprStmt value).Notices literal reading := by
  refine .current (fun _ _ => rfl) ?_
  split
  · exact .bind (.accept .semicolon reading) fun _ rest => .pure _ rest
  split
  · exact .pure _ reading
  · exact .bind (.expect isInteger (by decide) reading) fun _ rest => .pure _ rest

theorem statement_notices (reading : Reading) : (statement inner).Notices literal reading := by
  refine .current (fun _ _ => rfl) ?_
  split
  · exact binding_notices isInteger nested reading
  · exact returning_notices isInteger nested reading
  · exact .bind (block_notices isInteger nested reading) fun _ semicolon =>
      .bind (.accept .semicolon semicolon) fun _ rest => .pure _ rest
  · exact .current (fun _ _ => rfl) (.bind (nested.expr 0 reading) fun value semicolon =>
      .bind (endExprStmt_notices isInteger value semicolon) fun _ rest => .pure _ rest)

end Readers

/-! ## Integers -/

/-- Where the integer is asked for, it is met. -/
theorem integer_struck (unbounded : ¬ literal.IsBounded) {reading : Reading}
    (met : reading.current = literal) : Struck literal (integer reading) := by
  rw [integer_apply, met]
  cases valued : Text.readInteger literal.text with
  | error unread => trivial
  | ok value =>
      have tooLarge : Integer.largest < value := by
        by_contra inRange
        exact unbounded fun _ => ⟨value, valued, Int.not_lt.mp inRange⟩
      dsimp only
      rw [if_pos tooLarge]
      exact ⟨fun _ => ⟨value, valued⟩, List.mem_append_right _ (List.mem_singleton.mpr rfl)⟩

theorem integer_notices (unbounded : ¬ literal.IsBounded) (reading : Reading) :
    integer.Notices literal reading := by
  have advanced := reading.advance_diagnostics
  refine ⟨fun readable reported => ?_, fun reading' retells => ?_⟩
  · rw [integer_apply]
    split
    · trivial
    · split
      · exact ⟨readable, List.mem_append_left _ (advanced ▸ reported)⟩
      · exact ⟨readable, advanced ▸ reported⟩
  · by_cases met : reading.current = literal
    · exact .inl (integer_struck unbounded met)
    · rw [integer_apply, integer_apply, retells.current.eq_of_ne met]
      split
      · exact .inl trivial
      · split
        · exact .inr (.fault retells.advance)
        · exact .inr (.ok _ retells.advance)

theorem operand_integer (inner : Phrases) {reading : Reading}
    (isInteger : reading.current.kind = .integer) : operand inner reading = integer reading := by
  unfold operand
  simp only [bind_apply, Read.current, isInteger]

section Readers

variable (unbounded : ¬ literal.IsBounded) (nested : inner.Notices literal)
include unbounded nested

theorem operand_notices (reading : Reading) : (operand inner).Notices literal reading := by
  have isInteger := Token.isInteger_of_unbounded unbounded
  by_cases integral : reading.current.kind = .integer
  · exact .of_eq (fun _ same => operand_integer inner (same.trans integral))
      (integer_notices unbounded reading)
  have leaf : leaf.Notices literal reading :=
    .bind (.advance isInteger integral) fun _ rest => .pure _ rest
  have unary : (unary inner).Notices literal reading :=
    .bind (.advance isInteger integral) fun operator operand =>
      .bind (nested.expr unaryPower operand) fun _ rest => .pure _ rest
  refine .ahead isInteger integral ?_
  split
  next => exact leaf
  next => exact leaf
  next => exact leaf
  next => exact leaf
  next => exact leaf
  next literal => exact absurd literal integral
  next => exact unary
  next => exact unary
  next => exact grouped_notices isInteger nested reading
  next => exact array_notices isInteger nested reading
  next => exact hash_notices isInteger nested reading
  next => exact .bind (block_notices isInteger nested reading) fun _ rest => .pure _ rest
  next => exact conditional_notices isInteger nested reading
  next => exact function_notices isInteger nested reading
  next => exact .fail _ _ reading

theorem expr_notices (power : Nat) (reading : Reading) :
    (expr inner power).Notices literal reading := by
  have isInteger := Token.isInteger_of_unbounded unbounded
  refine .bind (operand_notices unbounded nested reading) fun left rest => ?_
  exact .remaining fun budget => operators_notices isInteger nested power budget left rest

end Readers

end Read

/-- Wherever a phrase is read, a literal that is not in range is met and reported, or it ends the
reading, or its text does not matter to what is read. -/
theorem phrases_notices {literal : Token} (unbounded : ¬ literal.IsBounded) (limit : Nat) :
    (phrases limit).Notices literal := by
  have isInteger := Token.isInteger_of_unbounded unbounded
  induction limit with
  | zero => exact ⟨fun _ => .tooDeep, .tooDeep, .tooDeep⟩
  | succ limit ih =>
      exact ⟨Read.expr_notices unbounded ih, Read.statement_notices isInteger ih,
        Read.conditional_notices isInteger ih⟩

end Monkey
