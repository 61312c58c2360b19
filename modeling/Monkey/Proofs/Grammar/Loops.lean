import Monkey.Proofs.Grammar.Leaves
import Monkey.Proofs.Text.Numeral

/-!
# The loops of the readers

A loop goes on as long as the next token is of certain kinds. A run of it is told here without a
bound on its rounds: it may never end. The loops of the readers all end, since every round that goes
on leaves fewer tokens, and the bounds that the readers set themselves are never met.
-/

set_option autoImplicit false

namespace Monkey

/-- The loop makes rounds while the next token is of a kind to go on at, and then finishes. -/
structure Loop (σ α : Type) where
  goesOn : TokenKind → Prop
  round : σ → Read σ
  finish : σ → α

namespace Loop

variable {σ α : Type}

section Runs

variable (loop : Loop σ α)

/-- A run of the loop that begins with one state at one place starts a round with another state at
another place. -/
inductive Starts : σ → Reading → σ → Reading → Prop
  | first {state : σ} {reading : Reading} (goes : loop.goesOn reading.current.kind) :
      Starts state reading state reading
  | later {state next last : σ} {reading rest place : Reading}
      (goes : loop.goesOn reading.current.kind) (ran : loop.round state reading = .ok next rest)
      (starts : Starts next rest last place) : Starts state reading last place

/-- A run of the loop ends with the result, after some number of rounds. -/
inductive Ends : σ → Reading → EStateM.Result ReadFailure Reading α → Prop
  | halts {state : σ} {reading : Reading} (halted : ¬ loop.goesOn reading.current.kind) :
      Ends state reading (.ok (loop.finish state) reading)
  | fails {state : σ} {reading rest : Reading} {failure : ReadFailure}
      (goes : loop.goesOn reading.current.kind)
      (ran : loop.round state reading = .error failure rest) :
      Ends state reading (.error failure rest)
  | goes {state next : σ} {reading rest : Reading} {result : EStateM.Result ReadFailure Reading α}
      (goes : loop.goesOn reading.current.kind) (ran : loop.round state reading = .ok next rest)
      (ends : Ends next rest result) : Ends state reading result

/-- The reader makes the rounds of the loop, as many as it is given. -/
structure Unrolls (read : Nat → σ → Read α) : Prop where
  halts : ∀ rounds state reading, ¬ loop.goesOn reading.current.kind →
    read rounds state reading = .ok (loop.finish state) reading
  goes : ∀ rounds state reading, loop.goesOn reading.current.kind →
    read (rounds + 1) state reading = (loop.round state >>= read rounds) reading

/-- A round at such a depth that goes on takes a token and is at such a depth again. -/
def Progresses (inside : Nat → Prop) : Prop :=
  ∀ state next reading rest, inside reading.depth → loop.goesOn reading.current.kind →
    loop.round state reading = .ok next rest →
    rest.tokens.length < reading.tokens.length ∧ inside rest.depth

/-- There are more rounds than tokens, or at least as many if no round starts at the end of them. -/
def Suffices (rounds : Nat) (reading : Reading) : Prop :=
  reading.tokens.length < rounds ∨
    reading.tokens.length = rounds ∧ ¬ loop.goesOn .endOfInput

end Runs

variable {loop : Loop σ α} {read : Nat → σ → Read α} {inside : Nat → Prop}

/-- A loop that makes progress ends, and the reader that makes its rounds gives what it ends with
if the rounds suffice. -/
theorem Progresses.ends (progresses : loop.Progresses inside) (unrolls : loop.Unrolls read)
    {rounds : Nat} {state : σ} {reading : Reading} (within : inside reading.depth)
    (enough : loop.Suffices rounds reading) :
    loop.Ends state reading (read rounds state reading) := by
  induction rounds generalizing state reading with
  | zero =>
      obtain ⟨noTokens, notAtEnd⟩ := enough.resolve_left (Nat.not_lt_zero _)
      have atEnd : reading.current.kind = .endOfInput := by
        rw [Reading.current, List.eq_nil_of_length_eq_zero noTokens]
        rfl
      have halted : ¬ loop.goesOn reading.current.kind := by rwa [atEnd]
      rw [unrolls.halts _ _ _ halted]
      exact .halts halted
  | succ rounds ih =>
      by_cases goes : loop.goesOn reading.current.kind
      · rw [unrolls.goes _ _ _ goes, Read.bind_apply]
        cases ran : loop.round state reading with
        | error failure rest => exact .fails goes ran
        | ok next rest =>
            obtain ⟨shorter, stillWithin⟩ := progresses _ _ _ _ within goes ran
            have stillEnough : loop.Suffices rounds rest := by
              rcases enough with more | ⟨same, notAtEnd⟩
              · exact .inl (by omega)
              · exact (Nat.lt_or_eq_of_le (by omega)).imp id fun isLast => ⟨isLast, notAtEnd⟩
            exact .goes goes ran (ih stillWithin stillEnough)
      · rw [unrolls.halts _ _ _ goes]
        exact .halts goes

theorem Ends.unique {state : σ} {reading : Reading}
    {result result' : EStateM.Result ReadFailure Reading α} (ends : loop.Ends state reading result)
    (ends' : loop.Ends state reading result') : result = result' := by
  induction ends with
  | halts halted =>
      cases ends' with
      | halts => rfl
      | fails goes => exact absurd goes halted
      | goes goes => exact absurd goes halted
  | fails goes ran =>
      cases ends' with
      | halts halted => exact absurd goes halted
      | fails _ ran' =>
          rw [ran] at ran'
          cases ran'
          rfl
      | goes _ ran' =>
          rw [ran] at ran'
          cases ran'
  | goes goes ran _ ih =>
      cases ends' with
      | halts halted => exact absurd goes halted
      | fails _ ran' =>
          rw [ran] at ran'
          cases ran'
      | goes _ ran' ends' =>
          rw [ran] at ran'
          cases ran'
          exact ih ends'

/-- What every round keeps holds wherever a run starts a round, and the loop goes on there. -/
theorem Starts.keeps (holds : Reading → Prop)
    (round : ∀ state next reading rest, holds reading → loop.goesOn reading.current.kind →
      loop.round state reading = .ok next rest → holds rest)
    {state last : σ} {reading place : Reading} (starts : loop.Starts state reading last place)
    (held : holds reading) : holds place ∧ loop.goesOn place.current.kind := by
  induction starts with
  | first goes => exact ⟨held, goes⟩
  | later goes ran _ ih => exact ih (round _ _ _ _ held goes ran)

end Loop

/-! ## Progress -/

namespace Reading

variable {reading rest : Reading}

/-- Reading has taken tokens, and not the end of the input. -/
def Advances (reading rest : Reading) : Prop :=
  ∃ used, used ≠ [] ∧ reading.tokens = used ++ rest.tokens ∧
    ∀ token ∈ used, token.kind ≠ .endOfInput

theorem Advances.length_lt (advances : reading.Advances rest) :
    rest.tokens.length < reading.tokens.length := by
  obtain ⟨used, moved, split, -⟩ := advances
  have taken := List.length_pos_iff.mpr moved
  rw [split, List.length_append]
  omega

theorem Advances.of_length_lt {used : List Token} (split : reading.tokens = used ++ rest.tokens)
    (notEnd : ∀ token ∈ used, token.kind ≠ .endOfInput)
    (shorter : rest.tokens.length < reading.tokens.length) : reading.Advances rest := by
  refine ⟨used, ?_, split, notEnd⟩
  intro empty
  rw [split, empty] at shorter
  exact Nat.lt_irrefl _ shorter

theorem Takes.advances {extent : Extent} {used : List Token} {found : List Diagnostic}
    {first last : Nat} (takes : reading.Takes extent used found first last rest)
    (shorter : rest.tokens.length < reading.tokens.length) : reading.Advances rest :=
  .of_length_lt takes.tokens (levelAfter?_notEnd takes.level) shorter

theorem Spanned.advances {extent : Extent} {first last : Nat}
    (spanned : reading.Spanned extent true first last rest) : reading.Advances rest := by
  obtain ⟨used, found, takes, -⟩ := id spanned
  exact takes.advances spanned.length_lt

end Reading

namespace Read

variable {α : Type} {inner : Phrases}

/-! ## Items and operators -/

/-- The loop over the items that follow commas. -/
def itemLoop (item : Read α) : Loop (List α) (List α) where
  goesOn kind := kind = .comma
  round done := do
    let _ ← advance
    let next ← item
    pure (next :: done)
  finish := List.reverse

theorem itemLoop_unrolls (item : Read α) : (itemLoop item).Unrolls (moreItems item) := by
  constructor
  · intro rounds done reading halted
    cases rounds with
    | zero => rfl
    | succ rounds =>
        have noComma : ¬ reading.current.kind = .comma := halted
        rw [moreItems, bind_apply, accept_apply, if_neg noComma]
        rfl
  · intro rounds done reading goes
    have comma : reading.current.kind = .comma := goes
    rw [moreItems, bind_apply, accept_apply, if_pos comma]
    show (item >>= fun next => moreItems item rounds (next :: done)) reading.advance =
      ((item >>= fun next => Pure.pure (next :: done)) >>= moreItems item rounds) reading.advance
    rw [bind_assoc]
    rfl

theorem itemLoop_progresses {item : Read α} {level : Nat}
    (items : ∀ reading, item.Spans .phrase false level level reading) :
    (itemLoop item).Progresses fun _ => True := by
  intro done list reading rest _ goes ran
  have comma : reading.current.kind = .comma := goes
  have neutral : reading.current.kind.levelAfter? .phrase level = some level := by
    rw [comma]
    rfl
  have spans : ((itemLoop item).round done).Spans .phrase true level level reading :=
    .bind (.advance neutral) fun _ first _ => .bind (items first) fun _ after _ => .pure _ after
  exact ⟨(spans.ok ran).length_lt, trivial⟩

/-- The loop over the operators after an expression that bind tighter than a power. -/
def operatorLoop (inner : Phrases) (power : Nat) : Loop Expr Expr where
  goesOn kind := power < kind.power
  round := extend inner
  finish := id

theorem operatorLoop_unrolls (inner : Phrases) (power : Nat) :
    (operatorLoop inner power).Unrolls (operators inner power) := by
  constructor
  · intro rounds left reading halted
    cases rounds with
    | zero => rfl
    | succ rounds =>
        have looser : ¬ power < reading.current.kind.power := halted
        rw [operators, bind_apply]
        simp only [Read.current]
        rw [ite_apply, if_neg looser]
        rfl
  · intro rounds left reading goes
    have binds : power < reading.current.kind.power := goes
    rw [operators, bind_apply]
    simp only [Read.current]
    rw [ite_apply, if_pos binds]
    rfl

theorem operatorLoop_progresses (nested : inner.Span) (power : Nat) :
    (operatorLoop inner power).Progresses fun _ => True := by
  intro left next reading rest _ goes ran
  have binds : 0 < reading.current.kind.power := Nat.zero_lt_of_lt goes
  have spans : (extend inner left).Spans .phrase true 0 0 reading := extend_spans nested left binds
  exact ⟨(spans.ok ran).length_lt, trivial⟩

/-! ## Blocks -/

/-- One round of the loop over the statements of a block: the next statement, or the recovery from
a fault in it. -/
def blockRound (statement : Read Stmt) (blockDepth : Nat) (done : List Stmt) : Read (List Stmt) :=
  fun reading =>
    if reading.current.kind = .endOfInput then failExpecting (.token .rightBrace) reading
    else afterStatement pure blockDepth done (statement reading)

/-- The loop over the statements of a block at a depth. -/
def blockLoop (statement : Read Stmt) (blockDepth : Nat) : Loop (List Stmt) (List Stmt) where
  goesOn kind := kind ≠ .rightBrace
  round := blockRound statement blockDepth
  finish := List.reverse

theorem blockLoop_unrolls (statement : Read Stmt) (blockDepth : Nat) :
    (blockLoop statement blockDepth).Unrolls (blockStatements statement blockDepth) := by
  constructor
  · intro rounds done reading halted
    cases rounds with
    | zero => rfl
    | succ rounds => exact blockStatements_closing _ _ _ _ (Decidable.not_not.mp halted)
  · intro rounds done reading goes
    show _ = (blockRound statement blockDepth done >>= blockStatements statement blockDepth rounds)
      reading
    rw [bind_apply, blockRound]
    by_cases ended : reading.current.kind = .endOfInput
    · rw [blockStatements_ended _ _ _ _ ended, if_pos ended]
      rfl
    · rw [blockStatements_succ _ _ _ _ goes ended, if_neg ended]
      cases statement reading with
      | ok stmt rest => rfl
      | error failure rest =>
          cases failure with
          | tooDeep => rfl
          | numeral unread => rfl
          | fault fault position =>
              unfold afterStatement
              dsimp only
              split <;> rfl

theorem afterStatement_pure_cases {blockDepth : Nat} {done list : List Stmt} {rest : Reading}
    {result : EStateM.Result ReadFailure Reading Stmt}
    (ended : afterStatement pure blockDepth done result = .ok list rest) :
    (∃ stmt, result = .ok stmt rest) ∨
      ∃ fault position broken, result = .error (.fault fault position) broken ∧
        (broken.resumed blockDepth).current.kind ≠ .endOfInput ∧
        rest = (broken.resumed blockDepth).record ⟨.syntactic fault, position⟩ := by
  cases result with
  | ok stmt after =>
      cases ended
      exact .inl ⟨stmt, rfl⟩
  | error failure broken =>
      cases failure with
      | tooDeep => cases ended
      | numeral unread => cases ended
      | fault fault position =>
          unfold afterStatement at ended
          dsimp only at ended
          split at ended
          · cases ended
          · next further =>
            cases ended
            exact .inr ⟨fault, position, broken, rfl, further, rfl⟩

/-- What may come of a round of a block: tokens have been taken, or the block is left at the end of
the input or at the limit of nesting. -/
def Proceeds {σ : Type} (reading : Reading) : EStateM.Result ReadFailure Reading σ → Prop
  | .ok _ rest => reading.Advances rest
  | .error failure rest => rest.current.kind = .endOfInput ∨ failure = .tooDeep

/-- A round of a block that goes on has taken tokens and is at the level of the block again. -/
theorem blockRound_ok (nested : inner.Span) {blockDepth : Nat} {done list : List Stmt}
    {reading rest : Reading} (depth : reading.depth = blockDepth)
    (notClosing : reading.current.kind ≠ .rightBrace)
    (ran : blockRound inner.statement blockDepth done reading = .ok list rest) :
    reading.Advances rest ∧ rest.depth = blockDepth := by
  unfold blockRound at ran
  split at ran
  · cases ran
  · rcases afterStatement_pure_cases ran with ⟨stmt, read⟩ |
      ⟨fault, position, broken, failed, further, rfl⟩
    · have spanned := (nested.statement true reading).ok read
      exact ⟨spanned.advances, spanned.depth_eq.trans depth⟩
    · have recovers := ((nested.statement true reading).error failed).recovers depth notClosing
        further
      rcases recovers with spanned | ⟨shorter, -, _, _, takes, -⟩
      · exact ⟨spanned.advances, spanned.depth_eq.trans depth⟩
      · exact ⟨takes.advances shorter, takes.depth blockDepth (by simpa using depth)⟩

/-- A round of a block that fails does so at the end of the input, or at the limit of nesting. -/
theorem blockRound_error (nested : inner.Span) {blockDepth : Nat} {done : List Stmt}
    {reading rest : Reading} {failure : ReadFailure}
    (readable : ∀ token ∈ reading.tokens, token.IsReadable)
    (ran : blockRound inner.statement blockDepth done reading = .error failure rest) :
    rest.current.kind = .endOfInput ∨ failure = .tooDeep := by
  unfold blockRound at ran
  split at ran
  · next ended =>
    cases ran
    exact .inl ended
  · cases result : inner.statement reading with
    | ok stmt after =>
        rw [result] at ran
        cases ran
    | error broken after =>
        rw [result] at ran
        cases broken with
        | tooDeep =>
            cases ran
            exact .inr rfl
        | fault fault position =>
            unfold afterStatement at ran
            dsimp only at ran
            split at ran
            · next ended =>
              cases ran
              exact .inl ended
            · cases ran
        | numeral unread =>
            obtain ⟨used, _, _, takes, ⟨token, member, isInteger, unreadable⟩, -⟩ :=
              (nested.statement true reading).error result
            have inTokens : token ∈ reading.tokens := takes.tokens ▸ List.mem_append_left _ member
            obtain ⟨value, read⟩ := readable token inTokens isInteger
            rw [read] at unreadable
            cases unreadable

theorem blockLoop_progresses (nested : inner.Span) (blockDepth : Nat) :
    (blockLoop inner.statement blockDepth).Progresses (· = blockDepth) := by
  intro done list reading rest depth goes ran
  obtain ⟨advances, stillDepth⟩ := blockRound_ok nested depth goes ran
  exact ⟨advances.length_lt, stillDepth⟩

end Read

/-! ## All loops end -/

/-- From a place on, the loops that readers of the phrases make end, with what the readers give. -/
structure Phrases.LoopsEnd (inner : Phrases) (reading : Reading) : Prop where
  statements : (Read.blockLoop inner.statement reading.depth).Ends [] reading
    (Read.blockStatements inner.statement reading.depth (reading.tokens.length + 1) [] reading)
  expressions : ∀ first, (Read.itemLoop (inner.expr 0)).Ends [first] reading
    (Read.moreItems (inner.expr 0) reading.tokens.length [first] reading)
  pairs : ∀ first, (Read.itemLoop (Read.pair inner)).Ends [first] reading
    (Read.moreItems (Read.pair inner) reading.tokens.length [first] reading)
  names : ∀ first, (Read.itemLoop (Read.expect .identifier)).Ends [first] reading
    (Read.moreItems (Read.expect .identifier) reading.tokens.length [first] reading)
  operators : ∀ power left, (Read.operatorLoop inner power).Ends left reading
    (Read.operators inner power reading.tokens.length left reading)

theorem Read.itemLoop_ends {α : Type} {item : Read α}
    (items : ∀ reading, item.Spans .phrase false 0 0 reading) (first : α) (reading : Reading) :
    (itemLoop item).Ends [first] reading
      (moreItems item reading.tokens.length [first] reading) := by
  have notAtEnd : ¬ (itemLoop item).goesOn .endOfInput := by
    show ¬ TokenKind.endOfInput = .comma
    decide
  exact (itemLoop_progresses items).ends (itemLoop_unrolls item) trivial (.inr ⟨rfl, notAtEnd⟩)

theorem phrases_loopsEnd (limit : Nat) (reading : Reading) :
    (phrases limit).LoopsEnd reading := by
  have nested := phrases_span limit
  constructor
  case statements =>
    exact (Read.blockLoop_progresses nested reading.depth).ends (Read.blockLoop_unrolls _ _) rfl
      (.inl (Nat.lt_succ_self _))
  case expressions => exact fun first => Read.itemLoop_ends (nested.expr false 0) first reading
  case pairs => exact fun first => Read.itemLoop_ends (Read.pair_spans nested) first reading
  case names => exact fun first => Read.itemLoop_ends (fun _ => .expect rfl) first reading
  case operators =>
    intro power left
    have notAtEnd : ¬ (Read.operatorLoop (phrases limit) power).goesOn .endOfInput :=
      Nat.not_lt_zero power
    exact (Read.operatorLoop_progresses nested power).ends (Read.operatorLoop_unrolls _ _) trivial
      (.inr ⟨rfl, notAtEnd⟩)

end Monkey
