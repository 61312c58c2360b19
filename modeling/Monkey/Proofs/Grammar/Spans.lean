import Monkey.Program

/-!
# What a reader takes

A reader takes tokens from the front of what is left, and how it stands to the braces among them is
the same for all phrases: no phrase closes a brace that it has not opened, and no part of a
statement goes past a semicolon outside its own braces. The diagnostics it records blame tokens it
has taken, in their order.
-/

set_option autoImplicit false

namespace Monkey

/-! ## Levels of nesting -/

/-- What a stretch of tokens may hold. -/
inductive Extent
  /-- Part of one statement: no semicolon stands outside braces. -/
  | phrase
  /-- Any number of statements. -/
  | statements
  deriving DecidableEq

/-- How many braces are open after a token, if so many were open before it and all in the same
stretch. There is no level after a brace that closes one opened before the stretch, after the end of
the input and, in a phrase, after a semicolon outside braces. -/
def TokenKind.levelAfter? (extent : Extent) : TokenKind → Nat → Option Nat
  | leftBrace, level | hashBrace, level => some (level + 1)
  | rightBrace, level => if level = 0 then none else some (level - 1)
  | semicolon, level => if extent = .phrase ∧ level = 0 then none else some level
  | endOfInput, _ => none
  | _, level => some level

def levelAfter? (extent : Extent) : List Token → Nat → Option Nat
  | [], level => some level
  | token :: rest, level => (token.kind.levelAfter? extent level).bind (levelAfter? extent rest)

@[simp] theorem levelAfter?_nil (extent : Extent) (level : Nat) :
    levelAfter? extent [] level = some level := rfl

@[simp] theorem levelAfter?_cons (extent : Extent) (token : Token) (rest : List Token)
    (level : Nat) :
    levelAfter? extent (token :: rest) level =
      (token.kind.levelAfter? extent level).bind (levelAfter? extent rest) := rfl

theorem levelAfter?_append (extent : Extent) (leading trailing : List Token) (level : Nat) :
    levelAfter? extent (leading ++ trailing) level =
      (levelAfter? extent leading level).bind (levelAfter? extent trailing) := by
  induction leading generalizing level with
  | nil => rfl
  | cons token rest ih =>
      cases step : token.kind.levelAfter? extent level with
      | none => simp [step]
      | some next => simp [step, ih]

theorem TokenKind.levelAfter?_statements {extent : Extent} {kind : TokenKind} {level next : Nat}
    (step : kind.levelAfter? extent level = some next) :
    kind.levelAfter? .statements level = some next := by
  cases kind <;> simp_all [TokenKind.levelAfter?]

/-- One brace further in, a semicolon no longer stands outside braces. -/
theorem TokenKind.levelAfter?_raise {extent : Extent} {kind : TokenKind} {level next : Nat}
    (step : kind.levelAfter? extent level = some next) :
    kind.levelAfter? .phrase (level + 1) = some (next + 1) := by
  cases kind <;> simp_all [TokenKind.levelAfter?]
  omega

theorem TokenKind.depthAfter_of_levelAfter? {extent : Extent} {kind : TokenKind} {level next : Nat}
    (step : kind.levelAfter? extent level = some next) (base : Nat) :
    kind.depthAfter (base + level) = base + next := by
  cases kind <;> simp_all [TokenKind.levelAfter?, TokenKind.depthAfter] <;> omega

theorem levelAfter?_statements {extent : Extent} {tokens : List Token} {level next : Nat}
    (levels : levelAfter? extent tokens level = some next) :
    levelAfter? .statements tokens level = some next := by
  induction tokens generalizing level with
  | nil => exact levels
  | cons token rest ih =>
      obtain ⟨middle, step, remaining⟩ := Option.bind_eq_some_iff.mp levels
      exact Option.bind_eq_some_iff.mpr
        ⟨middle, TokenKind.levelAfter?_statements step, ih remaining⟩

theorem levelAfter?_raise {extent : Extent} {tokens : List Token} {level next : Nat}
    (levels : levelAfter? extent tokens level = some next) :
    levelAfter? .phrase tokens (level + 1) = some (next + 1) := by
  induction tokens generalizing level with
  | nil => simpa using levels
  | cons token rest ih =>
      obtain ⟨middle, step, remaining⟩ := Option.bind_eq_some_iff.mp levels
      exact Option.bind_eq_some_iff.mpr ⟨middle + 1, TokenKind.levelAfter?_raise step, ih remaining⟩

/-! ## From one reading to another -/

/-- The positions a failure is to be blamed on, if the fault is recorded. -/
def ReadFailure.blamed : ReadFailure → List Position
  | fault _ position => [position]
  | tooDeep | numeral _ => []

/-- Where a failure other than a fault of the grammar comes from. -/
def ReadFailure.ArisesFrom (used : List Token) : ReadFailure → Prop
  | numeral unread =>
      ∃ token ∈ used, token.kind = .integer ∧ Text.readInteger token.text = .error unread
  | fault .. | tooDeep => True

theorem ReadFailure.ArisesFrom.append_left {failure : ReadFailure} {used : List Token}
    (arises : failure.ArisesFrom used) (leading : List Token) :
    failure.ArisesFrom (leading ++ used) := by
  cases failure with
  | fault => trivial
  | tooDeep => trivial
  | numeral unread =>
      obtain ⟨token, member, isInteger, result⟩ := arises
      exact ⟨token, List.mem_append_right leading member, isInteger, result⟩

def positions (tokens : List Token) : List Position := tokens.map Token.position

def blames (found : List Diagnostic) : List Position := found.map Diagnostic.position

@[simp] theorem positions_append (leading trailing : List Token) :
    positions (leading ++ trailing) = positions leading ++ positions trailing :=
  List.map_append

@[simp] theorem positions_cons (token : Token) (rest : List Token) :
    positions (token :: rest) = token.position :: positions rest := rfl

@[simp] theorem positions_nil : positions [] = [] := rfl

@[simp] theorem blames_append (leading trailing : List Diagnostic) :
    blames (leading ++ trailing) = blames leading ++ blames trailing :=
  List.map_append

@[simp] theorem blames_cons (diagnostic : Diagnostic) (rest : List Diagnostic) :
    blames (diagnostic :: rest) = diagnostic.position :: blames rest := rfl

@[simp] theorem blames_nil : blames [] = [] := rfl

namespace Reading

/-- Reading has taken tokens and recorded diagnostics, and got from one level to another. -/
structure Takes (extent : Extent) (used : List Token) (found : List Diagnostic) (first last : Nat)
    (reading rest : Reading) : Prop where
  tokens : reading.tokens = used ++ rest.tokens
  diagnostics : rest.diagnostics = reading.diagnostics ++ found
  level : levelAfter? extent used first = some last
  depth : ∀ base, reading.depth = base + first → rest.depth = base + last

theorem Takes.refl (extent : Extent) (level : Nat) (reading : Reading) :
    reading.Takes extent [] [] level level reading :=
  ⟨rfl, by simp, rfl, fun _ depth => depth⟩

theorem Takes.trans {extent : Extent} {used usedAfter : List Token}
    {found foundAfter : List Diagnostic} {first middle last : Nat} {reading between rest : Reading}
    (before : reading.Takes extent used found first middle between)
    (after : between.Takes extent usedAfter foundAfter middle last rest) :
    reading.Takes extent (used ++ usedAfter) (found ++ foundAfter) first last rest where
  tokens := by rw [before.tokens, after.tokens, List.append_assoc]
  diagnostics := by rw [after.diagnostics, before.diagnostics, List.append_assoc]
  level := by rw [levelAfter?_append, before.level, Option.bind_some, after.level]
  depth base depth := after.depth base (before.depth base depth)

theorem Takes.statements {extent : Extent} {used : List Token} {found : List Diagnostic}
    {first last : Nat} {reading rest : Reading}
    (takes : reading.Takes extent used found first last rest) :
    reading.Takes .statements used found first last rest :=
  { takes with level := levelAfter?_statements takes.level }

theorem Takes.raise {extent : Extent} {used : List Token} {found : List Diagnostic}
    {first last : Nat} {reading rest : Reading}
    (takes : reading.Takes extent used found first last rest) :
    reading.Takes .phrase used found (first + 1) (last + 1) rest :=
  { takes with
    level := levelAfter?_raise takes.level
    depth := fun base depth => by
      have raised := takes.depth (base + 1) (by omega)
      omega }

theorem takes_advance {extent : Extent} {first last : Nat} {reading : Reading}
    (step : reading.current.kind.levelAfter? extent first = some last) :
    reading.Takes extent [reading.current] [] first last reading.advance := by
  obtain ⟨tokens, depth, diagnostics⟩ := reading
  cases tokens with
  | nil => simp [Reading.current, Token.endOfInput, TokenKind.levelAfter?] at step
  | cons token rest =>
      refine ⟨rfl, by simp [Reading.advance], by rw [levelAfter?_cons, step]; rfl, ?_⟩
      rintro base rfl
      exact TokenKind.depthAfter_of_levelAfter? step base

/-- A phrase has been read, and a token taken if it `moves`: what was found wrong in the phrase is
blamed on its tokens. -/
def Spanned (extent : Extent) (moves : Bool) (first last : Nat) (reading rest : Reading) : Prop :=
  ∃ used found, reading.Takes extent used found first last rest ∧
    (blames found).Sublist (positions used) ∧ (moves = true → used ≠ [])

/-- A phrase could not be read: the failure is blamed on a token after those blamed so far, at the
latest on the next one. -/
def Broken (extent : Extent) (first : Nat) (failure : ReadFailure)
    (reading rest : Reading) : Prop :=
  ∃ used found level, reading.Takes extent used found first level rest ∧
    failure.ArisesFrom used ∧
    (blames found ++ failure.blamed).Sublist (positions (used ++ [rest.current]))

theorem Spanned.refl (extent : Extent) (level : Nat) (reading : Reading) :
    reading.Spanned extent false level level reading :=
  ⟨[], [], Takes.refl extent level reading, List.Sublist.refl _, nofun⟩

theorem Spanned.statements {extent : Extent} {moves : Bool} {first last : Nat}
    {reading rest : Reading} (spanned : reading.Spanned extent moves first last rest) :
    reading.Spanned .statements moves first last rest := by
  obtain ⟨used, found, takes, blamed, moved⟩ := spanned
  exact ⟨used, found, takes.statements, blamed, moved⟩

theorem Spanned.raise {extent : Extent} {moves : Bool} {first last : Nat} {reading rest : Reading}
    (spanned : reading.Spanned extent moves first last rest) :
    reading.Spanned .phrase moves (first + 1) (last + 1) rest := by
  obtain ⟨used, found, takes, blamed, moved⟩ := spanned
  exact ⟨used, found, takes.raise, blamed, moved⟩

theorem Spanned.trans {extent : Extent} {moves : Bool} {first middle last : Nat}
    {reading between rest : Reading}
    (before : reading.Spanned extent moves first middle between)
    (after : between.Spanned extent false middle last rest) :
    reading.Spanned extent moves first last rest := by
  obtain ⟨used, found, takes, blamed, moved⟩ := before
  obtain ⟨usedAfter, foundAfter, takesAfter, blamedAfter, -⟩ := after
  refine ⟨used ++ usedAfter, found ++ foundAfter, takes.trans takesAfter, ?_, ?_⟩
  · simpa using blamed.append blamedAfter
  · intro moving empty
    exact moved moving (List.append_eq_nil_iff.mp empty).1

theorem Spanned.broken {extent : Extent} {moves : Bool} {first middle : Nat}
    {failure : ReadFailure} {reading between rest : Reading}
    (before : reading.Spanned extent moves first middle between)
    (after : between.Broken extent middle failure rest) :
    reading.Broken extent first failure rest := by
  obtain ⟨used, found, takes, blamed, -⟩ := before
  obtain ⟨usedAfter, foundAfter, level, takesAfter, arises, blamedAfter⟩ := after
  refine ⟨used ++ usedAfter, found ++ foundAfter, level, takes.trans takesAfter,
    arises.append_left used, ?_⟩
  simpa using blamed.append blamedAfter

theorem Broken.statements {extent : Extent} {first : Nat} {failure : ReadFailure}
    {reading rest : Reading} (broken : reading.Broken extent first failure rest) :
    reading.Broken .statements first failure rest := by
  obtain ⟨used, found, level, takes, arises, blamed⟩ := broken
  exact ⟨used, found, level, takes.statements, arises, blamed⟩

theorem Broken.raise {extent : Extent} {first : Nat} {failure : ReadFailure}
    {reading rest : Reading} (broken : reading.Broken extent first failure rest) :
    reading.Broken .phrase (first + 1) failure rest := by
  obtain ⟨used, found, level, takes, arises, blamed⟩ := broken
  exact ⟨used, found, level + 1, takes.raise, arises, blamed⟩

theorem Spanned.length_lt {extent : Extent} {first last : Nat} {reading rest : Reading}
    (spanned : reading.Spanned extent true first last rest) :
    rest.tokens.length < reading.tokens.length := by
  obtain ⟨used, found, takes, -, moved⟩ := spanned
  have taken := List.length_pos_iff.mpr (moved rfl)
  rw [takes.tokens, List.length_append]
  omega

theorem Spanned.depth_eq {extent : Extent} {moves : Bool} {reading rest : Reading}
    (spanned : reading.Spanned extent moves 0 0 rest) : rest.depth = reading.depth := by
  obtain ⟨used, found, takes, -⟩ := spanned
  exact takes.depth reading.depth rfl

theorem spanned_advance {extent : Extent} {moves : Bool} {first last : Nat} {reading : Reading}
    (step : reading.current.kind.levelAfter? extent first = some last) :
    reading.Spanned extent moves first last reading.advance :=
  ⟨_, _, takes_advance step, List.nil_sublist _, fun _ => List.cons_ne_nil _ _⟩

theorem broken_here (extent : Extent) (level : Nat) (fault : SyntaxFault) (reading : Reading) :
    reading.Broken extent level (.fault fault reading.current.position) reading :=
  ⟨[], [], level, Takes.refl extent level reading, trivial, List.Sublist.refl _⟩

end Reading

/-! ## Readers of phrases -/

namespace Read

variable {α β : Type}

theorem bind_apply (read : Read α) (next : α → Read β) (reading : Reading) :
    (read >>= next) reading =
      match read reading with
      | .ok value rest => next value rest
      | .error failure rest => .error failure rest := by
  show EStateM.bind read next reading = _
  unfold EStateM.bind
  cases read reading <;> rfl

theorem accept_apply (kind : TokenKind) (reading : Reading) :
    accept kind reading =
      if reading.current.kind = kind then .ok true reading.advance else .ok false reading :=
  rfl

theorem expect_apply (kind : TokenKind) (reading : Reading) :
    expect kind reading =
      if reading.current.kind = kind then .ok reading.current reading.advance
      else .error (.fault (.expected (.token kind) reading.current) reading.current.position)
        reading :=
  rfl

theorem ite_apply (condition : Prop) [Decidable condition] (yes no : Read α)
    (reading : Reading) :
    (if condition then yes else no : Read α) reading =
      if condition then yes reading else no reading := by
  split <;> rfl

theorem integer_apply (reading : Reading) :
    integer reading =
      match Text.readInteger reading.current.text with
      | .error unread => .error (.numeral unread) reading.advance
      | .ok value =>
          if Integer.largest < value then
            .error (.fault (.integerOutOfRange reading.current.text) reading.current.position)
              reading.advance
          else .ok (.leaf reading.current) reading.advance := by
  unfold integer
  rw [bind_apply]
  simp only [Read.advance]
  cases Text.readInteger reading.current.text with
  | error unread => rfl
  | ok value => exact ite_apply _ _ _ _

/-- The reader reads a phrase that begins at one level and ends at another, or fails inside it. -/
def Spans (extent : Extent) (moves : Bool) (first last : Nat) (read : Read α) (reading : Reading) :
    Prop :=
  match read reading with
  | .ok _ rest => reading.Spanned extent moves first last rest
  | .error failure rest => reading.Broken .phrase first failure rest

section Rules

variable {extent : Extent} {moves : Bool} {first middle last level : Nat} {read : Read α}
  {reading rest : Reading}

theorem Spans.ok {value : α} (spans : read.Spans extent moves first last reading)
    (result : read reading = .ok value rest) : reading.Spanned extent moves first last rest := by
  simpa only [Spans, result] using spans

theorem Spans.error {failure : ReadFailure} (spans : read.Spans extent moves first last reading)
    (result : read reading = .error failure rest) : reading.Broken .phrase first failure rest := by
  simpa only [Spans, result] using spans

theorem Spans.raise (spans : read.Spans extent moves first last reading) :
    read.Spans .phrase moves (first + 1) (last + 1) reading := by
  unfold Spans
  cases result : read reading with
  | ok value rest => exact (spans.ok result).raise
  | error failure rest => exact (spans.error result).raise

theorem Spans.pure (value : α) (reading : Reading) :
    (Pure.pure value : Read α).Spans extent false level level reading :=
  Reading.Spanned.refl extent level reading

theorem Spans.bind {next : α → Read β} (head : read.Spans .phrase moves first middle reading)
    (tail : ∀ value rest, read reading = .ok value rest →
      (next value).Spans extent false middle last rest) :
    (read >>= next).Spans extent moves first last reading := by
  unfold Spans
  rw [bind_apply]
  cases result : read reading with
  | error failure rest => exact head.error result
  | ok value between =>
      have rest := tail value between result
      simp only
      cases continued : next value between with
      | ok final after =>
          cases extent with
          | phrase => exact (head.ok result).trans (rest.ok continued)
          | statements => exact (head.ok result).statements.trans (rest.ok continued)
      | error failure after => exact (head.ok result).broken (rest.error continued)

theorem Spans.map {change : α → β} (spans : read.Spans extent moves first last reading) :
    (read >>= fun value => Pure.pure (change value)).Spans extent moves first last reading := by
  unfold Spans
  rw [bind_apply]
  cases result : read reading with
  | ok value rest => exact spans.ok result
  | error failure rest => exact spans.error result

theorem Spans.current {next : Token → Read α}
    (tail : (next reading.current).Spans extent moves first last reading) :
    (Read.current >>= next).Spans extent moves first last reading :=
  tail

theorem Spans.remaining {next : Nat → Read α}
    (tail : (next reading.tokens.length).Spans extent moves first last reading) :
    (Read.remaining >>= next).Spans extent moves first last reading :=
  tail

theorem Spans.fail (fault : SyntaxFault) (reading : Reading) :
    (Read.fail fault reading.current.position : Read α).Spans extent moves first last reading :=
  Reading.broken_here .phrase first fault reading

theorem Spans.advance (step : reading.current.kind.levelAfter? extent first = some last) :
    Read.advance.Spans extent moves first last reading :=
  Reading.spanned_advance step

theorem Spans.expect {kind : TokenKind} (step : kind.levelAfter? extent first = some last) :
    (Read.expect kind).Spans extent moves first last reading := by
  unfold Spans
  rw [expect_apply]
  by_cases expected : reading.current.kind = kind
  · rw [if_pos expected]
    exact Reading.spanned_advance (expected ▸ step)
  · rw [if_neg expected]
    exact Reading.broken_here .phrase first _ reading

theorem Spans.accept {kind : TokenKind} (step : kind.levelAfter? extent level = some level) :
    (Read.accept kind).Spans extent false level level reading := by
  unfold Spans
  rw [accept_apply]
  by_cases accepted : reading.current.kind = kind
  · rw [if_pos accepted]
    exact Reading.spanned_advance (accepted ▸ step)
  · rw [if_neg accepted]
    exact Reading.Spanned.refl extent level reading

theorem Spans.acceptOr {kind : TokenKind} {next : Bool → Read α} {value : α}
    (step : kind.levelAfter? extent level = some level) (found : next true = Pure.pure value)
    (missing : (next false).Spans extent false level level reading) :
    (Read.accept kind >>= next).Spans extent false level level reading := by
  unfold Spans
  rw [bind_apply, accept_apply]
  by_cases accepted : reading.current.kind = kind
  · simp only [if_pos accepted, found]
    exact Reading.spanned_advance (accepted ▸ step)
  · simp only [if_neg accepted]
    exact missing

end Rules

end Read

end Monkey
