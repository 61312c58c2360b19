import Monkey.Proofs.Grammar.Meeting
import Monkey.Proofs.Program.Isolation

/-!
# Programs and the integers they meet

An integer is met in the reading of a text, and then it ends the reading or is reported if it is not
in range; or it is passed over, and the same program is read with any other text in its place.
-/

set_option autoImplicit false

namespace Monkey

namespace Read

variable {literal : Token}

theorem skipStatement_retells (depth : Nat) {tokens tokens' : List Token}
    (retells : List.Forall₂ literal.Retells tokens tokens') :
    List.Forall₂ literal.Retells (skipStatement tokens depth) (skipStatement tokens' depth) := by
  induction retells generalizing depth with
  | nil => exact .nil
  | cons first others ih =>
      simp only [skipStatement, first.kind]
      split
      · exact .cons first others
      split
      · exact ih _
      split
      · cases others with
        | nil => exact .nil
        | cons next after =>
            simp only [next.kind]
            split
            · exact after
            · exact .cons next after
      split
      · exact others
      · exact ih _

theorem restarted_retells {reading reading' : Reading} (retells : reading.Retells literal reading')
    {position : Position} (fault fault' : Fault) :
    (reading.restarted ⟨fault, position⟩).Retells literal
      (reading'.restarted ⟨fault', position⟩) := by
  have tokens := skipStatement_retells reading.depth retells.tokens
  rw [← retells.depth] at tokens
  exact ⟨by simpa [Reading.restarted, retells.depth] using tokens, rfl,
    by simp [Reading.restarted, retells.blamed]⟩

theorem round_struck {statement : Read Stmt} {reading : Reading}
    (struck : Struck literal (statement reading)) : Struck literal (round statement reading) := by
  unfold round
  cases result : statement reading with
  | ok stmt rest =>
      rw [result] at struck
      exact struck
  | error failure rest =>
      rw [result] at struck
      cases failure with
      | numeral unread => trivial
      | fault fault position => exact struck
      | tooDeep => exact ⟨struck.1, List.mem_append_left _ struck.2⟩

theorem round_notices {statement : Read Stmt} {reading : Reading}
    (notices : statement.Notices literal reading) : (round statement).Notices literal reading := by
  refine ⟨fun readable reported => round_struck (notices.keeps readable reported), ?_⟩
  intro reading' retells
  rcases notices.runs reading' retells with struck | parallel
  · exact .inl (round_struck struck)
  · unfold round
    generalize statement reading = result, statement reading' = result' at parallel
    refine .inr ?_
    cases parallel with
    | ok stmt readings => exact .ok _ readings
    | fault readings => exact .ok _ (restarted_retells readings _ _)
    | tooDeep readings =>
        dsimp only
        rw [readings.current.position]
        exact .ok _ (restarted_retells readings _ _)

theorem programStatements_notices (unbounded : ¬ literal.IsBounded) (limit budget : Nat)
    (done : List Stmt) (reading : Reading) :
    (programStatements (phrases limit).statement budget done).Notices literal reading := by
  induction budget generalizing done reading with
  | zero => exact .pure _ reading
  | succ budget ih =>
      by_cases ended : reading.current.kind = .endOfInput
      · refine .of_eq (fun _ same => ?_) (.pure done.reverse reading)
        exact programStatements_ended _ _ _ (same.trans ended)
      · refine .of_eq (fun _ same => programStatements_succ _ _ _ (same ▸ ended)) ?_
        have statement := (phrases_notices unbounded limit).statement reading
        exact .bind (round_notices statement) fun read rest => ih (read ++ done) rest

end Read

/-- What is read, and where anything is wrong. -/
def Parsed.outline (parsed : Parsed) : Program × List Position :=
  (parsed.program, blames parsed.diagnostics)

namespace Program

/-- A literal among tokens is met where an expression is asked for: some text in its place, which
then is not read as a number, ends the reading. -/
def Meets (limit : Nat) (before : List Token) (literal : Token) (after : List Token) : Prop :=
  ∃ text unread, ofTokens (before ++ { literal with text } :: after) limit = .error unread

/-- The text of a literal among tokens does not matter: with any other one in its place the same
program is read, and there is something wrong at the same places. -/
def PassesOver (limit : Nat) (before : List Token) (literal : Token) (after : List Token) : Prop :=
  ∀ text, (ofTokens (before ++ { literal with text } :: after) limit).map Parsed.outline =
    (ofTokens (before ++ literal :: after) limit).map Parsed.outline

theorem outcome_parallel {literal : Token} (position : Position)
    {result result' : EStateM.Result ReadFailure Reading (List Stmt)}
    (parallel : Read.Parallel literal result result') :
    (outcome position result').map Parsed.outline =
      (outcome position result).map Parsed.outline := by
  cases parallel with
  | ok statements readings =>
      simp only [outcome, Except.map, Parsed.outline, readings.blamed]
  | fault readings => simp only [outcome, Except.map, Parsed.outline, readings.blamed]
  | tooDeep readings => simp only [outcome, Except.map, Parsed.outline, readings.blamed]

/-- A literal that is not in range ends the reading, or is reported if it is read as a number at
all, or it is passed over. -/
theorem struck_or_passesOver (limit : Nat) (before : List Token) {literal : Token}
    (after : List Token) (unbounded : ¬ literal.IsBounded) :
    (∃ unread, ofTokens (before ++ literal :: after) limit = .error unread) ∨
      (literal.IsReadable ∧ ∃ parsed, ofTokens (before ++ literal :: after) limit = .ok parsed ∧
        literal.outOfRange ∈ parsed.diagnostics) ∨
      PassesOver limit before literal after := by
  have notices := Read.programStatements_notices unbounded limit
    ((before ++ literal :: after).length + 1) [] ⟨before ++ literal :: after, 0, []⟩
  by_cases struck : Read.Struck literal (Read.programStatements (phrases limit).statement
      ((before ++ literal :: after).length + 1) [] ⟨before ++ literal :: after, 0, []⟩)
  · rw [ofTokens_eq]
    cases result : Read.programStatements (phrases limit).statement
        ((before ++ literal :: after).length + 1) [] ⟨before ++ literal :: after, 0, []⟩ with
    | ok statements rest =>
        rw [result] at struck
        exact .inr (.inl ⟨struck.1, _, rfl, struck.2⟩)
    | error failure rest =>
        obtain ⟨unread, rfl, -⟩ := Read.programStatements_error limit _ _ result
        exact .inl ⟨unread, rfl⟩
  · refine .inr (.inr fun text => ?_)
    have same : ∀ tokens : List Token, List.Forall₂ literal.Retells tokens tokens :=
      fun tokens => List.forall₂_same.mpr fun _ _ => .inl rfl
    have tokens : List.Forall₂ literal.Retells (before ++ literal :: after)
        (before ++ { literal with text } :: after) :=
      List.rel_append (same before) (.cons (.inr ⟨rfl, text, rfl⟩) (same after))
    have retells : Reading.Retells literal ⟨before ++ literal :: after, 0, []⟩
        ⟨before ++ { literal with text } :: after, 0, []⟩ := ⟨tokens, rfl, rfl⟩
    rw [ofTokens_eq, ofTokens_eq, retells.current.position, ← tokens.length_eq]
    exact outcome_parallel _ ((notices.runs _ retells).resolve_left struck)

section Meeting

variable {limit : Nat} {before after : List Token} {literal : Token}

/-- A text that ends the reading anywhere in the place of a literal that is passed over ends it
there. -/
theorem PassesOver.error (passes : PassesOver limit before literal after) {text : String}
    {unread : Text.NumeralFault}
    (failed : ofTokens (before ++ { literal with text } :: after) limit = .error unread) :
    ofTokens (before ++ literal :: after) limit = .error unread := by
  have same := passes text
  rw [failed] at same
  cases read : ofTokens (before ++ literal :: after) limit with
  | error other =>
      rw [read] at same
      cases same
      rfl
  | ok parsed =>
      rw [read] at same
      cases same

/-- An integer is met or passed over. -/
theorem passesOver_of_not_meets (isInteger : literal.kind = .integer)
    (unmet : ¬ Meets limit before literal after) : PassesOver limit before literal after := by
  -- The literal is compared with one that is not read as a number, which would end the reading.
  have unread : Text.readInteger "" = .error (.malformed "") := rfl
  have unbounded : ¬ Token.IsBounded { literal with text := "" } := by
    intro bounded
    obtain ⟨value, read, -⟩ := bounded isInteger
    cases unread.symm.trans read
  rcases struck_or_passesOver limit before after unbounded with
    ⟨unread, failed⟩ | ⟨readable, -⟩ | passes
  · exact absurd ⟨"", unread, failed⟩ unmet
  · obtain ⟨value, read⟩ := readable isInteger
    cases unread.symm.trans read
  · exact fun text => (passes text).trans (passes literal.text).symm

/-- An integer that is not read as a number ends the reading just if it is met. -/
theorem meets_iff_error (unbounded : ¬ literal.IsBounded) (unreadable : ¬ literal.IsReadable) :
    Meets limit before literal after ↔
      ∃ unread, ofTokens (before ++ literal :: after) limit = .error unread := by
  constructor
  · intro meets
    obtain ⟨text, unread, failed⟩ := meets
    rcases struck_or_passesOver limit before after unbounded with struck | ⟨readable, -⟩ | passes
    · exact struck
    · exact absurd readable unreadable
    · exact ⟨unread, passes.error failed⟩
  · intro failed
    obtain ⟨unread, failed⟩ := failed
    exact ⟨literal.text, unread, failed⟩

/-- An integer out of range is reported if it is met. -/
theorem reported_of_meets (unbounded : ¬ literal.IsBounded)
    (meets : Meets limit before literal after) {parsed : Parsed}
    (read : ofTokens (before ++ literal :: after) limit = .ok parsed) :
    literal.outOfRange ∈ parsed.diagnostics := by
  obtain ⟨text, unread, failed⟩ := meets
  rcases struck_or_passesOver limit before after unbounded with
    ⟨other, ended⟩ | ⟨-, other, again, reported⟩ | passes
  · rw [read] at ended
    cases ended
  · rw [read] at again
    cases again
    exact reported
  · have ended := passes.error failed
    rw [read] at ended
    cases ended

end Meeting

end Program

end Monkey
