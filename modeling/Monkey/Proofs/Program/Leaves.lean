import Monkey.Proofs.Grammar.Leaves
import Monkey.Proofs.Program.Isolation

/-!
# The tree keeps every operand and operator

The leaves of a program are tokens it was read from, in their order. Where nothing is wrong with the
tokens, they are all the names, literals and operators among them.
-/

set_option autoImplicit false

namespace Monkey

/-- The tokens before the first end of the input. -/
def beforeEnd (tokens : List Token) : List Token :=
  tokens.takeWhile fun token => token.kind ≠ .endOfInput

theorem beforeEnd_append {leading rest : List Token}
    (notEnd : ∀ token ∈ leading, token.kind ≠ .endOfInput)
    (ended : (rest.headD (.endOfInput .unknown)).kind = .endOfInput) :
    beforeEnd (leading ++ rest) = leading := by
  have nothing : beforeEnd rest = [] := by
    cases rest with
    | nil => rfl
    | cons token tail => exact List.takeWhile_cons_of_neg (by simpa using ended)
  unfold beforeEnd at nothing ⊢
  rw [List.takeWhile_append_of_pos (by simpa using notEnd), nothing, List.append_nil]

/-- Skipping a statement drops tokens before the end of the input, and none only there. -/
theorem skipStatement_drops (tokens : List Token) (depth : Nat) :
    ∃ skipped, tokens = skipped ++ skipStatement tokens depth ∧
      (∀ token ∈ skipped, token.kind ≠ .endOfInput) ∧
      (skipped = [] → (tokens.headD (.endOfInput .unknown)).kind = .endOfInput) := by
  have some : ∀ {token : Token} {skipped : List Token} {claim : Prop},
      token :: skipped = [] → claim := fun isNil => absurd isNil (List.cons_ne_nil _ _)
  fun_induction skipStatement tokens depth with
  | case1 => exact ⟨[], rfl, by simp, fun _ => rfl⟩
  | case2 token rest _ ended => exact ⟨[], rfl, by simp, fun _ => ended⟩
  | case3 token rest _ notEnd _ _ ih =>
      obtain ⟨skipped, split, inside, -⟩ := ih
      exact ⟨token :: skipped, congrArg (token :: ·) split, by simpa using ⟨notEnd, inside⟩, some⟩
  | case4 token depth notEnd _ _ _ next after semicolon =>
      exact ⟨[token, next], rfl, by simp [notEnd, semicolon], some⟩
  | case5 token depth notEnd => exact ⟨[token], rfl, by simpa using notEnd, some⟩
  | case6 token depth notEnd => exact ⟨[token], rfl, by simpa using notEnd, some⟩
  | case7 token rest depth notEnd => exact ⟨[token], rfl, by simpa using notEnd, some⟩
  | case8 token rest depth notEnd _ _ _ _ ih =>
      obtain ⟨skipped, split, inside, -⟩ := ih
      exact ⟨token :: skipped, congrArg (token :: ·) split, by simpa using ⟨notEnd, inside⟩, some⟩

namespace Read

/-- A statement that cannot be read leaves nothing in the tree. -/
theorem restarted_keeps {reading rest : Reading} {failure : ReadFailure}
    (broken : reading.Broken .phrase 0 failure rest) (diagnostic : Diagnostic) :
    reading.Keeps [] [] (rest.restarted diagnostic) := by
  obtain ⟨used, found, level, takes, -⟩ := broken
  obtain ⟨skipped, split, notEnd, -⟩ := skipStatement_drops rest.tokens rest.depth
  refine ⟨used ++ skipped, found ++ [diagnostic], [], ⟨?_, ?_, ?_, List.nil_sublist _, ?_⟩, rfl⟩
  · rw [takes.tokens, List.append_assoc]
    exact congrArg (used ++ ·) split
  · simp [Reading.restarted, takes.diagnostics]
  · simpa [or_imp, forall_and] using ⟨levelAfter?_notEnd takes.level, notEnd⟩
  · simp

theorem round_keeps (limit : Nat) {reading rest : Reading} {read : List Stmt}
    (result : round (phrases limit).statement reading = .ok read rest) :
    reading.Keeps [] (read.reverse.flatMap Stmt.leaves) rest := by
  simp only [round] at result
  cases ran : (phrases limit).statement reading with
  | ok stmt after =>
      rw [ran] at result
      cases result
      simpa using (((phrases_yield limit).statement reading).ok ran).1
  | error failure after =>
      have broken := ((phrases_span limit).statement true reading).error ran
      rw [ran] at result
      cases failure with
      | numeral unread => cases result
      | fault fault position =>
          cases result
          exact restarted_keeps broken _
      | tooDeep =>
          cases result
          exact restarted_keeps broken _

/-- The loop over a program goes on to the end of the input. -/
theorem programStatements_keeps (limit budget : Nat) (done : List Stmt) {reading rest : Reading}
    {statements : List Stmt} (enough : reading.tokens.length < budget)
    (result : programStatements (phrases limit).statement budget done reading =
      .ok statements rest) :
    reading.Keeps (done.reverse.flatMap Stmt.leaves) (statements.flatMap Stmt.leaves) rest ∧
      rest.current.kind = .endOfInput := by
  induction budget generalizing done reading with
  | zero => omega
  | succ budget ih =>
      by_cases ended : reading.current.kind = .endOfInput
      · rw [programStatements_ended _ _ _ ended] at result
        cases result
        exact ⟨.refl _ _, ended⟩
      · rw [programStatements_succ _ _ _ ended, bind_apply] at result
        cases ran : round (phrases limit).statement reading with
        | error failure between =>
            rw [ran] at result
            cases result
        | ok read between =>
            rw [ran] at result
            have shorter := (round_progress limit ended ran).2
            obtain ⟨later, atEnd⟩ := ih (read ++ done) (by omega) result
            have head := (round_keeps limit ran).after (done.reverse.flatMap Stmt.leaves)
            exact ⟨head.trans (by simpa using later), atEnd⟩

end Read

namespace Program

variable {limit : Nat}

theorem ofTokens_kept {tokens : List Token} {parsed : Parsed}
    (read : ofTokens tokens limit = .ok parsed) :
    parsed.program.tree.leaves.Sublist (beforeEnd tokens) ∧
      (parsed.diagnostics = [] →
        parsed.program.tree.leaves = keptTokens (beforeEnd tokens)) := by
  rw [ofTokens_eq] at read
  cases result : Read.programStatements (phrases limit).statement (tokens.length + 1) []
      ⟨tokens, 0, []⟩ with
  | error failure rest =>
      obtain ⟨unread, rfl, -⟩ := Read.programStatements_error limit _ _ result
      rw [result] at read
      cases read
  | ok statements rest =>
      rw [result] at read
      cases read
      obtain ⟨⟨used, found, kept, selects, same⟩, ended⟩ :=
        Read.programStatements_keeps limit _ _ (Nat.lt_succ_self _) result
      have split : tokens = used ++ rest.tokens := selects.tokens
      have whole : beforeEnd tokens = used := by
        rw [split]
        exact beforeEnd_append selects.notEnd ended
      have leaves : statements.flatMap Stmt.leaves = kept := by simpa using same
      rw [tree_leaves, whole, leaves]
      refine ⟨selects.some, fun nothing => selects.all ?_⟩
      simpa [selects.diagnostics] using nothing

theorem ofTokens_unreadable {tokens : List Token} {unread : Text.NumeralFault}
    (failed : ofTokens tokens limit = .error unread) :
    ∃ token ∈ tokens, token.kind = .integer ∧ Text.readInteger token.text = .error unread := by
  rw [ofTokens_eq] at failed
  cases result : Read.programStatements (phrases limit).statement (tokens.length + 1) []
      ⟨tokens, 0, []⟩ with
  | ok statements rest =>
      rw [result] at failed
      cases failed
  | error failure rest =>
      obtain ⟨same, rfl, member⟩ := Read.programStatements_error limit _ _ result
      rw [result] at failed
      cases failed
      exact member

/-- The leaves of a program are some of the tokens before the end of the input, in their order; and
all names, literals and operators among them if nothing is wrong. There is a program unless the text
of an integer is not read as a number. -/
theorem ofTokens_leaves (limit : Nat) (tokens : List Token) :
    (∀ parsed, ofTokens tokens limit = .ok parsed →
      parsed.program.tree.leaves.Sublist (beforeEnd tokens) ∧
        (parsed.diagnostics = [] →
          parsed.program.tree.leaves = keptTokens (beforeEnd tokens))) ∧
    ∀ unread, ofTokens tokens limit = .error unread →
      ∃ token ∈ tokens, token.kind = .integer ∧ Text.readInteger token.text = .error unread :=
  ⟨fun _ read => ofTokens_kept read, fun _ failed => ofTokens_unreadable failed⟩

/-- A block with a fault in it keeps the other statement, and a statement without a fault keeps all
but its parentheses. -/
theorem ofTokens_leaves_block :
    let star : Token := ⟨.star, "*", ⟨1, 3⟩⟩
    let nothing : Token := ⟨.kwNil, "nil", ⟨1, 6⟩⟩
    let faulty : List Token := [⟨.leftBrace, "\x7b", ⟨1, 1⟩⟩, star, ⟨.semicolon, ";", ⟨1, 4⟩⟩,
      nothing, ⟨.rightBrace, "\x7d", ⟨1, 10⟩⟩, .endOfInput ⟨1, 11⟩]
    let minus : Token := ⟨.minus, "-", ⟨1, 1⟩⟩
    let name : Token := ⟨.identifier, "x", ⟨1, 3⟩⟩
    let clean : List Token := [minus, ⟨.leftParen, "(", ⟨1, 2⟩⟩, name,
      ⟨.rightParen, ")", ⟨1, 4⟩⟩, .endOfInput ⟨1, 5⟩, star]
    let unread : Token := ⟨.integer, "", ⟨1, 1⟩⟩
    (∃ parsed, ofTokens faulty = .ok parsed ∧ parsed.program.tree.leaves = [nothing] ∧
      [nothing].Sublist (beforeEnd faulty)) ∧
    (∃ parsed, ofTokens clean = .ok parsed ∧ parsed.diagnostics = [] ∧
      parsed.program.tree.leaves = [minus, name]) ∧
    ∃ numeral, ofTokens [unread] = .error numeral ∧ ∃ token ∈ [unread], token.kind = .integer ∧
      Text.readInteger token.text = .error numeral := by
  intro star nothing faulty minus name clean unread
  have readFaulty : ofTokens faulty =
      .ok ⟨⟨⟨1, 1⟩, [.block (.mk ⟨1, 1⟩ [.expr ⟨1, 6⟩ (.leaf nothing)])]⟩,
        [⟨.syntactic (.noExpression star), star.position⟩]⟩ := rfl
  have readClean : ofTokens clean =
      .ok ⟨⟨⟨1, 1⟩, [.expr ⟨1, 1⟩ (.unary minus (.leaf name))]⟩, []⟩ := rfl
  have failed : ofTokens [unread] = .error (.malformed "") := rfl
  exact ⟨⟨_, readFaulty, rfl, ((ofTokens_leaves nestingLimit faulty).1 _ readFaulty).1⟩,
    ⟨_, readClean, rfl, ((ofTokens_leaves nestingLimit clean).1 _ readClean).2 rfl⟩,
    ⟨_, failed, (ofTokens_leaves nestingLimit [unread]).2 _ failed⟩⟩

end Program

end Monkey
