import Monkey.Proofs.Printing.Operators
import Monkey.Proofs.Program.Isolation

/-!
# Reading what was printed

A printed program is read back as itself up to positions, whatever its operators and however its
parentheses and its `else if` are written, as long as it nests no deeper than the reader follows.
-/

set_option autoImplicit false

namespace Monkey

namespace Read

variable {style : Style} {limit : Nat} {inner : Phrases}

/-! ## Statements -/

theorem semicolon_ends (rest : List Token) :
    EndsAt 0 (headKind (TokenKind.semicolon.mark :: rest)) :=
  ⟨nofun, Nat.le_refl _⟩

theorem binding_reads (prints : inner.Prints style limit) {position : Position} {name : Token}
    {value : Expr} (isName : name.kind = .identifier) (wellFormed : value.WellFormed)
    (shallow : style.nestingIn 0 value (value.nesting style) < limit) {stops : TokenKind → Prop} :
    (binding inner).Reads ((Stmt.binding position name value).print style) stops
      fun read => read.unplaced = (Stmt.binding position name value).unplaced := by
  have isNamed : name.unplaced.kind = .identifier := isName
  rw [Stmt.print, List.cons_append, List.cons_append, List.cons_append]
  apply Reads.advance
  intro keyword _
  apply Reads.expect isNamed
  intro readName sameName
  apply Reads.expect rfl
  intro assign _
  apply Reads.bind (prints.delimited wellFormed shallow)
  · intro rest _
    exact semicolon_ends rest
  · intro read same
    refine .expect rfl fun _ _ => .pure ?_
    simp only [Stmt.unplaced, sameName, same]

theorem returning_reads (prints : inner.Prints style limit) {position : Position} {value : Expr}
    (wellFormed : value.WellFormed)
    (shallow : style.nestingIn 0 value (value.nesting style) < limit) {stops : TokenKind → Prop} :
    (returning inner).Reads ((Stmt.returnValue position value).print style) stops
      fun read => read.unplaced = (Stmt.returnValue position value).unplaced := by
  rw [Stmt.print, List.cons_append]
  apply Reads.advance
  intro keyword _
  apply Reads.refuse
  · intro rest _ semicolon
    have begins := style.enclose_begins 0 (value.print_begins style wellFormed)
      ([TokenKind.semicolon.mark] ++ rest)
    rw [← List.append_assoc, semicolon] at begins
    cases begins
  · apply Reads.bind (prints.delimited wellFormed shallow)
    · intro rest _
      exact semicolon_ends rest
    · intro read same
      refine .expect rfl fun _ _ => .pure ?_
      simp only [Stmt.unplaced, same]

theorem blockStmt_reads (prints : inner.Prints style limit) {body : Block}
    (wellFormed : body.WellFormed) (shallow : body.nesting style ≤ limit) :
    (blockStmt inner).Reads (body.print style) (· ≠ .semicolon)
      fun read => read.unplaced = (Stmt.block body).unplaced := by
  apply Reads.ends (block_reads prints wellFormed shallow) (fun _ _ => trivial)
  intro read same
  apply Reads.refuse (fun _ stop => stop)
  apply Reads.pure
  simp only [Stmt.unplaced, same]

theorem endExprStmt_reads (value : Expr) {stops : TokenKind → Prop} :
    (endExprStmt value).Reads [TokenKind.semicolon.mark] stops fun _ => True := by
  apply Reads.current
  intro ahead rest _ isAhead
  have semicolon : ahead.kind = .semicolon := isAhead
  split
  · exact .accept rfl (.pure trivial)
  · rw [if_neg (by rw [semicolon]; decide)]
    exact .expect rfl fun _ _ => .pure trivial

theorem exprStmt_reads (prints : inner.Prints style limit) {position : Position} {value : Expr}
    (wellFormed : value.WellFormed)
    (shallow : style.nestingIn 0 value (value.nesting style) < limit) {stops : TokenKind → Prop} :
    (exprStmt inner).Reads ((Stmt.expr position value).print style) stops
      fun read => read.unplaced = (Stmt.expr position value).unplaced := by
  apply Reads.current
  intro start _ _ _
  apply Reads.bind (prints.delimited wellFormed shallow)
  · intro rest _
    exact semicolon_ends rest
  · intro read same
    refine .ends (endExprStmt_reads read) (fun _ stop => stop) fun _ _ => .pure ?_
    simp only [Stmt.unplaced, same]

theorem statement_reads (prints : inner.Prints style limit) {stmt : Stmt}
    (wellFormed : stmt.WellFormed) (shallow : stmt.nesting style ≤ limit) :
    (statement inner).Reads (stmt.print style) (· ≠ .semicolon)
      fun read => read.unplaced = stmt.unplaced := by
  apply Reads.current
  intro ahead rest _ isAhead
  cases stmt with
  | binding position name value =>
      have keyword : ahead.kind = .kwLet := isAhead
      rw [keyword]
      exact binding_reads prints wellFormed.1 wellFormed.2 shallow
  | returnNil position =>
      have keyword : ahead.kind = .kwReturn := isAhead
      rw [keyword]
      exact .advance fun _ _ => .accept rfl (.pure rfl)
  | returnValue position value =>
      have keyword : ahead.kind = .kwReturn := isAhead
      rw [keyword]
      exact returning_reads prints wellFormed shallow
  | block body =>
      have opening : ahead.kind = .leftBrace := by
        rw [isAhead]
        cases body
        rfl
      rw [opening]
      exact blockStmt_reads prints wellFormed shallow
  | expr position value =>
      have begins : ahead.kind.beginsExpr = true := by
        rw [isAhead, Stmt.print, List.append_assoc]
        exact style.enclose_begins 0 (value.print_begins style wellFormed) _
      split
      next keyword =>
        rw [keyword] at begins
        cases begins
      next keyword =>
        rw [keyword] at begins
        cases begins
      next opening =>
        rw [opening] at begins
        cases begins
      next => exact exprStmt_reads prints wellFormed shallow

end Read

theorem phrases_prints (style : Style) (limit : Nat) : (phrases limit).Prints style limit := by
  -- Readers at a limit nest those one level further in, in which printed phrases nest less deep.
  induction limit with
  | zero => exact ⟨nofun, nofun, nofun, nofun⟩
  | succ limit ih =>
      constructor
      · intro power expr wellFormed weak tighter shallow
        exact Read.expr_reads ih wellFormed weak tighter (Nat.le_of_lt_succ shallow)
      · intro power expr wellFormed shallow
        exact Read.expr_parenthesized_reads ih wellFormed (Nat.lt_of_succ_lt_succ shallow)
      · intro stmt wellFormed shallow
        exact Read.statement_reads ih wellFormed (Nat.le_of_lt_succ shallow)
      · intro expr isConditional wellFormed shallow
        exact Read.conditional_reads ih isConditional wellFormed (Nat.le_of_lt_succ shallow)

/-! ## Whole programs -/

theorem Read.programStatements_reads (style : Style) (limit : Nat) (statements : List Stmt)
    (wellFormed : Stmt.AllWellFormed statements)
    (shallow : Stmt.nestingAll style statements ≤ limit) (budget : Nat)
    (enough : (Stmt.printAll style statements).length < budget) :
    (programStatements (phrases limit).statement budget []).Reads (Stmt.printAll style statements)
      (· = .endOfInput) fun read => read.map Stmt.unplaced = statements.map Stmt.unplaced := by
  have notSemicolon : TokenKind.endOfInput ≠ .semicolon := by decide
  apply statements_reads (phrases_prints style limit)
    (programStatements (phrases limit).statement) .endOfInput notSemicolon ?_ ?_ statements
    wellFormed shallow budget [] enough
  · intro budget done reading ended
    exact programStatements_ended _ _ _ ended
  · intro budget done reading stmt rest begins result
    have notEnded : reading.current.kind ≠ .endOfInput := by
      intro ended
      rw [ended] at begins
      cases begins
    rw [programStatements_succ _ _ _ notEnded, bind_apply, round, result]
    rfl

/-- Reading inverts printing: a program that nests no deeper than the reader follows is read back
from its printed tokens, wherever these are placed, as itself up to positions. -/
theorem Program.ofTokens_print {limit : Nat} (style : Style) (program : Program)
    (wellFormed : program.WellFormed) (shallow : program.nesting style ≤ limit)
    {placed ending : List Token}
    (places : placed.map Token.unplaced = program.print style)
    (ends : headKind ending = .endOfInput) :
    ∃ parsed, ofTokens (placed ++ ending) limit = .ok parsed ∧ parsed.diagnostics = [] ∧
      parsed.program.unplaced = program.unplaced := by
  have enough : (program.print style).length < (placed ++ ending).length + 1 := by
    have same := congrArg List.length places
    rw [List.length_map] at same
    rw [List.length_append, same]
    exact Nat.lt_succ_of_le (Nat.le_add_right _ _)
  have reads := Read.programStatements_reads style limit program.statements
    ((Stmt.allWellFormed_iff _).mpr wellFormed) shallow _ enough
  obtain ⟨statements, after, same, result⟩ := reads placed ending 0 [] places ends
  rw [ofTokens_eq, result]
  exact ⟨_, rfl, rfl, by rw [Program.unplaced, Program.unplaced, same]⟩

/-- Operators of one level that group to either side, and a chained `if`. -/
theorem Program.ofTokens_print_operators :
    let name : Expr := .leaf ⟨.identifier, "x", ⟨1, 1⟩⟩
    let minus : Token := ⟨.minus, "-", ⟨1, 1⟩⟩
    let caret : Token := ⟨.caret, "^", ⟨1, 1⟩⟩
    let nested : Expr := .ifThen ⟨1, 1⟩ name (.mk ⟨1, 1⟩ [])
    let program : Program := ⟨⟨1, 1⟩,
      [.expr ⟨1, 1⟩ (.binary name minus (.binary name minus (.unary minus name))),
        .expr ⟨1, 1⟩ (.binary (.binary name caret name) caret name),
        .expr ⟨1, 1⟩ (.ifElse ⟨1, 1⟩ name (.mk ⟨1, 1⟩ []) (.mk ⟨1, 1⟩ [.expr ⟨1, 1⟩ nested]))]⟩
    let style : Style := .plain fun _ => true
    let placed : List Token :=
      (program.print style).map fun token => { token with position := ⟨1, 1⟩ }
    program.WellFormed ∧ program.nesting style ≤ nestingLimit ∧
      placed.map Token.unplaced = program.print style ∧ headKind [] = .endOfInput ∧
      ∃ parsed, ofTokens (placed ++ []) = .ok parsed ∧ parsed.diagnostics = [] ∧
        parsed.program.unplaced = program.unplaced := by
  intro name minus caret nested program style placed
  have isMinus : TokenKind.minus.IsBinary := by decide
  have isCaret : TokenKind.caret.IsBinary := by decide
  have wellFormed : program.WellFormed := (Stmt.allWellFormed_iff _).mp
    ⟨⟨isMinus, trivial, isMinus, trivial, .inl rfl, trivial⟩,
      ⟨isCaret, ⟨isCaret, trivial, trivial⟩, trivial⟩,
      ⟨trivial, trivial, ⟨trivial, trivial⟩, trivial⟩, trivial⟩
  have shallow : program.nesting style ≤ nestingLimit := by decide
  have places : placed.map Token.unplaced = program.print style := rfl
  have ends : headKind [] = .endOfInput := rfl
  have reads := ofTokens_print style program wellFormed shallow places ends
  exact ⟨wellFormed, shallow, places, ends, reads⟩

/-! ## The limit of nesting -/

def minusSigns (count : Nat) : List Token := List.replicate count ⟨.minus, "-", .unknown⟩

/-- A number with so many minus signs before it. -/
def negations : Nat → Expr
  | 0 => .leaf ⟨.integer, "1", .unknown⟩
  | count + 1 => .unary ⟨.minus, "-", .unknown⟩ (negations count)

/-- The tokens of a statement that is such a number. -/
def negationTokens (count : Nat) : List Token :=
  minusSigns count ++ [⟨.integer, "1", .unknown⟩, TokenKind.semicolon.mark]

theorem negations_wellFormed (count : Nat) : (negations count).WellFormed := by
  induction count with
  | zero => exact ⟨1, rfl, by decide⟩
  | succ count ih => exact ⟨.inl rfl, ih⟩

theorem negations_print (chains : Block → Bool) (count : Nat) :
    (negations count).print (.plain chains) =
      minusSigns count ++ [⟨.integer, "1", .unknown⟩] := by
  induction count with
  | zero => rfl
  | succ count ih =>
      have bare : (Style.plain chains).encloses unaryPower (negations count) = false := by
        cases count <;> rfl
      rw [negations, Expr.print, Style.enclose, bare, ih]
      rfl

theorem negations_printAll (chains : Block → Bool) (count : Nat) :
    Stmt.printAll (.plain chains) [.expr .unknown (negations count)] = negationTokens count := by
  have bare : (Style.plain chains).encloses 0 (negations count) = false := by
    cases count <;> rfl
  rw [Stmt.printAll, Stmt.printAll, Stmt.print, Style.enclose, bare, negations_print,
    negationTokens]
  simp

theorem negationTokens_readable (count : Nat) :
    ∀ token ∈ negationTokens count, token.IsReadable := by
  intro token member
  rcases List.mem_append.mp member with minus | last
  · rw [List.eq_of_mem_replicate minus]
    intro isInteger
    cases isInteger
  · rcases List.mem_cons.mp last with rfl | last
    · exact fun _ => ⟨1, rfl⟩
    · rw [List.mem_singleton.mp last]
      intro isInteger
      cases isInteger

/-- Every minus sign is one level further in, so too many of them are not followed to the end. -/
theorem minusSigns_tooDeep (limit count power : Nat) (rest : List Token) (depth : Nat)
    (found : List Diagnostic) (deep : limit ≤ count) :
    ∃ after, ((phrases limit).expr power) ⟨minusSigns count ++ rest, depth, found⟩ =
      .error .tooDeep after := by
  induction limit generalizing count power depth with
  | zero => exact ⟨_, rfl⟩
  | succ limit ih =>
      obtain ⟨fewer, rfl⟩ : ∃ fewer, count = fewer + 1 := ⟨count - 1, by omega⟩
      obtain ⟨after, failed⟩ := ih fewer unaryPower depth (Nat.le_of_succ_le_succ deep)
      have stepped : (Reading.mk (minusSigns (fewer + 1) ++ rest) depth found).advance =
          ⟨minusSigns fewer ++ rest, depth, found⟩ := rfl
      have operandFails : Read.operand (phrases limit)
          ⟨minusSigns (fewer + 1) ++ rest, depth, found⟩ = .error .tooDeep after := by
        show Read.unary (phrases limit) _ = _
        rw [Read.unary, Read.bind_apply, Read.advance, stepped]
        simp only
        rw [Read.bind_apply, failed]
      refine ⟨after, ?_⟩
      show Read.expr (phrases limit) power _ = _
      rw [Read.expr, Read.bind_apply, operandFails]

theorem negationTokens_tooDeep {limit count : Nat} (deep : limit ≤ count) :
    ∃ after, (phrases (limit + 1)).statement ⟨negationTokens (count + 1), 0, []⟩ =
      .error .tooDeep after := by
  obtain ⟨after, failed⟩ := minusSigns_tooDeep limit (count + 1) 0
    [⟨.integer, "1", .unknown⟩, TokenKind.semicolon.mark] 0 [] (Nat.le_succ_of_le deep)
  refine ⟨after, ?_⟩
  show Read.exprStmt (phrases limit) _ = _
  rw [Read.exprStmt, Read.bind_apply, Read.current]
  simp only
  rw [negationTokens, Read.bind_apply, failed]

theorem Program.ofTokens_negations {limit count : Nat} (deep : limit ≤ count) :
    ∃ parsed, ofTokens (negationTokens (count + 1)) (limit + 1) = .ok parsed ∧
      parsed.diagnostics ≠ [] := by
  have readable := negationTokens_readable (count + 1)
  obtain ⟨parsed, result⟩ := ofTokens_ok (limit + 1) _ readable
  obtain ⟨after, failed⟩ := negationTokens_tooDeep deep
  have notEnded : (Reading.mk (negationTokens (count + 1)) 0 []).current.kind ≠ .endOfInput := by
    intro ended
    cases ended
  refine ⟨parsed, result, ?_⟩
  intro sound
  refine ofTokens_tooDeep readable notEnded failed fun other same diagnostic member => ?_
  rw [result] at same
  cases same
  rw [sound] at member
  cases member

/-- Past the limit of nesting, a program is not read back from its printed tokens. -/
theorem Program.ofTokens_print_tooDeep :
    let program : Program := ⟨.unknown, [.expr .unknown (negations 13000)]⟩
    program.WellFormed ∧
      ∃ parsed, ofTokens (program.print (.plain fun _ => false)) = .ok parsed ∧
        parsed.diagnostics ≠ [] := by
  intro program
  constructor
  · intro stmt member
    rw [List.mem_singleton.mp member]
    exact negations_wellFormed 13000
  · have printed : program.print (.plain fun _ => false) = negationTokens 13000 :=
      negations_printAll _ 13000
    rw [printed]
    exact ofTokens_negations (by decide : 1999 ≤ 12999)

end Monkey
