import Monkey.Proofs.Printing.Breaks
import Monkey.Proofs.Printing.RoundTrip
import Monkey.Proofs.Value.Literal

/-!
# Reading literals

The tokens of a literal are a program of one statement. The smallest integer cannot be written, as
its digits are those of a number that is no integer: the first place in which it stands is where
reading the statement fails.
-/

set_option autoImplicit false

namespace Monkey

/-! ## The smallest integer -/

/-- What is wrong with the digits of the smallest integer. -/
def SyntaxFault.smallestOutOfRange : SyntaxFault := .integerOutOfRange "9223372036854775808"

namespace Value

variable (chains : Block → Bool)

theorem begins_literal (value : Value) (rest : List Token) :
    (headKind (value.literal.print (.plain chains) ++ rest)).beginsExpr = true := by
  cases value with
  | bool b => cases b <;> rfl
  | int n => cases n <;> rfl
  | array items =>
      rw [print_literal_array]
      rfl
  | hash pairs =>
      rw [print_literal_hash]
      rfl
  | _ => rfl

theorem literal_ne_closing (value : Value) {kind : TokenKind} (closes : kind.beginsExpr = false)
    (rest : List Token) : headKind (value.literal.print (.plain chains) ++ rest) ≠ kind := by
  intro same
  have begins := begins_literal chains value rest
  rw [same, closes] at begins
  cases begins

theorem smallest_breaks (inner : Phrases) (power : Nat) :
    (Read.expr inner power).Breaks [numeral 9223372036854775808] .smallestOutOfRange := by
  refine Read.Breaks.bind (.current fun ahead rest isAhead => ?_)
  have isInteger : ahead.kind = .integer := isAhead
  rw [isInteger]
  refine .advance fun taken same placed rest depth found places => ?_
  have text : taken.unplaced.text = (numeral 9223372036854775808).text := congrArg Token.text same
  have value : Text.readInteger taken.unplaced.text = .ok 9223372036854775808 := by
    rw [text]
    exact readInteger_numeral (by decide)
  refine ⟨taken.position, ⟨placed ++ rest, depth, found⟩, rfl, ?_⟩
  rw [show Text.readInteger taken.text = .ok 9223372036854775808 from value]
  dsimp only
  rw [if_pos (by decide), show taken.text = _ from text]
  rfl

section

variable {value : Value} {limit : Nat}

theorem IsData.reads (isData : value.IsData) (shallow : value.nesting < limit)
    (without : ¬ value.Contains Integer.smallest) :
    ((phrases limit).expr 0).Reads (value.literal.print (.plain chains)) (EndsAt 0)
      fun read => read.unplaced = value.literal.unplaced := by
  have formed := isData.wellFormed without
  rw [← nesting_literal chains] at shallow
  exact (phrases_prints (.plain chains) limit).bare formed (Nat.zero_le _)
    (Expr.bindsTighter_zero formed) shallow

theorem IsData.checks (isData : value.IsData) (shallow : value.nesting < limit)
    (breaks : value.Contains Integer.smallest →
      ((phrases limit).expr 0).Breaks (value.literal.print (.plain chains)) .smallestOutOfRange) :
    ((phrases limit).expr 0).Checks (value.literal.print (.plain chains)) .smallestOutOfRange
      (value.Contains Integer.smallest) where
  breaks := breaks
  reads without :=
    (isData.reads chains shallow without).imp (fun _ stop => stop) fun _ _ => trivial

/-- Where the smallest integer is in data, reading the literal fails at the first such place. -/
theorem IsData.breaks (isData : value.IsData) (inside : value.Contains Integer.smallest)
    (shallow : value.nesting < limit) :
    ((phrases limit).expr 0).Breaks (value.literal.print (.plain chains))
      .smallestOutOfRange := by
  induction isData generalizing limit with
  | nil => cases inside
  | bool b => cases inside
  | string s => cases inside
  | int inRange =>
      cases inside
      have deep : 1 < limit := shallow
      obtain ⟨fewer, rfl⟩ : ∃ fewer, limit = fewer + 2 := ⟨limit - 2, by omega⟩
      show (Read.expr (phrases (fewer + 1)) 0).Breaks
        [TokenKind.minus.mark, numeral 9223372036854775808] _
      refine Read.Breaks.bind (.current fun ahead rest isAhead => ?_)
      have isMinus : ahead.kind = .minus := isAhead
      rw [isMinus]
      exact .advance fun _ _ => (smallest_breaks (phrases fewer) unaryPower).bind
  | @array items parts ih =>
      obtain ⟨fewer, rfl⟩ : ∃ fewer, limit = fewer + 1 := ⟨limit - 1, by omega⟩
      have within := (nestingAll_le_iff items fewer).mp (Nat.le_of_lt_succ shallow)
      have each : ∀ item ∈ items, ((phrases fewer).expr 0).Checks _ _ _ :=
        fun item member => (parts item member).checks chains (within item member)
          fun held => ih item member held (within item member)
      have list := Read.closedList_breaks items TokenKind.rightBracket.mark each
        ((contains_array _ _).mp inside)
        fun item => literal_ne_closing chains item rfl
      rw [print_literal_array]
      show (Read.expr (phrases fewer) 0).Breaks _ _
      refine Read.Breaks.bind (.current fun ahead rest isAhead => ?_)
      have opening : ahead.kind = .leftBracket := isAhead
      rw [opening]
      exact .advance fun _ _ => list.bind
  | @hash pairs distinct keys parts ihKeys ih =>
      obtain ⟨fewer, rfl⟩ : ∃ fewer, limit = fewer + 1 := ⟨limit - 1, by omega⟩
      have within := (nestingPairs_le_iff pairs fewer).mp (Nat.le_of_lt_succ shallow)
      have each : ∀ pair ∈ pairs, (Read.pair (phrases fewer)).Checks
          ((literalPair pair).print (.plain chains)) .smallestOutOfRange
          (pair.1.value.Contains Integer.smallest ∨ pair.2.Contains Integer.smallest) := by
        intro pair member
        obtain ⟨keyWithin, valueWithin⟩ := within pair member
        rw [print_literalPair]
        exact .pair
          ((keys pair member).checks chains keyWithin
            fun held => ihKeys pair member held keyWithin)
          ((parts pair member).checks chains valueWithin
            fun held => ih pair member held valueWithin)
      have begins : ∀ (pair : Key × Value) rest,
          headKind ((literalPair pair).print (.plain chains) ++ rest) ≠ .rightBrace := by
        intro pair rest
        rw [print_literalPair, List.append_assoc]
        exact literal_ne_closing chains pair.1.value rfl _
      have list := Read.closedList_breaks pairs TokenKind.rightBrace.mark each
        ((contains_hash _ _).mp inside) begins
      rw [print_literal_hash]
      show (Read.expr (phrases fewer) 0).Breaks _ _
      refine Read.Breaks.bind (.current fun ahead rest isAhead => ?_)
      have opening : ahead.kind = .hashBrace := isAhead
      rw [opening]
      exact .advance fun _ _ => list.bind

end

end Value

/-! ## Programs of one expression -/

namespace Read

variable {inner : Phrases}

theorem statement_expr {reading : Reading} (begins : reading.current.kind.beginsExpr = true) :
    statement inner reading = exprStmt inner reading := by
  unfold statement
  rw [bind_apply]
  simp only [Read.current]
  cases kind : reading.current.kind with
  | kwLet | kwReturn | leftBrace =>
      rw [kind] at begins
      cases begins
  | _ => rfl

theorem endExprStmt_ended (value : Expr) :
    (endExprStmt value).Reads [] (· = .endOfInput) fun _ => True := by
  refine .current fun ahead rest stop isAhead => ?_
  have ended : ahead.kind = .endOfInput := isAhead.trans stop
  split
  · refine .refuse (fun after stop => ?_) (.pure trivial)
    rw [List.nil_append, stop]
    decide
  · rw [if_pos (.inr ended)]
    exact .pure trivial

/-- The last statement of a program needs no semicolon if it is an expression. -/
theorem exprStmt_ended {tokens : List Token} {same : Expr → Prop}
    (reads : (inner.expr 0).Reads tokens (EndsAt 0) same) :
    (exprStmt inner).Reads tokens (· = .endOfInput)
      fun read => ∃ position value, read = .expr position value ∧ same value := by
  refine .current fun start _ _ _ => .ends reads ?_ fun value holds => ?_
  · rintro _ rfl
    exact ⟨by decide, Nat.le_refl _⟩
  · exact .ends (endExprStmt_ended value) (fun _ stop => stop) fun _ _ =>
      .pure ⟨start.position, value, rfl, holds⟩

theorem exprStmt_breaks {tokens : List Token} {fault : SyntaxFault}
    (breaks : (inner.expr 0).Breaks tokens fault) : (exprStmt inner).Breaks tokens fault :=
  .current fun _ _ _ => breaks.bind

end Read

namespace Program

variable {limit : Nat} {tokens placed : List Token} {ending : Token}

section

variable (begins : ∀ rest, (headKind (tokens ++ rest)).beginsExpr = true)
  (places : placed.map Token.unplaced = tokens) (ended : ending.kind = .endOfInput)
include begins places

theorem statement_placed (limit : Nat) (rest : List Token) :
    (phrases (limit + 1)).statement ⟨placed ++ rest, 0, []⟩ =
        Read.exprStmt (phrases limit) ⟨placed ++ rest, 0, []⟩ ∧
      (Reading.mk (placed ++ rest) 0 []).current.kind ≠ .endOfInput := by
  have here : (Reading.mk (placed ++ rest) 0 []).current.kind.beginsExpr = true := by
    show (headKind (placed ++ rest)).beginsExpr = true
    rw [headKind_placed rest places]
    exact begins rest
  refine ⟨Read.statement_expr here, fun atEnd => ?_⟩
  rw [atEnd] at here
  cases here

include ended

theorem ofTokens_expr {same : Expr → Prop}
    (reads : ((phrases limit).expr 0).Reads tokens (EndsAt 0) same) :
    ∃ start position value,
      ofTokens (placed ++ [ending]) (limit + 1) = .ok ⟨⟨start, [.expr position value]⟩, []⟩ ∧
        same value := by
  obtain ⟨isExpr, notEnded⟩ := statement_placed begins places limit [ending]
  obtain ⟨stmt, after, ⟨position, value, rfl, holds⟩, result⟩ :=
    Read.exprStmt_ended reads placed [ending] 0 [] places ended
  refine ⟨(Reading.mk (placed ++ [ending]) 0 []).current.position, position, value, ?_, holds⟩
  rw [ofTokens_round notEnded, Read.round, isExpr, result]
  dsimp only
  rw [ofTokens_ended ended]
  rfl

theorem ofTokens_breaks {fault : SyntaxFault}
    (breaks : ((phrases limit).expr 0).Breaks tokens fault)
    (readable : ∀ token ∈ tokens, token.IsReadable) :
    ∃ parsed position later, ofTokens (placed ++ [ending]) (limit + 1) = .ok parsed ∧
      parsed.diagnostics = ⟨.syntactic fault, position⟩ :: later := by
  obtain ⟨isExpr, notEnded⟩ := statement_placed begins places limit [ending]
  have allReadable : ∀ token ∈ placed ++ [ending], token.IsReadable := by
    subst places
    refine List.forall_mem_append.mpr ⟨fun token member => ?_, ?_⟩
    · exact readable token.unplaced (List.mem_map_of_mem member)
    refine List.forall_mem_singleton.mpr fun isInteger => ?_
    rw [ended] at isInteger
    cases isInteger
  obtain ⟨parsed, result⟩ := ofTokens_ok (limit + 1) _ allReadable
  obtain ⟨position, broken, recorded, failed⟩ :=
    Read.exprStmt_breaks breaks placed [ending] 0 [] places
  have first := result
  rw [ofTokens_round notEnded, Read.round, isExpr, failed] at first
  dsimp only at first
  obtain ⟨later, -, rfl⟩ := Parsed.of_map_append first
  refine ⟨_, position, later.diagnostics, result, ?_⟩
  rw [Parsed.append, Reading.restarted, recorded]
  rfl

end

end Program

end Monkey
