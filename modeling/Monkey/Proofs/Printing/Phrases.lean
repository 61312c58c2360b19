import Monkey.Proofs.Printing.Reads

/-!
# Printed phrases are read back

The readers for blocks and operands one by one, each on the tokens of the phrase it is for, and what
may follow a printed expression.
-/

set_option autoImplicit false

namespace Monkey

/-! ## First tokens -/

namespace TokenKind

def beginsExpr : TokenKind → Bool
  | identifier | string | integer | kwTrue | kwFalse | kwNil | minus | bang | leftParen
  | leftBracket | hashBrace | kwIf | kwFn => true
  | _ => false

def beginsStmt : TokenKind → Bool
  | kwLet | kwReturn | leftBrace => true
  | kind => kind.beginsExpr

end TokenKind

namespace Style

theorem level_of_not_encloses (style : Style) {context : Nat} {expr : Expr}
    (encloses : ¬ style.encloses context expr = true) : context ≤ expr.level := by
  simp only [Style.encloses, Bool.or_eq_true, not_or, decide_eq_true_eq, Nat.not_lt] at encloses
  exact encloses.1.1

theorem isBlock_of_not_encloses (style : Style) {context : Nat} {expr : Expr}
    (encloses : ¬ style.encloses context expr = true) : expr.isBlock = false := by
  simp only [Style.encloses, Bool.or_eq_true, not_or, Bool.not_eq_true] at encloses
  exact encloses.1.2

end Style

theorem Style.enclose_begins (style : Style) (context : Nat) {expr : Expr}
    (begins : expr.isBlock = false → ∀ rest, (headKind (expr.print style ++ rest)).beginsExpr)
    (rest : List Token) :
    (headKind (style.enclose context expr (expr.print style) ++ rest)).beginsExpr := by
  unfold enclose
  by_cases encloses : style.encloses context expr = true
  · rw [if_pos encloses]
    rfl
  · rw [if_neg encloses]
    exact begins (style.isBlock_of_not_encloses encloses) rest

theorem Expr.print_begins (style : Style) : ∀ expr : Expr, expr.WellFormed → expr.isBlock = false →
    ∀ rest, (headKind (expr.print style ++ rest)).beginsExpr
  | .leaf token, wellFormed, _, rest => by
      have isOperand : token.IsOperand := wellFormed
      unfold Token.IsOperand at isOperand
      show token.kind.beginsExpr = true
      cases kind : token.kind <;> simp_all [TokenKind.beginsExpr]
  | .unary operator operand, wellFormed, _, rest => by
      show operator.kind.beginsExpr = true
      rcases wellFormed.1 with minus | bang
      · rw [minus]
        rfl
      · rw [bang]
        rfl
  | .binary left operator right, wellFormed, _, rest => by
      rw [Expr.print, List.append_assoc]
      exact style.enclose_begins _ (left.print_begins style wellFormed.2.1) _
  | .array .., _, _, _ => rfl
  | .hash .., _, _, _ => rfl
  | .block _, _, isBlock, _ => nomatch isBlock
  | .ifThen .., _, _, _ => rfl
  | .ifElse .., _, _, _ => rfl
  | .function .., _, _, _ => rfl
  | .call callee position arguments, wellFormed, _, rest => by
      rw [Expr.print, List.append_assoc, List.append_assoc]
      exact style.enclose_begins _ (callee.print_begins style wellFormed.1) _
  | .index target position place, wellFormed, _, rest => by
      rw [Expr.print, List.append_assoc, List.append_assoc]
      exact style.enclose_begins _ (target.print_begins style wellFormed.1) _

theorem Stmt.print_begins (style : Style) {stmt : Stmt} (wellFormed : stmt.WellFormed)
    (rest : List Token) : (headKind (stmt.print style ++ rest)).beginsStmt := by
  have widens : ∀ kind : TokenKind, kind.beginsExpr = true → kind.beginsStmt = true := by
    intro kind
    cases kind <;> simp [TokenKind.beginsExpr, TokenKind.beginsStmt]
  cases stmt with
  | binding position name value => rfl
  | returnNil position => rfl
  | returnValue position value => rfl
  | block body => cases body; rfl
  | expr position value =>
      rw [Stmt.print, List.append_assoc]
      exact widens _ (style.enclose_begins 0 (value.print_begins style wellFormed) _)

theorem Stmt.print_length_pos (style : Style) {stmt : Stmt} (wellFormed : stmt.WellFormed) :
    0 < (stmt.print style).length := by
  have begins := stmt.print_begins style wellFormed []
  cases printed : stmt.print style with
  | nil =>
      rw [printed] at begins
      cases begins
  | cons => exact Nat.succ_pos _

/-! ## What may follow -/

/-- The token ends an expression read up to a power. An `else` does not, as the expression might be
an `if` without one. -/
def EndsAt (power : Nat) (kind : TokenKind) : Prop := kind ≠ .kwElse ∧ kind.power ≤ power

/-- The power up to which the last operand of an expression is read. -/
def Expr.tailPower : Expr → Nat
  | .unary .. => unaryPower
  | .binary _ operator _ => operator.kind.rightPower
  | _ => TokenKind.leftBracket.power

/-- The operator of an expression, if it stands between operands, is found by a reader that leaves
weaker ones over. -/
def Expr.BindsTighter (power : Nat) : Expr → Prop
  | .binary _ operator _ => power < operator.kind.power
  | _ => True

theorem TokenKind.rightContext_eq {kind : TokenKind} (isBinary : kind.IsBinary) :
    kind.rightContext = kind.rightPower + 1 := by
  unfold rightContext rightPower
  have positive := isBinary.1
  split
  · omega
  · rfl

/-- The token may follow an expression that stands where one of some level is needed: if it has no
parentheses there, its last operand has to stop. -/
def Expr.EndsIn (context : Nat) (expr : Expr) (kind : TokenKind) : Prop :=
  kind ≠ .kwElse ∧ (context ≤ expr.level → kind.power ≤ expr.tailPower)

theorem Expr.stops_before {expr : Expr} {kind : TokenKind}
    (fits : kind.leftContext ≤ expr.level) : kind.power ≤ expr.tailPower := by
  have bounded : kind.power ≤ TokenKind.leftBracket.power := by
    cases kind <;> decide
  have context : kind.power ≤ kind.leftContext := by
    unfold TokenKind.leftContext
    split <;> omega
  cases expr with
  | unary operator operand => exact Nat.le_trans context fits
  | binary left operator right =>
      simp only [Expr.level, Expr.tailPower, TokenKind.rightPower] at fits ⊢
      split
      next caret =>
        -- Another operator that groups to the right would need a higher level here.
        rw [caret] at fits ⊢
        cases kind <;> simp_all [TokenKind.leftContext, TokenKind.power]
      next => exact Nat.le_trans context fits
  | leaf => exact bounded
  | array => exact bounded
  | hash => exact bounded
  | block => exact bounded
  | ifThen => exact bounded
  | ifElse => exact bounded
  | function => exact bounded
  | call => exact bounded
  | index => exact bounded

theorem Expr.endsIn_leftContext (expr : Expr) {kind : TokenKind} (notElse : kind ≠ .kwElse) :
    expr.EndsIn kind.leftContext kind :=
  ⟨notElse, Expr.stops_before⟩

/-! ## Blocks -/

/-- Readers for nested phrases that read printed ones which nest no deeper than a limit. -/
structure Phrases.Prints (style : Style) (limit : Nat) (inner : Phrases) : Prop where
  bare : ∀ {power : Nat} {expr : Expr}, expr.WellFormed → power ≤ unaryPower →
    expr.BindsTighter power → expr.nesting style < limit →
    (inner.expr power).Reads (expr.print style) (EndsAt power)
      fun read => read.unplaced = expr.unplaced
  grouped : ∀ {power : Nat} {expr : Expr}, expr.WellFormed → expr.nesting style + 1 < limit →
    (inner.expr power).Reads (parenthesized (expr.print style)) (EndsAt power)
      fun read => read.unplaced = expr.unplaced
  statement : ∀ {stmt : Stmt}, stmt.WellFormed → stmt.nesting style < limit →
    inner.statement.Reads (stmt.print style) (· ≠ .semicolon)
      fun read => read.unplaced = stmt.unplaced
  conditional : ∀ {expr : Expr}, expr.isConditional = true → expr.WellFormed →
    expr.nesting style < limit →
    inner.conditional.Reads (expr.print style) (· ≠ .kwElse)
      fun read => read.unplaced = expr.unplaced

theorem Expr.BindsTighter.of_level {expr : Expr} {power context : Nat} (below : power < context)
    (fits : context ≤ expr.level) : expr.BindsTighter power := by
  cases expr with
  | binary left operator right => exact Nat.lt_of_lt_of_le below fits
  | _ => trivial

theorem Expr.bindsTighter_zero {expr : Expr} (wellFormed : expr.WellFormed) :
    expr.BindsTighter 0 := by
  cases expr with
  | binary left operator right => exact wellFormed.1.1
  | _ => trivial

namespace Phrases.Prints

variable {style : Style} {limit : Nat} {inner : Phrases}

theorem expr (prints : inner.Prints style limit) {context power : Nat} {expr : Expr}
    (wellFormed : expr.WellFormed) (weak : power ≤ unaryPower)
    (tighter : context ≤ expr.level → expr.BindsTighter power)
    (shallow : style.nestingIn context expr (expr.nesting style) < limit) :
    (inner.expr power).Reads (style.enclose context expr (expr.print style)) (EndsAt power)
      fun read => read.unplaced = expr.unplaced := by
  unfold Style.nestingIn at shallow
  unfold Style.enclose
  by_cases encloses : style.encloses context expr = true
  · rw [if_pos encloses] at shallow ⊢
    exact prints.grouped wellFormed shallow
  · rw [if_neg encloses] at shallow ⊢
    exact prints.bare wellFormed weak (tighter (style.level_of_not_encloses encloses)) shallow

theorem delimited (prints : inner.Prints style limit) {expr : Expr} (wellFormed : expr.WellFormed)
    (shallow : style.nestingIn 0 expr (expr.nesting style) < limit) :
    (inner.expr 0).Reads (style.enclose 0 expr (expr.print style)) (EndsAt 0)
      fun read => read.unplaced = expr.unplaced :=
  prints.expr wellFormed (Nat.zero_le _) (fun _ => Expr.bindsTighter_zero wellFormed) shallow

end Phrases.Prints

namespace Read

variable {style : Style} {limit : Nat} {inner : Phrases}

/-- Statements that follow do not begin with a semicolon that the statement before might take. -/
theorem printAll_stops (style : Style) {statements : List Stmt}
    (wellFormed : Stmt.AllWellFormed statements) {rest : List Token}
    (stop : headKind rest ≠ .semicolon) :
    headKind (Stmt.printAll style statements ++ rest) ≠ .semicolon := by
  cases statements with
  | nil => exact stop
  | cons stmt others =>
      intro semicolon
      rw [Stmt.printAll, List.append_assoc] at semicolon
      have begins := Stmt.print_begins style wellFormed.1 (Stmt.printAll style others ++ rest)
      rw [semicolon] at begins
      cases begins

/-- A loop over statements reads printed ones, if it ends at some token and otherwise goes on after
each statement that is read. -/
theorem statements_reads (prints : inner.Prints style limit)
    (loop : Nat → List Stmt → Read (List Stmt)) (ending : TokenKind)
    (notSemicolon : ending ≠ .semicolon)
    (ends : ∀ budget done (reading : Reading), reading.current.kind = ending →
      loop (budget + 1) done reading = .ok done.reverse reading)
    (goes : ∀ budget done (reading : Reading) stmt rest, reading.current.kind.beginsStmt = true →
      inner.statement reading = .ok stmt rest →
      loop (budget + 1) done reading = loop budget (stmt :: done) rest)
    (statements : List Stmt) (wellFormed : Stmt.AllWellFormed statements)
    (shallow : Stmt.nestingAll style statements ≤ limit) (budget : Nat) (done : List Stmt)
    (enough : (Stmt.printAll style statements).length < budget) :
    (loop budget done).Reads (Stmt.printAll style statements) (· = ending) fun read =>
      read.map Stmt.unplaced = done.reverse.map Stmt.unplaced ++ statements.map Stmt.unplaced := by
  induction statements generalizing budget done with
  | nil =>
      intro placed rest depth found places stop
      obtain rfl := List.map_eq_nil_iff.mp places
      obtain ⟨budget, rfl⟩ : ∃ fewer, budget = fewer + 1 := ⟨budget - 1, by omega⟩
      exact ⟨done.reverse, depth, by simp, ends _ _ _ stop⟩
  | cons stmt others ih =>
      intro placed rest depth found places stop
      have begins := stmt.print_begins style wellFormed.1 (Stmt.printAll style others ++ rest)
      have ahead : (Reading.mk (placed ++ rest) depth found).current.kind =
          headKind (stmt.print style ++ (Stmt.printAll style others ++ rest)) := by
        rw [← List.append_assoc]
        exact headKind_placed rest places
      rw [← ahead] at begins
      obtain ⟨budget, rfl⟩ : ∃ fewer, budget = fewer + 1 := ⟨budget - 1, by omega⟩
      obtain ⟨first, second, rfl, placesFirst, placesSecond⟩ := List.map_eq_append_iff.mp places
      rw [Stmt.nestingAll, Nat.max_le] at shallow
      have stopFirst : headKind (second ++ rest) ≠ .semicolon := by
        rw [headKind_placed rest placesSecond]
        exact printAll_stops style wellFormed.2 (by rwa [stop])
      obtain ⟨read, middle, same, result⟩ := prints.statement wellFormed.1 shallow.1 first
        (second ++ rest) depth found placesFirst stopFirst
      have taken := Stmt.print_length_pos style wellFormed.1
      rw [Stmt.printAll, List.length_append] at enough
      rw [← List.append_assoc] at result
      obtain ⟨values, after, holds, continued⟩ :=
        ih wellFormed.2 shallow.2 budget (read :: done) (by omega) second rest middle found
          placesSecond stop
      refine ⟨values, after, by simpa [same] using holds, ?_⟩
      rw [goes _ _ _ _ _ begins result]
      exact continued

theorem blockStatements_reads (prints : inner.Prints style limit) (blockDepth : Nat)
    (statements : List Stmt) (wellFormed : Stmt.AllWellFormed statements)
    (shallow : Stmt.nestingAll style statements ≤ limit) (budget : Nat)
    (enough : (Stmt.printAll style statements).length < budget) :
    (blockStatements inner.statement blockDepth budget []).Reads (Stmt.printAll style statements)
      (· = .rightBrace) fun read => read.map Stmt.unplaced = statements.map Stmt.unplaced := by
  have notSemicolon : TokenKind.rightBrace ≠ .semicolon := by decide
  apply statements_reads prints (blockStatements inner.statement blockDepth) .rightBrace
    notSemicolon ?_ ?_ statements wellFormed shallow budget [] enough
  · intro budget done reading closing
    exact blockStatements_closing _ _ _ _ closing
  · intro budget done reading stmt rest begins result
    have notClosing : reading.current.kind ≠ .rightBrace := by
      intro closing
      rw [closing] at begins
      cases begins
    have notEnded : reading.current.kind ≠ .endOfInput := by
      intro ended
      rw [ended] at begins
      cases begins
    rw [blockStatements_succ _ _ _ _ notClosing notEnded, result]
    rfl

theorem block_reads (prints : inner.Prints style limit) {body : Block}
    (wellFormed : body.WellFormed) (shallow : body.nesting style ≤ limit) :
    (block inner.statement).Reads (body.print style) (fun _ => True)
      fun read => read.unplaced = body.unplaced := by
  obtain ⟨position, statements⟩ := body
  show (block inner.statement).Reads (TokenKind.leftBrace.mark ::
    (Stmt.printAll style statements ++ [TokenKind.rightBrace.mark])) (fun _ => True) _
  refine .expect rfl fun opening _ => .depth fun blockDepth => .remaining fun budget enough => ?_
  rw [List.length_append] at enough
  refine .bind (blockStatements_reads prints blockDepth statements wellFormed shallow _
    (Nat.lt_succ_of_le (Nat.le_trans (Nat.le_add_right _ _) enough)))
    (fun _ _ => rfl) fun read same => .advance fun _ _ => .pure ?_
  simpa [Block.unplaced, Stmt.unplacedAll_eq] using same

/-! ## Operands -/

theorem leaf_reads {token : Token} (isOperand : token.IsOperand) :
    (operand inner).Reads [token.unplaced] (fun _ => True)
      fun read => read.unplaced = (Expr.leaf token).unplaced := by
  have asLeaf : leaf.Reads [token.unplaced] (fun _ => True)
      fun read => read.unplaced = (Expr.leaf token).unplaced :=
    .advance fun taken same => .pure (by rw [Expr.unplaced, Expr.unplaced, same])
  have asInteger : token.kind = .integer → integer.Reads [token.unplaced] (fun _ => True)
      fun read => read.unplaced = (Expr.leaf token).unplaced := by
    intro isInteger
    simp only [Token.IsOperand, isInteger] at isOperand
    obtain ⟨value, numeral, inRange⟩ := isOperand
    refine .advance fun taken same => ?_
    have sameText : taken.unplaced.text = token.unplaced.text := congrArg Token.text same
    rw [show taken.text = token.text from sameText, numeral]
    dsimp only
    rw [if_neg (Int.not_lt.mpr inRange)]
    exact .pure (by rw [Expr.unplaced, Expr.unplaced, same])
  refine .current fun ahead rest _ isAhead => ?_
  have sameKind : ahead.kind = token.kind := isAhead
  rw [sameKind]
  unfold Token.IsOperand at isOperand
  cases kind : token.kind <;> simp only [kind] at isOperand <;>
    first | exact asLeaf | exact asInteger kind

theorem unary_reads (prints : inner.Prints style limit) {operator : Token} {value : Expr}
    (wellFormed : (Expr.unary operator value).WellFormed)
    (shallow : (Expr.unary operator value).nesting style ≤ limit) :
    (operand inner).Reads ((Expr.unary operator value).print style) (EndsAt unaryPower)
      fun read => read.unplaced = (Expr.unary operator value).unplaced := by
  have tighter : unaryPower ≤ value.level → value.BindsTighter unaryPower := by
    intro fits
    cases value with
    | binary left inside right => exact absurd wellFormed.2.1.2 (Nat.not_lt.mpr fits)
    | _ => trivial
  have asUnary : (unary inner).Reads ((Expr.unary operator value).print style) (EndsAt unaryPower)
      fun read => read.unplaced = (Expr.unary operator value).unplaced := by
    refine .advance fun taken same =>
      .ends (prints.expr wellFormed.2 (Nat.le_refl _) tighter shallow) (fun _ stop => stop)
        fun read sameValue => .pure ?_
    simp only [Expr.unplaced, same, sameValue]
  refine .current fun ahead rest _ isAhead => ?_
  have sameKind : ahead.kind = operator.kind := isAhead
  rcases wellFormed.1 with minus | bang
  · rw [sameKind, minus]
    exact asUnary
  · rw [sameKind, bang]
    exact asUnary

theorem printAll_eq (items : List Expr) :
    Expr.printAll style items = items.map fun item => style.enclose 0 item (item.print style) := by
  induction items with
  | nil => rfl
  | cons item rest ih => rw [Expr.printAll, ih, List.map_cons]

theorem nestingAll_le {items : List Expr} (shallow : Expr.nestingAll style items ≤ limit) :
    ∀ item ∈ items, style.nestingIn 0 item (item.nesting style) < limit := by
  induction items with
  | nil => nofun
  | cons item rest ih =>
      rw [Expr.nestingAll, Nat.max_le] at shallow
      exact List.forall_mem_cons.mpr ⟨shallow.1, ih shallow.2⟩

theorem arguments_reads (prints : inner.Prints style limit) {items : List Expr}
    (wellFormed : Expr.AllWellFormed items) (shallow : Expr.nestingAll style items ≤ limit)
    (closing : Token) (closes : closing.kind = .rightParen ∨ closing.kind = .rightBracket) :
    (closedList (inner.expr 0) closing.kind).Reads
      (commaSeparated (Expr.printAll style items) ++ [closing]) (fun _ => True)
      fun read => Expr.unplacedAll read = Expr.unplacedAll items := by
  have each := nestingAll_le shallow
  rw [Expr.allWellFormed_iff] at wellFormed
  simp only [printAll_eq, Expr.unplacedAll_eq]
  refine closedList_reads items closing ⟨nofun, Nat.le_refl _⟩ ?_ ?_
    (fun item member => prints.delimited (wellFormed item member) (each item member)) ?_
  · rcases closes with paren | bracket
    · rw [paren]
      exact ⟨nofun, Nat.le_refl _⟩
    · rw [bracket]
      exact ⟨nofun, Nat.le_refl _⟩
  · rcases closes with paren | bracket
    · rw [paren]
      decide
    · rw [bracket]
      decide
  · intro item member rest isClosing
    have begins := style.enclose_begins 0 (item.print_begins style (wellFormed item member)) rest
    rw [isClosing] at begins
    rcases closes with paren | bracket
    · rw [paren] at begins
      cases begins
    · rw [bracket] at begins
      cases begins

theorem array_reads (prints : inner.Prints style limit) {position : Position} {items : List Expr}
    (wellFormed : Expr.AllWellFormed items) (shallow : Expr.nestingAll style items ≤ limit) :
    (operand inner).Reads ((Expr.array position items).print style) (fun _ => True)
      fun read => read.unplaced = (Expr.array position items).unplaced := by
  refine .current fun ahead rest _ isAhead => ?_
  have opening : ahead.kind = .leftBracket := isAhead
  rw [opening]
  refine .advance fun _ _ => .ends
    (arguments_reads prints wellFormed shallow TokenKind.rightBracket.mark (.inr rfl))
    (fun _ stop => stop) fun read same => .pure ?_
  simp only [Expr.unplaced, same]

theorem pairs_print_eq (pairs : List Pair) :
    Pair.printAll style pairs = pairs.map fun pair => pair.print style := by
  induction pairs with
  | nil => rfl
  | cons pair rest ih => rw [Pair.printAll, ih, List.map_cons]

theorem pairs_nesting_le {pairs : List Pair} (shallow : Pair.nestingAll style pairs ≤ limit) :
    ∀ pair ∈ pairs, pair.nesting style < limit := by
  induction pairs with
  | nil => nofun
  | cons pair rest ih =>
      rw [Pair.nestingAll, Nat.max_le] at shallow
      exact List.forall_mem_cons.mpr ⟨shallow.1, ih shallow.2⟩

theorem pair_reads (prints : inner.Prints style limit) {entry : Pair}
    (wellFormed : entry.WellFormed) (shallow : entry.nesting style < limit) :
    (pair inner).Reads (entry.print style) (EndsAt 0)
      fun read => read.unplaced = entry.unplaced := by
  obtain ⟨position, key, value⟩ := entry
  rw [Pair.nesting, Nat.max_lt] at shallow
  refine .current fun start _ _ _ => .bind (prints.delimited wellFormed.1 shallow.1)
    (fun _ _ => ⟨nofun, Nat.le_refl _⟩) fun readKey sameKey => .expect rfl fun _ _ =>
      .ends (prints.delimited wellFormed.2 shallow.2) (fun _ stop => stop)
        fun readValue sameValue => .pure ?_
  simp only [Pair.unplaced, sameKey, sameValue]

theorem hash_reads (prints : inner.Prints style limit) {position : Position} {pairs : List Pair}
    (wellFormed : Pair.AllWellFormed pairs) (shallow : Pair.nestingAll style pairs ≤ limit) :
    (operand inner).Reads ((Expr.hash position pairs).print style) (fun _ => True)
      fun read => read.unplaced = (Expr.hash position pairs).unplaced := by
  have each := pairs_nesting_le shallow
  rw [Pair.allWellFormed_iff] at wellFormed
  have list : (closedList (pair inner) .rightBrace).Reads
      (commaSeparated (Pair.printAll style pairs) ++ [TokenKind.rightBrace.mark]) (fun _ => True)
      fun read => Pair.unplacedAll read = Pair.unplacedAll pairs := by
    simp only [pairs_print_eq, Pair.unplacedAll_eq]
    have stopsComma : EndsAt 0 .comma := ⟨nofun, Nat.le_refl _⟩
    have stopsClosing : EndsAt 0 .rightBrace := ⟨nofun, Nat.le_refl _⟩
    apply closedList_reads pairs TokenKind.rightBrace.mark stopsComma stopsClosing (by decide)
    · intro entry member
      exact pair_reads prints (wellFormed entry member) (each entry member)
    · intro entry member rest isClosing
      obtain ⟨position, key, value⟩ := entry
      have begins := style.enclose_begins 0 (key.print_begins style (wellFormed _ member).1)
        (TokenKind.colon.mark :: style.enclose 0 value (value.print style) ++ rest)
      rw [Pair.print, List.append_assoc] at isClosing
      rw [isClosing] at begins
      cases begins
  refine .current fun ahead rest _ isAhead => ?_
  have opening : ahead.kind = .hashBrace := isAhead
  rw [opening]
  refine .advance fun _ _ => .ends list (fun _ stop => stop) fun read same => .pure ?_
  simp only [Expr.unplaced, same]

theorem grouped_reads (prints : inner.Prints style limit) {expr : Expr}
    (wellFormed : expr.WellFormed) (shallow : expr.nesting style < limit) :
    (operand inner).Reads (parenthesized (expr.print style)) (fun _ => True)
      fun read => read.unplaced = expr.unplaced := by
  refine .current fun ahead rest _ isAhead => ?_
  have opening : ahead.kind = .leftParen := isAhead
  rw [opening]
  have bare := prints.bare wellFormed (Nat.zero_le _) (Expr.bindsTighter_zero wellFormed) shallow
  exact .advance fun _ _ => .bind bare (fun _ _ => ⟨nofun, Nat.le_refl _⟩) fun read same =>
    .expect rfl fun _ _ => .pure same

theorem blockExpr_reads (prints : inner.Prints style limit) {body : Block}
    (wellFormed : body.WellFormed) (shallow : body.nesting style ≤ limit) :
    (operand inner).Reads ((Expr.block body).print style) (fun _ => True)
      fun read => read.unplaced = (Expr.block body).unplaced := by
  refine .current fun ahead rest _ isAhead => ?_
  have opening : ahead.kind = .leftBrace := by
    rw [isAhead]
    cases body
    rfl
  rw [opening]
  refine .ends (block_reads prints wellFormed shallow) (fun _ stop => stop)
    fun read same => .pure ?_
  simp only [Expr.unplaced, same]

/-- After an `else` stands the block, or the `if` that is all it holds. -/
theorem printElse_cases (style : Style) (body : Block) :
    (∃ position start value, body = .mk position [.expr start value] ∧
      value.isConditional = true ∧ body.printElse style = value.print style ∧
      body.nestingElse style = value.nesting style + 1) ∨
    (body.printElse style = body.print style ∧ body.nestingElse style = body.nesting style) := by
  obtain ⟨position, statements⟩ := body
  match statements with
  | [.expr start value] =>
      by_cases chained : (value.isConditional &&
        style.chains (.mk position [.expr start value])) = true
      · refine .inl ⟨position, start, value, rfl, (Bool.and_eq_true_iff.mp chained).1, ?_, ?_⟩
        · rw [Block.printElse, if_pos chained]
        · rw [Block.nestingElse, if_pos chained]
      · refine .inr ⟨?_, ?_⟩
        · rw [Block.printElse, if_neg chained]
          simp [Block.print, Stmt.printAll, Stmt.print]
        · rw [Block.nestingElse, if_neg chained]
          simp [Block.nesting, Stmt.nestingAll, Stmt.nesting]
  | [] => exact .inr ⟨rfl, rfl⟩
  | [.binding ..] => exact .inr ⟨rfl, rfl⟩
  | [.returnNil _] => exact .inr ⟨rfl, rfl⟩
  | [.returnValue ..] => exact .inr ⟨rfl, rfl⟩
  | [.block _] => exact .inr ⟨rfl, rfl⟩
  | first :: second :: others => exact .inr ⟨by cases first <;> rfl, by cases first <;> rfl⟩

theorem alternative_reads (prints : inner.Prints style limit) {body : Block}
    (wellFormed : body.WellFormed) (shallow : body.nestingElse style ≤ limit) :
    (alternative inner).Reads (body.printElse style) (· ≠ .kwElse)
      fun read => read.unplaced = body.unplaced := by
  refine .current fun ahead rest _ isAhead => ?_
  rcases printElse_cases style body with
    ⟨position, start, value, rfl, isConditional, printed, nesting⟩ | ⟨printed, nesting⟩
  · rw [nesting] at shallow
    have chained : ahead.kind = .kwIf := by
      rw [isAhead, printed]
      cases value <;> first | rfl | cases isConditional
    rw [chained, printed]
    refine .ends (prints.conditional isConditional wellFormed.1 shallow) (fun _ stop => stop)
      fun read same => .pure ?_
    simp only [Block.unplaced, Stmt.unplacedAll, Stmt.unplaced, same]
  · rw [nesting] at shallow
    have opening : ahead.kind = .leftBrace := by
      rw [isAhead, printed]
      cases body
      rfl
    rw [opening, printed]
    exact (block_reads prints wellFormed shallow).imp (fun _ _ => trivial) fun _ same => same

theorem conditional_reads (prints : inner.Prints style limit) {expr : Expr}
    (isConditional : expr.isConditional = true) (wellFormed : expr.WellFormed)
    (shallow : expr.nesting style ≤ limit) :
    (conditional inner).Reads (expr.print style) (· ≠ .kwElse)
      fun read => read.unplaced = expr.unplaced := by
  have braces : ∀ (body : Block) rest, headKind (body.print style ++ rest) = .leftBrace := by
    intro body rest
    cases body
    rfl
  cases expr with
  | ifThen position condition consequence =>
      obtain ⟨conditionFormed, consequenceFormed⟩ := wellFormed
      rw [Expr.nesting, Nat.max_le] at shallow
      refine .advance fun keyword _ => .bind (prints.delimited conditionFormed shallow.1) ?_
        fun readCondition sameCondition => ?_
      · intro rest _
        rw [braces consequence rest]
        exact ⟨nofun, Nat.le_refl _⟩
      · refine .ends (block_reads prints consequenceFormed shallow.2) (fun _ _ => trivial)
          fun readConsequence sameConsequence => .refuse (fun _ stop => stop) (.pure ?_)
        simp only [Expr.unplaced, sameCondition, sameConsequence]
  | ifElse position condition consequence alternative =>
      obtain ⟨conditionFormed, consequenceFormed, alternativeFormed⟩ := wellFormed
      rw [Expr.nesting, Nat.max_le, Nat.max_le] at shallow
      rw [Expr.print, List.cons_append, List.cons_append, List.append_assoc]
      refine .advance fun keyword _ => .bind (prints.delimited conditionFormed shallow.1.1) ?_
        fun readCondition sameCondition => ?_
      · intro rest _
        rw [List.append_assoc, braces consequence _]
        exact ⟨nofun, Nat.le_refl _⟩
      · refine .bind (block_reads prints consequenceFormed shallow.1.2) (fun _ _ => trivial)
          fun readConsequence sameConsequence => .accept rfl ?_
        refine .ends (alternative_reads prints alternativeFormed shallow.2) (fun _ stop => stop)
          fun readAlternative sameAlternative => .pure ?_
        simp only [Expr.unplaced, sameCondition, sameConsequence, sameAlternative]
  | _ => cases isConditional

theorem ifExpr_reads (prints : inner.Prints style limit) {expr : Expr}
    (isConditional : expr.isConditional = true) (wellFormed : expr.WellFormed)
    (shallow : expr.nesting style ≤ limit) :
    (operand inner).Reads (expr.print style) (· ≠ .kwElse)
      fun read => read.unplaced = expr.unplaced := by
  apply Reads.current
  intro ahead rest _ isAhead
  have keyword : ahead.kind = .kwIf := by
    rw [isAhead]
    cases expr <;> first | rfl | cases isConditional
  rw [keyword]
  exact conditional_reads prints isConditional wellFormed shallow

theorem function_reads (prints : inner.Prints style limit)
    {position parametersPosition : Position} {parameters : List Token} {body : Block}
    (wellFormed : (Expr.function position parametersPosition parameters body).WellFormed)
    (shallow : body.nesting style ≤ limit) :
    (operand inner).Reads
      ((Expr.function position parametersPosition parameters body).print style) (fun _ => True)
      fun read => read.unplaced =
        (Expr.function position parametersPosition parameters body).unplaced := by
  have names : (closedList (Read.expect .identifier) .rightParen).Reads
      (commaSeparated (parameters.map fun parameter => [parameter.unplaced]) ++
        [TokenKind.rightParen.mark]) (fun _ => True)
      fun read => read.map Token.unplaced = parameters.map Token.unplaced := by
    have each : ∀ parameter ∈ parameters, (Read.expect .identifier).Reads [parameter.unplaced]
        (fun _ => True) fun read => read.unplaced = parameter.unplaced :=
      fun parameter member => .expectLast (wellFormed.1 parameter member)
    refine closedList_reads parameters TokenKind.rightParen.mark ?_ ?_ ?_ each ?_
    · trivial
    · trivial
    · decide
    · intro parameter member rest closing
      have isIdentifier : parameter.kind = .rightParen := closing
      rw [wellFormed.1 parameter member] at isIdentifier
      cases isIdentifier
  have tokens : (Expr.function position parametersPosition parameters body).print style =
      TokenKind.kwFn.mark :: TokenKind.leftParen.mark ::
        ((commaSeparated (parameters.map fun parameter => [parameter.unplaced]) ++
          [TokenKind.rightParen.mark]) ++ body.print style) := by
    simp [Expr.print]
  refine .current fun ahead rest _ isAhead => ?_
  have keyword : ahead.kind = .kwFn := isAhead
  rw [keyword, tokens]
  refine .advance fun _ _ => .expect rfl fun _ _ => .bind names (fun _ _ => trivial)
    fun readParameters sameParameters => ?_
  refine .ends (block_reads prints wellFormed.2 shallow) (fun _ stop => stop)
    fun readBody sameBody => .pure ?_
  simp only [Expr.unplaced, sameParameters, sameBody]

end Read

end Monkey
