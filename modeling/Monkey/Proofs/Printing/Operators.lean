import Monkey.Proofs.Printing.Phrases

/-!
# Printed operators are read back

An expression is followed along its left spine, the operands that operators are found after: reading
it comes to the point where the whole of it stands to the left of whatever follows. There it depends
on the power of what follows alone whether the expression is taken as an operand once more.
-/

set_option autoImplicit false

namespace Monkey

namespace Read

variable {style : Style} {limit power : Nat} {inner : Phrases}

/-! ## The left spine -/

/-- Reading an expression comes to the point where another one, given by its tokens, stands to the
left of what follows, provided that this lets the last operand of it stop. -/
def Leads (inner : Phrases) (power : Nat) (tokens : List Token) (stops : TokenKind → Prop)
    (left : Expr) : Prop :=
  ∀ placed rest depth found, placed.map Token.unplaced = tokens → stops (headKind rest) →
    ∃ read budget after, read.unplaced = left.unplaced ∧ rest.length ≤ budget ∧
      expr inner power ⟨placed ++ rest, depth, found⟩ =
        operators inner power budget read ⟨rest, after, found⟩

theorem Leads.operand {tokens : List Token} {stops : TokenKind → Prop} {left : Expr}
    (reads : (Read.operand inner).Reads tokens stops fun read => read.unplaced = left.unplaced) :
    Leads inner power tokens stops left := by
  intro placed rest depth found places stop
  obtain ⟨read, after, same, result⟩ := reads placed rest depth found places stop
  refine ⟨read, rest.length, after, same, Nat.le_refl _, ?_⟩
  rw [expr, bind_apply, result]
  rfl

theorem Leads.anywhere {tokens : List Token} {stops : TokenKind → Prop} {left : Expr}
    (leads : Leads inner power tokens (fun _ => True) left) : Leads inner power tokens stops left :=
  fun placed rest depth found places _ => leads placed rest depth found places trivial

theorem Leads.extend {tokens trailing : List Token} {token : Token}
    {stops stopsAfter : TokenKind → Prop} {left whole : Expr}
    (leads : Leads inner power tokens stops left) (stop : stops token.kind)
    (binds : power < token.kind.power)
    (extending : ∀ read, read.unplaced = left.unplaced →
      (Read.extend inner read).Reads (token :: trailing) stopsAfter
        fun extended => extended.unplaced = whole.unplaced) :
    Leads inner power (tokens ++ token :: trailing) stopsAfter whole := by
  intro placed rest depth found places stopAfter
  obtain ⟨first, second, rfl, placesFirst, placesSecond⟩ := List.map_eq_append_iff.mp places
  have ahead : headKind (second ++ rest) = token.kind := headKind_placed rest placesSecond
  obtain ⟨read, budget, middle, same, enough, result⟩ :=
    leads first (second ++ rest) depth found placesFirst (by rwa [ahead])
  obtain ⟨extended, after, sameWhole, continued⟩ :=
    extending read same second rest middle found placesSecond stopAfter
  have longer : rest.length < (second ++ rest).length := by
    obtain ⟨taken, others, rfl, -⟩ := List.map_eq_cons_iff.mp placesSecond
    rw [List.cons_append, List.length_cons, List.length_append]
    omega
  obtain ⟨budget, rfl⟩ : ∃ fewer, budget = fewer + 1 := ⟨budget - 1, by omega⟩
  refine ⟨extended, budget, after, sameWhole, by omega, ?_⟩
  have goes : power < (Reading.mk (second ++ rest) middle found).current.kind.power := by
    show power < (headKind (second ++ rest)).power
    rwa [ahead]
  rw [List.append_assoc, result, operators, bind_apply]
  simp only [Read.current]
  rw [ite_apply, if_pos goes, bind_apply, continued]

theorem operators_stop {budget : Nat} {left : Expr} {reading : Reading}
    (stop : reading.current.kind.power ≤ power) :
    operators inner power budget left reading = .ok left reading := by
  cases budget with
  | zero => rfl
  | succ budget =>
      rw [operators, bind_apply]
      simp only [Read.current]
      rw [ite_apply, if_neg (Nat.not_lt.mpr stop)]
      rfl

theorem Leads.reads {tokens : List Token} {stops : TokenKind → Prop} {left : Expr}
    (leads : Leads inner power tokens stops left) :
    (expr inner power).Reads tokens (fun kind => stops kind ∧ kind.power ≤ power)
      fun read => read.unplaced = left.unplaced := by
  intro placed rest depth found places stop
  obtain ⟨read, budget, after, same, -, result⟩ := leads placed rest depth found places stop.1
  exact ⟨read, after, same, result.trans (operators_stop stop.2)⟩

/-! ## Operators with their operands -/

theorem binary_reads (prints : inner.Prints style limit) {left right read : Expr} {operator : Token}
    (isBinary : operator.kind.IsBinary) (wellFormed : right.WellFormed)
    (shallow : style.nestingIn operator.kind.rightContext right (right.nesting style) < limit)
    (same : read.unplaced = left.unplaced) :
    (binary inner read).Reads
      (operator.unplaced :: style.enclose operator.kind.rightContext right (right.print style))
      (EndsAt operator.kind.rightPower)
      fun extended => extended.unplaced = (Expr.binary left operator right).unplaced := by
  have weak : operator.kind.rightPower ≤ unaryPower := by
    have bounded := isBinary.2
    unfold TokenKind.rightPower
    split <;> omega
  have below : operator.kind.rightPower < operator.kind.rightContext := by
    rw [TokenKind.rightContext_eq isBinary]
    exact Nat.lt_succ_self _
  have operand := prints.expr wellFormed weak (.of_level below) shallow
  apply Reads.advance
  intro taken sameOperator
  have sameKind : taken.unplaced.kind = operator.unplaced.kind := congrArg Token.kind sameOperator
  rw [show taken.kind = operator.kind from sameKind]
  refine .ends operand (fun _ stop => stop) ?_
  intro readRight sameRight
  exact .pure (by simp only [Expr.unplaced, same, sameOperator, sameRight])

theorem extend_binary_reads (prints : inner.Prints style limit) {left right read : Expr}
    {operator : Token} (isBinary : operator.kind.IsBinary) (wellFormed : right.WellFormed)
    (shallow : style.nestingIn operator.kind.rightContext right (right.nesting style) < limit)
    (same : read.unplaced = left.unplaced) :
    (Read.extend inner read).Reads
      (operator.unplaced :: style.enclose operator.kind.rightContext right (right.print style))
      (EndsAt operator.kind.rightPower)
      fun extended => extended.unplaced = (Expr.binary left operator right).unplaced := by
  apply Reads.current
  intro ahead rest _ isAhead
  have sameKind : ahead.kind = operator.kind := isAhead
  rw [sameKind]
  split
  next isCall =>
    rw [isCall] at isBinary
    exact absurd isBinary (by decide)
  next isIndex =>
    rw [isIndex] at isBinary
    exact absurd isBinary (by decide)
  next => exact binary_reads prints isBinary wellFormed shallow same

theorem extend_call_reads (prints : inner.Prints style limit) {callee read : Expr}
    {position : Position} {arguments : List Expr} (wellFormed : Expr.AllWellFormed arguments)
    (shallow : Expr.nestingAll style arguments ≤ limit) (same : read.unplaced = callee.unplaced) :
    (Read.extend inner read).Reads
      (TokenKind.leftParen.mark ::
        (commaSeparated (Expr.printAll style arguments) ++ [TokenKind.rightParen.mark]))
      (fun _ => True)
      fun extended => extended.unplaced = (Expr.call callee position arguments).unplaced := by
  have list := arguments_reads prints wellFormed shallow TokenKind.rightParen.mark (.inl rfl)
  apply Reads.current
  intro ahead rest _ isAhead
  have opening : ahead.kind = .leftParen := isAhead
  rw [opening]
  apply Reads.advance
  intro taken _
  refine .ends list (fun _ stop => stop) ?_
  intro readArguments sameArguments
  exact .pure (by simp only [Expr.unplaced, same, sameArguments])

theorem extend_index_reads (prints : inner.Prints style limit) {target place read : Expr}
    {position : Position} (wellFormed : place.WellFormed)
    (shallow : style.nestingIn 0 place (place.nesting style) < limit)
    (same : read.unplaced = target.unplaced) :
    (Read.extend inner read).Reads
      (TokenKind.leftBracket.mark ::
        (style.enclose 0 place (place.print style) ++ [TokenKind.rightBracket.mark]))
      (fun _ => True)
      fun extended => extended.unplaced = (Expr.index target position place).unplaced := by
  apply Reads.current
  intro ahead rest _ isAhead
  have opening : ahead.kind = .leftBracket := isAhead
  rw [opening]
  apply Reads.advance
  intro taken _
  refine .bind (prints.delimited wellFormed shallow) (fun _ _ => ⟨nofun, Nat.le_refl _⟩) ?_
  intro readPlace samePlace
  refine .expect rfl fun _ _ => .pure ?_
  simp only [Expr.unplaced, same, samePlace]

/-! ## Whole expressions -/

theorem enclosed_leads (prints : inner.Prints style limit) {context : Nat} {operand : Expr}
    (wellFormed : operand.WellFormed)
    (shallow : style.nestingIn context operand (operand.nesting style) ≤ limit)
    (bare : context ≤ operand.level → operand.nesting style ≤ limit →
      Leads inner power (operand.print style) (EndsAt operand.tailPower) operand) :
    Leads inner power (style.enclose context operand (operand.print style))
      (operand.EndsIn context) operand := by
  unfold Style.nestingIn at shallow
  unfold Style.enclose
  by_cases encloses : style.encloses context operand = true
  · rw [if_pos encloses] at shallow ⊢
    exact .operand ((grouped_reads prints wellFormed shallow).anywhere)
  · rw [if_neg encloses] at shallow ⊢
    have fits := style.level_of_not_encloses encloses
    intro placed rest depth found places stop
    exact bare fits shallow placed rest depth found places ⟨stop.1, stop.2 fits⟩

/-- A printed expression is read up to the point where it stands to the left of what follows. -/
theorem expr_leads (prints : inner.Prints style limit) (weak : power ≤ unaryPower) :
    ∀ expr : Expr, expr.WellFormed → expr.nesting style ≤ limit → expr.BindsTighter power →
      Leads inner power (expr.print style) (EndsAt expr.tailPower) expr
  | .leaf token, wellFormed, _, _ => .operand (leaf_reads wellFormed).anywhere
  | .unary operator operand, wellFormed, shallow, _ =>
      .operand (unary_reads prints wellFormed shallow)
  | .binary left operator right, wellFormed, shallow, tighter => by
      obtain ⟨isBinary, leftFormed, rightFormed⟩ := wellFormed
      rw [Expr.nesting, Nat.max_le] at shallow
      have tighter : power < operator.kind.power := tighter
      have below : power < operator.kind.leftContext := by
        unfold TokenKind.leftContext
        split <;> omega
      have notElse : operator.kind ≠ .kwElse := by
        intro isElse
        rw [isElse] at isBinary
        exact absurd isBinary (by decide)
      have first := enclosed_leads prints leftFormed shallow.1 fun fits within =>
        expr_leads prints weak left leftFormed within (.of_level below fits)
      refine first.extend (left.endsIn_leftContext notElse) tighter ?_
      intro read same
      exact extend_binary_reads prints isBinary rightFormed shallow.2 same
  | .array .., wellFormed, shallow, _ =>
      .operand (array_reads prints wellFormed shallow).anywhere
  | .hash .., wellFormed, shallow, _ =>
      .operand (hash_reads prints wellFormed shallow).anywhere
  | .block _, wellFormed, shallow, _ =>
      .operand (blockExpr_reads prints wellFormed shallow).anywhere
  | .ifThen .., wellFormed, shallow, _ =>
      .operand ((ifExpr_reads prints rfl wellFormed shallow).imp (fun _ stop => stop.1)
        fun _ same => same)
  | .ifElse .., wellFormed, shallow, _ =>
      .operand ((ifExpr_reads prints rfl wellFormed shallow).imp (fun _ stop => stop.1)
        fun _ same => same)
  | .function .., wellFormed, shallow, _ =>
      .operand (function_reads prints wellFormed shallow).anywhere
  | .call callee position arguments, wellFormed, shallow, _ => by
      obtain ⟨calleeFormed, argumentsFormed⟩ := wellFormed
      rw [Expr.nesting, Nat.max_le] at shallow
      have below : power < TokenKind.leftParen.power := Nat.lt_of_le_of_lt weak (by decide)
      have first := enclosed_leads prints calleeFormed shallow.1 fun fits within =>
        expr_leads prints weak callee calleeFormed within (.of_level below fits)
      have opening : callee.EndsIn TokenKind.leftParen.power TokenKind.leftParen.mark.kind :=
        callee.endsIn_leftContext (by decide)
      rw [Expr.print, List.append_assoc]
      refine (first.extend opening below ?_).anywhere
      intro read same
      exact extend_call_reads prints argumentsFormed shallow.2 same
  | .index target position place, wellFormed, shallow, _ => by
      obtain ⟨targetFormed, placeFormed⟩ := wellFormed
      rw [Expr.nesting, Nat.max_le] at shallow
      have below : power < TokenKind.leftBracket.power := Nat.lt_of_le_of_lt weak (by decide)
      have first := enclosed_leads prints targetFormed shallow.1 fun fits within =>
        expr_leads prints weak target targetFormed within (.of_level below fits)
      have opening : target.EndsIn TokenKind.leftBracket.power TokenKind.leftBracket.mark.kind :=
        target.endsIn_leftContext (by decide)
      rw [Expr.print, List.append_assoc]
      refine (first.extend opening below ?_).anywhere
      intro read same
      exact extend_index_reads prints placeFormed shallow.2 same

theorem expr_reads (prints : inner.Prints style limit) {value : Expr}
    (wellFormed : value.WellFormed) (weak : power ≤ unaryPower) (tighter : value.BindsTighter power)
    (shallow : value.nesting style ≤ limit) :
    (expr inner power).Reads (value.print style) (EndsAt power)
      fun read => read.unplaced = value.unplaced := by
  have bounded : unaryPower ≤ TokenKind.leftBracket.power := by decide
  have within : power ≤ value.tailPower := by
    cases value with
    | unary operator operand => exact weak
    | binary left operator right =>
        have tighter : power < operator.kind.power := tighter
        simp only [Expr.tailPower, TokenKind.rightPower]
        split <;> omega
    | _ => exact Nat.le_trans weak bounded
  refine (expr_leads prints weak value wellFormed shallow tighter).reads.imp ?_ fun _ same => same
  intro kind stop
  exact ⟨⟨stop.1, Nat.le_trans stop.2 within⟩, stop.2⟩

theorem expr_parenthesized_reads (prints : inner.Prints style limit) {value : Expr}
    (wellFormed : value.WellFormed) (shallow : value.nesting style < limit) :
    (expr inner power).Reads (parenthesized (value.print style)) (EndsAt power)
      fun read => read.unplaced = value.unplaced := by
  have leads : Leads inner power (parenthesized (value.print style)) (fun _ => True) value :=
    .operand (grouped_reads prints wellFormed shallow)
  exact leads.reads.imp (fun _ stop => ⟨trivial, stop.2⟩) fun _ same => same

end Read

end Monkey
