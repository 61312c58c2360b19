import Monkey.Proofs.Ast.Alike
import Monkey.Proofs.Program.Isolation

/-!
# Reading does not depend on places

Tokens that differ in their positions alone are read as phrases that differ in their positions
alone, and go wrong in the same way. What is read is well formed, whatever the tokens are.
-/

set_option autoImplicit false

namespace Monkey

/-- The same state of reading but for the positions of the tokens and for what has been found wrong,
of which there is as much. -/
structure Reading.Alike (first second : Reading) : Prop where
  tokens : first.tokens.map Token.unplaced = second.tokens.map Token.unplaced
  depth : first.depth = second.depth
  found : first.diagnostics.length = second.diagnostics.length

/-- What is read is the same up to positions. -/
abbrev Expr.Same : Expr → Expr → Prop := Expr.Alike False

abbrev Stmt.Same : Stmt → Stmt → Prop := Stmt.Alike False

abbrev Block.Same : Block → Block → Prop := Block.Alike False

namespace Reading.Alike

variable {reading reading' : Reading}

theorem refl (reading : Reading) : reading.Alike reading := ⟨rfl, rfl, rfl⟩

theorem length_eq (alike : reading.Alike reading') :
    reading.tokens.length = reading'.tokens.length := by
  simpa using congrArg List.length alike.tokens

theorem current (alike : reading.Alike reading') :
    reading.current.Alike False reading'.current := by
  refine ⟨trivial, ?_, False.elim⟩
  obtain ⟨same, -, -⟩ := alike
  unfold Reading.current
  cases tokens : reading.tokens with
  | nil =>
      rw [tokens] at same
      rw [List.map_eq_nil_iff.mp same.symm]
  | cons token rest =>
      rw [tokens] at same
      obtain ⟨token', rest', split, first, -⟩ := List.map_eq_cons_iff.mp same.symm
      rw [split]
      exact first.symm

theorem advance (alike : reading.Alike reading') : reading.advance.Alike reading'.advance := by
  obtain ⟨same, depth, found⟩ := alike
  unfold Reading.advance
  cases tokens : reading.tokens with
  | nil =>
      rw [tokens] at same
      rw [List.map_eq_nil_iff.mp same.symm]
      exact ⟨by rw [tokens]; exact same, depth, found⟩
  | cons token rest =>
      rw [tokens] at same
      obtain ⟨token', rest', split, first, others⟩ := List.map_eq_cons_iff.mp same.symm
      have kind := ((Token.unplaced_eq_iff _ _).mp first).1
      rw [split]
      refine ⟨others.symm, ?_, found⟩
      simp only [kind, depth]

theorem record (alike : reading.Alike reading') (diagnostic diagnostic' : Diagnostic) :
    (reading.record diagnostic).Alike (reading'.record diagnostic') :=
  ⟨alike.tokens, alike.depth, by simp [Reading.record, alike.found]⟩

end Reading.Alike

namespace Read

variable {α β : Type}

/-- Two readers came to the same end: to values that are the same, or to a failure of one sort. -/
inductive Agree (same : α → α → Prop) :
    EStateM.Result ReadFailure Reading α → EStateM.Result ReadFailure Reading α → Prop
  | ok {value value' : α} {rest rest' : Reading} (values : same value value')
      (readings : rest.Alike rest') : Agree same (.ok value rest) (.ok value' rest')
  | fault {fault fault' : SyntaxFault} {position position' : Position} {rest rest' : Reading}
      (readings : rest.Alike rest') :
      Agree same (.error (.fault fault position) rest) (.error (.fault fault' position') rest')
  | tooDeep {rest rest' : Reading} (readings : rest.Alike rest') :
      Agree same (.error .tooDeep rest) (.error .tooDeep rest')
  | numeral {unread : Text.NumeralFault} {rest rest' : Reading} (readings : rest.Alike rest') :
      Agree same (.error (.numeral unread) rest) (.error (.numeral unread) rest')

/-- The readers agree wherever they begin alike. -/
def Agrees (same : α → α → Prop) (read read' : Read α) : Prop :=
  ∀ reading reading' : Reading, reading.Alike reading' →
    Agree same (read reading) (read' reading')

section Rules

variable {same : α → α → Prop} {sameNext : β → β → Prop} {read read' : Read α}
  {reading reading' : Reading}

theorem Agree.bind {next next' : α → Read β} (head : Agree same (read reading) (read' reading'))
    (tail : ∀ value value', same value value' → Agrees sameNext (next value) (next' value')) :
    Agree sameNext ((read >>= next) reading) ((read' >>= next') reading') := by
  rw [bind_apply, bind_apply]
  generalize read reading = result, read' reading' = result' at head
  cases head with
  | ok values readings => exact tail _ _ values _ _ readings
  | fault readings => exact .fault readings
  | tooDeep readings => exact .tooDeep readings
  | numeral readings => exact .numeral readings

theorem Agrees.bind {next next' : α → Read β} (head : Agrees same read read')
    (tail : ∀ value value', same value value' → Agrees sameNext (next value) (next' value')) :
    Agrees sameNext (read >>= next) (read' >>= next') :=
  fun reading reading' alike => .bind (head reading reading' alike) tail

theorem Agrees.pure {value value' : α} (values : same value value') :
    Agrees same (Pure.pure value) (Pure.pure value') :=
  fun _ _ alike => .ok values alike

theorem Agrees.fail (fault fault' : SyntaxFault) (position position' : Position) :
    Agrees same (Read.fail fault position) (Read.fail fault' position') :=
  fun _ _ alike => .fault alike

theorem Agrees.advance : Agrees (Token.Alike False) Read.advance Read.advance :=
  fun _ _ alike => .ok alike.current alike.advance

theorem Agree.advance {next next' : Token → Read α}
    (tail : Agree same (next reading.current reading.advance)
      (next' reading'.current reading'.advance)) :
    Agree same ((Read.advance >>= next) reading) ((Read.advance >>= next') reading') :=
  tail

theorem Agree.current {next next' : Token → Read α}
    (tail : Agree same (next reading.current reading) (next' reading'.current reading')) :
    Agree same ((Read.current >>= next) reading) ((Read.current >>= next') reading') :=
  tail

/-- A reader that looks at the next token before it goes on. -/
theorem Agrees.current {next next' : Token → Read α}
    (tail : ∀ ahead ahead', ahead.Alike False ahead' → ∀ reading reading' : Reading,
      reading.current = ahead → reading'.current = ahead' → reading.Alike reading' →
      Agree same (next ahead reading) (next' ahead' reading')) :
    Agrees same (Read.current >>= next) (Read.current >>= next') :=
  fun reading reading' alike => tail _ _ alike.current reading reading' rfl rfl alike

theorem Agrees.remaining {next next' : Nat → Read α}
    (tail : ∀ budget, Agrees same (next budget) (next' budget)) :
    Agrees same (Read.remaining >>= next) (Read.remaining >>= next') := by
  intro reading reading' alike
  show Agree same (next reading.tokens.length reading) (next' reading'.tokens.length reading')
  rw [alike.length_eq]
  exact tail _ reading reading' alike

theorem Agrees.depth {next next' : Nat → Read α}
    (tail : ∀ depth, Agrees same (next depth) (next' depth)) :
    Agrees same (Read.depth >>= next) (Read.depth >>= next') := by
  intro reading reading' alike
  show Agree same (next reading.depth reading) (next' reading'.depth reading')
  rw [alike.depth]
  exact tail _ reading reading' alike

theorem Agrees.failExpecting (wanted : Expectation) :
    Agrees same (Read.failExpecting wanted) (Read.failExpecting wanted) :=
  fun _ _ alike => .fault alike

theorem Agrees.expect (kind : TokenKind) :
    Agrees (fun token token' => token.kind = kind ∧ token.Alike False token')
      (Read.expect kind) (Read.expect kind) := by
  intro reading reading' alike
  rw [expect_apply, expect_apply, alike.current.kind]
  by_cases expected : reading'.current.kind = kind
  · rw [if_pos expected, if_pos expected]
    exact .ok ⟨alike.current.kind.trans expected, alike.current⟩ alike.advance
  · rw [if_neg expected, if_neg expected]
    exact .fault alike

theorem Agrees.accept (kind : TokenKind) :
    Agrees (· = ·) (Read.accept kind) (Read.accept kind) := by
  intro reading reading' alike
  rw [accept_apply, accept_apply, alike.current.kind]
  by_cases accepted : reading'.current.kind = kind
  · rw [if_pos accepted, if_pos accepted]
    exact .ok rfl alike.advance
  · rw [if_neg accepted, if_neg accepted]
    exact .ok rfl alike

end Rules

/-! ## Lists -/

section Lists

variable {same : α → α → Prop} {item : Read α}

theorem moreItems_agrees (items : Agrees same item item) (budget : Nat) {done done' : List α}
    (sofar : List.Forall₂ same done done') :
    Agrees (List.Forall₂ same) (moreItems item budget done) (moreItems item budget done') := by
  induction budget generalizing done done' with
  | zero => exact .pure (List.forall₂_reverse_iff.mpr sofar)
  | succ budget ih =>
      refine .bind (.accept .comma) fun accepted _ isSame => ?_
      subst isSame
      cases accepted with
      | false => exact .pure (List.forall₂_reverse_iff.mpr sofar)
      | true => exact .bind items fun value value' values => ih (.cons values sofar)

theorem closedList_agrees (items : Agrees same item item) (closing : TokenKind) :
    Agrees (List.Forall₂ same) (closedList item closing) (closedList item closing) := by
  have close : ∀ {list list' : List α}, List.Forall₂ same list list' →
      Agrees (List.Forall₂ same) (do let _ ← Read.expect closing; Pure.pure list)
        (do let _ ← Read.expect closing; Pure.pure list') :=
    fun lists => .bind (.expect closing) fun _ _ _ => .pure lists
  have some : Agrees (List.Forall₂ same) (Read.items item) (Read.items item) := by
    refine .bind items fun first first' firsts => ?_
    exact .remaining fun budget => moreItems_agrees items budget (.cons firsts .nil)
  refine .current fun ahead ahead' kinds reading reading' _ _ alike => ?_
  rw [kinds.kind]
  by_cases empty : ahead'.kind = closing
  · rw [if_pos empty]
    exact .bind ((Agrees.pure .nil) reading reading' alike) fun _ _ lists => close lists
  · rw [if_neg empty]
    exact .bind (some reading reading' alike) fun _ _ lists => close lists

end Lists

end Read

/-! ## Blocks -/

/-- Readers for nested phrases that do not depend on places, and read well-formed phrases. -/
structure Phrases.Agree (inner : Phrases) : Prop where
  expr : ∀ power, Read.Agrees Expr.Same (inner.expr power) (inner.expr power)
  statement : Read.Agrees Stmt.Same inner.statement inner.statement
  conditional : Read.Agrees Expr.Same inner.conditional inner.conditional

namespace Read

variable {inner : Phrases}

theorem skipInBlock_alike (blockDepth : Nat) (tokens tokens' : List Token) (depth : Nat)
    (same : tokens.map Token.unplaced = tokens'.map Token.unplaced) :
    (skipInBlock blockDepth tokens depth).1.map Token.unplaced =
        (skipInBlock blockDepth tokens' depth).1.map Token.unplaced ∧
      (skipInBlock blockDepth tokens depth).2 = (skipInBlock blockDepth tokens' depth).2 := by
  induction tokens generalizing tokens' depth with
  | nil =>
      obtain rfl := List.map_eq_nil_iff.mp same.symm
      exact ⟨rfl, rfl⟩
  | cons token rest ih =>
      obtain ⟨token', rest', rfl, first, others⟩ := List.map_eq_cons_iff.mp same.symm
      have kind := ((Token.unplaced_eq_iff _ _).mp first).1
      simp only [skipInBlock, kind]
      split
      · exact ⟨same, rfl⟩
      split
      · exact ⟨others.symm, rfl⟩
      · exact ih rest' _ others.symm

theorem skipStatement_alike (tokens tokens' : List Token) (depth : Nat)
    (same : tokens.map Token.unplaced = tokens'.map Token.unplaced) :
    (skipStatement tokens depth).map Token.unplaced =
      (skipStatement tokens' depth).map Token.unplaced := by
  induction tokens generalizing tokens' depth with
  | nil =>
      obtain rfl := List.map_eq_nil_iff.mp same.symm
      rfl
  | cons token rest ih =>
      obtain ⟨token', rest', rfl, first, others⟩ := List.map_eq_cons_iff.mp same.symm
      have kind := ((Token.unplaced_eq_iff _ _).mp first).1
      simp only [skipStatement, kind]
      split
      · exact same
      split
      · exact ih rest' _ others.symm
      split
      · cases rest with
        | nil =>
            obtain rfl := List.map_eq_nil_iff.mp others
            rfl
        | cons next after =>
            obtain ⟨next', after', rfl, nextSame, afterSame⟩ := List.map_eq_cons_iff.mp others
            have nextKind := ((Token.unplaced_eq_iff _ _).mp nextSame).1
            simp only [nextKind]
            split
            · exact afterSame.symm
            · exact others.symm
      split
      · exact others.symm
      · exact ih rest' _ others.symm

theorem resumed_alike {reading reading' : Reading} (alike : reading.Alike reading')
    (blockDepth : Nat) : (reading.resumed blockDepth).Alike (reading'.resumed blockDepth) := by
  obtain ⟨tokens, depth⟩ :=
    skipInBlock_alike blockDepth reading.tokens reading'.tokens reading.depth alike.tokens
  rw [alike.depth] at tokens depth
  exact ⟨by simpa [Reading.resumed, alike.depth] using tokens,
    by simpa [Reading.resumed, alike.depth] using depth, alike.found⟩

theorem restarted_alike {reading reading' : Reading} (alike : reading.Alike reading')
    (diagnostic diagnostic' : Diagnostic) :
    (reading.restarted diagnostic).Alike (reading'.restarted diagnostic') := by
  have tokens := skipStatement_alike reading.tokens reading'.tokens reading.depth alike.tokens
  refine ⟨?_, rfl, by simp [Reading.restarted, alike.found]⟩
  rw [alike.depth] at tokens
  simpa [Reading.restarted, alike.depth] using tokens

theorem blockStatements_agrees (nested : inner.Agree) (blockDepth budget : Nat)
    {done done' : List Stmt} (sofar : List.Forall₂ Stmt.Same done done') :
    Agrees (List.Forall₂ Stmt.Same) (blockStatements inner.statement blockDepth budget done)
      (blockStatements inner.statement blockDepth budget done') := by
  induction budget generalizing done done' with
  | zero => exact .pure (List.forall₂_reverse_iff.mpr sofar)
  | succ budget ih =>
      intro reading reading' alike
      have kind := alike.current.kind
      by_cases closing : reading.current.kind = .rightBrace
      · rw [blockStatements_closing _ _ _ _ closing,
          blockStatements_closing _ _ _ _ (kind ▸ closing)]
        exact .ok (List.forall₂_reverse_iff.mpr sofar) alike
      by_cases ended : reading.current.kind = .endOfInput
      · rw [blockStatements_ended _ _ _ _ ended, blockStatements_ended _ _ _ _ (kind ▸ ended)]
        exact .fault alike
      rw [blockStatements_succ _ _ _ _ closing ended,
        blockStatements_succ _ _ _ _ (kind ▸ closing) (kind ▸ ended)]
      have statements := nested.statement reading reading' alike
      generalize inner.statement reading = result, inner.statement reading' = result'
        at statements
      cases statements with
      | ok values readings => exact ih (.cons values sofar) _ _ readings
      | tooDeep readings => exact .tooDeep readings
      | numeral readings => exact .numeral readings
      | fault readings =>
          have resumed := resumed_alike readings blockDepth
          simp only [afterStatement, resumed.current.kind]
          split
          · exact .fault resumed
          · exact ih sofar _ _ (resumed.record _ _)

theorem block_agrees (nested : inner.Agree) :
    Agrees Block.Same (block inner.statement) (block inner.statement) := by
  refine .bind (.expect .leftBrace) fun opening opening' _ => ?_
  refine .depth fun blockDepth => .remaining fun budget => ?_
  refine .bind (blockStatements_agrees nested blockDepth (budget + 1) .nil)
    fun list list' lists => ?_
  refine .bind .advance fun _ _ _ => .pure ⟨?_, ?_, False.elim⟩
  · exact (Stmt.allWellFormed_iff list).mpr (forall_of_alike lists)
  · simp only [Block.unplaced, Stmt.unplacedAll_eq, map_eq_of_alike lists]

/-! ## Operands -/

theorem leaf_agrees {reading reading' : Reading} (alike : reading.Alike reading')
    (isOperand : reading.current.IsOperand) :
    Agree Expr.Same (leaf reading) (leaf reading') := by
  have taken := alike.current
  exact .ok ⟨isOperand, congrArg Expr.leaf taken.erased, False.elim⟩ alike.advance

theorem integer_agrees {reading reading' : Reading} (alike : reading.Alike reading')
    (isInteger : reading.current.kind = .integer) :
    Agree Expr.Same (integer reading) (integer reading') := by
  have taken := alike.current
  rw [integer_apply, integer_apply, ← taken.text]
  cases valued : Text.readInteger reading.current.text with
  | error unread => exact .numeral alike.advance
  | ok value =>
      dsimp only
      by_cases large : Integer.largest < value
      · rw [if_pos large, if_pos large]
        exact .fault alike.advance
      · have isOperand : reading.current.IsOperand := by
          simp only [Token.IsOperand, isInteger]
          exact ⟨value, valued, Int.not_lt.mp large⟩
        rw [if_neg large, if_neg large]
        exact .ok ⟨isOperand, congrArg Expr.leaf taken.erased, False.elim⟩ alike.advance

theorem unary_agrees (nested : inner.Agree) {reading reading' : Reading}
    (alike : reading.Alike reading') (isUnary : reading.current.kind.IsUnary) :
    Agree Expr.Same (unary inner reading) (unary inner reading') := by
  have operators := alike.current
  have operands := nested.expr unaryPower _ _ alike.advance
  refine .advance (operands.bind fun operand operand' same => ?_)
  refine .pure ⟨⟨isUnary, same.wellFormed⟩, ?_, False.elim⟩
  simp only [Expr.unplaced, operators.erased, same.erased]

theorem grouped_agrees (nested : inner.Agree) :
    Agrees Expr.Same (grouped inner) (grouped inner) := by
  refine .bind .advance fun _ _ _ => ?_
  refine .bind (nested.expr 0) fun value value' values => ?_
  exact .bind (.expect .rightParen) fun _ _ _ => .pure values

theorem array_agrees (nested : inner.Agree) : Agrees Expr.Same (array inner) (array inner) := by
  refine .bind .advance fun opening opening' _ => ?_
  refine .bind (closedList_agrees (nested.expr 0) .rightBracket) fun items items' same => ?_
  refine .pure ⟨(Expr.allWellFormed_iff items).mpr (forall_of_alike same), ?_, False.elim⟩
  simp only [Expr.unplaced, Expr.unplacedAll_eq, map_eq_of_alike same]

theorem pair_agrees (nested : inner.Agree) :
    Agrees (Pair.Alike False) (pair inner) (pair inner) := by
  refine .current fun start start' _ reading reading' _ _ alike => ?_
  refine .bind (nested.expr 0 _ _ alike) fun key key' keys => ?_
  refine .bind (.expect .colon) fun _ _ _ => ?_
  refine .bind (nested.expr 0) fun value value' values => ?_
  refine .pure ⟨⟨keys.wellFormed, values.wellFormed⟩, ?_, False.elim⟩
  simp only [Pair.unplaced, keys.erased, values.erased]

theorem hash_agrees (nested : inner.Agree) : Agrees Expr.Same (hash inner) (hash inner) := by
  refine .bind .advance fun opening opening' _ => ?_
  refine .bind (closedList_agrees (pair_agrees nested) .rightBrace) fun pairs pairs' same => ?_
  refine .pure ⟨(Pair.allWellFormed_iff pairs).mpr (forall_of_alike same), ?_, False.elim⟩
  simp only [Expr.unplaced, Pair.unplacedAll_eq, map_eq_of_alike same]

theorem alternative_agrees (nested : inner.Agree) :
    Agrees Block.Same (alternative inner) (alternative inner) := by
  refine .current fun next next' kinds reading reading' _ _ alike => ?_
  rw [← kinds.kind]
  cases next.kind with
  | kwIf =>
      refine .bind (nested.conditional _ _ alike) fun value value' values => ?_
      refine .pure ⟨⟨values.wellFormed, trivial⟩, ?_, False.elim⟩
      simp only [Block.unplaced, Stmt.unplacedAll, Stmt.unplaced, values.erased]
  | leftBrace => exact block_agrees nested _ _ alike
  | _ => exact .fault alike

theorem conditional_agrees (nested : inner.Agree) :
    Agrees Expr.Same (conditional inner) (conditional inner) := by
  refine .bind .advance fun keyword keyword' _ => ?_
  refine .bind (nested.expr 0) fun condition condition' conditions => ?_
  refine .bind (block_agrees nested) fun consequence consequence' consequences => ?_
  refine .bind (.accept .kwElse) fun otherwise _ isSame => ?_
  subst isSame
  cases otherwise with
  | false =>
      refine .pure ⟨⟨conditions.wellFormed, consequences.wellFormed⟩, ?_, False.elim⟩
      simp only [Expr.unplaced, conditions.erased, consequences.erased]
  | true =>
      refine .bind (alternative_agrees nested) fun _ _ alternatives => ?_
      refine .pure ⟨⟨conditions.wellFormed, consequences.wellFormed, alternatives.wellFormed⟩,
        ?_, False.elim⟩
      simp only [Expr.unplaced, conditions.erased, consequences.erased, alternatives.erased]

theorem function_agrees (nested : inner.Agree) :
    Agrees Expr.Same (function inner) (function inner) := by
  refine .bind .advance fun keyword keyword' _ => ?_
  refine .bind (.expect .leftParen) fun opening opening' _ => ?_
  refine .bind (closedList_agrees (.expect .identifier) .rightParen)
    fun parameters parameters' same => ?_
  refine .bind (block_agrees nested) fun body body' bodies => ?_
  have named : ∀ parameter ∈ parameters, parameter.kind = .identifier :=
    forall_of_alike (same.imp fun _ _ both => ⟨both.1, both.2.erased, False.elim⟩)
  have erased : parameters.map Token.unplaced = parameters'.map Token.unplaced :=
    map_eq_of_alike (same.imp fun _ _ both => both.2)
  refine .pure ⟨⟨named, bodies.wellFormed⟩, ?_, False.elim⟩
  simp only [Expr.unplaced, erased, bodies.erased]

theorem operand_agrees (nested : inner.Agree) :
    Agrees Expr.Same (operand inner) (operand inner) := by
  refine .current fun next next' kinds reading reading' isNext _ alike => ?_
  subst isNext
  rw [← kinds.kind]
  cases kind : reading.current.kind with
  | identifier | string | kwTrue | kwFalse | kwNil =>
      exact leaf_agrees alike (by simp only [Token.IsOperand, kind])
  | integer => exact integer_agrees alike kind
  | minus => exact unary_agrees nested alike (.inl kind)
  | bang => exact unary_agrees nested alike (.inr kind)
  | leftParen => exact grouped_agrees nested _ _ alike
  | leftBracket => exact array_agrees nested _ _ alike
  | hashBrace => exact hash_agrees nested _ _ alike
  | leftBrace =>
      refine .bind (block_agrees nested _ _ alike) fun body body' bodies => ?_
      exact .pure ⟨bodies.wellFormed, congrArg Expr.block bodies.erased, False.elim⟩
  | kwIf => exact conditional_agrees nested _ _ alike
  | kwFn => exact function_agrees nested _ _ alike
  | _ => exact .fault alike

/-! ## Operators -/

theorem call_agrees (nested : inner.Agree) {left left' : Expr} (lefts : left.Same left') :
    Agrees Expr.Same (call inner left) (call inner left') := by
  refine .bind .advance fun opening opening' _ => ?_
  refine .bind (closedList_agrees (nested.expr 0) .rightParen) fun items items' same => ?_
  refine .pure ⟨⟨lefts.wellFormed, (Expr.allWellFormed_iff items).mpr (forall_of_alike same)⟩,
    ?_, False.elim⟩
  simp only [Expr.unplaced, Expr.unplacedAll_eq, lefts.erased, map_eq_of_alike same]

theorem index_agrees (nested : inner.Agree) {left left' : Expr} (lefts : left.Same left') :
    Agrees Expr.Same (index inner left) (index inner left') := by
  refine .bind .advance fun opening opening' _ => ?_
  refine .bind (nested.expr 0) fun place place' places => ?_
  refine .bind (.expect .rightBracket) fun _ _ _ => ?_
  refine .pure ⟨⟨lefts.wellFormed, places.wellFormed⟩, ?_, False.elim⟩
  simp only [Expr.unplaced, lefts.erased, places.erased]

theorem binary_agrees (nested : inner.Agree) {left left' : Expr} (lefts : left.Same left')
    {reading reading' : Reading} (alike : reading.Alike reading')
    (isBinary : reading.current.kind.IsBinary) :
    Agree Expr.Same (binary inner left reading) (binary inner left' reading') := by
  have operators := alike.current
  have rights := nested.expr reading.current.kind.rightPower _ _ alike.advance
  refine .advance ?_
  rw [← operators.kind]
  refine rights.bind fun right right' same => ?_
  refine .pure ⟨⟨isBinary, lefts.wellFormed, same.wellFormed⟩, ?_, False.elim⟩
  simp only [Expr.unplaced, lefts.erased, operators.erased, same.erased]

theorem extend_agrees (nested : inner.Agree) {left left' : Expr} (lefts : left.Same left')
    {reading reading' : Reading} (alike : reading.Alike reading')
    (binds : 0 < reading.current.kind.power) :
    Agree Expr.Same (extend inner left reading) (extend inner left' reading') := by
  have isBinary : reading.current.kind ≠ .leftParen → reading.current.kind ≠ .leftBracket →
      reading.current.kind.IsBinary := by
    intro notParen notBracket
    refine ⟨binds, ?_⟩
    cases kind : reading.current.kind <;> simp_all [TokenKind.power, unaryPower]
  refine .current ?_
  rw [← alike.current.kind]
  cases kind : reading.current.kind with
  | leftParen => exact call_agrees nested lefts _ _ alike
  | leftBracket => exact index_agrees nested lefts _ _ alike
  | _ => exact binary_agrees nested lefts alike (isBinary (by simp [kind]) (by simp [kind]))

theorem operators_agrees (nested : inner.Agree) (power budget : Nat) {left left' : Expr}
    (lefts : left.Same left') :
    Agrees Expr.Same (operators inner power budget left) (operators inner power budget left') := by
  induction budget generalizing left left' with
  | zero => exact .pure lefts
  | succ budget ih =>
      refine .current fun next next' kinds reading reading' isNext _ alike => ?_
      subst isNext
      rw [← kinds.kind]
      by_cases binds : power < reading.current.kind.power
      · rw [if_pos binds, if_pos binds]
        have extended := extend_agrees nested lefts alike (Nat.zero_lt_of_lt binds)
        exact extended.bind fun _ _ values => ih values
      · rw [if_neg binds, if_neg binds]
        exact .ok lefts alike

theorem expr_agrees (nested : inner.Agree) (power : Nat) :
    Agrees Expr.Same (expr inner power) (expr inner power) := by
  refine .bind (operand_agrees nested) fun left left' lefts => ?_
  exact .remaining fun budget => operators_agrees nested power budget lefts

/-! ## Statements -/

theorem binding_agrees (nested : inner.Agree) :
    Agrees Stmt.Same (binding inner) (binding inner) := by
  refine .bind .advance fun keyword keyword' _ => ?_
  refine .bind (.expect .identifier) fun name name' names => ?_
  refine .bind (.expect .assign) fun _ _ _ => ?_
  refine .bind (nested.expr 0) fun value value' values => ?_
  refine .bind (.expect .semicolon) fun _ _ _ => ?_
  refine .pure ⟨⟨names.1, values.wellFormed⟩, ?_, False.elim⟩
  simp only [Stmt.unplaced, names.2.erased, values.erased]

theorem returning_agrees (nested : inner.Agree) :
    Agrees Stmt.Same (returning inner) (returning inner) := by
  refine .bind .advance fun keyword keyword' _ => ?_
  refine .bind (.accept .semicolon) fun alone _ isSame => ?_
  subst isSame
  cases alone with
  | true => exact .pure ⟨trivial, rfl, False.elim⟩
  | false =>
      refine .bind (nested.expr 0) fun value value' values => ?_
      refine .bind (.expect .semicolon) fun _ _ _ => ?_
      refine .pure ⟨values.wellFormed, ?_, False.elim⟩
      simp only [Stmt.unplaced, values.erased]

theorem blockStmt_agrees (nested : inner.Agree) :
    Agrees Stmt.Same (blockStmt inner) (blockStmt inner) := by
  refine .bind (block_agrees nested) fun body body' bodies => ?_
  refine .bind (.accept .semicolon) fun _ _ _ => ?_
  exact .pure ⟨bodies.wellFormed, congrArg Stmt.block bodies.erased, False.elim⟩

theorem endsStatement_eq {value value' : Expr} (values : value.Same value') :
    value.endsStatement = value'.endsStatement := by
  have erased : ∀ other : Expr, other.unplaced.endsStatement = other.endsStatement := by
    intro other
    cases other <;> rfl
  rw [← erased value, values.erased, erased]

theorem endExprStmt_agrees {value value' : Expr} (values : value.Same value') :
    Agrees (fun _ _ => True) (endExprStmt value) (endExprStmt value') := by
  refine .current fun next next' kinds reading reading' _ _ alike => ?_
  rw [endsStatement_eq values, kinds.kind]
  by_cases braced : value'.endsStatement = true
  · rw [if_pos braced]
    exact ((Agrees.accept .semicolon).bind fun _ _ _ => .pure trivial) _ _ alike
  rw [if_neg braced]
  by_cases closing : next'.kind = .rightBrace ∨ next'.kind = .endOfInput
  · rw [if_pos closing]
    exact .ok trivial alike
  · rw [if_neg closing]
    exact ((Agrees.expect .semicolon).bind fun _ _ _ => .pure trivial) _ _ alike

theorem exprStmt_agrees (nested : inner.Agree) :
    Agrees Stmt.Same (exprStmt inner) (exprStmt inner) := by
  refine .current fun start start' _ reading reading' _ _ alike => ?_
  refine .bind (nested.expr 0 _ _ alike) fun value value' values => ?_
  refine .bind (endExprStmt_agrees values) fun _ _ _ => ?_
  refine .pure ⟨values.wellFormed, ?_, False.elim⟩
  simp only [Stmt.unplaced, values.erased]

theorem statement_agrees (nested : inner.Agree) :
    Agrees Stmt.Same (statement inner) (statement inner) := by
  refine .current fun next next' kinds reading reading' _ _ alike => ?_
  rw [← kinds.kind]
  cases next.kind with
  | kwLet => exact binding_agrees nested _ _ alike
  | kwReturn => exact returning_agrees nested _ _ alike
  | leftBrace => exact blockStmt_agrees nested _ _ alike
  | _ => exact exprStmt_agrees nested _ _ alike

end Read

theorem phrases_agree (limit : Nat) : (phrases limit).Agree := by
  induction limit with
  | zero => exact ⟨fun _ _ _ alike => .tooDeep alike, fun _ _ alike => .tooDeep alike,
      fun _ _ alike => .tooDeep alike⟩
  | succ limit ih =>
      exact ⟨Read.expr_agrees ih, Read.statement_agrees ih, Read.conditional_agrees ih⟩

/-! ## Whole programs -/

theorem Read.programStatements_agrees (limit budget : Nat) {done done' : List Stmt}
    (sofar : List.Forall₂ Stmt.Same done done') :
    Agrees (List.Forall₂ Stmt.Same) (programStatements (phrases limit).statement budget done)
      (programStatements (phrases limit).statement budget done') := by
  induction budget generalizing done done' with
  | zero => exact .pure (List.forall₂_reverse_iff.mpr sofar)
  | succ budget ih =>
      intro reading reading' alike
      have kind := alike.current.kind
      by_cases ended : reading.current.kind = .endOfInput
      · rw [programStatements_ended _ _ _ ended, programStatements_ended _ _ _ (kind ▸ ended)]
        exact .ok (List.forall₂_reverse_iff.mpr sofar) alike
      rw [programStatements_succ _ _ _ ended, programStatements_succ _ _ _ (kind ▸ ended)]
      have rounds : Agree (List.Forall₂ Stmt.Same) (round (phrases limit).statement reading)
          (round (phrases limit).statement reading') := by
        have statements := (phrases_agree limit).statement reading reading' alike
        unfold round
        generalize (phrases limit).statement reading = result,
          (phrases limit).statement reading' = result' at statements
        cases statements with
        | ok values readings => exact .ok (.cons values .nil) readings
        | numeral readings => exact .numeral readings
        | fault readings => exact .ok .nil (restarted_alike readings _ _)
        | tooDeep readings => exact .ok .nil (restarted_alike readings _ _)
      exact rounds.bind fun _ _ read => ih (List.rel_append read sofar)

/-- Tokens that differ in their places alone hold the same program, up to positions, and are found
wrong as often. -/
theorem Program.ofTokens_alike {limit : Nat} {tokens tokens' : List Token} {parsed : Parsed}
    (same : tokens.map Token.unplaced = tokens'.map Token.unplaced)
    (result : ofTokens tokens limit = .ok parsed) :
    ∃ parsed', ofTokens tokens' limit = .ok parsed' ∧
      List.Forall₂ Stmt.Same parsed.program.statements parsed'.program.statements ∧
      parsed.diagnostics.length = parsed'.diagnostics.length := by
  have length : tokens.length = tokens'.length := by simpa using congrArg List.length same
  have alike : (Reading.mk tokens 0 []).Alike ⟨tokens', 0, []⟩ := ⟨same, rfl, rfl⟩
  have programs := Read.programStatements_agrees limit (tokens.length + 1) .nil _ _ alike
  rw [ofTokens_eq] at result ⊢
  rw [← length]
  generalize Read.programStatements (phrases limit).statement (tokens.length + 1) []
    ⟨tokens, 0, []⟩ = ended, Read.programStatements (phrases limit).statement
    (tokens.length + 1) [] ⟨tokens', 0, []⟩ = ended' at programs result
  cases programs with
  | ok values readings =>
      cases result
      exact ⟨_, rfl, values, readings.found⟩
  | numeral readings => cases result
  | fault readings =>
      cases result
      exact ⟨_, rfl, .nil, readings.found⟩
  | tooDeep readings =>
      cases result
      exact ⟨_, rfl, .nil, readings.found⟩

/-- What is read is well formed, however much is wrong with the tokens. -/
theorem Program.wellFormed_of_ofTokens {limit : Nat} {tokens : List Token} {parsed : Parsed}
    (result : ofTokens tokens limit = .ok parsed) : parsed.program.WellFormed := by
  obtain ⟨parsed', -, same, -⟩ := ofTokens_alike (rfl : tokens.map Token.unplaced = _) result
  exact forall_of_alike same

end Monkey
