import Monkey.Proofs.Program.Literal
import Monkey.Proofs.Session.Accepted

/-!
# Printed data reads back

Running the text of data gives the data, on any machine and without changing it. Only the smallest
integer is no literal: text with it in it is rejected.
-/

set_option autoImplicit false

namespace Monkey

/-! ## Evaluating literals -/

theorem Entries.put_new {κ α : Type} [DecidableEq κ] {key : κ} {entries : List (κ × α)}
    (isNew : key ∉ keys entries) (value : α) :
    put key value entries = entries ++ [(key, value)] := by
  induction entries with
  | nil => rfl
  | cons entry rest ih =>
      obtain ⟨other, held⟩ := entry
      obtain ⟨differs, later⟩ := not_or.mp (mt List.mem_cons.mpr isNew)
      rw [put, if_neg (Ne.symm differs), ih later]
      rfl

theorem Key.key?_value (key : Key) : key.value.key? = some key := by
  cases key <;> rfl

namespace Eval

variable {machine : Machine}

theorem located_ok {α : Type} {run : Eval α} {value : α} {rest : Machine}
    (ran : run machine = .ok value rest) (site : Site) :
    located site run machine = .ok value rest := by
  rw [located, ran]

theorem collect_ok {α β : Type} {run : α → Eval β} {list : List α} {results : List β}
    (each : List.Forall₂ (fun item result => run item machine = .ok result machine) list results)
    (done : List β) : collect run list done machine = .ok (done.reverse ++ results) machine := by
  induction each generalizing done with
  | nil =>
      rw [List.append_nil]
      rfl
  | cons first _ ih =>
      rw [collect, bind_apply, first]
      dsimp only
      rw [ih, List.reverse_cons, List.append_assoc]
      rfl

/-- The expressions of the pair give the entry. -/
def Holds (inner : Evaluator) (frame : FrameId) (machine : Machine) :
    Pair → Key × Value → Prop
  | .mk _ key value, entry =>
      inner frame (.expr key) machine = .ok entry.1.value machine ∧
        inner frame (.expr value) machine = .ok entry.2 machine

theorem pairs_ok {inner : Evaluator} {frame : FrameId} {list : List Pair}
    {entries : List (Key × Value)} (each : List.Forall₂ (Holds inner frame machine) list entries)
    (done : List (Key × Value)) (distinct : (Entries.keys (done ++ entries)).Nodup) :
    pairs inner frame list done machine = .ok (done ++ entries) machine := by
  induction each generalizing done with
  | nil =>
      rw [List.append_nil]
      rfl
  | @cons pair entry _ rest first _ ih =>
      obtain ⟨position, key, value⟩ := pair
      obtain ⟨keyRan, valueRan⟩ := first
      have isNew : entry.1 ∉ Entries.keys done := by
        rw [Entries.keys, List.map_append] at distinct
        obtain ⟨-, -, apart⟩ := List.nodup_append.mp distinct
        exact fun member => apart _ member _ List.mem_cons_self rfl
      rw [pairs, bind_apply, keyRan]
      dsimp only
      rw [Key.key?_value]
      dsimp only
      rw [bind_apply, valueRan]
      dsimp only
      rw [Entries.put_new isNew, ih, List.append_assoc]
      · rfl
      · rwa [List.append_assoc]

end Eval

theorem evaluate_expr {world : World} {limit : Nat} {frame : FrameId} {read : Expr}
    {machine rest : Machine} {value : Value}
    (ran : Eval.expr world (evaluate world limit) frame read machine = .ok value rest) :
    evaluate world (limit + 1) frame (.expr read) machine = .ok value rest :=
  Eval.located_ok ran _

theorem evaluate_intLiteral (world : World) {n : Int} (inRange : Integer.InRange n) {limit : Nat}
    (shallow : Value.intNesting n < limit) (frame : FrameId) {read : Expr}
    (same : (Value.intLiteral n).Same read) (machine : Machine) :
    evaluate world limit frame (.expr read) machine = .ok (.int n) machine := by
  have numeral : ∀ m : Nat, m ≤ Integer.smallest.natAbs → ∀ (limit : Nat) (read : Expr),
      (Expr.leaf (Value.numeral m)).Same read →
      evaluate world (limit + 1) frame (.expr read) machine = .ok (.int m) machine := by
    intro m fits limit read same
    obtain ⟨token, rfl, -, alike⟩ := same.of_leaf
    refine evaluate_expr ?_
    have value := Value.readInteger_numeral fits
    rw [alike.text] at value
    have isInteger : token.kind = .integer := alike.kind.symm
    rw [Eval.expr, Eval.leaf, isInteger]
    dsimp only
    rw [value]
    rfl
  have fits := Value.natAbs_le inRange
  cases n with
  | ofNat m =>
      obtain ⟨fewer, rfl⟩ : ∃ fewer, limit = fewer + 1 := ⟨limit - 1, by omega⟩
      exact numeral m fits fewer read same
  | negSucc m =>
      have deep : 1 < limit := shallow
      obtain ⟨fewer, rfl⟩ : ∃ fewer, limit = fewer + 2 := ⟨limit - 2, by omega⟩
      obtain ⟨operator, operand, rfl, operators, operands⟩ := same.of_unary
      refine evaluate_expr ?_
      rw [Eval.expr, Eval.bind_apply, numeral (m + 1) fits fewer operand operands]
      dsimp only
      have isMinus : operator.kind = .minus := operators.kind.symm
      unfold Value.applyUnary
      rw [isMinus]
      show Eval.ofExcept (Value.ofArithmetic (Integer.checked (-((m + 1 : Nat) : Int)) "-")) machine
        = _
      have isValue : -((m + 1 : Nat) : Int) = Int.negSucc m := rfl
      rw [isValue, Integer.checked, if_pos inRange]
      rfl

theorem forall₂_of_mem {α β : Type} {same : α → β → Prop} {holds : β → α → Prop} {items : List α}
    {list : List β} (alike : List.Forall₂ same items list)
    (each : ∀ item ∈ items, ∀ read, same item read → holds read item) :
    List.Forall₂ holds list items := by
  induction alike with
  | nil => exact .nil
  | cons first _ ih =>
      obtain ⟨here, later⟩ := List.forall_mem_cons.mp each
      exact .cons (here _ first) (ih later)

/-- Evaluating the literal of data gives the data and leaves the machine as it is. -/
theorem evaluate_literal (world : World) {value : Value} (isData : value.IsData) {limit : Nat}
    (shallow : value.nesting < limit) (frame : FrameId) {read : Expr}
    (same : value.literal.Same read) (machine : Machine) :
    evaluate world limit frame (.expr read) machine = .ok value machine := by
  induction isData generalizing limit read with
  | int inRange => exact evaluate_intLiteral world inRange shallow frame same machine
  | nil =>
      obtain ⟨fewer, rfl⟩ : ∃ fewer, limit = fewer + 1 := ⟨limit - 1, by omega⟩
      obtain ⟨token, rfl, -, alike⟩ := same.of_leaf
      have isNil : token.kind = .kwNil := alike.kind.symm
      refine evaluate_expr ?_
      rw [Eval.expr, Eval.leaf, isNil]
      rfl
  | bool b =>
      obtain ⟨fewer, rfl⟩ : ∃ fewer, limit = fewer + 1 := ⟨limit - 1, by omega⟩
      refine evaluate_expr ?_
      cases b with
      | true =>
          obtain ⟨token, rfl, -, alike⟩ := same.of_leaf
          have isTrue : token.kind = .kwTrue := alike.kind.symm
          rw [Eval.expr, Eval.leaf, isTrue]
          rfl
      | false =>
          obtain ⟨token, rfl, -, alike⟩ := same.of_leaf
          have isFalse : token.kind = .kwFalse := alike.kind.symm
          rw [Eval.expr, Eval.leaf, isFalse]
          rfl
  | string s =>
      obtain ⟨fewer, rfl⟩ : ∃ fewer, limit = fewer + 1 := ⟨limit - 1, by omega⟩
      obtain ⟨token, rfl, -, alike⟩ := same.of_leaf
      have isString : token.kind = .string := alike.kind.symm
      have content : token.text = s := alike.text.symm
      refine evaluate_expr ?_
      rw [Eval.expr, Eval.leaf, isString, content]
      rfl
  | @array items parts ih =>
      obtain ⟨fewer, rfl⟩ : ∃ fewer, limit = fewer + 1 := ⟨limit - 1, by omega⟩
      have within := (Value.nestingAll_le_iff items fewer).mp (Nat.le_of_lt_succ shallow)
      rw [Value.literal_array] at same
      obtain ⟨position, list, rfl, alike⟩ := same.of_array
      have each := forall₂_of_mem (List.forall₂_map_left_iff.mp alike) fun item member read same =>
        ih item member (within item member) same
      refine evaluate_expr ?_
      rw [Eval.expr, Eval.bind_apply, Eval.exprs, Eval.collect_ok each []]
      rfl
  | @hash pairs distinct keys parts ihKeys ih =>
      obtain ⟨fewer, rfl⟩ : ∃ fewer, limit = fewer + 1 := ⟨limit - 1, by omega⟩
      have within := (Value.nestingPairs_le_iff pairs fewer).mp (Nat.le_of_lt_succ shallow)
      rw [Value.literal_hash] at same
      obtain ⟨position, list, rfl, alike⟩ := same.of_hash
      have each : List.Forall₂ (Eval.Holds (evaluate world fewer) frame machine) list pairs := by
        refine forall₂_of_mem (List.forall₂_map_left_iff.mp alike) fun pair member read same => ?_
        obtain ⟨keyWithin, valueWithin⟩ := within pair member
        obtain ⟨position', key, value, rfl, keySame, valueSame⟩ := same.parts
        exact ⟨ihKeys pair member keyWithin keySame, ih pair member valueWithin valueSame⟩
      refine evaluate_expr ?_
      rw [Eval.expr, Eval.bind_apply, Eval.pairs_ok each [] distinct]
      rfl

/-! ## Running the text of data -/

/-- Printed data reads back. The text of data, run on any machine, gives the data and prints
nothing, unless the smallest integer is in the data: then the text is rejected, first of all for the
digits of that integer, and nothing is run. -/
theorem Machine.run_display (world : World) (machine : Machine) {value : Value}
    (isData : value.IsData) (shallow : value.nesting + 1 < world.nestingLimit) :
    (¬ value.Contains Integer.smallest → value.nesting + 1 < world.evaluationLimit →
      machine.run world value.display none = (.finished value, { machine with output := "" })) ∧
    (value.Contains Integer.smallest → ∃ position later,
      machine.run world value.display none =
        (.rejected (⟨.syntactic (.integerOutOfRange "9223372036854775808"), position⟩ :: later),
          { machine with output := "" })) := by
  have chains : Block → Bool := fun _ => false
  obtain ⟨placed, position, scanned, places⟩ := tokenize_spells (isData.spells chains)
  have begins := value.begins_literal chains
  obtain ⟨inner, isLimit⟩ : ∃ inner, world.nestingLimit = inner + 1 :=
    ⟨world.nestingLimit - 1, by omega⟩
  have within : value.nesting < inner := by omega
  have ended : (Token.endOfInput position).kind = .endOfInput := rfl
  have ofSource : Program.ofSource value.display world.nestingLimit =
      Program.ofTokens (placed ++ [.endOfInput position]) world.nestingLimit := by
    rw [Program.ofSource, scanned]
  constructor
  · intro without measured
    have reads := isData.reads chains within without
    obtain ⟨start, place, read, result, erased⟩ :=
      Program.ofTokens_expr begins places ended reads
    have same : value.literal.Same read := ⟨isData.wellFormed without, erased.symm, False.elim⟩
    obtain ⟨depth, isDepth⟩ : ∃ depth, world.evaluationLimit = depth + 1 :=
      ⟨world.evaluationLimit - 1, by omega⟩
    have inside : value.nesting < depth := by omega
    have ran := evaluate_literal world isData inside topFrame same { machine with output := "" }
    have statementRan : evaluate world world.evaluationLimit topFrame (.stmt (.expr place read))
        { machine with output := "" } = .ok value { machine with output := "" } := by
      rw [isDepth]
      exact Eval.located_ok ran _
    have programRan : runProgram world ⟨start, [.expr place read]⟩ { machine with output := "" } =
        .ok value { machine with output := "" } := by
      refine Eval.located_ok ?_ _
      rw [Eval.statements, Eval.bind_apply, statementRan]
      rfl
    rw [← isLimit] at result
    rw [run_eq_execute (ofSource.trans result) rfl, execute_none, programRan]
  · intro inside
    have breaks := isData.breaks chains inside within
    obtain ⟨parsed, place, later, result, found⟩ :=
      Program.ofTokens_breaks begins places ended breaks (isData.readable chains)
    refine ⟨place, later, ?_⟩
    rw [← isLimit] at result
    rw [run, ofSource, result]
    dsimp only
    rw [found]
    rfl

/-- Data with a negative key and a string that needs escapes, and with the smallest integer. -/
theorem Machine.run_display_hash :
    let world : World := { files := ⟨[], []⟩, searchPath := [] }
    let value (n : Int) : Value :=
      .hash [(.string "a\n\"", .array [.int n, .nil]), (.int (-1), .bool true)]
    (∀ n, Integer.InRange n → (value n).IsData ∧ (value n).nesting + 1 < nestingLimit) ∧
      ((Machine.start none).run world (value 7).display none).1 = .finished (value 7) ∧
      ∃ position later, ((Machine.start none).run world (value Integer.smallest).display none).1 =
        .rejected (⟨.syntactic (.integerOutOfRange "9223372036854775808"), position⟩ :: later) := by
  intro world value
  have isData : ∀ n, Integer.InRange n → (value n).IsData := by
    intro n inRange
    refine .hash (by simp [Entries.keys]) ?_ ?_
    · simpa [Key.value] using ⟨.string _, .int (by decide)⟩
    · simpa using ⟨.array (by simpa using ⟨.int inRange, .nil⟩), .bool true⟩
  have shallow : ∀ n, Integer.InRange n → (value n).nesting + 1 < nestingLimit := by
    intro n _
    cases n with
    | ofNat n => exact (by decide : 2 + 1 < nestingLimit)
    | negSucc n => exact (by decide : 3 + 1 < nestingLimit)
  have small := isData 7 (by decide)
  have smallest := isData Integer.smallest (by decide)
  have without : ¬ (value 7).Contains Integer.smallest := by
    simp [value, Key.value, Integer.smallest]
  have inside : (value Integer.smallest).Contains Integer.smallest := by
    simp [value]
  have reads := (run_display world (.start none) small (shallow 7 (by decide))).1 without
    (by decide)
  obtain ⟨position, later, rejected⟩ :=
    (run_display world (.start none) smallest (shallow _ (by decide))).2 inside
  refine ⟨fun n inRange => ⟨isData n inRange, shallow n inRange⟩, ?_, position, later, ?_⟩
  · rw [reads]
  · rw [rejected]

end Monkey
