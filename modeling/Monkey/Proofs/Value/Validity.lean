import Monkey.Proofs.Ast.Leaves
import Monkey.Value.Operators

/-!
# Valid values

A value is valid if its integers are in range, at every depth, and the keys of its hashes differ.
Nothing that the operators and the built-in functions make of valid values is invalid, but for the
length of something too long.
-/

set_option autoImplicit false

namespace Monkey

/-! ## Integers of a text -/

/-- The token is no integer, or is in range if it is read as a number at all. -/
def Token.InRange (token : Token) : Prop :=
  token.kind = .integer → ∀ n, Text.readInteger token.text = .ok n → Integer.InRange n

def AllInRange (tokens : List Token) : Prop := ∀ token ∈ tokens, token.InRange

@[simp] theorem allInRange_nil : AllInRange [] := fun _ member => absurd member List.not_mem_nil

@[simp] theorem allInRange_cons (token : Token) (rest : List Token) :
    AllInRange (token :: rest) ↔ token.InRange ∧ AllInRange rest :=
  List.forall_mem_cons

@[simp] theorem allInRange_append (leading trailing : List Token) :
    AllInRange (leading ++ trailing) ↔ AllInRange leading ∧ AllInRange trailing :=
  List.forall_mem_append

@[simp] theorem allInRange_flatMap {α : Type} (items : List α) (leaves : α → List Token) :
    AllInRange (items.flatMap leaves) ↔ ∀ item ∈ items, AllInRange (leaves item) := by
  simp only [AllInRange, List.mem_flatMap]
  exact ⟨fun all item member token inside => all token ⟨item, member, inside⟩,
    fun all token ⟨item, member, inside⟩ => all item member token inside⟩

/-! ## Entries -/

namespace Entries

variable {κ α : Type} [DecidableEq κ]

theorem mem_of_get? {key : κ} {value : α} {entries : List (κ × α)}
    (found : get? key entries = some value) : (key, value) ∈ entries := by
  induction entries with
  | nil => cases found
  | cons entry rest ih =>
      obtain ⟨other, held⟩ := entry
      simp only [get?] at found
      split at found
      · next same =>
        cases found
        rw [same]
        exact List.mem_cons_self
      · exact List.mem_cons_of_mem _ (ih found)

theorem mem_put {key : κ} {value : α} {entries : List (κ × α)} {entry : κ × α}
    (member : entry ∈ put key value entries) : entry = (key, value) ∨ entry ∈ entries := by
  induction entries with
  | nil => exact .inl (List.mem_singleton.mp member)
  | cons first rest ih =>
      obtain ⟨other, held⟩ := first
      simp only [put] at member
      split at member
      · next same =>
        rcases List.mem_cons.mp member with isNew | old
        · exact .inl (same ▸ isNew)
        · exact .inr (List.mem_cons_of_mem _ old)
      · rcases List.mem_cons.mp member with isFirst | later
        · exact .inr (isFirst ▸ List.mem_cons_self)
        · exact (ih later).imp id (List.mem_cons_of_mem _)

theorem nodup_keys_put {entries : List (κ × α)} (distinct : (keys entries).Nodup) (key : κ)
    (value : α) : (keys (put key value entries)).Nodup := by
  rw [keys_put]
  split
  · exact distinct
  · next absent =>
    exact List.nodup_append.mpr ⟨distinct, List.pairwise_singleton _ key, by
      rintro _ member _ isKey rfl
      exact absent (List.mem_singleton.mp isKey ▸ member)⟩

end Entries

/-! ## Values -/

namespace Key

def InRange (key : Key) : Prop := ∀ n, key = .int n → Integer.InRange n

/-- Keys are equal as values of the language if they are the same. -/
theorem equals_iff (first second : Key) :
    first.value.equals second.value = true ↔ first = second := by
  cases first <;> cases second <;> simp [Key.value, Value.equals]

end Key

namespace Value

/-- Every integer in the value and in the functions in it is in range, and no hash in it has a key
twice. -/
inductive Valid : Value → Prop
  | nil : Valid .nil
  | bool (b : Bool) : Valid (.bool b)
  | int {n : Int} (inRange : Integer.InRange n) : Valid (.int n)
  | string (s : String) : Valid (.string s)
  | array {items : List Value} (all : ∀ item ∈ items, Valid item) : Valid (.array items)
  | hash {pairs : List (Key × Value)} (keys : ∀ key ∈ Entries.keys pairs, key.InRange)
      (distinct : (Entries.keys pairs).Nodup) (held : ∀ pair ∈ pairs, Valid pair.2) :
      Valid (.hash pairs)
  | function {parameters : List String} {body : Block} {frame : FrameId}
      (bounded : AllInRange body.leaves) : Valid (.function parameters body frame)
  | builtin (callee : Builtin) : Valid (.builtin callee)

theorem Valid.inRange {n : Int} (valid : (Value.int n).Valid) : Integer.InRange n := by
  cases valid with
  | int inRange => exact inRange

theorem Valid.items {items : List Value} (valid : (Value.array items).Valid) :
    ∀ item ∈ items, item.Valid := by
  cases valid with
  | array all => exact all

theorem Valid.held {pairs : List (Key × Value)} (valid : (Value.hash pairs).Valid) :
    ∀ pair ∈ pairs, pair.2.Valid := by
  cases valid with
  | hash keys distinct held => exact held

theorem Valid.bounded {parameters : List String} {body : Block} {frame : FrameId}
    (valid : (Value.function parameters body frame).Valid) : AllInRange body.leaves := by
  cases valid with
  | function bounded => exact bounded

theorem Valid.key {value : Value} {key : Key} (valid : value.Valid)
    (hashable : value.key? = some key) : key.InRange := by
  rintro n rfl
  cases value <;> simp only [Value.key?, Option.some.injEq, Key.int.injEq, reduceCtorEq]
    at hashable
  subst hashable
  exact valid.inRange

theorem Valid.getD {found : Option Value} (valid : ∀ value, found = some value → value.Valid) :
    (found.getD .nil).Valid := by
  cases found with
  | none => exact .nil
  | some value => exact valid value rfl

theorem Valid.put {pairs : List (Key × Value)} (valid : (Value.hash pairs).Valid) {key : Key}
    (inRange : key.InRange) {value : Value} (valueValid : value.Valid) :
    (Value.hash (Entries.put key value pairs)).Valid := by
  cases valid with
  | hash keys distinct held =>
      refine .hash ?_ (Entries.nodup_keys_put distinct key value) fun pair member => ?_
      · intro other member
        obtain ⟨pair, isPair, rfl⟩ := List.mem_map.mp member
        rcases Entries.mem_put isPair with rfl | old
        · exact inRange
        · exact keys _ (List.mem_map_of_mem old)
      · rcases Entries.mem_put member with rfl | old
        · exact valueValid
        · exact held pair old

/-! ## Parts of values -/

theorem Valid.of_key {key : Key} (inRange : key.InRange) : key.value.Valid := by
  cases key with
  | int n => exact .int (inRange n rfl)
  | bool b => exact .bool b
  | string s => exact .string s

/-- The first value stands in the second at some depth, be it as an item, as a key or under one. -/
inductive Inside : Value → Value → Prop
  | whole (value : Value) : Inside value value
  | item {part item : Value} {items : List Value} (member : item ∈ items)
      (inside : Inside part item) : Inside part (.array items)
  | key {pair : Key × Value} {pairs : List (Key × Value)} (member : pair ∈ pairs) :
      Inside pair.1.value (.hash pairs)
  | held {part : Value} {pair : Key × Value} {pairs : List (Key × Value)} (member : pair ∈ pairs)
      (inside : Inside part pair.2) : Inside part (.hash pairs)

/-- What holds of a value of the language by itself. -/
structure IsRegular (value : Value) : Prop where
  integer : ∀ n, value = .int n → Integer.InRange n
  keys : ∀ pairs, value = .hash pairs → ∀ pair ∈ pairs,
    pair.1.value.type = .int ∨ pair.1.value.type = .bool ∨ pair.1.value.type = .string
  distinct : ∀ pairs, value = .hash pairs →
    pairs.Pairwise fun first second => first.1.value.equals second.1.value = false
  noError : value.type.name ≠ "error"

/-- It holds of the value and of everything in it. -/
def Regular (value : Value) : Prop := ∀ part : Value, part.Inside value → part.IsRegular

theorem Valid.isRegular {value : Value} (valid : value.Valid) : value.IsRegular where
  integer := by
    rintro n rfl
    exact valid.inRange
  keys := by
    rintro pairs rfl ⟨key, value⟩ -
    cases key <;> simp [Key.value, Value.type]
  distinct := by
    rintro pairs rfl
    cases valid with
    | hash keys distinct held =>
        refine (List.pairwise_map.mp distinct).imp fun differ => ?_
        rwa [← Bool.not_eq_true, Key.equals_iff]
  noError := by cases value <;> simp [Value.type, ValueType.name]

theorem Valid.inside {part value : Value} (valid : value.Valid) (inside : part.Inside value) :
    part.Valid := by
  induction inside with
  | whole => exact valid
  | item member _ ih => exact ih (valid.items _ member)
  | key member =>
      cases valid with
      | hash keys distinct held =>
          exact .of_key (keys _ (List.mem_map_of_mem member))
  | held member _ ih => exact ih (valid.held _ member)

theorem Valid.regular {value : Value} (valid : value.Valid) : value.Regular :=
  fun _ inside => (valid.inside inside).isRegular

end Value

/-! ## Arithmetic -/

theorem ok_of_bind {ε α β : Type} {first : Except ε α} {next : α → Except ε β} {result : β}
    (passed : (first >>= next) = .ok result) :
    ∃ value, first = .ok value ∧ next value = .ok result := by
  cases first with
  | error fault => cases passed
  | ok value => exact ⟨value, rfl, passed⟩

namespace Integer

theorem checked_inRange {result n : Int} {operator : String}
    (passed : checked result operator = .ok n) : InRange n := by
  unfold checked at passed
  split at passed
  · next inRange =>
    cases passed
    exact inRange
  · cases passed

theorem div_inRange {left right n : Int} (passed : div left right = .ok n) : InRange n := by
  unfold div at passed
  split at passed
  · cases passed
  · exact checked_inRange passed

/-- A remainder is less than the divisor in magnitude. -/
theorem mod_inRange {left right n : Int} (divisor : InRange right)
    (passed : mod left right = .ok n) : InRange n := by
  unfold mod div checked at passed
  split at passed
  · cases passed
  next notZero =>
  split at passed
  · cases passed
    have remainder : left - left.tdiv right * right = left.tmod right := by
      have whole := Int.tmod_add_mul_tdiv left right
      rw [Int.mul_comm] at whole
      omega
    show InRange (left - left.tdiv right * right)
    rw [remainder]
    have bound : (left.tmod right).natAbs < right.natAbs := by
      rw [Int.natAbs_tmod]
      exact Nat.mod_lt _ (Int.natAbs_pos.mpr notZero)
    unfold InRange smallest largest at *
    omega
  · cases passed

theorem powRounds_inRange (rounds : Nat) {result base n : Int} {exponent : Nat}
    (inRange : InRange result) (passed : powRounds rounds result base exponent = .ok n) :
    InRange n := by
  induction rounds generalizing result base exponent with
  | zero =>
      cases passed
      exact inRange
  | succ rounds ih =>
      unfold powRounds at passed
      split at passed
      · cases passed
        exact inRange
      -- What comes after the digit is the same whether the base was multiplied in or not.
      have goesOn : ∀ product, InRange product →
          (if exponent / 2 = 0 then .ok product
            else do
              let base ← checked (base * base) "^"
              powRounds rounds product base (exponent / 2)) = Except.ok n → InRange n := by
        intro product stays going
        split at going
        · cases going
          exact stays
        · obtain ⟨square, squared, rest⟩ := ok_of_bind going
          exact ih stays rest
      dsimp only at passed
      split at passed
      · obtain ⟨product, multiplied, going⟩ := ok_of_bind passed
        exact goesOn product (checked_inRange multiplied) going
      · exact goesOn result inRange passed

theorem pow_inRange {base exponent n : Int} (passed : pow base exponent = .ok n) : InRange n := by
  unfold pow at passed
  split at passed
  · cases passed
  · exact powRounds_inRange _ (by decide) passed

end Integer

/-! ## Operators -/

namespace Value

/-- If there is a result, it is valid. -/
def Result.Valid (result : Result) : Prop := ∀ value, result = .ok value → value.Valid

theorem Result.Valid.ok {value : Value} (valid : value.Valid) : Result.Valid (.ok value) := by
  rintro _ ⟨⟩
  exact valid

theorem Result.Valid.error (fault : RuntimeFault) : Result.Valid (.error fault) := nofun

theorem Result.Valid.map {α : Type} {result : Except RuntimeFault α} {change : α → Value}
    (valid : ∀ given, result = .ok given → (change given).Valid) :
    Result.Valid (result.map change) := by
  cases result with
  | error fault => exact .error fault
  | ok given => exact .ok (valid given rfl)

theorem ofArithmetic_valid {result : Except Integer.Fault Int}
    (inRange : ∀ n, result = .ok n → Integer.InRange n) : (ofArithmetic result).Valid := by
  cases result with
  | error fault => exact .error _
  | ok n => exact .ok (.int (inRange n rfl))

theorem applyUnary_valid (operator : Token) (operand : Value) :
    (applyUnary operator operand).Valid := by
  unfold applyUnary
  split
  · exact .ok (.bool _)
  · exact ofArithmetic_valid fun _ passed => Integer.checked_inRange passed
  · exact .error _

theorem integerOperator_valid (operator : Token) (left : Int) {right : Int}
    (inRange : Integer.InRange right) : (integerOperator operator left right).Valid := by
  unfold integerOperator
  split
  · exact ofArithmetic_valid fun _ passed => Integer.checked_inRange passed
  · exact ofArithmetic_valid fun _ passed => Integer.checked_inRange passed
  · exact ofArithmetic_valid fun _ passed => Integer.checked_inRange passed
  · exact ofArithmetic_valid fun _ passed => Integer.div_inRange passed
  · exact ofArithmetic_valid fun _ passed => Integer.mod_inRange inRange passed
  · exact ofArithmetic_valid fun _ passed => Integer.pow_inRange passed
  · exact .ok (.bool _)
  · exact .ok (.bool _)
  · exact .ok (.bool _)
  · exact .ok (.bool _)
  · exact .error _

theorem stringOperator_valid (operator : Token) (left right : String) :
    (stringOperator operator left right).Valid := by
  unfold stringOperator
  split
  · exact .ok (.string _)
  · exact .ok (.bool _)
  · exact .ok (.bool _)
  · exact .ok (.bool _)
  · exact .ok (.bool _)
  · exact .error _

theorem applyBinary_valid (operator : Token) (left : Value) {right : Value}
    (valid : right.Valid) : (applyBinary operator left right).Valid := by
  unfold applyBinary
  split
  · exact .ok (.bool _)
  · exact .ok (.bool _)
  split
  · exact integerOperator_valid operator _ valid.inRange
  · exact stringOperator_valid operator _ _
  · exact .error _

/-! ## Indexing -/

theorem itemAt_mem {α : Type} {target : ValueType} {items : List α} {index : Value} {item : α}
    (found : itemAt target items index = .ok item) : item ∈ items := by
  unfold itemAt at found
  split at found
  · split at found
    · cases found
    · split at found
      · next held =>
        cases found
        exact List.mem_of_getElem? held
      · cases found
  · cases found

theorem atIndex_valid {target : Value} (valid : target.Valid) (index : Value) :
    (target.atIndex index).Valid := by
  unfold atIndex
  split
  · exact fun item found => valid.items item (itemAt_mem found)
  · exact .map fun c _ => .string _
  · split
    · exact .ok (.getD fun value found => valid.held _ (Entries.mem_of_get? found))
    · exact .error _
  · exact .error _

theorem getAt_valid {target : Value} (valid : target.Valid) (index : Value) :
    (target.getAt index).Valid := by
  unfold getAt
  split
  · exact .ok .nil
  · exact atIndex_valid valid index

/-! ## Built-in functions -/

/-- A string or an array of less than `2 ^ 63` elements, or a value without any. -/
def Fits : Value → Prop
  | string text => text.length ≤ Integer.largest
  | array items => items.length ≤ Integer.largest
  | _ => True

theorem length_inRange {count : Nat} (short : count ≤ Integer.largest) : Integer.InRange count := by
  refine ⟨?_, short⟩
  unfold Integer.smallest
  omega

theorem length_valid {value : Value} (fits : value.Fits) : value.length.Valid := by
  cases value with
  | string text => exact .ok (.int (length_inRange fits))
  | array items => exact .ok (.int (length_inRange fits))
  | _ => exact .error _

theorem arrayArgument_valid {callee : Builtin} {value : Value} {items : List Value}
    (valid : value.Valid) (isArray : arrayArgument callee value = .ok items) :
    ∀ item ∈ items, item.Valid := by
  cases value with
  | array held =>
      cases isArray
      exact valid.items
  | _ => cases isArray

theorem first_valid {array : Value} (valid : array.Valid) : array.first.Valid :=
  .map fun _ isArray => .getD fun item found =>
    arrayArgument_valid valid isArray item (List.mem_of_head? found)

theorem last_valid {array : Value} (valid : array.Valid) : array.last.Valid :=
  .map fun _ isArray => .getD fun item found =>
    arrayArgument_valid valid isArray item (List.mem_of_getLast? found)

theorem rest_valid {array : Value} (valid : array.Valid) : array.rest.Valid := by
  refine .map fun items isArray => ?_
  have all := arrayArgument_valid valid isArray
  cases items with
  | nil => exact .nil
  | cons first others => exact .array fun item member => all item (List.mem_cons_of_mem _ member)

theorem push_valid {array item : Value} (valid : array.Valid) (itemValid : item.Valid) :
    (array.push item).Valid := by
  refine .map fun items isArray => .array ?_
  have all := arrayArgument_valid valid isArray
  exact List.forall_mem_append.mpr ⟨all, List.forall_mem_singleton.mpr itemValid⟩

theorem cons_valid {item array : Value} (itemValid : item.Valid) (valid : array.Valid) :
    (item.cons array).Valid :=
  .map fun _ isArray => .array (List.forall_mem_cons.mpr
    ⟨itemValid, arrayArgument_valid valid isArray⟩)

/-- Counting stays between its bounds. -/
theorem countUp_valid {start stop step : Int} (first : Integer.InRange start)
    (last : Integer.InRange stop) (forward : 0 < step) : (countUp start stop step).Valid := by
  refine .array fun item member => ?_
  obtain ⟨i, counted, rfl⟩ := List.mem_map.mp member
  have before : (i : Int) + 1 ≤ (stop - start + step - 1) / step := by
    have count := List.mem_range.mp counted
    omega
  have reached : ((i : Int) + 1) * step ≤ stop - start + step - 1 :=
    (Int.le_ediv_iff_mul_le forward).mp before
  have onward : 0 ≤ step * i := Int.mul_nonneg (Int.le_of_lt forward) (Int.natCast_nonneg i)
  have expand : ((i : Int) + 1) * step = step * i + step := by
    rw [Int.add_mul, Int.one_mul, Int.mul_comm]
  refine .int ⟨?_, ?_⟩
  · exact Int.le_trans first.1 (by omega)
  · exact Int.le_trans (by omega) last.2

theorem intArgument_inRange {callee : Builtin} {value : Value} {n : Int} (valid : value.Valid)
    (isInt : intArgument callee value = .ok n) : Integer.InRange n := by
  cases value with
  | int m =>
      cases isInt
      exact valid.inRange
  | _ => cases isInt

theorem range_valid {arguments : List Value} (valid : ∀ argument ∈ arguments, argument.Valid) :
    (range arguments).Valid := by
  intro value counted
  unfold range at counted
  split at counted
  · cases counted
  · next stop =>
    obtain ⟨last, isLast, rest⟩ := ok_of_bind counted
    cases rest
    exact countUp_valid (by decide) (intArgument_inRange (valid _ (by simp)) isLast) (by decide)
  · next start stop =>
    obtain ⟨first, isFirst, rest⟩ := ok_of_bind counted
    obtain ⟨last, isLast, rest⟩ := ok_of_bind rest
    cases rest
    exact countUp_valid (intArgument_inRange (valid _ (by simp)) isFirst)
      (intArgument_inRange (valid _ (by simp)) isLast) (by decide)
  · next start stop step =>
    obtain ⟨first, isFirst, rest⟩ := ok_of_bind counted
    obtain ⟨last, isLast, rest⟩ := ok_of_bind rest
    obtain ⟨step, isStep, rest⟩ := ok_of_bind rest
    split at rest
    · cases rest
    · next forward =>
      cases rest
      exact countUp_valid (intArgument_inRange (valid _ (by simp)) isFirst)
        (intArgument_inRange (valid _ (by simp)) isLast) (by omega)
  · cases counted

end Value

end Monkey
