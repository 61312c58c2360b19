import Monkey.Entries
import Monkey.Proofs.Printing.Phrases
import Monkey.Proofs.Token.Spelling

/-!
# Data and its text

Data is what no function is in. Its text spells a literal: an expression of leaves, minus signs,
arrays and hashes, in which the smallest integer alone cannot be written.
-/

set_option autoImplicit false

namespace Monkey

namespace Value

/-! ## Data -/

/-- Integers of the language, strings, truth values and `nil`, in any arrays and hashes, where no
key is twice in one hash. -/
inductive IsData : Value → Prop
  | nil : IsData .nil
  | bool (b : Bool) : IsData (.bool b)
  | int {n : Int} (inRange : Integer.InRange n) : IsData (.int n)
  | string (s : String) : IsData (.string s)
  | array {items : List Value} (parts : ∀ item ∈ items, IsData item) : IsData (.array items)
  | hash {pairs : List (Key × Value)} (distinct : (Entries.keys pairs).Nodup)
      (keys : ∀ pair ∈ pairs, IsData pair.1.value) (parts : ∀ pair ∈ pairs, IsData pair.2) :
      IsData (.hash pairs)

/-- The integer is in the value, at any depth. -/
inductive Contains (n : Int) : Value → Prop
  | here : Contains n (.int n)
  | item {items : List Value} {item : Value} (member : item ∈ items) (inside : Contains n item) :
      Contains n (.array items)
  | key {pairs : List (Key × Value)} {pair : Key × Value} (member : pair ∈ pairs)
      (inside : Contains n pair.1.value) : Contains n (.hash pairs)
  | held {pairs : List (Key × Value)} {pair : Key × Value} (member : pair ∈ pairs)
      (inside : Contains n pair.2) : Contains n (.hash pairs)

section

variable (n : Int)

@[simp] theorem not_contains_nil : ¬ nil.Contains n := by
  rintro ⟨⟩

@[simp] theorem not_contains_bool (b : Bool) : ¬ (bool b).Contains n := by
  rintro ⟨⟩

@[simp] theorem not_contains_string (s : String) : ¬ (string s).Contains n := by
  rintro ⟨⟩

@[simp] theorem contains_int (m : Int) : (int m).Contains n ↔ m = n := by
  constructor
  · rintro ⟨⟩
    rfl
  · rintro rfl
    exact .here

@[simp] theorem contains_array (items : List Value) :
    (array items).Contains n ↔ ∃ item ∈ items, item.Contains n := by
  constructor
  · rintro ⟨⟩
    exact ⟨_, ‹_›, ‹_›⟩
  · rintro ⟨item, member, inside⟩
    exact .item member inside

@[simp] theorem contains_hash (pairs : List (Key × Value)) :
    (hash pairs).Contains n ↔ ∃ pair ∈ pairs, pair.1.value.Contains n ∨ pair.2.Contains n := by
  constructor
  · rintro (_ | _ | ⟨member, inside⟩ | ⟨member, inside⟩)
    · exact ⟨_, member, .inl inside⟩
    · exact ⟨_, member, .inr inside⟩
  · rintro ⟨pair, member, inside | inside⟩
    · exact .key member inside
    · exact .held member inside

end

/-- A minus sign is a level of nesting as well. -/
def intNesting : Int → Nat
  | .ofNat _ => 0
  | .negSucc _ => 1

def keyNesting : Key → Nat
  | .int n => intNesting n
  | .bool _ | .string _ => 0

mutual

/-- How deep the text of a value nests. -/
def nesting : Value → Nat
  | int n => intNesting n
  | array items => nestingAll items
  | hash pairs => nestingPairs pairs
  | nil | bool _ | string _ | function .. | builtin _ => 0

def nestingAll : List Value → Nat
  | [] => 0
  | item :: rest => max (item.nesting + 1) (nestingAll rest)

def nestingPairs : List (Key × Value) → Nat
  | [] => 0
  | (key, value) :: rest => max (max (keyNesting key) value.nesting + 1) (nestingPairs rest)

end

/-! ## Literals -/

def numeral (n : Nat) : Token := ⟨.integer, String.ofList (Nat.toDigits 10 n), .unknown⟩

def intLiteral : Int → Expr
  | .ofNat n => .leaf (numeral n)
  | .negSucc n => .unary TokenKind.minus.mark (.leaf (numeral (n + 1)))

def boolLiteral : Bool → Expr
  | true => .leaf TokenKind.kwTrue.mark
  | false => .leaf TokenKind.kwFalse.mark

def stringLiteral (s : String) : Expr := .leaf ⟨.string, s, .unknown⟩

def keyLiteral : Key → Expr
  | .int n => intLiteral n
  | .bool b => boolLiteral b
  | .string s => stringLiteral s

mutual

/-- The expression that the text of a value stands for. That of a function stands for none. -/
def literal : Value → Expr
  | bool b => boolLiteral b
  | int n => intLiteral n
  | string s => stringLiteral s
  | array items => .array .unknown (literals items)
  | hash pairs => .hash .unknown (literalPairs pairs)
  | nil | function .. | builtin _ => .leaf TokenKind.kwNil.mark

def literals : List Value → List Expr
  | [] => []
  | item :: rest => item.literal :: literals rest

def literalPairs : List (Key × Value) → List Pair
  | [] => []
  | (key, value) :: rest => .mk .unknown (keyLiteral key) value.literal :: literalPairs rest

end

theorem keyLiteral_eq (key : Key) : keyLiteral key = key.value.literal := by
  cases key <;> rfl

theorem keyNesting_eq (key : Key) : keyNesting key = key.value.nesting := by
  cases key <;> rfl

def literalPair (pair : Key × Value) : Pair :=
  .mk .unknown pair.1.value.literal pair.2.literal

theorem literals_eq (items : List Value) : literals items = items.map literal := by
  induction items with
  | nil => rfl
  | cons item rest ih => rw [literals, ih, List.map_cons]

theorem literalPairs_eq (pairs : List (Key × Value)) :
    literalPairs pairs = pairs.map literalPair := by
  induction pairs with
  | nil => rfl
  | cons pair rest ih => rw [literalPairs, keyLiteral_eq, ih, List.map_cons, literalPair]

theorem literal_array (items : List Value) :
    (array items).literal = .array .unknown (items.map literal) := by
  rw [literal, literals_eq]

theorem literal_hash (pairs : List (Key × Value)) :
    (hash pairs).literal = .hash .unknown (pairs.map literalPair) := by
  rw [literal, literalPairs_eq]

theorem showKey_eq (key : Key) : showKey key = key.value.display := by
  cases key <;> rfl

section Parentheses

variable (chains : Block → Bool) {context : Nat} (weak : context ≤ unaryPower) (value : Value)
include weak

/-- A literal needs no parentheses anywhere, as no operator in it but a minus sign has operands. -/
theorem encloses_literal : (Style.plain chains).encloses context value.literal = false := by
  have level : unaryPower ≤ value.literal.level := by
    cases value with
    | bool b => cases b <;> exact (by decide : unaryPower ≤ 9)
    | int n =>
        cases n with
        | ofNat n => exact (by decide : unaryPower ≤ 9)
        | negSucc n => exact Nat.le_refl _
    | _ => exact (by decide : unaryPower ≤ 9)
  have bare : value.literal.isBlock = false := by
    cases value with
    | bool b => cases b <;> rfl
    | int n => cases n <;> rfl
    | _ => rfl
  simp [Style.encloses, Style.plain, bare, Nat.le_trans weak level]

theorem enclose_literal (tokens : List Token) :
    (Style.plain chains).enclose context value.literal tokens = tokens := by
  rw [Style.enclose, encloses_literal chains weak]
  rfl

theorem nestingIn_literal (nesting : Nat) :
    (Style.plain chains).nestingIn context value.literal nesting = nesting := by
  rw [Style.nestingIn, encloses_literal chains weak]
  rfl

end Parentheses

section Print

variable (chains : Block → Bool)

theorem print_literal_array (items : List Value) :
    (array items).literal.print (.plain chains) =
      TokenKind.leftBracket.mark ::
        Monkey.commaSeparated (items.map fun item => item.literal.print (.plain chains)) ++
          [TokenKind.rightBracket.mark] := by
  rw [literal_array, Expr.print, Read.printAll_eq, List.map_map]
  congr 4
  funext item
  exact enclose_literal chains (Nat.zero_le _) item _

theorem print_literalPair (pair : Key × Value) :
    (literalPair pair).print (.plain chains) =
      pair.1.value.literal.print (.plain chains) ++
        TokenKind.colon.mark :: pair.2.literal.print (.plain chains) := by
  rw [literalPair, Pair.print, enclose_literal chains (Nat.zero_le _),
    enclose_literal chains (Nat.zero_le _)]

theorem print_literal_hash (pairs : List (Key × Value)) :
    (hash pairs).literal.print (.plain chains) =
      TokenKind.hashBrace.mark ::
        Monkey.commaSeparated (pairs.map fun pair => (literalPair pair).print (.plain chains)) ++
          [TokenKind.rightBrace.mark] := by
  rw [literal_hash, Expr.print, Read.pairs_print_eq, List.map_map]
  rfl

/-- The text of data spells the tokens of its literal. -/
theorem IsData.spells {value : Value} (isData : value.IsData) :
    Spells value.display.toList (value.literal.print (.plain chains)) := by
  induction isData with
  | nil => exact .kwNil
  | bool b =>
      cases b with
      | true => exact .kwTrue
      | false => exact .kwFalse
  | @int n inRange =>
      have digits : ∀ m, Spells (Nat.toDigits 10 m) [numeral m] := fun m =>
        .integer Nat.toDigits_ne_nil fun c member =>
          Nat.isDigit_of_mem_toDigits (by decide) (by decide) member
      cases n with
      | ofNat m =>
          show Spells (String.ofList (Nat.toDigits 10 m)).toList [numeral m]
          rw [String.toList_ofList]
          exact digits m
      | negSucc m =>
          show Spells (String.ofList ('-' :: Nat.toDigits 10 (m + 1))).toList
            [TokenKind.minus.mark, numeral (m + 1)]
          rw [String.toList_ofList]
          have minus : Finishes ['-'] [TokenKind.minus.mark] := .char rfl rfl
          exact minus.append_spells (digits (m + 1))
  | string s => exact (Finishes.string s).spells
  | @array items parts ih =>
      have opening : Finishes ['['] [TokenKind.leftBracket.mark] := .char rfl rfl
      have closing : Finishes [']'] [TokenKind.rightBracket.mark] := .char rfl rfl
      have list := (Spells.commaSeparated items ih).append ⟨rfl, by decide, rfl⟩ closing
      rw [display_array, print_literal_array]
      simpa using (opening.append list).spells
  | @hash pairs distinct keys parts ihKeys ih =>
      have opening : Finishes ['#', '{'] [TokenKind.hashBrace.mark] := .hashBrace
      have closing : Finishes ['}'] [TokenKind.rightBrace.mark] := .char rfl rfl
      have colon : Finishes [':', ' '] [TokenKind.colon.mark] :=
        Finishes.append (.char rfl rfl) .space
      have each : ∀ pair ∈ pairs, Spells (showKey pair.1 ++ ": " ++ pair.2.display).toList
          ((literalPair pair).print (.plain chains)) := by
        intro pair member
        have key := (ihKeys pair member).append ⟨rfl, by decide, rfl⟩ colon
        rw [print_literalPair, showKey_eq]
        simpa using key.append_spells (ih pair member)
      have list := (Spells.commaSeparated pairs each).append ⟨rfl, by decide, rfl⟩ closing
      rw [display_hash, print_literal_hash]
      simpa using (opening.append list).spells

end Print

/-! ## Reading numerals -/

theorem ofDecimalDigits_toDigits (n : Nat) :
    Text.ofDecimalDigits ((Nat.toDigits 10 n).map Text.digitValue) = n := by
  have value := Nat.ofDigitChars_toDigits (b := 10) (n := n) (by decide) (by decide)
  rw [Nat.ofDigitChars] at value
  rw [Text.ofDecimalDigits, List.foldl_map]
  exact value

theorem readInteger_numeral {n : Nat} (fits : n ≤ Integer.smallest.natAbs) :
    Text.readInteger (numeral n).text = .ok n := by
  have short : (Nat.toDigits 10 n).length ≤ Text.digitLimit := by
    have few : (Nat.toDigits 10 n).length ≤ 19 :=
      (Nat.length_toDigits_le_iff (by decide) (by decide)).mpr
        (Nat.lt_of_le_of_lt fits (by decide))
    exact Nat.le_trans few (by decide)
  have plain : Text.IsPlainNumeral (numeral n).text := by
    refine ⟨?_, ?_, ?_⟩ <;> rw [numeral, String.toList_ofList]
    · exact Nat.toDigits_ne_nil
    · exact fun c member => Nat.isDigit_of_mem_toDigits (by decide) (by decide) member
    · exact short
  rw [Text.readInteger_plain plain, numeral, String.toList_ofList, ofDecimalDigits_toDigits]

theorem natAbs_le {n : Int} (inRange : Integer.InRange n) :
    n.natAbs ≤ Integer.smallest.natAbs := by
  obtain ⟨lower, upper⟩ := inRange
  unfold Integer.smallest at lower ⊢
  unfold Integer.largest at upper
  omega

theorem forall_mem_commaSeparated {holds : Token → Prop} {lists : List (List Token)}
    (comma : holds TokenKind.comma.mark) (each : ∀ list ∈ lists, ∀ token ∈ list, holds token) :
    ∀ token ∈ Monkey.commaSeparated lists, holds token := by
  cases lists with
  | nil => exact fun _ member => absurd member List.not_mem_nil
  | cons first rest =>
      obtain ⟨here, later⟩ := List.forall_mem_cons.mp each
      refine List.forall_mem_append.mpr ⟨here, fun token member => ?_⟩
      obtain ⟨list, isList, inside⟩ := List.mem_flatMap.mp member
      rcases List.mem_cons.mp inside with rfl | inside
      · exact comma
      · exact later list isList token inside

theorem IsData.readable {value : Value} (isData : value.IsData) (chains : Block → Bool) :
    ∀ token ∈ value.literal.print (.plain chains), token.IsReadable := by
  have marked : ∀ kind : TokenKind, kind ≠ .integer → kind.mark.IsReadable :=
    fun _ notInteger isInteger => absurd isInteger notInteger
  induction isData with
  | nil => exact List.forall_mem_singleton.mpr (marked _ (by decide))
  | bool b => cases b <;> exact List.forall_mem_singleton.mpr (marked _ (by decide))
  | @int n inRange =>
      have readable : (numeral n.natAbs).IsReadable :=
        fun _ => ⟨n.natAbs, readInteger_numeral (natAbs_le inRange)⟩
      cases n with
      | ofNat m => exact List.forall_mem_singleton.mpr readable
      | negSucc m =>
          exact List.forall_mem_cons.mpr
            ⟨marked _ (by decide), List.forall_mem_singleton.mpr readable⟩
  | string s =>
      refine List.forall_mem_singleton.mpr fun isInteger => ?_
      cases isInteger
  | array parts ih =>
      rw [print_literal_array]
      refine List.forall_mem_cons.mpr ⟨marked _ (by decide), List.forall_mem_append.mpr
        ⟨forall_mem_commaSeparated (marked _ (by decide)) (List.forall_mem_map.mpr ih),
          List.forall_mem_singleton.mpr (marked _ (by decide))⟩⟩
  | hash distinct keys parts ihKeys ih =>
      rw [print_literal_hash]
      refine List.forall_mem_cons.mpr ⟨marked _ (by decide), List.forall_mem_append.mpr
        ⟨forall_mem_commaSeparated (marked _ (by decide)) (List.forall_mem_map.mpr ?_),
          List.forall_mem_singleton.mpr (marked _ (by decide))⟩⟩
      intro pair member
      rw [print_literalPair]
      exact List.forall_mem_append.mpr ⟨ihKeys pair member,
        List.forall_mem_cons.mpr ⟨marked _ (by decide), ih pair member⟩⟩

/-- Data without the smallest integer has a literal that the reader can give. -/
theorem IsData.wellFormed {value : Value} (isData : value.IsData)
    (without : ¬ value.Contains Integer.smallest) : value.literal.WellFormed := by
  induction isData with
  | nil => trivial
  | bool b => cases b <;> trivial
  | @int n inRange =>
      have fits := natAbs_le inRange
      have bounded : (n.natAbs : Int) ≤ Integer.largest := by
        have notSmallest : n ≠ Integer.smallest := by
          rintro rfl
          exact without .here
        obtain ⟨lower, upper⟩ := inRange
        unfold Integer.smallest at lower notSmallest
        unfold Integer.largest at upper ⊢
        omega
      have operand : (numeral n.natAbs).IsOperand :=
        ⟨n.natAbs, readInteger_numeral fits, bounded⟩
      cases n with
      | ofNat m => exact operand
      | negSucc m => exact ⟨.inl rfl, operand⟩
  | string s => trivial
  | array parts ih =>
      rw [literal_array]
      refine (Expr.allWellFormed_iff _).mpr (List.forall_mem_map.mpr fun item member => ?_)
      exact ih item member fun inside => without (.item member inside)
  | hash distinct keys parts ihKeys ih =>
      rw [literal_hash]
      refine (Pair.allWellFormed_iff _).mpr (List.forall_mem_map.mpr fun pair member => ?_)
      exact ⟨ihKeys pair member fun inside => without (.key member inside),
        ih pair member fun inside => without (.held member inside)⟩

/-! ## Depth of nesting -/

theorem nestingAll_le_iff (items : List Value) (limit : Nat) :
    nestingAll items ≤ limit ↔ ∀ item ∈ items, item.nesting < limit := by
  induction items with
  | nil => simp [nestingAll]
  | cons item rest ih =>
      rw [nestingAll, Nat.max_le, Nat.succ_le_iff, ih, List.forall_mem_cons]

theorem nestingPairs_le_iff (pairs : List (Key × Value)) (limit : Nat) :
    nestingPairs pairs ≤ limit ↔
      ∀ pair ∈ pairs, pair.1.value.nesting < limit ∧ pair.2.nesting < limit := by
  induction pairs with
  | nil => simp [nestingPairs]
  | cons pair rest ih =>
      obtain ⟨key, value⟩ := pair
      rw [nestingPairs, keyNesting_eq, Nat.max_le, Nat.succ_le_iff, Nat.max_lt, ih,
        List.forall_mem_cons]

section

variable (chains : Block → Bool)

theorem nesting_intLiteral (n : Int) : (intLiteral n).nesting (.plain chains) = intNesting n := by
  cases n <;> rfl

theorem nesting_keyLiteral (key : Key) :
    (keyLiteral key).nesting (.plain chains) = keyNesting key := by
  cases key with
  | int n => exact nesting_intLiteral chains n
  | bool b => cases b <;> rfl
  | string s => rfl

mutual

theorem nesting_literal (value : Value) :
    value.literal.nesting (.plain chains) = value.nesting := by
  cases value with
  | nil => rfl
  | bool b => cases b <;> rfl
  | int n => exact nesting_intLiteral chains n
  | string s => rfl
  | array items => exact nestingAll_literals items
  | hash pairs => exact nestingPairs_literals pairs
  | function parameters body frame => rfl
  | builtin callee => rfl

theorem nestingAll_literals (items : List Value) :
    Expr.nestingAll (.plain chains) (literals items) = nestingAll items := by
  cases items with
  | nil => rfl
  | cons item rest =>
      rw [literals, Expr.nestingAll, nestingAll, nestingIn_literal chains (Nat.zero_le _),
        nesting_literal item, nestingAll_literals rest]

theorem nestingPairs_literals (pairs : List (Key × Value)) :
    Pair.nestingAll (.plain chains) (literalPairs pairs) = nestingPairs pairs := by
  cases pairs with
  | nil => rfl
  | cons pair rest =>
      obtain ⟨key, value⟩ := pair
      rw [literalPairs, Pair.nestingAll, Pair.nesting, nestingPairs,
        nestingIn_literal chains (Nat.zero_le _) value, nesting_literal value,
        nestingPairs_literals rest, keyLiteral_eq, nestingIn_literal chains (Nat.zero_le _),
        ← keyLiteral_eq, nesting_keyLiteral]

end

end

end Value

end Monkey
