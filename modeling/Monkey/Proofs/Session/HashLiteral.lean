import Mathlib.Data.List.Induction
import Monkey.Proofs.Eval.Moments
import Monkey.Proofs.Session.Literal
import Monkey.Proofs.Value.Validity

/-!
# Hashes from their literals

The pairs of a hash literal are written one after another, so a key stands where it was first given,
with the value that was given last. Which keys are one key is decided by the equality of the
language.
-/

set_option autoImplicit false

namespace Monkey

/-! ## Entries written in a row -/

namespace Entries

variable {κ α : Type} [DecidableEq κ]

/-- The entries after writing each pair, from the first to the last. -/
def ofPairs (given : List (κ × α)) : List (κ × α) :=
  given.foldl (fun done pair => put pair.1 pair.2 done) []

theorem ofPairs_concat (given : List (κ × α)) (last : κ × α) :
    ofPairs (given ++ [last]) = put last.1 last.2 (ofPairs given) := by
  rw [ofPairs, List.foldl_concat]
  rfl

/-- A key holds what was written to it last. -/
theorem get?_ofPairs (given : List (κ × α)) (key : κ) :
    get? key (ofPairs given) =
      (given.findRev? fun pair => decide (pair.1 = key)).map Prod.snd := by
  induction given using List.reverseRecOn with
  | nil => rfl
  | append_singleton given last ih =>
      rw [List.findRev?_eq_find?_reverse] at ih
      rw [ofPairs_concat, get?_put, ih, List.findRev?_eq_find?_reverse, List.reverse_concat,
        List.find?_cons]
      by_cases same : last.1 = key
      · simp [same]
      · simp [same, Ne.symm same]

/-- The keys stand in the order in which they were first written. -/
theorem keys_ofPairs (given : List (κ × α)) :
    keys (ofPairs given) = (keys given).eraseDups := by
  induction given using List.reverseRecOn with
  | nil => rfl
  | append_singleton given last ih =>
      have split : keys (given ++ [last]) = keys given ++ [last.1] := List.map_append
      rw [ofPairs_concat, keys_put, ih, split, List.eraseDups_append, List.removeAll]
      by_cases known : last.1 ∈ keys given
      · simp [known]
      · simp [known, List.eraseDups_cons]

theorem nodup_keys_ofPairs (given : List (κ × α)) : (keys (ofPairs given)).Nodup := by
  induction given using List.reverseRecOn with
  | nil => exact List.nodup_nil
  | append_singleton given last ih =>
      rw [ofPairs_concat]
      exact nodup_keys_put ih _ _

/-- Entries whose keys differ are given by the keys and by what is held under them. -/
theorem eq_map_keys {entries : List (κ × α)} (distinct : (keys entries).Nodup) (other : α) :
    entries = (keys entries).map fun key => (key, (get? key entries).getD other) := by
  induction entries with
  | nil => rfl
  | cons entry rest ih =>
      obtain ⟨absent, later⟩ := List.nodup_cons.mp distinct
      have first : get? entry.1 (entry :: rest) = some entry.2 := if_pos rfl
      have others : ∀ key ∈ keys rest, get? key (entry :: rest) = get? key rest := by
        intro key member
        have differs : entry.1 ≠ key := fun same => absent (same ▸ member)
        exact if_neg differs
      have unchanged : (keys rest).map (fun key => (key, (get? key (entry :: rest)).getD other)) =
          rest := by
        rw [List.map_congr_left fun key member => by rw [others key member]]
        exact (ih later).symm
      have split : keys (entry :: rest) = entry.1 :: keys rest := rfl
      rw [split, List.map_cons, first, unchanged]
      rfl

end Entries

/-! ## Keys as values -/

theorem Key.value_key? {value : Value} {key : Key} (hashable : value.key? = some key) :
    key.value = value := by
  cases value <;> cases hashable <;> rfl

theorem Key.display_value (key : Key) : key.value.display = Value.showKey key := by
  cases key <;> rfl

/-- The equality of the language tells keys apart as a hash does. -/
theorem Key.equals_eq (first second : Key) :
    first.value.equals second.value = decide (first = second) :=
  Bool.eq_iff_iff.mpr ((equals_iff first second).trans decide_eq_true_iff.symm)

theorem Key.eraseDupsBy_value (keys : List Key) :
    (keys.map Key.value).eraseDupsBy Value.equals = keys.eraseDups.map Key.value := by
  have loop : ∀ seen : List Key,
      List.eraseDupsBy.loop Value.equals (keys.map Key.value) (seen.map Key.value) =
        (List.eraseDupsBy.loop (· == ·) keys seen).map Key.value := by
    induction keys with
    | nil => exact fun seen => (List.map_reverse ..).symm
    | cons key rest ih =>
        intro seen
        have alike : (seen.map Key.value).any key.value.equals = seen.any (key == ·) := by
          rw [List.any_map]
          congr 1
          funext other
          exact equals_eq key other
        rw [List.map_cons, List.eraseDupsBy.loop, List.eraseDupsBy.loop, alike]
        cases seen.any (key == ·) with
        | true => exact ih seen
        | false => exact ih (key :: seen)
  exact loop []

/-! ## Evaluating the literal -/

/-- Evaluating the keys and values in turn gives these on the way from one machine to the other. -/
inductive Eval.Gives (inner : Evaluator) (frame : FrameId) :
    List Pair → Machine → List (Value × Value) → Machine → Prop
  | nil {machine : Machine} : Gives inner frame [] machine [] machine
  | cons {position : Position} {key value : Expr} {pairs : List Pair}
      {machine between after rest : Machine} {keyValue held : Value}
      {given : List (Value × Value)}
      (keyRan : inner frame (.expr key) machine = .ok keyValue between)
      (valueRan : inner frame (.expr value) between = .ok held after)
      (later : Gives inner frame pairs after given rest) :
      Gives inner frame (.mk position key value :: pairs) machine ((keyValue, held) :: given) rest

namespace Value

/-- The value given last under a key equal to this one; `nil` if there is none. -/
def lastGiven (given : List (Value × Value)) (key : Value) : Value :=
  ((given.findRev? fun pair => pair.1.equals key).map Prod.snd).getD .nil

/-- The keys in the order in which they are first given, those equal to an earlier one left out. -/
def firstKeys (given : List (Value × Value)) : List Value :=
  (given.map Prod.fst).eraseDupsBy equals

/-- Keys and values given as those of a hash. -/
def ofEntry (entry : Key × Value) : Value × Value := (entry.1.value, entry.2)

theorem exists_entries {given : List (Value × Value)}
    (hashable : ∀ pair ∈ given, pair.1.key?.isSome) :
    ∃ entries : List (Key × Value), given = entries.map ofEntry := by
  induction given with
  | nil => exact ⟨[], rfl⟩
  | cons pair given ih =>
      obtain ⟨first, later⟩ := List.forall_mem_cons.mp hashable
      obtain ⟨key, isKey⟩ := Option.isSome_iff_exists.mp first
      obtain ⟨entries, rfl⟩ := ih later
      have same : ofEntry (key, pair.2) = pair := Prod.ext (Key.value_key? isKey) rfl
      exact ⟨(key, pair.2) :: entries, by rw [List.map_cons, same]⟩

theorem lastGiven_eq (entries : List (Key × Value)) (key : Key) :
    lastGiven (entries.map ofEntry) key.value =
      (Entries.get? key (Entries.ofPairs entries)).getD .nil := by
  have alike : ((fun pair : Value × Value => pair.1.equals key.value) ∘ ofEntry) =
      fun entry : Key × Value => decide (entry.1 = key) := by
    funext entry
    exact Key.equals_eq entry.1 key
  rw [lastGiven, Entries.get?_ofPairs, List.findRev?_eq_find?_reverse,
    List.findRev?_eq_find?_reverse, ← List.map_reverse, List.find?_map, alike, Option.map_map]
  rfl

theorem firstKeys_eq (entries : List (Key × Value)) :
    firstKeys (entries.map ofEntry) = (Entries.keys (Entries.ofPairs entries)).map Key.value := by
  rw [firstKeys, Entries.keys_ofPairs, ← Key.eraseDupsBy_value, Entries.keys, List.map_map,
    List.map_map]
  rfl

end Value

namespace Eval

variable {inner : Evaluator} {frame : FrameId}

theorem pairs_gives {list : List Pair} {machine rest : Machine} {entries : List (Key × Value)}
    (gives : Gives inner frame list machine (entries.map Value.ofEntry) rest)
    (done : List (Key × Value)) :
    pairs inner frame list done machine =
      .ok (entries.foldl (fun done entry => Entries.put entry.1 entry.2 done) done) rest := by
  generalize same : entries.map Value.ofEntry = given at gives
  induction gives generalizing entries done with
  | nil =>
      obtain rfl := List.map_eq_nil_iff.mp same
      rfl
  | cons keyRan valueRan _ ih =>
      obtain ⟨entry, others, rfl, isFirst, areOthers⟩ := List.map_eq_cons_iff.mp same
      cases isFirst
      rw [pairs, bind_ok keyRan, Key.key?_value]
      exact (bind_ok valueRan).trans (ih _ areOthers)

end Eval

/-- A hash literal follows the equality of the language. If the keys and values of the literal
evaluate and the keys can be keys of a hash, the literal gives a hash. Indexing the hash gives the
value that was given last under an equal key, or `nil`, and it prints each key once, where it was
first given, with that value. -/
theorem evaluate_hashLiteral {world : World} {limit : Nat} {frame : FrameId} {pairs : List Pair}
    {machine rest : Machine} {given : List (Value × Value)}
    (gives : Eval.Gives (evaluate world limit) frame pairs machine given rest)
    (hashable : ∀ pair ∈ given, pair.1.key?.isSome) (position : Position) :
    ∃ held : List (Key × Value),
      evaluate world (limit + 1) frame (.expr (.hash position pairs)) machine =
        .ok (.hash held) rest ∧
      (∀ key : Value, key.key?.isSome →
        (Value.hash held).atIndex key = .ok (Value.lastGiven given key)) ∧
      (Value.hash held).display = "#\x7b" ++ Value.commaSeparated ((Value.firstKeys given).map
        fun key => key.display ++ ": " ++ (Value.lastGiven given key).display) ++ "\x7d" := by
  obtain ⟨entries, rfl⟩ := Value.exists_entries hashable
  have ran : Eval.expr world (evaluate world limit) frame (.hash position pairs) machine =
      .ok (.hash (Entries.ofPairs entries)) rest := by
    rw [Eval.expr]
    exact Eval.bind_ok (Eval.pairs_gives gives [])
  have looked : ∀ key : Key, (Value.hash (Entries.ofPairs entries)).atIndex key.value =
      .ok (Value.lastGiven (entries.map Value.ofEntry) key.value) := by
    intro key
    rw [Value.lastGiven_eq, Value.atIndex, Key.key?_value]
  have printed : (Entries.ofPairs entries).map
      (fun entry => Value.showKey entry.1 ++ ": " ++ entry.2.display) =
        (Value.firstKeys (entries.map Value.ofEntry)).map fun key =>
          key.display ++ ": " ++ (Value.lastGiven (entries.map Value.ofEntry) key).display := by
    conv_lhs => rw [Entries.eq_map_keys (Entries.nodup_keys_ofPairs entries) .nil]
    rw [Value.firstKeys_eq, List.map_map, List.map_map]
    refine List.map_congr_left fun key _ => ?_
    simp only [Function.comp_apply, Value.lastGiven_eq, Key.display_value]
  refine ⟨Entries.ofPairs entries, evaluate_expr ran, ?_, ?_⟩
  · intro key isHashable
    obtain ⟨hashKey, isKey⟩ := Option.isSome_iff_exists.mp isHashable
    rw [← Key.value_key? isKey]
    exact looked hashKey
  · rw [Value.display_hash, printed]

/-- In `#{1: "a", true: "b", "1": "c", 1: "d"}` the keys `1`, `true` and `"1"` are three keys. -/
theorem evaluate_hashLiteral_repeated :
    let world : World := { files := ⟨[], []⟩, searchPath := [] }
    let literal (kind : TokenKind) (text : String) : Expr := .leaf ⟨kind, text, .unknown⟩
    let pairs : List Pair := [
      .mk .unknown (literal .integer "1") (literal .string "a"),
      .mk .unknown (literal .kwTrue "true") (literal .string "b"),
      .mk .unknown (literal .string "1") (literal .string "c"),
      .mk .unknown (literal .integer "1") (literal .string "d")]
    let given : List (Value × Value) := [(.int 1, .string "a"), (.bool true, .string "b"),
      (.string "1", .string "c"), (.int 1, .string "d")]
    Eval.Gives (evaluate world 1) topFrame pairs (.start none) given (.start none) ∧
      (∀ pair ∈ given, pair.1.key?.isSome) ∧
      ∃ held : List (Key × Value),
        evaluate world 2 topFrame (.expr (.hash .unknown pairs)) (.start none) =
          .ok (.hash held) (.start none) ∧
        (Value.hash held).atIndex (.int 1) = .ok (.string "d") ∧
        (Value.hash held).atIndex (.bool true) = .ok (.string "b") ∧
        (Value.hash held).atIndex (.string "1") = .ok (.string "c") ∧
        (Value.hash held).atIndex (.int 2) = .ok .nil ∧
        (Value.hash held).display = "#\x7b1: \"d\", true: \"b\", \"1\": \"c\"\x7d" := by
  intro world literal pairs given
  have gives : Eval.Gives (evaluate world 1) topFrame pairs (.start none) given (.start none) :=
    .cons rfl rfl (.cons rfl rfl (.cons rfl rfl (.cons rfl rfl .nil)))
  have hashable : ∀ pair ∈ given, pair.1.key?.isSome := by
    simp [given, Value.key?]
  obtain ⟨held, ran, looked, printed⟩ := evaluate_hashLiteral gives hashable .unknown
  refine ⟨gives, hashable, held, ran, looked _ rfl, looked _ rfl, looked _ rfl, looked _ rfl, ?_⟩
  rw [printed]
  rfl

end Monkey
