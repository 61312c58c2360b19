import Monkey.Proofs.Grammar.Recovery
import Monkey.Proofs.Printing.Basic

/-!
# Reading given tokens

A reader reads given tokens if it takes exactly them wherever they are placed, with nothing found
wrong, provided that what follows them lets it stop there. The rules below read a phrase part by
part, each part up to the first token of the next.
-/

set_option autoImplicit false

namespace Monkey

/-- The kind of the first of some tokens, which is the end of the input if there are none. -/
def headKind (tokens : List Token) : TokenKind := (tokens.headD (.endOfInput .unknown)).kind

theorem headKind_placed {placed tokens : List Token} (rest : List Token)
    (places : placed.map Token.unplaced = tokens) :
    headKind (placed ++ rest) = headKind (tokens ++ rest) := by
  subst places
  cases placed <;> rfl

namespace Read

variable {α β : Type}

/-- The reader reads the tokens, up to a token at which it `stops`, as one of the values that are
the `same`. -/
def Reads (read : Read α) (tokens : List Token) (stops : TokenKind → Prop)
    (same : α → Prop) : Prop :=
  ∀ placed rest depth found, placed.map Token.unplaced = tokens → stops (headKind rest) →
    ∃ value after, same value ∧
      read ⟨placed ++ rest, depth, found⟩ = .ok value ⟨rest, after, found⟩

section Rules

variable {tokens trailing : List Token} {token : Token} {stops stopsBetween : TokenKind → Prop}
  {same : α → Prop} {sameFinal : β → Prop}

theorem Reads.imp {read : Read α} {stopsMore : TokenKind → Prop} {sameMore : α → Prop}
    (reads : read.Reads tokens stops same) (stopping : ∀ kind, stopsMore kind → stops kind)
    (implies : ∀ value, same value → sameMore value) : read.Reads tokens stopsMore sameMore := by
  intro placed rest depth found places stop
  obtain ⟨value, after, holds, result⟩ := reads placed rest depth found places (stopping _ stop)
  exact ⟨value, after, implies value holds, result⟩

theorem Reads.anywhere {read : Read α} (reads : read.Reads tokens (fun _ => True) same) :
    read.Reads tokens stops same :=
  reads.imp (fun _ _ => trivial) fun _ holds => holds

theorem Reads.pure {value : α} (holds : same value) :
    (Pure.pure value : Read α).Reads [] stops same := by
  intro placed rest depth found places _
  obtain rfl := List.map_eq_nil_iff.mp places
  exact ⟨value, depth, holds, rfl⟩

/-- One part after another, where the second begins as the first needs it to stop. -/
theorem Reads.bind {read : Read α} {next : α → Read β} (head : read.Reads tokens stopsBetween same)
    (between : ∀ rest, stops (headKind rest) → stopsBetween (headKind (trailing ++ rest)))
    (tail : ∀ value, same value → (next value).Reads trailing stops sameFinal) :
    (read >>= next).Reads (tokens ++ trailing) stops sameFinal := by
  intro placed rest depth found places stop
  obtain ⟨first, second, rfl, placesFirst, placesSecond⟩ := List.map_eq_append_iff.mp places
  have stopFirst := between rest stop
  rw [← headKind_placed rest placesSecond] at stopFirst
  obtain ⟨value, middle, holds, result⟩ :=
    head first (second ++ rest) depth found placesFirst stopFirst
  obtain ⟨final, after, holdsFinal, continued⟩ :=
    tail value holds second rest middle found placesSecond stop
  refine ⟨final, after, holdsFinal, ?_⟩
  rw [List.append_assoc, bind_apply, result]
  exact continued

theorem Reads.ends {read : Read α} {next : α → Read β} (head : read.Reads tokens stopsBetween same)
    (between : ∀ kind, stops kind → stopsBetween kind)
    (tail : ∀ value, same value → (next value).Reads [] stops sameFinal) :
    (read >>= next).Reads tokens stops sameFinal := by
  rw [← List.append_nil tokens]
  exact .bind head (fun rest stop => between _ stop) tail

theorem Reads.advance {next : Token → Read β}
    (tail : ∀ taken, taken.unplaced = token → (next taken).Reads trailing stops sameFinal) :
    (Read.advance >>= next).Reads (token :: trailing) stops sameFinal := by
  intro placed rest depth found places stop
  obtain ⟨taken, others, rfl, isToken, placesRest⟩ := List.map_eq_cons_iff.mp places
  exact tail taken isToken others rest _ found placesRest stop

theorem Reads.expect {kind : TokenKind} {next : Token → Read β} (expected : token.kind = kind)
    (tail : ∀ taken, taken.unplaced = token → (next taken).Reads trailing stops sameFinal) :
    (Read.expect kind >>= next).Reads (token :: trailing) stops sameFinal := by
  intro placed rest depth found places stop
  obtain ⟨taken, others, rfl, isToken, placesRest⟩ := List.map_eq_cons_iff.mp places
  have isKind : taken.kind = kind := by
    rw [← expected, ← isToken]
    rfl
  have here : (Reading.mk (taken :: others ++ rest) depth found).current.kind = kind := isKind
  rw [bind_apply, expect_apply, if_pos here]
  exact tail taken isToken others rest _ found placesRest stop

theorem Reads.expectLast {kind : TokenKind} (expected : token.kind = kind) :
    (Read.expect kind).Reads [token] stops fun taken => taken.unplaced = token := by
  have reads : (Read.expect kind >>= Pure.pure).Reads [token] stops
      fun taken => taken.unplaced = token :=
    .expect expected fun taken isToken => .pure isToken
  rwa [bind_pure] at reads

theorem Reads.accept {kind : TokenKind} {next : Bool → Read β} (accepted : token.kind = kind)
    (tail : (next true).Reads trailing stops sameFinal) :
    (Read.accept kind >>= next).Reads (token :: trailing) stops sameFinal := by
  intro placed rest depth found places stop
  obtain ⟨taken, others, rfl, isToken, placesRest⟩ := List.map_eq_cons_iff.mp places
  have isKind : taken.kind = kind := by
    rw [← accepted, ← isToken]
    rfl
  have here : (Reading.mk (taken :: others ++ rest) depth found).current.kind = kind := isKind
  rw [bind_apply, accept_apply, if_pos here]
  exact tail others rest _ found placesRest stop

theorem Reads.refuse {kind : TokenKind} {next : Bool → Read β}
    (refused : ∀ rest, stops (headKind rest) → headKind (tokens ++ rest) ≠ kind)
    (tail : (next false).Reads tokens stops sameFinal) :
    (Read.accept kind >>= next).Reads tokens stops sameFinal := by
  intro placed rest depth found places stop
  have here : (Reading.mk (placed ++ rest) depth found).current.kind ≠ kind := by
    show headKind (placed ++ rest) ≠ kind
    rw [headKind_placed rest places]
    exact refused rest stop
  rw [bind_apply, accept_apply, if_neg here]
  exact tail placed rest depth found places stop

theorem Reads.current {next : Token → Read β}
    (tail : ∀ ahead rest, stops (headKind rest) → ahead.kind = headKind (tokens ++ rest) →
      (next ahead).Reads tokens stops sameFinal) :
    (Read.current >>= next).Reads tokens stops sameFinal := by
  intro placed rest depth found places stop
  exact tail _ rest stop (headKind_placed rest places) placed rest depth found places stop

theorem Reads.remaining {next : Nat → Read β}
    (tail : ∀ budget, tokens.length ≤ budget → (next budget).Reads tokens stops sameFinal) :
    (Read.remaining >>= next).Reads tokens stops sameFinal := by
  intro placed rest depth found places stop
  refine tail _ ?_ placed rest depth found places stop
  rw [← places, List.length_map, List.length_append]
  exact Nat.le_add_right _ _

theorem Reads.depth {next : Nat → Read β}
    (tail : ∀ depth, (next depth).Reads tokens stops sameFinal) :
    (Read.depth >>= next).Reads tokens stops sameFinal :=
  fun placed rest depth found places stop => tail depth placed rest depth found places stop

end Rules

/-! ## Lists -/

section Lists

variable {item : Read α} {print : α → List Token} {erase : α → α} {stops : TokenKind → Prop}

theorem moreItems_reads (list : List α) (stopsComma : stops .comma)
    (each : ∀ value ∈ list, item.Reads (print value) stops fun read => erase read = erase value)
    (budget : Nat) (done : List α)
    (enough : (list.flatMap fun value => TokenKind.comma.mark :: print value).length ≤ budget) :
    (moreItems item budget done).Reads
      (list.flatMap fun value => TokenKind.comma.mark :: print value)
      (fun kind => stops kind ∧ kind ≠ .comma)
      fun read => read.map erase = done.reverse.map erase ++ list.map erase := by
  induction list generalizing budget done with
  | nil =>
      cases budget with
      | zero => exact .pure (by simp)
      | succ budget => exact .refuse (fun rest stop => stop.2) (.pure (by simp))
  | cons value rest ih =>
      rw [List.flatMap_cons, List.cons_append, List.length_cons, List.length_append] at enough
      obtain ⟨budget, rfl⟩ : ∃ fewer, budget = fewer + 1 := ⟨budget - 1, by omega⟩
      refine .accept rfl ?_
      refine .bind (each value (List.mem_cons_self ..)) ?_ fun read same => ?_
      · intro after stop
        cases rest with
        | nil => exact stop.1
        | cons => exact stopsComma
      · refine (ih (fun other member => each other (List.mem_cons_of_mem _ member)) budget
          (read :: done) (by omega)).imp (fun _ stop => stop) ?_
        intro values holds
        simp [holds, same]

/-- A list up to its closing token, where no item begins with such a token. -/
theorem closedList_reads (list : List α) (closing : Token) (stopsComma : stops .comma)
    (stopsClosing : stops closing.kind) (notComma : closing.kind ≠ .comma)
    (each : ∀ value ∈ list, item.Reads (print value) stops fun read => erase read = erase value)
    (begins : ∀ value ∈ list, ∀ rest, headKind (print value ++ rest) ≠ closing.kind)
    {final : TokenKind → Prop} :
    (closedList item closing.kind).Reads (commaSeparated (list.map print) ++ [closing]) final
      fun read => read.map erase = list.map erase := by
  have close : ∀ read : List α, read.map erase = list.map erase →
      (do let _ ← Read.expect closing.kind; Pure.pure read).Reads [closing] final
        fun read => read.map erase = list.map erase :=
    fun read same => .expect rfl fun _ _ => .pure same
  refine .current fun ahead rest _ isAhead => ?_
  cases list with
  | nil =>
      have atClosing : ahead.kind = closing.kind := isAhead
      rw [if_pos atClosing]
      exact close [] rfl
  | cons first others =>
      have notClosing : ahead.kind ≠ closing.kind := by
        rw [isAhead, List.map_cons, commaSeparated, List.append_assoc, List.append_assoc]
        exact begins first (List.mem_cons_self ..) _
      rw [if_neg notClosing]
      have more := moreItems_reads others stopsComma
        fun value member => each value (List.mem_cons_of_mem _ member)
      have items : (Read.items item).Reads (commaSeparated ((first :: others).map print))
          (fun kind => stops kind ∧ kind ≠ .comma)
          fun read => read.map erase = (first :: others).map erase := by
        refine .bind (each first (List.mem_cons_self ..)) ?_ fun read same => ?_
        · intro after stop
          cases others with
          | nil => exact stop.1
          | cons => exact stopsComma
        · refine .remaining fun budget enough => ?_
          rw [List.flatMap_map] at enough ⊢
          refine (more budget [read] enough).imp (fun _ stop => stop) fun values holds => ?_
          simpa [same] using holds
      exact .bind items (fun _ _ => ⟨stopsClosing, notComma⟩) close

end Lists

end Read

end Monkey
