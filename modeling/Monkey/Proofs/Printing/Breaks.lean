import Monkey.Proofs.Printing.Phrases

/-!
# Failing in given tokens

A reader breaks in given tokens if it fails there wherever they are placed, always with the same
fault and with nothing recorded before. So the first part of a phrase that breaks decides how the
phrase does, whatever the parts after it are.
-/

set_option autoImplicit false

namespace Monkey

namespace Read

variable {α β : Type}

/-! ## Readers that fail -/

/-- The reader fails with the fault inside of the tokens, wherever they are placed and whatever
follows them, with nothing recorded. -/
def Breaks (read : Read α) (tokens : List Token) (fault : SyntaxFault) : Prop :=
  ∀ placed rest depth found, placed.map Token.unplaced = tokens →
    ∃ position broken, broken.diagnostics = found ∧
      read ⟨placed ++ rest, depth, found⟩ = .error (.fault fault position) broken

section Rules

variable {tokens trailing : List Token} {token : Token} {fault : SyntaxFault}

theorem Breaks.append {read : Read α} (breaks : read.Breaks tokens fault)
    (trailing : List Token) : read.Breaks (tokens ++ trailing) fault := by
  intro placed rest depth found places
  obtain ⟨first, second, rfl, placesFirst, -⟩ := List.map_eq_append_iff.mp places
  rw [List.append_assoc]
  exact breaks first (second ++ rest) depth found placesFirst

theorem Breaks.bind {read : Read α} {next : α → Read β} (breaks : read.Breaks tokens fault) :
    (read >>= next).Breaks tokens fault := by
  intro placed rest depth found places
  obtain ⟨position, broken, recorded, result⟩ := breaks placed rest depth found places
  refine ⟨position, broken, recorded, ?_⟩
  rw [bind_apply, result]

/-- The reader for what comes first reads it, and the next one fails. -/
theorem Breaks.after {read : Read α} {next : α → Read β} {stops : TokenKind → Prop}
    {same : α → Prop} (head : read.Reads tokens stops same)
    (between : ∀ rest, stops (headKind (trailing ++ rest)))
    (tail : ∀ value, same value → (next value).Breaks trailing fault) :
    (read >>= next).Breaks (tokens ++ trailing) fault := by
  intro placed rest depth found places
  obtain ⟨first, second, rfl, placesFirst, placesSecond⟩ := List.map_eq_append_iff.mp places
  have stop := between rest
  rw [← headKind_placed rest placesSecond] at stop
  obtain ⟨value, middle, holds, result⟩ :=
    head first (second ++ rest) depth found placesFirst stop
  obtain ⟨position, broken, recorded, failed⟩ :=
    tail value holds second rest middle found placesSecond
  refine ⟨position, broken, recorded, ?_⟩
  rw [List.append_assoc, bind_apply, result]
  exact failed

theorem Breaks.advance {next : Token → Read β}
    (tail : ∀ taken, taken.unplaced = token → (next taken).Breaks trailing fault) :
    (Read.advance >>= next).Breaks (token :: trailing) fault := by
  intro placed rest depth found places
  obtain ⟨taken, others, rfl, isToken, placesRest⟩ := List.map_eq_cons_iff.mp places
  exact tail taken isToken others rest _ found placesRest

theorem Breaks.accept {kind : TokenKind} {next : Bool → Read β} (accepted : token.kind = kind)
    (tail : (next true).Breaks trailing fault) :
    (Read.accept kind >>= next).Breaks (token :: trailing) fault := by
  intro placed rest depth found places
  obtain ⟨taken, others, rfl, isToken, placesRest⟩ := List.map_eq_cons_iff.mp places
  have isKind : taken.kind = kind := by
    rw [← accepted, ← isToken]
    rfl
  have here : (Reading.mk (taken :: others ++ rest) depth found).current.kind = kind := isKind
  rw [bind_apply, accept_apply, if_pos here]
  exact tail others rest _ found placesRest

theorem Breaks.expect {kind : TokenKind} {next : Token → Read β} (expected : token.kind = kind)
    (tail : ∀ taken, (next taken).Breaks trailing fault) :
    (Read.expect kind >>= next).Breaks (token :: trailing) fault := by
  have here : (Read.expect kind).Reads [token] (fun _ => True) fun _ => True :=
    (Reads.expectLast expected).imp (fun _ stop => stop) fun _ _ => trivial
  exact .after here (fun _ => trivial) fun taken _ => tail taken

theorem Breaks.current {next : Token → Read β}
    (tail : ∀ ahead rest, ahead.kind = headKind (tokens ++ rest) →
      (next ahead).Breaks tokens fault) :
    (Read.current >>= next).Breaks tokens fault := by
  intro placed rest depth found places
  exact tail _ rest (headKind_placed rest places) placed rest depth found places

theorem Breaks.remaining {next : Nat → Read β}
    (tail : ∀ budget, tokens.length ≤ budget → (next budget).Breaks tokens fault) :
    (Read.remaining >>= next).Breaks tokens fault := by
  intro placed rest depth found places
  refine tail _ ?_ placed rest depth found places
  rw [← places, List.length_map, List.length_append]
  exact Nat.le_add_right _ _

end Rules

/-- The reader fails with the fault if the tokens hold it, and reads them otherwise. -/
structure Checks (read : Read α) (tokens : List Token) (fault : SyntaxFault) (holds : Prop) :
    Prop where
  breaks : holds → read.Breaks tokens fault
  reads : ¬ holds → read.Reads tokens (EndsAt 0) fun _ => True

/-! ## Lists -/

section Lists

variable {ι : Type} {item : Read α} {print : ι → List Token} {fault : SyntaxFault}
  {holds : ι → Prop}

theorem more_begins {rest : List ι} (held : ∃ value ∈ rest, holds value)
    (following : List Token) : EndsAt 0 (headKind
      (rest.flatMap (fun value => TokenKind.comma.mark :: print value) ++ following)) := by
  cases rest with
  | nil =>
      obtain ⟨value, member, -⟩ := held
      cases member
  | cons => exact ⟨nofun, Nat.le_refl _⟩

theorem moreItems_breaks (list : List ι)
    (each : ∀ value ∈ list, item.Checks (print value) fault (holds value))
    (held : ∃ value ∈ list, holds value) (budget : Nat) (done : List α)
    (enough : (list.flatMap fun value => TokenKind.comma.mark :: print value).length ≤ budget) :
    (moreItems item budget done).Breaks
      (list.flatMap fun value => TokenKind.comma.mark :: print value) fault := by
  induction list generalizing budget done with
  | nil =>
      obtain ⟨value, member, -⟩ := held
      cases member
  | cons value rest ih =>
      obtain ⟨here, later⟩ := List.forall_mem_cons.mp each
      rw [List.flatMap_cons, List.cons_append, List.length_cons, List.length_append] at enough
      obtain ⟨budget, rfl⟩ : ∃ fewer, budget = fewer + 1 := ⟨budget - 1, by omega⟩
      refine .accept rfl ?_
      by_cases isHere : holds value
      · exact ((here.breaks isHere).append _).bind
      · have isLater : ∃ value ∈ rest, holds value := by simpa [isHere] using held
        exact .after (here.reads isHere) (more_begins isLater)
          fun read _ => ih later isLater budget _ (by omega)

theorem items_breaks (list : List ι)
    (each : ∀ value ∈ list, item.Checks (print value) fault (holds value))
    (held : ∃ value ∈ list, holds value) :
    (items item).Breaks (commaSeparated (list.map print)) fault := by
  cases list with
  | nil =>
      obtain ⟨value, member, -⟩ := held
      cases member
  | cons value rest =>
      obtain ⟨here, later⟩ := List.forall_mem_cons.mp each
      rw [List.map_cons, commaSeparated, List.flatMap_map]
      by_cases isHere : holds value
      · exact ((here.breaks isHere).append _).bind
      · have isLater : ∃ value ∈ rest, holds value := by simpa [isHere] using held
        exact .after (here.reads isHere) (more_begins isLater)
          fun read _ => .remaining fun budget enough =>
            moreItems_breaks rest later isLater budget [read] enough

/-- Reading a list fails at the first item that holds the fault. -/
theorem closedList_breaks (list : List ι) (closing : Token)
    (each : ∀ value ∈ list, item.Checks (print value) fault (holds value))
    (held : ∃ value ∈ list, holds value)
    (begins : ∀ value rest, headKind (print value ++ rest) ≠ closing.kind) :
    (closedList item closing.kind).Breaks (commaSeparated (list.map print) ++ [closing]) fault := by
  refine .current fun ahead rest isAhead => ?_
  have notClosing : ahead.kind ≠ closing.kind := by
    rw [isAhead]
    cases list with
    | nil =>
        obtain ⟨value, member, -⟩ := held
        cases member
    | cons first others =>
        rw [List.map_cons, commaSeparated, List.append_assoc, List.append_assoc]
        exact begins first _
  rw [if_neg notClosing]
  exact ((items_breaks list each held).append [closing]).bind

end Lists

theorem Checks.pair {inner : Phrases} {key value : List Token} {fault : SyntaxFault}
    {inKey inValue : Prop} (keys : (inner.expr 0).Checks key fault inKey)
    (values : (inner.expr 0).Checks value fault inValue) :
    (pair inner).Checks (key ++ TokenKind.colon.mark :: value) fault (inKey ∨ inValue) where
  breaks held := by
    refine .current fun start rest _ => ?_
    by_cases isHere : inKey
    · exact ((keys.breaks isHere).append _).bind
    · have isLater := held.resolve_left isHere
      exact .after (keys.reads isHere) (fun _ => ⟨nofun, Nat.le_refl _⟩)
        fun _ _ => .expect rfl fun _ => (values.breaks isLater).bind
  reads without := by
    obtain ⟨notKey, notValue⟩ := not_or.mp without
    refine .current fun start _ _ _ => .bind (keys.reads notKey)
      (fun _ _ => ⟨nofun, Nat.le_refl _⟩) fun _ _ => .expect rfl fun _ _ => ?_
    exact .ends (values.reads notValue) (fun _ stop => stop) fun _ _ => .pure trivial

end Read

end Monkey
