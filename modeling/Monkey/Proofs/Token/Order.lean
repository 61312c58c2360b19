import Monkey.Proofs.Token.Division

/-!
# The order of tokens

Every token begins after the one before it, and the end of the input is behind them all. So a
position belongs to one token at most. No position is unknown.
-/

set_option autoImplicit false

namespace Monkey

namespace Position

/-- The first position comes before the second in a text. -/
def Before (first second : Position) : Prop :=
  first.line < second.line ∨ first.line = second.line ∧ first.column < second.column

instance (first second : Position) : Decidable (first.Before second) :=
  inferInstanceAs
    (Decidable (first.line < second.line ∨ first.line = second.line ∧ first.column < second.column))

theorem Before.trans {first second third : Position} (before : first.Before second)
    (after : second.Before third) : first.Before third := by
  unfold Before at *
  omega

theorem before_next (position : Position) (c : Char) : position.Before (position.next c) := by
  unfold Position.next Before
  split
  · exact .inl (Nat.lt_succ_self _)
  · exact .inr ⟨rfl, Nat.lt_succ_self _⟩

theorem before_after (position : Position) {chars : List Char} (nonempty : chars ≠ []) :
    position.Before (position.after chars) := by
  induction chars generalizing position with
  | nil => exact absurd rfl nonempty
  | cons c rest ih =>
      rw [after_cons]
      cases rest with
      | nil => exact before_next position c
      | cons => exact (before_next position c).trans (ih (position.next c) nofun)

theorem behind_before (text : List Char) {more : List Char} (nonempty : more ≠ []) :
    (behind text).Before (behind (text ++ more)) := by
  rw [behind_append]
  exact before_after _ nonempty

theorem behind_known (text : List Char) : (behind text).IsKnown := by
  change 1 + text.count '\n' ≠ 0
  omega

end Position

namespace Scanner

variable {preceding following : List Char} {tokens : List Token}

theorem Covers.known (covers : Covers preceding following tokens) :
    ∀ token ∈ tokens, token.position.IsKnown := by
  induction covers with
  | nil => exact fun _ member => absurd member List.not_mem_nil
  | add _ fits ih =>
      refine List.forall_mem_cons.mpr ⟨?_, ih⟩
      rw [fits.position]
      exact Position.behind_known _

/-- Every token begins before the end of the text that they are all written in. -/
theorem Covers.before (covers : Covers preceding following tokens) (more : List Char) :
    ∀ token ∈ tokens, token.position.Before (.behind (preceding ++ more)) := by
  induction covers generalizing more with
  | nil => exact fun _ member => absurd member List.not_mem_nil
  | @add preceding gap chars _ _ _ _ fits ih =>
      refine List.forall_mem_cons.mpr ⟨?_, fun token member => ?_⟩
      · rw [fits.position, List.append_assoc _ chars]
        exact Position.behind_before _ (List.append_ne_nil_of_left_ne_nil fits.written.ne_nil _)
      · simpa using ih (gap ++ (chars ++ more)) token member

theorem Covers.ordered (covers : Covers preceding following tokens) :
    tokens.Pairwise fun later earlier => earlier.position.Before later.position := by
  induction covers with
  | nil => exact .nil
  | @add _ gap _ _ _ _ covers fits ih =>
      refine List.pairwise_cons.mpr ⟨fun earlier member => ?_, ih⟩
      rw [fits.position]
      exact covers.before gap earlier member

end Scanner

theorem tokenize_known {source : String} {tokens : List Token}
    (scanned : tokenize source = .ok tokens) : ∀ token ∈ tokens, token.position.IsKnown := by
  obtain ⟨_, _, found, -, -, covers, rfl⟩ := tokenize_covers scanned
  refine List.forall_mem_append.mpr ⟨fun token member => ?_, ?_⟩
  · exact covers.known token (List.mem_reverse.mp member)
  · exact List.forall_mem_singleton.mpr (Position.behind_known _)

/-- Each token begins before the next one does. -/
theorem tokenize_ordered {source : String} {tokens : List Token}
    (scanned : tokenize source = .ok tokens) :
    tokens.Pairwise fun first second => first.position.Before second.position := by
  obtain ⟨preceding, trailing, found, isSource, -, covers, rfl⟩ := tokenize_covers scanned
  refine List.pairwise_append.mpr
    ⟨List.pairwise_reverse.mpr covers.ordered, List.pairwise_singleton _ _, ?_⟩
  intro token member ending last
  rw [List.mem_singleton.mp last, isSource]
  exact covers.before trailing token (List.mem_reverse.mp member)

end Monkey
