import Mathlib.Data.List.TakeDrop
import Mathlib.Data.List.TakeWhile
import Monkey.Proofs.Prompt.Answers
import Monkey.Proofs.Program.Joining

/-!
# Programs at the prompt

The prompt takes an entry for a command if it begins with a slash, and runs it otherwise. No program
begins with the operator, but a comment before the first statement begins with a slash as well. So a
text with nothing wrong with it is run in the frame of the session, whatever has been entered
before, unless a comment opens it: then its first word is reported as an unknown command.
-/

set_option autoImplicit false

namespace Monkey

/-- A comment is the first thing in the text but for spaces and newlines. -/
def OpensWithComment (text : List Char) : Prop :=
  ∃ spaces rest, text = spaces ++ '/' :: '/' :: rest ∧
    ∀ c ∈ spaces, Scanner.isSpace c = true

theorem opensWithComment_iff (text : List Char) :
    OpensWithComment text ↔ ['/', '/'] <+: text.dropWhile Scanner.isSpace := by
  constructor
  · rintro ⟨spaces, rest, rfl, areSpaces⟩
    rw [List.dropWhile_append_of_pos areSpaces]
    exact ⟨rest, rfl⟩
  · rintro ⟨rest, isRest⟩
    refine ⟨text.takeWhile Scanner.isSpace, rest, ?_, fun c => List.mem_takeWhile_imp⟩
    have split := List.takeWhile_append_dropWhile (p := Scanner.isSpace) (l := text)
    rw [← isRest] at split
    exact split.symm

instance : DecidablePred OpensWithComment :=
  fun text => decidable_of_iff _ (opensWithComment_iff text).symm

theorem OpensWithComment.append {text : List Char} (opens : OpensWithComment text)
    (more : List Char) : OpensWithComment (text ++ more) := by
  obtain ⟨spaces, rest, rfl, areSpaces⟩ := opens
  exact ⟨spaces, rest ++ more, by simp, areSpaces⟩

/-- Text between tokens is spaces, unless there is a comment in it. -/
theorem Blank.cases {text : List Char} (blank : Blank text) :
    (∀ c ∈ text, Scanner.isSpace c = true) ∨ OpensWithComment text := by
  induction blank with
  | nil => exact .inl nofun
  | @space text c _ isSpace ih =>
      rcases ih with areSpaces | opens
      · exact .inl (by simpa [or_imp, forall_and] using ⟨areSpaces, isSpace⟩)
      · exact .inr (opens.append [c])
  | @comment text body _ _ ih =>
      rcases ih with areSpaces | opens
      · exact .inr ⟨text, body ++ ['\n'], rfl, areSpaces⟩
      · exact .inr (opens.append _)

theorem Trailing.cases {text : List Char} (trailing : Trailing text) :
    (∀ c ∈ text, Scanner.isSpace c = true) ∨ OpensWithComment text := by
  cases trailing with
  | blank blank => exact blank.cases
  | @comment text body blank inLine =>
      rcases blank.cases with areSpaces | opens
      · exact .inr ⟨text, body, rfl, areSpaces⟩
      · exact .inr (opens.append _)

/-! ## First characters -/

namespace Text

/-- Trimming a text stops at a word, from either end. -/
theorem trimBlank_of_word {blanks word : List Char} (areBlank : ∀ c ∈ blanks, isBlank c = true)
    (nonempty : word ≠ []) (solid : ∀ c ∈ word, isBlank c = false) (rest : List Char) :
    ∃ kept, trimBlank (blanks ++ (word ++ rest)) = word ++ kept := by
  have stops : ∀ {word : List Char}, word ≠ [] → (∀ c ∈ word, isBlank c = false) →
      ∀ rest, (word ++ rest).dropWhile isBlank = word ++ rest := by
    intro word nonempty solid rest
    obtain ⟨first, others, rfl⟩ := List.exists_cons_of_ne_nil nonempty
    exact List.dropWhile_cons_of_neg (by simp [solid first])
  have fromEnd := stops (List.reverse_ne_nil_iff.mpr nonempty)
    (fun c member => solid c (List.mem_reverse.mp member)) []
  unfold trimBlank
  rw [List.dropWhile_append_of_pos areBlank, stops nonempty solid, List.reverse_append,
    List.dropWhile_append]
  split
  · rw [List.append_nil] at fromEnd
    exact ⟨[], by rw [fromEnd, List.reverse_reverse, List.append_nil]⟩
  · exact ⟨_, by rw [List.reverse_append, List.reverse_reverse]⟩

end Text

namespace Prompt

end Prompt

end Monkey
