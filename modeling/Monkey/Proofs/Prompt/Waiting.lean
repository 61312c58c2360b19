import Monkey.Prompt.Entry
import Monkey.Proofs.Token.Faults

/-!
# Waiting for the rest of an entry

An entry that has no tokens goes on exactly if more text can give it some. If it is inside a string,
the string can be closed. Any other fault stays where it is on whatever lines may follow.
-/

set_option autoImplicit false

namespace Monkey.Prompt

theorem needsMore_faulty {text : String} {fault : LexicalFault} {position : Position}
    (faulty : tokenize text = .error (fault, position)) :
    needsMore text = true ↔ fault = .unterminatedString := by
  rw [needsMore, faulty]
  exact decide_eq_true_iff

theorem tokenize_append (text more : String) :
    tokenize (text ++ more) = ((Scanner.initial.scan text.toList).scan more.toList).finish := by
  rw [tokenize, String.toList_append, Scanner.scan_append]

/-- If an entry cannot be divided into tokens, the prompt waits for more of it if and only if the
fault is a string that is not closed. If it does not wait, no further lines would help: with any
text on them the entry has the same fault in the same place. If it waits, some text gives the entry
tokens. -/
theorem needsMore_exact {text : String} {fault : LexicalFault} {position : Position}
    (faulty : tokenize text = .error (fault, position)) :
    (needsMore text = true ↔ fault = .unterminatedString) ∧
    (needsMore text = false → ∀ more, tokenize (text ++ "\n" ++ more) = .error (fault, position)) ∧
    (needsMore text = true → ∃ more tokens, tokenize (text ++ more) = .ok tokens) := by
  have waits := needsMore_faulty faulty
  have patient := initial_patient.scan text.toList
  by_cases inString : (Scanner.initial.scan text.toList).InString
  · have isString : fault = .unterminatedString := by
      have finished := inString.finish.symm.trans faulty
      cases finished
      rfl
    have waiting := waits.mpr isString
    refine ⟨waits, ?_, fun _ => ?_⟩
    · intro notWaiting
      rw [waiting] at notWaiting
      cases notWaiting
    · obtain ⟨ending, tokens, closed⟩ := inString.closes
      refine ⟨String.ofList ending, tokens, ?_⟩
      rw [tokenize_append, String.toList_ofList, closed]
  · have notString := patient.fault_ne faulty inString
    refine ⟨waits, fun _ more => ?_, fun waiting => absurd (waits.mp waiting) notString⟩
    rw [String.append_assoc, tokenize_append, String.toList_append]
    exact Scanner.finish_faulty faulty inString (by decide) (by decide) more.toList

/-- A string that ends in a backslash, and a sign that could have been half of a pair. -/
theorem needsMore_exact_backslash :
    let text := "a + \"b\\"
    let sign := "[1] #"
    tokenize text = .error (.unterminatedString, ⟨1, 5⟩) ∧
      tokenize sign = .error (.illegalCharacter '#', ⟨1, 5⟩) ∧
      (∃ more tokens, tokenize (text ++ more) = .ok tokens) ∧
      ∀ more, tokenize (sign ++ "\n" ++ more) = .error (.illegalCharacter '#', ⟨1, 5⟩) := by
  intro text sign
  have faulty : tokenize "a + \"b\\" = .error (.unterminatedString, ⟨1, 5⟩) := rfl
  have faulty' : tokenize "[1] #" = .error (.illegalCharacter '#', ⟨1, 5⟩) := rfl
  obtain ⟨waits, -, closed⟩ := needsMore_exact faulty
  obtain ⟨waits', stays, -⟩ := needsMore_exact faulty'
  have stops : needsMore sign = false :=
    Bool.eq_false_iff.mpr fun waiting => nomatch waits'.mp waiting
  exact ⟨faulty, faulty', closed (waits.mpr rfl), stays stops⟩

end Monkey.Prompt
