import Monkey.Prompt.Keys
import Monkey.Proofs.Prompt.Waiting
import Monkey.Proofs.Token.Endings

/-!
# Going on with an entry

Where an entry goes on, Enter adds a newline and an indentation to it. What has been entered keeps
its meaning, and the key would do the same again. Only a string that stops behind a lone backslash
is not gone on with but given up: the newline makes of it an escape that there is not.
-/

set_option autoImplicit false

namespace Monkey.Prompt

theorem enterActions_insert {text added : String}
    (continues : enterActions text = [.insert added]) :
    beginsCommand text = false ∧ needsMore text = true ∧ added = "\n" ++ indentation text := by
  unfold enterActions at continues
  split at continues
  · next goesOn =>
    simp only [Bool.and_eq_true, Bool.not_eq_true'] at goesOn
    cases continues
    exact ⟨goesOn.1, goesOn.2, rfl⟩
  · cases continues

theorem enterActions_of_needsMore {text : String} (noCommand : beginsCommand text = false)
    (goesOn : needsMore text = true) :
    enterActions text = [.insert ("\n" ++ indentation text)] := by
  unfold enterActions
  rw [noCommand, goesOn]
  rfl

/-- A line added to a text makes no command of it. -/
theorem beginsCommand_newline (text line : String) (noCommand : beginsCommand text = false) :
    beginsCommand (text ++ ("\n" ++ line)) = false := by
  unfold beginsCommand at *
  rw [String.toList_append]
  cases spelt : text.toList with
  | nil => simp
  | cons first rest =>
      rw [spelt] at noCommand
      exact noCommand

theorem openBrackets_ended (kept : List Token) (position : Position) :
    openBrackets (kept ++ [.endOfInput position]) = openBrackets kept := by
  unfold openBrackets
  rw [List.foldl_append]
  exact Int.add_zero _

/-! ## The next line -/

/-- The next line of an entry that has tokens. -/
theorem newline_of_tokens {text : String} {tokens : List Token}
    (scanned : tokenize text = .ok tokens) :
    let longer := text ++ ("\n" ++ indentation text)
    (∃ kept, tokens = kept ++ [.endOfInput (.behind text.toList)] ∧
      tokenize longer = .ok (kept ++ [.endOfInput (.behind longer.toList)])) ∧
    needsMore longer = needsMore text ∧ openDepth longer = openDepth text := by
  intro longer
  have areSpaces : ∀ c ∈ List.replicate (4 * (openDepth text).toNat) ' ',
      Scanner.isSpace c = true := by
    intro c member
    rw [List.eq_of_mem_replicate member]
    rfl
  have isLine : ("\n" ++ indentation text).toList =
      '\n' :: List.replicate (4 * (openDepth text).toNat) ' ' := by
    simp [indentation]
  obtain ⟨kept, isFound, moved⟩ := tokenize_newline scanned areSpaces
  rw [← isLine, String.ofList_toList, ← String.toList_append] at moved
  have scannedLonger : tokenize longer = _ := moved
  refine ⟨⟨kept, isFound, moved⟩, ?_, ?_⟩
  · unfold needsMore
    simp only [scannedLonger, scanned, isFound, openBrackets_ended]
  · unfold openDepth
    simp only [scannedLonger, scanned, isFound, openBrackets_ended]

section Strings

variable {text : String} {position : Position}
  (faulty : tokenize text = .error (.unterminatedString, position))
include faulty

/-- An entry that stops in a string is not indented. -/
theorem newline_in_string : text ++ ("\n" ++ indentation text) = text ++ "\n" := by
  unfold indentation openDepth
  rw [faulty]
  rfl

/-- The next line of an entry that stops in a string. -/
theorem newline_of_string (noEscape : ¬StopsInEscape text) :
    let longer := text ++ ("\n" ++ indentation text)
    needsMore longer = true ∧ openDepth longer = openDepth text := by
  intro longer
  have stillFaulty := tokenize_newline_string faulty noEscape
  rw [← newline_in_string faulty] at stillFaulty
  refine ⟨(needsMore_faulty stillFaulty).mpr rfl, ?_⟩
  unfold openDepth
  rw [stillFaulty, faulty]

theorem newline_of_escape (stops : StopsInEscape text) :
    let longer := text ++ ("\n" ++ indentation text)
    needsMore longer = false ∧
      ∃ backslash, tokenize longer = .error (.unknownEscape '\n', backslash) := by
  intro longer
  obtain ⟨backslash, spoilt⟩ := tokenize_newline_escape faulty stops
  rw [← newline_in_string faulty] at spoilt
  have notWaiting : ¬needsMore longer = true := fun waits =>
    nomatch (needsMore_faulty spoilt).mp waits
  exact ⟨Bool.eq_false_iff.mpr notWaiting, backslash, spoilt⟩

end Strings

/-- Where Enter goes on with an entry, it would do so again in the same way, and if the entry has
tokens, they stay where they are: only the end of the input moves. The exception is a string that
stops behind a backslash with nothing to escape yet. There the newline is taken for an escape that
there is not, and the entry is not waited for any longer. -/
theorem enter_continues {text added : String} (continues : enterActions text = [.insert added]) :
    let longer := BufferAction.apply text (.insert added)
    (∀ tokens, tokenize text = .ok tokens → openDepth longer = openDepth text ∧
      ∃ kept, tokens = kept ++ [.endOfInput (.behind text.toList)] ∧
        tokenize longer = .ok (kept ++ [.endOfInput (.behind longer.toList)])) ∧
    (¬StopsInEscape text → needsMore longer = true ∧ enterActions longer = [.insert added]) ∧
    (StopsInEscape text → needsMore longer = false ∧
      ∃ backslash, tokenize longer = .error (.unknownEscape '\n', backslash)) := by
  obtain ⟨noCommand, goesOn, rfl⟩ := enterActions_insert continues
  intro longer
  have again (stillGoesOn : needsMore longer = true)
      (sameDepth : openDepth longer = openDepth text) :
      enterActions longer = [.insert ("\n" ++ indentation text)] := by
    have noCommandYet := beginsCommand_newline text (indentation text) noCommand
    have sameLine : indentation longer = indentation text := by
      unfold indentation
      rw [sameDepth]
    rw [← sameLine]
    exact enterActions_of_needsMore noCommandYet stillGoesOn
  cases scanned : tokenize text with
  | ok tokens =>
      obtain ⟨moved, sameNeed, sameDepth⟩ := newline_of_tokens scanned
      have stillGoesOn : needsMore longer = true := sameNeed.trans goesOn
      have noEscape : ¬StopsInEscape text := by
        rintro ⟨⟨position, faulty⟩, -⟩
        rw [scanned] at faulty
        cases faulty
      refine ⟨?_, fun _ => ⟨stillGoesOn, again stillGoesOn sameDepth⟩,
        fun stops => absurd stops noEscape⟩
      rintro _ ⟨rfl⟩
      exact ⟨sameDepth, moved⟩
  | error faulty =>
      obtain ⟨fault, position⟩ := faulty
      obtain rfl := (needsMore_faulty scanned).mp goesOn
      refine ⟨nofun, fun noEscape => ?_, newline_of_escape scanned⟩
      obtain ⟨stillGoesOn, sameDepth⟩ := newline_of_string scanned noEscape
      exact ⟨stillGoesOn, again stillGoesOn sameDepth⟩

/-- An entry that stops in a comment is indented by its open bracket, and again. -/
theorem enter_continues_comment :
    let text := "f(\"a\", // first"
    enterActions text = [.insert "\n    "] ∧ needsMore (text ++ "\n    ") = true ∧
      enterActions (text ++ "\n    ") = [.insert "\n    "] ∧
      ∃ tokens kept, tokenize text = .ok tokens ∧
        tokens = kept ++ [.endOfInput (.behind text.toList)] ∧
        tokenize (text ++ "\n    ") =
          .ok (kept ++ [.endOfInput (.behind (text ++ "\n    ").toList)]) := by
  intro text
  have continues : enterActions "f(\"a\", // first" = [.insert "\n    "] := rfl
  obtain ⟨tokens, scanned⟩ : ∃ tokens, tokenize "f(\"a\", // first" = .ok tokens := ⟨_, rfl⟩
  obtain ⟨sameTokens, goesOn, -⟩ := enter_continues continues
  have noEscape : ¬StopsInEscape "f(\"a\", // first" := by
    rintro ⟨⟨position, faulty⟩, -⟩
    cases scanned.symm.trans faulty
  obtain ⟨-, kept, isKept, moved⟩ := sameTokens tokens scanned
  obtain ⟨stillGoesOn, again⟩ := goesOn noEscape
  exact ⟨continues, stillGoesOn, again, tokens, kept, scanned, isKept, moved⟩

/-- After a backslash in a string, Enter goes on with the entry, but what it makes of it is an entry
that does not go on. -/
theorem enter_spoils_escape :
    enterActions "\"abc\\" = [.insert "\n"] ∧ needsMore ("\"abc\\" ++ "\n") = false ∧
      enterActions ("\"abc\\" ++ "\n") = [.submit] :=
  ⟨rfl, rfl, rfl⟩

end Monkey.Prompt
