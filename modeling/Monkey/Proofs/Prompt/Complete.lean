import Monkey.Prompt.Keys
import Monkey.Proofs.Grammar.Brackets
import Monkey.Proofs.Program.Joining

/-!
# Complete programs are submitted

The prompt takes an entry for incomplete by counting its brackets, of whatever kinds, and knows
nothing of the grammar. What it counts is how many closing brackets are still wanted. The brackets
of a program with nothing wrong with it are nested and matched by their kinds, so none is wanted at
the end, and no closing bracket comes before the one that it closes.
-/

set_option autoImplicit false

namespace Monkey

namespace Program

variable {limit : Nat}

/-- The statements of a program with nothing wrong with it close all brackets they open. -/
theorem pending_of_clean {tokens : List Token} {parsed : Parsed}
    (result : ofTokens tokens limit = .ok parsed) (clean : parsed.diagnostics = []) :
    ∃ leading rest, tokens = leading ++ rest ∧ pendingAfter? leading [] = some [] ∧
      (Reading.mk rest 0 []).current.kind = .endOfInput := by
  by_cases ended : (Reading.mk tokens 0 []).current.kind = .endOfInput
  · exact ⟨[], tokens, rfl, rfl, ended⟩
  obtain ⟨stmt, rest, parsed', ran, here, after, later⟩ := reads_of_clean ended result clean
  have shorter : rest.tokens.length < tokens.length :=
    (((phrases_span limit).statement true ⟨tokens, 0, []⟩).ok ran).length_lt
  obtain ⟨used, found, isSplit, recorded, nests⟩ :=
    (phrases_nest limit).statement [] _ stmt rest ran
  obtain rfl : found = [] := by simpa [here] using recorded
  obtain ⟨others, left, isRest, pending, atEnd⟩ := pending_of_clean after later
  refine ⟨used ++ others, left, ?_, ?_, atEnd⟩
  · rw [List.append_assoc, ← isRest]
    exact isSplit
  · rw [pendingAfter?_append, nests rfl]
    exact pending
termination_by tokens.length

theorem wellBracketed_of_clean {source : String} {tokens : List Token} {parsed : Parsed}
    (scanned : tokenize source = .ok tokens) (result : ofTokens tokens limit = .ok parsed)
    (clean : parsed.diagnostics = []) : WellBracketed tokens := by
  obtain ⟨leading, rest, isSplit, pending, atEnd⟩ := pending_of_clean result clean
  obtain ⟨inside, position, isScanned, spelt⟩ := tokenize_spelt scanned
  rw [wellBracketed_iff, isSplit, pendingAfter?_append, pending]
  cases rest with
  | nil => rfl
  | cons ending others =>
      -- Only the last token ends the input.
      have isLast : others = [] := by
        rcases List.eq_nil_or_concat others with last | ⟨between, last, rfl⟩
        · exact last
        rw [isScanned, List.concat_eq_append, ← List.cons_append, ← List.append_assoc] at isSplit
        obtain ⟨rfl, -⟩ := List.append_inj' isSplit rfl
        exact absurd atEnd (spelt ending (by simp)).1
      have isEnd : ending.kind = .endOfInput := atEnd
      subst isLast
      simp only [Option.bind_some, pendingAfter?_cons, isEnd]
      rfl

end Program

namespace Prompt

/-! ## Counting brackets -/

theorem bracketStep_opener {kind closer : TokenKind} (opens : kind.closer? = some closer) :
    bracketStep kind = 1 := by
  cases kind <;> first | rfl | cases opens

theorem bracketStep_closer {kind : TokenKind} (closes : kind.isCloser = true) :
    bracketStep kind = -1 := by
  cases kind <;> first | rfl | cases closes

theorem bracketStep_other {kind : TokenKind} (noBracket : kind.NoBracket) :
    bracketStep kind = 0 := by
  obtain ⟨noOpener, noCloser⟩ := noBracket
  cases kind <;> simp_all [bracketStep, TokenKind.closer?, TokenKind.isCloser]

theorem bracketStep_of_pending {kind : TokenKind} {pending next : List TokenKind}
    (step : kind.pendingAfter? pending = some next) :
    (next.length : Int) = pending.length + bracketStep kind := by
  rcases TokenKind.pendingAfter?_cases step with
    ⟨closer, opens, rfl⟩ | ⟨closes, rfl⟩ | ⟨noBracket, rfl⟩
  · rw [bracketStep_opener opens, List.length_cons, Int.natCast_succ]
  · rw [bracketStep_closer closes, List.length_cons]
    omega
  · rw [bracketStep_other noBracket, Int.add_zero]

/-- The count of open brackets is how many closing brackets are wanted. -/
theorem openBrackets_of_pending {tokens : List Token} {pending next : List TokenKind}
    (leads : pendingAfter? tokens pending = some next) :
    tokens.foldl (fun depth token => depth + bracketStep token.kind) (pending.length : Int) =
      next.length := by
  induction tokens generalizing pending with
  | nil =>
      cases leads
      rfl
  | cons token rest ih =>
      obtain ⟨between, step, remaining⟩ := Option.bind_eq_some_iff.mp leads
      rw [List.foldl_cons, ← bracketStep_of_pending step]
      exact ih remaining

theorem openBrackets_nonneg {tokens leading : List Token} (nested : WellBracketed tokens)
    (isPrefix : leading <+: tokens) : 0 ≤ openBrackets leading := by
  obtain ⟨rest, rfl⟩ := isPrefix
  have leads := nested.pendingAfter? []
  rw [pendingAfter?_append] at leads
  obtain ⟨between, leads, -⟩ := Option.bind_eq_some_iff.mp leads
  have counted : openBrackets leading = between.length := openBrackets_of_pending leads
  omega

theorem openBrackets_eq_zero {tokens : List Token} (nested : WellBracketed tokens) :
    openBrackets tokens = 0 :=
  openBrackets_of_pending (nested.pendingAfter? [])

/-- A complete program is never held back. The brackets of a text with nothing wrong with it are
nested and matched by their kinds. So nowhere in it has a bracket been closed more often than one
has been opened, none is open at its end, and Enter submits it. -/
theorem complete_of_clean {limit : Nat} {source : String} {parsed : Parsed}
    (read : Program.ofSource source limit = .ok parsed) (clean : parsed.diagnostics = []) :
    ∃ tokens, tokenize source = .ok tokens ∧ WellBracketed tokens ∧
      (∀ leading, leading <+: tokens → 0 ≤ openBrackets leading) ∧
      openDepth source = 0 ∧ needsMore source = false ∧ enterActions source = [.submit] := by
  obtain ⟨tokens, scanned, result⟩ := Program.tokens_of_clean read clean
  have nested := Program.wellBracketed_of_clean scanned result clean
  have balanced := openBrackets_eq_zero nested
  have complete : needsMore source = false := by
    unfold needsMore
    simp [scanned, balanced]
  refine ⟨tokens, scanned, nested, fun _ => openBrackets_nonneg nested, ?_, complete, ?_⟩
  · unfold openDepth
    simp only [scanned, balanced]
  · unfold enterActions
    simp [complete]

/-- Brackets in strings and comments are none. -/
theorem complete_of_clean_mixed :
    let source := "let f = fn(x) \x7b #\x7b\"\x7d\": [x]\x7d \x7d; if (f) \x7b f(1) \x7d // ("
    ∃ parsed, Program.ofSource source = .ok parsed ∧ parsed.diagnostics = [] ∧
      ∃ tokens, tokenize source = .ok tokens ∧ WellBracketed tokens ∧
        (∀ leading, leading <+: tokens → 0 ≤ openBrackets leading) ∧
        openDepth source = 0 ∧ needsMore source = false ∧ enterActions source = [.submit] := by
  intro source
  have accepted : ∃ parsed, Program.ofSource source = .ok parsed ∧ parsed.diagnostics = [] := by
    dsimp only [source]
    exact ⟨_, rfl, rfl⟩
  obtain ⟨parsed, read, clean⟩ := accepted
  exact ⟨parsed, read, clean, complete_of_clean read clean⟩

end Prompt

end Monkey
