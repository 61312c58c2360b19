import Monkey.Proofs.Token.Scanning

/-!
# Faults of a text

A text is at fault as soon as a character shows that it is, and nothing that comes later changes
that. Only a string that is not closed is a fault of the end of the text, and more text can close
it.
-/

set_option autoImplicit false

namespace Monkey

namespace Scanner

/-! ## Strings are not given up -/

/-- The scanner has given up no string for not being closed. -/
def Patient (scanner : Scanner) : Prop :=
  ∀ position, scanner.mode ≠ .failed .unterminatedString position

section Steps

variable {scanner : Scanner}

theorem Patient.of_mode {scanner' : Scanner} (patient : scanner.Patient)
    (same : scanner'.mode = scanner.mode) : scanner'.Patient := by
  intro position
  rw [same]
  exact patient position

theorem emit_patient (scanner : Scanner) (kind : TokenKind) (text : String) :
    (scanner.emit kind text).Patient :=
  nofun

theorem emitChar_patient (scanner : Scanner) (c : Char) : (scanner.emitChar c).Patient := by
  unfold emitChar
  cases TokenKind.ofChar? c with
  | none => exact nofun
  | some kind => exact scanner.emit_patient kind kind.spelling

theorem begin_patient (scanner : Scanner) (c : Char) : (scanner.begin c).Patient := by
  unfold begin
  repeat' split
  case isFalse.isFalse.isFalse.isFalse.isFalse => exact emitChar_patient _ c
  all_goals exact nofun

theorem Patient.beginAfter (patient : scanner.Patient) (c : Char) :
    (scanner.beginAfter c).Patient := by
  unfold Scanner.beginAfter
  split
  · exact patient
  · exact scanner.begin_patient c

theorem Patient.read (patient : scanner.Patient) (c : Char) : (scanner.read c).Patient := by
  unfold Scanner.read
  cases inside : scanner.mode with
  | between => exact scanner.begin_patient c
  | opened first =>
      dsimp only
      split
      · exact nofun
      · cases TokenKind.ofPair? first c with
        | none => exact (scanner.emitChar_patient first).beginAfter c
        | some kind => exact scanner.emit_patient kind kind.spelling
  | comment =>
      dsimp only
      split
      · exact scanner.begin_patient c
      · exact patient
  | number digits =>
      dsimp only
      split
      · exact nofun
      · split
        · exact patient
        · exact begin_patient _ c
  | word letters =>
      dsimp only
      split
      · exact nofun
      · exact begin_patient _ c
  | string content =>
      dsimp only
      split
      · exact scanner.emit_patient _ _
      · split <;> exact nofun
  | escape content backslash =>
      dsimp only
      cases escaped? c with
      | none => exact nofun
      | some meant => exact nofun
  | failed fault position => exact patient

theorem Patient.scan (patient : scanner.Patient) (chars : List Char) :
    (scanner.scan chars).Patient := by
  induction chars generalizing scanner with
  | nil => exact patient
  | cons c rest ih => exact ih ((patient.read c).of_mode rfl)

end Steps

/-! ## Faults that stay -/

variable {scanner : Scanner} {fault : LexicalFault} {position : Position}

/-- A faulty text stays as it is, whatever comes after it. -/
theorem scan_failed (failed : scanner.mode = .failed fault position) (chars : List Char) :
    scanner.scan chars = { scanner with position := scanner.position.after chars } := by
  induction chars generalizing scanner with
  | nil => rfl
  | cons c rest ih =>
      have stays : scanner.read c = scanner := by rw [read, failed]
      have moved : (scanner.advance c).mode = .failed fault position := failed
      rw [scan_cons, step, stays, ih moved]
      rfl

theorem finish_failed (failed : scanner.mode = .failed fault position) :
    scanner.finish = .error (fault, position) := by
  rw [finish, close_failed failed, failed]

/-- The scanner is inside a string. -/
def InString (scanner : Scanner) : Prop :=
  match scanner.mode with
  | .string _ | .escape .. => True
  | _ => False

theorem InString.finish (inString : scanner.InString) :
    scanner.finish = .error (.unterminatedString, scanner.start) := by
  unfold InString at inString
  unfold Scanner.finish close
  cases inside : scanner.mode with
  | string content => rfl
  | escape content backslash => rfl
  | _ =>
      rw [inside] at inString
      exact inString.elim

/-- Pairs end with one of two characters. -/
theorem ofPair?_eq_none {c : Char} (notEquals : c ≠ '=') (notBrace : c ≠ '{') (first : Char) :
    TokenKind.ofPair? first c = none := by
  unfold TokenKind.ofPair?
  split <;> first | rfl | contradiction

/-- Outside a string, a character that ends no pair shows the fault that the end of the text would
show. -/
theorem read_faulty (faulty : scanner.finish = .error (fault, position))
    (outside : ¬scanner.InString) {c : Char} (notEquals : c ≠ '=') (notBrace : c ≠ '{') :
    (scanner.read c).mode = .failed fault position := by
  unfold InString at outside
  unfold finish close at faulty
  cases inside : scanner.mode with
  | failed fault position =>
      rw [inside] at faulty
      simp only [inside] at faulty
      cases faulty
      rw [read, inside]
      exact inside
  | opened first =>
      rw [inside] at faulty
      dsimp only [emitChar] at faulty
      cases isKind : TokenKind.ofChar? first with
      | some kind =>
          rw [isKind] at faulty
          cases faulty
      | none =>
          rw [isKind] at faulty
          cases faulty
          have notComment : ¬(first = '/' ∧ c = '/') := by
            rintro ⟨rfl, -⟩
            cases isKind
          rw [read, inside]
          dsimp only
          rw [if_neg notComment, ofPair?_eq_none notEquals notBrace first]
          dsimp only [emitChar]
          rw [isKind]
          rfl
  | string content =>
      rw [inside] at outside
      exact absurd trivial outside
  | escape content backslash =>
      rw [inside] at outside
      exact absurd trivial outside
  | between | comment =>
      rw [inside] at faulty
      simp only [inside] at faulty
      cases faulty
  | number digits | word letters =>
      rw [inside] at faulty
      cases faulty

theorem finish_faulty (faulty : scanner.finish = .error (fault, position))
    (outside : ¬scanner.InString) {c : Char} (notEquals : c ≠ '=') (notBrace : c ≠ '{')
    (rest : List Char) : (scanner.scan (c :: rest)).finish = .error (fault, position) := by
  have failed : (scanner.step c).mode = .failed fault position :=
    read_faulty faulty outside notEquals notBrace
  rw [scan_cons, scan_failed failed]
  exact finish_failed failed

/-- Outside a string, the fault of a text is none that closing a string could mend. -/
theorem Patient.fault_ne (patient : scanner.Patient)
    (faulty : scanner.finish = .error (fault, position)) (outside : ¬scanner.InString) :
    fault ≠ .unterminatedString := by
  rintro rfl
  -- A newline would show the fault, but the scanner gives up no string.
  have failed := read_faulty faulty outside (c := '\n') (by decide) (by decide)
  exact patient.read '\n' position failed

/-- A string can be closed, after a backslash with one more quotation mark. -/
theorem InString.closes (inString : scanner.InString) :
    ∃ ending tokens, (scanner.scan ending).finish = .ok tokens := by
  obtain ⟨mode, start, position, tokens⟩ := scanner
  cases mode with
  | string content => exact ⟨['"'], _, rfl⟩
  | escape content backslash => exact ⟨['"', '"'], _, rfl⟩
  | _ => exact inString.elim

end Scanner

theorem initial_patient : Scanner.initial.Patient := nofun

end Monkey
