import Monkey.Prompt.Keys
import Monkey.Proofs.Prompt.Submission
import Monkey.Proofs.Token.Outline

/-!
# Characters that cannot be seen

Enter looks at the text in the buffer as it is, and the prompt drops what cannot be seen in it
first. In strings and comments this makes no difference to whether the entry goes on, and neither
does a carriage return that parts no token from the rest of it. Anywhere else, a character that
cannot be seen is a fault to the key, which submits the entry then, and nothing to the prompt.
-/

set_option autoImplicit false

namespace Monkey

open Scanner

namespace Prompt

/-- What can be seen of an entry. -/
def visible (chars : List Char) : List Char := chars.filter fun c => !invisible.contains c

/-- Whether a character that the prompt drops is a fault where it stands. -/
def refuses (mode : Mode) (c : Char) : Bool := mode.isEscape || (mode.isOutside && c != '\r')

/-- Whether the scanner will come upon a dropped character that is a fault where it stands. -/
def exposes : Scanner → List Char → Bool
  | _, [] => false
  | scanner, c :: rest =>
      (invisible.contains c && refuses scanner.mode c) || exposes (scanner.step c) rest

/-- Whether the scanner will come upon a carriage return without which a token would be longer. -/
def parts : Scanner → List Char → Bool
  | _, [] => false
  | scanner, c :: rest =>
      (c == '\r' && (visible rest).head?.any scanner.mode.continues) || parts (scanner.step c) rest

/-! ## Characters that are dropped -/

/-- The character begins no token and goes on with none, and it is no escape. -/
structure Alien (c : Char) : Prop where
  notQuote : c ≠ '"'
  notDigit : isDigit c = false
  notLetter : startsWord c = false
  notFurther : continuesWord c = false
  notPair : opensPair c = false
  noKind : TokenKind.ofChar? c = none
  noEscape : escaped? c = none

section Dropped

variable {c : Char} (dropped : c ∈ invisible)
include dropped

theorem ne_of_dropped {other : Char} (kept : other ∉ invisible) : c ≠ other :=
  fun same => kept (same ▸ dropped)

theorem alien_of_dropped : Alien c := by
  have letters : invisible.all (fun c => !startsWord c && !continuesWord c) = true := by
    decide +kernel
  have others : invisible.all (fun c => !isDigit c && !opensPair c &&
      (TokenKind.ofChar? c).isNone && (escaped? c).isNone) = true := by decide
  have letter := List.all_eq_true.mp letters c dropped
  have other := List.all_eq_true.mp others c dropped
  simp only [Bool.and_eq_true, Bool.not_eq_true', Option.isNone_iff_eq_none] at letter other
  obtain ⟨⟨⟨notDigit, notPair⟩, noKind⟩, noEscape⟩ := other
  exact ⟨ne_of_dropped dropped (by decide), notDigit, letter.1, letter.2, notPair, noKind, noEscape⟩

theorem continues_dropped (mode : Mode) : mode.continues c = false := by
  have notEquals : c ≠ '=' := ne_of_dropped dropped (by decide)
  have notBrace : c ≠ '\x7b' := ne_of_dropped dropped (by decide)
  have notSlash : c ≠ '/' := ne_of_dropped dropped (by decide)
  have notSeparator : c ≠ '_' := ne_of_dropped dropped (by decide)
  have alien := alien_of_dropped dropped
  cases mode with
  | opened first => simp [Mode.continues, ofPair?_eq_none notEquals notBrace, notSlash]
  | number digits => simp [Mode.continues, alien.notDigit, notSeparator]
  | word letters => exact alien.notFurther
  | _ => rfl

theorem begin_dropped (scanner : Scanner) (noReturn : c ≠ '\r') :
    (scanner.begin c).mode = .failed (.illegalCharacter c) scanner.position := by
  have notBlank : c ≠ ' ' := ne_of_dropped dropped (by decide)
  have notTab : c ≠ '\t' := ne_of_dropped dropped (by decide)
  have notNewline : c ≠ '\n' := ne_of_dropped dropped (by decide)
  have noSpace : isSpace c = false := by simp [isSpace, notBlank, notTab, notNewline, noReturn]
  have alien := alien_of_dropped dropped
  simp [begin, noSpace, alien.notQuote, alien.notDigit, alien.notLetter, alien.notPair, emitChar,
    alien.noKind, fail]

/-- A dropped character is nothing to the scanner, or it is a space. -/
theorem read_dropped {scanner : Scanner} (taken : refuses scanner.mode c = false) :
    (scanner.read c).Alike scanner ∨ scanner.mode.isOutside = true ∧ c = '\r' := by
  simp only [refuses, Bool.or_eq_false_iff, Bool.and_eq_false_iff, bne_eq_false_iff_eq] at taken
  obtain ⟨noEscape, inside | isReturn⟩ := taken
  · refine .inl (read_inside inside noEscape ?_ ?_ ?_ ?_)
    all_goals exact ne_of_dropped dropped (by decide)
  · cases outside : scanner.mode.isOutside with
    | true => exact .inr ⟨rfl, isReturn⟩
    | false =>
        refine .inl (read_inside outside noEscape ?_ ?_ ?_ ?_)
        all_goals exact ne_of_dropped dropped (by decide)

theorem read_refused {scanner : Scanner} (refused : refuses scanner.mode c = true) :
    ∃ fault position, (scanner.read c).mode = .failed fault position := by
  simp only [refuses, Bool.or_eq_true, Bool.and_eq_true, bne_iff_ne] at refused
  rcases refused with isEscape | ⟨outside, noReturn⟩
  · cases mode : scanner.mode with
    | escape content backslash =>
        rw [Scanner.read, mode]
        dsimp only
        rw [(alien_of_dropped dropped).noEscape]
        exact ⟨_, _, rfl⟩
    | _ =>
        rw [mode] at isEscape
        cases isEscape
  · rw [read_apart outside (continues_dropped dropped _)]
    rcases close_mode outside with between | ⟨fault, position, failed⟩
    · rw [beginAfter_between between]
      exact ⟨_, _, begin_dropped dropped _ noReturn⟩
    · rw [beginAfter_failed failed]
      exact ⟨_, _, failed⟩

end Dropped

/-! ## Two scanners -/

/-- The scanner of a whole entry has the outline that the scanner of what can be seen of the entry
has, or will have when a carriage return is made up for that has finished a token. The token would
not have gone on anyway. -/
inductive Trails (rest : List Char) (whole seen : Scanner) : Prop
  | level (alike : whole.Alike seen)
  | ahead (outside : seen.mode.isOutside = true) (alike : whole.Alike seen.close)
      (apart : ∀ next, (visible rest).head? = some next → seen.mode.continues next = false)

variable {c : Char} {rest : List Char} {whole seen : Scanner}

theorem visible_dropped (dropped : c ∈ invisible) : visible (c :: rest) = visible rest := by
  simp [visible, dropped]

theorem visible_kept (kept : c ∉ invisible) : visible (c :: rest) = c :: visible rest := by
  simp [visible, kept]

theorem Trails.kept (trails : Trails (c :: rest) whole seen) (kept : c ∉ invisible) :
    Trails rest (whole.step c) (seen.step c) := by
  cases trails with
  | level alike => exact .level (alike.step c)
  | ahead outside alike apart =>
      have notFurther : seen.mode.continues c = false := apart c (by rw [visible_kept kept]; rfl)
      exact .level ((alike.read c).trans (close_read outside notFurther))

theorem Trails.dropped (trails : Trails (c :: rest) whole seen) (dropped : c ∈ invisible)
    (taken : refuses whole.mode c = false)
    (together : (c == '\r' && (visible rest).head?.any whole.mode.continues) = false) :
    Trails rest (whole.step c) seen := by
  have sameRest : visible (c :: rest) = visible rest := visible_dropped dropped
  rcases read_dropped dropped taken with stays | ⟨outside, rfl⟩
  · cases trails with
    | level alike => exact .level (stays.trans alike)
    | ahead outside alike apart =>
        rw [sameRest] at apart
        exact .ahead outside (stays.trans alike) apart
  · cases trails with
    | level alike =>
        have seenOutside := alike.isOutside_eq.symm.trans outside
        refine .ahead seenOutside ((alike.read '\r').trans (read_space rfl seenOutside)) ?_
        intro next isNext
        rw [isNext] at together
        exact (alike.continues_eq next).symm.trans together
    | ahead seenOutside alike apart =>
        rw [sameRest] at apart
        exact .ahead seenOutside ((alike.read '\r').trans (close_read_space rfl seenOutside)) apart

/-- Over a whole entry the scanners stay together. -/
theorem Trails.scan (trails : Trails rest whole seen) (noFault : exposes whole rest = false)
    (together : parts whole rest = false) :
    Trails [] (whole.scan rest) (seen.scan (visible rest)) := by
  induction rest generalizing whole seen with
  | nil => exact trails
  | cons c rest ih =>
      simp only [exposes, Bool.or_eq_false_iff] at noFault
      simp only [parts, Bool.or_eq_false_iff] at together
      by_cases dropped : c ∈ invisible
      · have taken : refuses whole.mode c = false := by simpa [dropped] using noFault.1
        rw [visible_dropped dropped]
        exact ih (trails.dropped dropped taken together.1) noFault.2 together.2
      · rw [visible_kept dropped]
        exact ih (trails.kept dropped) noFault.2 together.2

end Prompt

/-! ## Whether an entry goes on -/

namespace Scanner

/-- Whether an entry goes on if the scanner has read it. -/
def goesOn (scanner : Scanner) : Bool :=
  match scanner.finish with
  | .ok tokens => 0 < Prompt.openBrackets tokens
  | .error (fault, _) => fault = .unterminatedString

variable {first second scanner : Scanner}

theorem openBrackets_of_outline {tokens tokens' : List Token}
    (same : tokens.map Token.outline = tokens'.map Token.outline) :
    Prompt.openBrackets tokens = Prompt.openBrackets tokens' := by
  have ofOutline (tokens : List Token) :
      Prompt.openBrackets (tokens.map Token.outline) = Prompt.openBrackets tokens := by
    unfold Prompt.openBrackets
    rw [List.foldl_map]
    rfl
  rw [← ofOutline tokens, same, ofOutline]

theorem Alike.inString (alike : first.Alike second) (inString : first.InString) :
    second.InString := by
  have mode := alike.mode
  unfold InString at *
  generalize first.mode = here, second.mode = there at mode inString
  cases here <;> cases there <;> trivial

theorem goesOn_inString (inString : scanner.InString) : scanner.goesOn = true := by
  rw [goesOn, inString.finish]
  rfl

/-- Alike scanners make the same of an entry that ends where they are. -/
theorem Alike.goesOn_eq (alike : first.Alike second) (patient : first.Patient)
    (patient' : second.Patient) : first.goesOn = second.goesOn := by
  by_cases inString : first.InString
  · rw [goesOn_inString inString, goesOn_inString (alike.inString inString)]
  have outside : ¬second.InString := mt alike.symm.inString inString
  unfold goesOn
  rcases alike.finish with ⟨found, found', finished, finished', same⟩ |
    ⟨⟨fault, place⟩, ⟨fault', place'⟩, faulty, faulty'⟩
  · rw [finished, finished']
    dsimp only
    rw [openBrackets_of_outline same]
  · rw [faulty, faulty']
    dsimp only
    rw [decide_eq_false (patient.fault_ne faulty inString),
      decide_eq_false (patient'.fault_ne faulty' outside)]

theorem goesOn_close (outside : scanner.mode.isOutside = true) :
    scanner.close.goesOn = scanner.goesOn := by
  unfold goesOn finish
  rw [close_close outside]

theorem Patient.close (patient : scanner.Patient) (outside : scanner.mode.isOutside = true) :
    scanner.close.Patient := by
  unfold Scanner.close
  cases mode : scanner.mode with
  | between => exact patient
  | opened first => exact scanner.emitChar_patient first
  | number digits | word letters => exact scanner.emit_patient _ _
  | _ =>
      rw [mode] at outside
      cases outside

end Scanner

namespace Prompt

theorem needsMore_eq (text : String) :
    needsMore text = (Scanner.initial.scan text.toList).goesOn :=
  rfl

variable {rest : List Char} {whole seen : Scanner}

theorem Trails.goesOn_eq (trails : Trails [] whole seen) (patient : whole.Patient)
    (patient' : seen.Patient) : whole.goesOn = seen.goesOn := by
  cases trails with
  | level alike => exact alike.goesOn_eq patient patient'
  | ahead outside alike _ =>
      calc whole.goesOn = seen.close.goesOn := alike.goesOn_eq patient (patient'.close outside)
        _ = seen.goesOn := goesOn_close outside

theorem needsMore_normalize {text : String} (noFault : exposes .initial text.toList = false)
    (together : parts .initial text.toList = false) :
    needsMore (normalize text) = needsMore text := by
  have begun : Trails text.toList .initial .initial := .level (.refl _)
  have isVisible : (normalize text).toList = visible text.toList := String.toList_ofList
  rw [needsMore_eq, needsMore_eq, isVisible]
  exact ((begun.scan noFault together).goesOn_eq (initial_patient.scan _)
    (initial_patient.scan _)).symm

/-- Behind a character that is a fault, nothing is waited for. -/
theorem goesOn_of_exposes (exposed : exposes whole rest = true) (patient : whole.Patient) :
    (whole.scan rest).goesOn = false := by
  induction rest generalizing whole with
  | nil => cases exposed
  | cons c rest ih =>
      have stillPatient : (whole.step c).Patient := (patient.read c).of_mode rfl
      simp only [exposes, Bool.or_eq_true, Bool.and_eq_true, List.contains_iff_mem] at exposed
      rcases exposed with ⟨dropped, refused⟩ | later
      · obtain ⟨fault, position, failed⟩ := read_refused dropped refused
        have failed : (whole.step c).mode = .failed fault position := failed
        have stays : ((whole.step c).scan rest).mode = .failed fault position := by
          rw [scan_failed failed]
          exact failed
        have otherFault : fault ≠ .unterminatedString := by
          rintro rfl
          exact stillPatient position failed
        rw [scan_cons, goesOn, finish_failed stays]
        exact decide_eq_false otherFault
      · exact ih later stillPatient

theorem needsMore_of_exposes {text : String} (exposed : exposes .initial text.toList = true) :
    needsMore text = false :=
  goesOn_of_exposes exposed initial_patient

/-! ## Carriage returns -/

def returnAsSpace (c : Char) : Char := if c = '\r' then ' ' else c

/-- The text with a space in place of each carriage return. -/
def spaced (text : String) : String := String.ofList (text.toList.map returnAsSpace)

theorem read_return (scanner : Scanner) : (scanner.read '\r').Alike (scanner.read ' ') := by
  cases outside : scanner.mode.isOutside with
  | true => exact (read_space rfl outside).trans (read_space rfl outside).symm
  | false =>
      cases isEscape : scanner.mode.isEscape with
      | true =>
          unfold Scanner.read
          cases mode : scanner.mode with
          | escape content backslash => exact alike_of_parts rfl rfl
          | _ =>
              rw [mode] at isEscape
              cases isEscape
      | false =>
          have asReturn : (scanner.read '\r').Alike scanner :=
            read_inside outside isEscape (by decide) (by decide) (by decide) (by decide)
          have asSpace : (scanner.read ' ').Alike scanner :=
            read_inside outside isEscape (by decide) (by decide) (by decide) (by decide)
          exact asReturn.trans asSpace.symm

theorem step_spaced (alike : whole.Alike seen) (c : Char) :
    (whole.step c).Alike (seen.step (returnAsSpace c)) := by
  by_cases isReturn : c = '\r'
  · rw [returnAsSpace, if_pos isReturn, isReturn]
    exact (alike.read '\r').trans (read_return seen)
  · rw [returnAsSpace, if_neg isReturn]
    exact alike.step c

theorem scan_spaced (alike : whole.Alike seen) (chars : List Char) :
    (whole.scan chars).Alike (seen.scan (chars.map returnAsSpace)) := by
  induction chars generalizing whole seen with
  | nil => exact alike
  | cons c rest ih => exact ih (step_spaced alike c)

theorem exposes_spaced (alike : whole.Alike seen) (noFault : exposes whole rest = false) :
    exposes seen (rest.map returnAsSpace) = false := by
  induction rest generalizing whole seen with
  | nil => rfl
  | cons c rest ih =>
      simp only [exposes, Bool.or_eq_false_iff] at noFault
      rw [List.map_cons, exposes, Bool.or_eq_false_iff]
      constructor
      · by_cases isReturn : c = '\r'
        · rw [isReturn]
          rfl
        · have sameFault : refuses seen.mode c = refuses whole.mode c := by
            rw [refuses, refuses, alike.isEscape_eq, alike.isOutside_eq]
          rw [returnAsSpace, if_neg isReturn, sameFault]
          exact noFault.1
      · exact ih (step_spaced alike c) noFault.2

theorem parts_spaced (scanner : Scanner) (rest : List Char) :
    parts scanner (rest.map returnAsSpace) = false := by
  induction rest generalizing scanner with
  | nil => rfl
  | cons c rest ih =>
      have noReturn : (returnAsSpace c == '\r') = false := by
        unfold returnAsSpace
        split
        · rfl
        · next notReturn => exact beq_eq_false_iff_ne.mpr notReturn
      rw [List.map_cons, parts, noReturn, ih]
      rfl

/-- What the prompt makes of the text with spaces is what the key makes of the text itself. -/
theorem needsMore_spaced {text : String} (noFault : exposes .initial text.toList = false) :
    needsMore (normalize (spaced text)) = needsMore text := by
  have alike := scan_spaced (.refl .initial) text.toList
  have stillNoFault := exposes_spaced (.refl .initial) noFault
  have together := parts_spaced .initial text.toList
  have isSpaced : (spaced text).toList = text.toList.map returnAsSpace := String.toList_ofList
  rw [← isSpaced] at alike stillNoFault together
  rw [needsMore_normalize stillNoFault together]
  exact (alike.goesOn_eq (initial_patient.scan _) (initial_patient.scan _)).symm

/-! ## The key and the prompt -/

theorem enterActions_submit (text : String) :
    enterActions text = [.submit] ↔ beginsCommand text = true ∨ needsMore text = false := by
  unfold enterActions
  cases beginsCommand text <;> cases needsMore text <;> simp

/-- What begins with a slash is a command to the prompt as well. -/
theorem commandLine?_of_begins {text : String} (begins : beginsCommand text = true) :
    (commandLine? (normalize text)).isSome = true := by
  obtain ⟨rest, isText⟩ : ∃ rest, text.toList = '/' :: rest := by
    cases chars : text.toList with
    | nil => simp [beginsCommand, chars] at begins
    | cons first rest =>
        simp only [beginsCommand, chars, List.head?_cons, beq_iff_eq, Option.some.injEq] at begins
        exact ⟨rest, by rw [begins]⟩
  have isVisible : (normalize text).toList = '/' :: visible rest := by
    have kept : (normalize text).toList = visible text.toList := String.toList_ofList
    rw [kept, isText]
    exact visible_kept (by decide)
  have noBlanks : ∀ c ∈ ([] : List Char), Text.isBlank c = true := nofun
  have solid : ∀ c ∈ ['/'], Text.isBlank c = false := by
    simp only [List.mem_singleton, forall_eq]
    rfl
  obtain ⟨kept, trimmed⟩ :=
    Text.trimBlank_of_word noBlanks (List.cons_ne_nil '/' []) solid (visible rest)
  have isTrimmed : Text.trimBlank (normalize text).toList = '/' :: kept := by
    rw [isVisible]
    exact trimmed
  unfold commandLine?
  simp only [isTrimmed, List.head?_cons, if_true]
  rfl

/-- What Enter does with an entry, against what the prompt would make of it. An entry that begins
with a slash is a command, and is submitted. If every character that the prompt drops means as
little to the key, and no carriage return parts a token, the key submits exactly the commands and
the entries that do not go on, but for a command that does not begin with its slash: if its text
goes on, it is held back. In general the key takes a carriage return for a space, and submits any
entry in which another character that the prompt drops is a fault. -/
theorem enter_agrees (text : String) :
    let seen := normalize text
    let isCommand := (commandLine? seen).isSome = true
    let goesOn := needsMore seen = true
    let submits := enterActions text = [.submit]
    (beginsCommand text = true → isCommand ∧ submits) ∧
    (exposes .initial text.toList = false → parts .initial text.toList = false →
      ((isCommand → beginsCommand text = true ∨ ¬goesOn) → (submits ↔ isCommand ∨ ¬goesOn)) ∧
      (isCommand ∧ beginsCommand text = false ∧ goesOn → ¬submits)) ∧
    (exposes .initial text.toList = false →
      (submits ↔ beginsCommand text = true ∨ needsMore (normalize (spaced text)) = false)) ∧
    (exposes .initial text.toList = true → submits) := by
  intro seen isCommand goesOn submits
  have exactly : submits ↔ beginsCommand text = true ∨ needsMore text = false :=
    enterActions_submit text
  have commands (begins : beginsCommand text = true) : isCommand := commandLine?_of_begins begins
  refine ⟨fun begins => ⟨commands begins, exactly.mpr (.inl begins)⟩, fun noFault together => ?_,
    fun noFault => ?_, fun exposed => exactly.mpr (.inr (needsMore_of_exposes exposed))⟩
  · have stops : needsMore text = false ↔ ¬goesOn := by
      rw [← needsMore_normalize noFault together]
      exact Bool.eq_false_iff
    rw [stops] at exactly
    constructor
    · intro inFront
      rw [exactly]
      constructor
      · exact Or.imp_left commands
      · rintro (command | ended)
        · exact inFront command
        · exact .inr ended
    · rintro ⟨-, noSlash, waits⟩ submitted
      rcases exactly.mp submitted with begins | ended
      · rw [noSlash] at begins
        cases begins
      · exact ended waits
  · rw [needsMore_spaced noFault]
    exact exactly

/-- A call with a zero-width space in a string and a carriage return at the end of its first line.
-/
theorem enter_agrees_call :
    let text := "f(\"a\u200bb\",\r\n"
    exposes .initial text.toList = false ∧ parts .initial text.toList = false ∧
      (enterActions text = [.submit] ↔
        (commandLine? (normalize text)).isSome = true ∨ ¬needsMore (normalize text) = true) ∧
      enterActions text = [.insert "\n    "] := by
  intro text
  have noFault : exposes .initial "f(\"a\u200bb\",\r\n".toList = false := by decide +kernel
  have together : parts .initial "f(\"a\u200bb\",\r\n".toList = false := by decide +kernel
  have noCommand : commandLine? (normalize "f(\"a\u200bb\",\r\n") = none := by decide +kernel
  have inserts : enterActions "f(\"a\u200bb\",\r\n" = [.insert "\n    "] := by decide +kernel
  obtain ⟨-, agrees, -⟩ := enter_agrees "f(\"a\u200bb\",\r\n"
  obtain ⟨submits, -⟩ := agrees noFault together
  refine ⟨noFault, together, submits fun isCommand => ?_, inserts⟩
  rw [noCommand] at isCommand
  cases isCommand

/-- A command with a blank in front and an open bracket behind is held back, and a string behind a
byte order mark is submitted before it is closed. -/
theorem enter_disagrees :
    (commandLine? (normalize " /clear (")).isSome = true ∧
      enterActions " /clear (" = [.insert "\n    "] ∧
      needsMore (normalize "\ufeff\"abc") = true ∧ commandLine? (normalize "\ufeff\"abc") = none ∧
      enterActions "\ufeff\"abc" = [.submit] := by
  decide +kernel

end Prompt

end Monkey
